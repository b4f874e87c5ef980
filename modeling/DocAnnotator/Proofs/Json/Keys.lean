import DocAnnotator.Json.Read
import DocAnnotator.Proofs.Json.Merge

/-! ## What is read has distinct keys

    A reader puts each member of an object over those that it has read before, so an object that is
    read gives every key once, at every depth.

    - `Yields`: whatever a reader reads has a property.
    - `reader_distinct`: the readers of values and of members, by induction on their fuel.
    - `read_distinct`: the value of a whole text.
-/

namespace DocAnnotator.Json

/-- Whatever is read has the property. -/
def Yields {α : Type} (P : α → Prop) : Except ReadFault (α × Points) → Prop
  | .ok (a, _) => P a
  | .error _ => True

section Yields

variable {α β : Type} {P : α → Prop} {Q : β → Prop} {r : Except ReadFault (α × Points)}

theorem Yields.map {f : α → β} (h : Yields P r) (hf : ∀ a, P a → Q (f a)) :
    Yields Q (r.map fun (a, rest) => (f a, rest)) := by
  match r, h with
  | .ok (a, _), h => exact hf a h
  | .error _, _ => trivial

theorem Yields.bind {f : α × Points → Except ReadFault (β × Points)} (h : Yields P r)
    (hf : ∀ a rest, P a → Yields Q (f (a, rest))) : Yields Q (r >>= f) := by
  match r, h with
  | .ok (a, rest), h => exact hf a rest h
  | .error _, _ => trivial

theorem yields_true : Yields (fun _ => True) r := by
  match r with
  | .ok _ => trivial
  | .error _ => trivial

end Yields

theorem scalar_distinct (s : Points) : Yields Distinct (scalar s) := by
  unfold scalar
  extract_lets words
  split
  next result hword =>
    obtain ⟨⟨word, value⟩, hmem, hafter⟩ := List.exists_of_findSome?_eq_some hword
    obtain ⟨rest, -, rfl⟩ := Option.map_eq_some_iff.1 hafter
    have hwords : ∀ entry ∈ words, entry.2.Distinct := by
      simp [words, Distinct]
    exact hwords _ hmem
  next => exact yields_true.map fun _ _ => trivial

/-- A value that is read has distinct keys, and so have the members of an object, if those that
    were read before have. -/
theorem reader_distinct (fuel : Nat) :
    (∀ s, Yields Distinct (value fuel s)) ∧
      ∀ seen s, seen.Distinct → Yields Fields.Distinct (members fuel seen s) := by
  induction fuel with
  | zero =>
    refine ⟨?_, ?_⟩
    · intro s
      rw [value]
      trivial
    · intro seen s _
      rw [members]
      trivial
  | succ fuel ih =>
    obtain ⟨hvalue, hmembers⟩ := ih
    refine ⟨?_, ?_⟩
    · intro s
      unfold value
      split
      next hzero => cases hzero
      next => exact yields_true.map fun _ _ => trivial
      next =>
        split
        · trivial
        · exact yields_true.map fun _ _ => trivial
      next n t hfuel =>
        obtain rfl := Nat.succ.inj hfuel
        split
        · trivial
        · exact (hmembers [] _ trivial).map fun _ hfields => hfields
      next => exact scalar_distinct _
    · intro seen s hseen
      unfold members
      split
      next hzero => cases hzero
      next n t hfuel =>
        obtain rfl := Nat.succ.inj hfuel
        apply (yields_true (r := quotedString t)).bind
        intro key rest _
        dsimp only
        split
        next rest' _ =>
          apply (hvalue _).bind
          intro v last hv
          -- the member goes over the one of the same key, if there is one
          have hput := hseen.put key.text hv
          dsimp only
          split
          · exact hput
          · exact hmembers _ _ hput
          · trivial
        next => trivial
      next => trivial

theorem readPoints_distinct {s : Points} {v : Json} (h : readPoints s = .ok v) : v.Distinct := by
  have hyields := (reader_distinct (2 * s.length + 2)).1 (skipGap s)
  unfold readPoints at h
  cases hvalue : value (2 * s.length + 2) (skipGap s) with
  | error fault =>
    rw [hvalue] at h
    cases h
  | ok result =>
    rw [hvalue] at h hyields
    change (if (skipGap result.2).isEmpty then Except.ok result.1
      else .error ReadFault.malformed) = _ at h
    split at h
    · obtain rfl := Except.ok.inj h
      exact hyields
    · cases h

/-- The value that a whole text denotes has distinct keys. -/
theorem read_distinct {s : Text} {v : Json} (h : read s = .ok v) : v.Distinct :=
  readPoints_distinct h

end DocAnnotator.Json
