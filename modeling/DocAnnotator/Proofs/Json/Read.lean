import DocAnnotator.Json.Read
import Mathlib.Data.List.Basic

/-! ## What stops a reader

    Every reader leaves a suffix of its code points, and the only fault that it can name, an integer
    of too many digits, stands in them.

    - `Stays`: a reader leaves a suffix of its code points, or names a fault that stands in them.
    - `Stays.map`, `Stays.bind`, `Stays.mono`: readers that stay can be put together.
    - `reader_stays`: all readers of values stay, by induction on their fuel.
    - `read_integerTooLong`: a text that is refused for an integer holds that many digits in a row.
-/

namespace DocAnnotator.Json

/-- A run of `n` decimal digits stands in a text. -/
def HoldsDigits (n : Nat) (s : Text) : Prop :=
  ∃ run : Text, run <:+: s ∧ run.length = n ∧ ∀ c ∈ run, c.isDigit = true

/-- A run of `n` decimal digits stands among code points. -/
def PointsHold (n : Nat) (s : Points) : Prop :=
  ∃ run : Text, run.points <:+: s ∧ run.length = n ∧ ∀ c ∈ run, c.isDigit = true

/-- A reader over `s` leaves a suffix of it, or names an integer that stands in it. -/
def Stays {α : Type} (s : Points) : Except ReadFault (α × Points) → Prop
  | .ok (_, rest) => rest <:+ s
  | .error .malformed => True
  | .error (.integerTooLong n) => maxDigits < n ∧ PointsHold n s

theorem PointsHold.mono {n : Nat} {s t : Points} (h : PointsHold n t) (hts : t <:+ s) :
    PointsHold n s := by
  obtain ⟨run, hrun, hlength, hdigits⟩ := h
  exact ⟨run, hrun.trans hts.isInfix, hlength, hdigits⟩

/-- What stands among the code points of a text stands in the text. -/
theorem PointsHold.holdsDigits {n : Nat} {s : Text} (h : PointsHold n s.points) :
    HoldsDigits n s := by
  obtain ⟨run, ⟨before, after, happend⟩, hlength, hdigits⟩ := h
  obtain ⟨front, back, rfl, hfront, -⟩ := List.append_eq_map_iff.1 happend
  obtain ⟨head, run', rfl, -, hrun⟩ := List.append_eq_map_iff.1 hfront.symm
  have hinjective : Function.Injective Point.char := fun _ _ h => Point.char.inj h
  obtain rfl : run' = run := List.map_injective_iff.2 hinjective hrun
  exact ⟨run', ⟨head, back, rfl⟩, hlength, hdigits⟩

/-! ### Readers put together -/

section Stays

variable {α β : Type} {s t : Points} {r : Except ReadFault (α × Points)}

theorem Stays.mono (h : Stays t r) (hts : t <:+ s) : Stays s r := by
  match r, h with
  | .ok (_, rest), h => exact List.IsSuffix.trans h hts
  | .error .malformed, _ => trivial
  | .error (.integerTooLong n), h => exact ⟨h.1, h.2.mono hts⟩

theorem Stays.map (h : Stays s r) (f : α → β) : Stays s (r.map fun (a, rest) => (f a, rest)) := by
  match r, h with
  | .ok (_, rest), h => exact h
  | .error .malformed, _ => trivial
  | .error (.integerTooLong n), h => exact h

/-- A reader that goes on where another has stopped stays too. -/
theorem Stays.bind {f : α × Points → Except ReadFault (β × Points)} (h : Stays s r)
    (hf : ∀ a rest, rest <:+ s → Stays s (f (a, rest))) : Stays s (r >>= f) := by
  match r, h with
  | .ok (a, rest), h => exact hf a rest h
  | .error .malformed, _ => trivial
  | .error (.integerTooLong n), h => exact h

end Stays

theorem skipGap_suffix (s : Points) : skipGap s <:+ s := List.dropWhile_suffix _

theorem suffix_of_skipGap {s rest : Points} {p : Point} (h : skipGap s = p :: rest) : rest <:+ s := by
  have hsuffix := skipGap_suffix s
  rw [h] at hsuffix
  exact (List.suffix_cons p rest).trans hsuffix

/-! ### Strings -/

theorem hexUnit?_suffix {s rest : Points} {n : Nat} (h : hexUnit? s = some (n, rest)) :
    rest <:+ s := by
  unfold hexUnit? at h
  split at h
  next a b c d t =>
    simp only [Option.bind_eq_bind, Option.bind_eq_some_iff] at h
    obtain ⟨_, -, _, -, _, -, _, -, h⟩ := h
    obtain ⟨-, rfl⟩ := Prod.mk.inj (Option.some.inj h)
    exact ⟨[.char a, .char b, .char c, .char d], rfl⟩
  next => cases h

theorem unicodeEscape?_suffix {s rest : Points} {p : Point}
    (h : unicodeEscape? s = some (p, rest)) : rest <:+ s := by
  unfold unicodeEscape? at h
  simp only [Option.bind_eq_bind, Option.bind_eq_some_iff] at h
  obtain ⟨⟨high, t⟩, hhigh, h⟩ := h
  have ht := hexUnit?_suffix hhigh
  have hkept {p' : Point} (h : some (p', t) = some (p, rest)) : rest <:+ s := by
    obtain ⟨-, rfl⟩ := Prod.mk.inj (Option.some.inj h)
    exact ht
  dsimp only at h ht hkept
  split at h
  · split at h
    next u _ =>
      split at h
      next low v hlow =>
        split at h
        · -- the second half of a pair is read too
          obtain ⟨-, rfl⟩ := Prod.mk.inj (Option.some.inj h)
          have hu : u <:+ .char '\\' :: .char 'u' :: u := ⟨[.char '\\', .char 'u'], rfl⟩
          exact ((hexUnit?_suffix hlow).trans hu).trans ht
        · exact hkept h
      next => exact hkept h
    next => exact hkept h
  · exact hkept h

theorem string?_suffix {fuel : Nat} {s t rest : Points} (h : string? fuel s = some (t, rest)) :
    rest <:+ s := by
  fun_induction string? fuel s generalizing t rest with
  | case1 => cases h
  | case2 => cases h
  | case3 fuel s =>
    obtain ⟨-, rfl⟩ := Prod.mk.inj (Option.some.inj h)
    exact List.suffix_cons _ _
  | case4 fuel s ih =>
    simp only [Option.bind_eq_bind, Option.bind_eq_some_iff] at h
    obtain ⟨⟨c, u⟩, hc, ⟨v, w⟩, hv, h⟩ := h
    obtain ⟨-, rfl⟩ := Prod.mk.inj (Option.some.inj h)
    have hs : s <:+ .char '\\' :: .char 'u' :: s := ⟨[.char '\\', .char 'u'], rfl⟩
    exact ((ih u hv).trans (unicodeEscape?_suffix hc)).trans hs
  | case5 fuel e s _ ih =>
    simp only [Option.bind_eq_bind, Option.bind_eq_some_iff] at h
    obtain ⟨c, -, ⟨v, w⟩, hv, h⟩ := h
    obtain ⟨-, rfl⟩ := Prod.mk.inj (Option.some.inj h)
    exact (ih hv).trans ⟨[.char '\\', e], rfl⟩
  | case6 => cases h
  | case7 fuel c s _ _ _ _ ih =>
    simp only [Option.bind_eq_bind, Option.bind_eq_some_iff] at h
    obtain ⟨⟨v, w⟩, hv, h⟩ := h
    obtain ⟨-, rfl⟩ := Prod.mk.inj (Option.some.inj h)
    exact (ih hv).trans (List.suffix_cons c s)

theorem quotedString_stays (s : Points) : Stays s (quotedString s) := by
  unfold quotedString
  split
  next h => exact string?_suffix h
  next => trivial

/-! ### Numbers -/

theorem exponent?_suffix {s rest : Points} {e : Int} (h : exponent? s = some (e, rest)) :
    rest <:+ s := by
  unfold exponent? at h
  split at h
  next c t =>
    split at h
    · split at h
      next negative u hu =>
        -- the sign, if there is one, stands before the digits
        have hsign : u <:+ t := by
          split at hu
          · obtain ⟨-, rfl⟩ := Prod.mk.inj hu
            exact List.suffix_cons _ _
          · obtain ⟨-, rfl⟩ := Prod.mk.inj hu
            exact List.suffix_cons _ _
          · obtain ⟨-, rfl⟩ := Prod.mk.inj hu
            exact List.suffix_rfl
        simp only [] at h
        split at h
        · cases h
        · obtain ⟨-, rfl⟩ := Prod.mk.inj (Option.some.inj h)
          exact ((List.dropWhile_suffix _).trans hsign).trans (List.suffix_cons c t)
    · cases h
  next => cases h

theorem fraction?_suffix {s rest : Points} {digits : Text} (h : fraction? s = some (digits, rest)) :
    rest <:+ s := by
  unfold fraction? at h
  split at h
  next t =>
    split at h
    · cases h
    · obtain ⟨-, rfl⟩ := Prod.mk.inj (Option.some.inj h)
      exact (List.dropWhile_suffix _).trans (List.suffix_cons _ _)
  next => cases h

/-- The digits at the start stand there. -/
theorem digits_prefix (s : Points) :
    (digits s).points <+: s ∧ ∀ c ∈ digits s, c.isDigit = true := by
  unfold digits
  induction s with
  | nil => exact ⟨List.nil_prefix, by simp⟩
  | cons p s ih =>
    cases p with
    | half => exact ⟨List.nil_prefix, by simp [Point.isDigit]⟩
    | char c =>
      cases hc : c.isDigit with
      | false => exact ⟨by simp [Point.isDigit, hc, Text.points], by simp [Point.isDigit, hc]⟩
      | true =>
        simpa [Point.isDigit, hc, Text.points, Point.toChar] using ih

/-- So do the digits that a number starts with. -/
theorem leadingDigits_prefix (s : Points) :
    (leadingDigits s).points <+: s ∧ ∀ c ∈ leadingDigits s, c.isDigit = true := by
  unfold leadingDigits
  split
  next t => exact ⟨⟨t, rfl⟩, List.forall_mem_singleton.2 rfl⟩
  next => exact digits_prefix _

theorem magnitude_stays (negative : Bool) (s : Points) : Stays s (magnitude negative s) := by
  unfold magnitude
  extract_lets digits left sign
  have hdigits : digits.points <+: s ∧ ∀ c ∈ digits, c.isDigit = true := leadingDigits_prefix s
  have hleft : left <:+ s := List.drop_suffix _ _
  clear_value digits left
  split
  · trivial
  · split
    · split
      next hlong => exact ⟨hlong, digits, hdigits.1.isInfix, rfl, hdigits.2⟩
      next => exact hleft
    next hexponent => exact (exponent?_suffix hexponent).trans hleft
    next hfraction =>
      have hrest := (fraction?_suffix hfraction).trans hleft
      extract_lets m
      split
      · exact hrest
      next hexponent => exact (exponent?_suffix hexponent).trans hrest

theorem word?_suffix {word : Text} {s rest : Points} (h : word? word s = some rest) :
    rest <:+ s := by
  fun_induction word? word s with
  | case1 s =>
    obtain rfl := Option.some.inj h
    exact List.suffix_rfl
  | case2 c word s ih => exact (ih h).trans (List.suffix_cons _ _)
  | case3 => cases h
  | case4 => cases h

theorem scalar_stays (s : Points) : Stays s (scalar s) := by
  unfold scalar
  simp only []
  split
  next result hword =>
    obtain ⟨⟨word, value⟩, -, hafter⟩ := List.exists_of_findSome?_eq_some hword
    obtain ⟨rest, hrest, rfl⟩ := Option.map_eq_some_iff.1 hafter
    exact word?_suffix hrest
  next =>
    apply Stays.map
    split
    next t _ => exact (magnitude_stays true t).mono (List.suffix_cons _ _)
    next => exact magnitude_stays false _

/-! ### Values -/

/-- All readers of values stay: each reads on where the one before has stopped. -/
theorem reader_stays (fuel : Nat) :
    (∀ s, Stays s (value fuel s)) ∧ (∀ s, Stays s (items fuel s)) ∧
      ∀ seen s, Stays s (members fuel seen s) := by
  induction fuel with
  | zero =>
    refine ⟨?_, ?_, ?_⟩
    · intro s
      rw [value]
      trivial
    · intro s
      rw [items]
      trivial
    · intro seen s
      rw [members]
      trivial
  | succ fuel ih =>
    obtain ⟨hvalue, hitems, hmembers⟩ := ih
    refine ⟨?_, ?_, ?_⟩
    · intro s
      unfold value
      split
      next hzero => cases hzero
      next t _ => exact ((quotedString_stays t).map _).mono (List.suffix_cons _ _)
      next n t hfuel =>
        obtain rfl := Nat.succ.inj hfuel
        split
        next rest hclose => exact (suffix_of_skipGap hclose).trans (List.suffix_cons _ _)
        next =>
          exact ((hitems _).map _).mono ((skipGap_suffix t).trans (List.suffix_cons _ _))
      next n t hfuel =>
        obtain rfl := Nat.succ.inj hfuel
        split
        next rest hclose => exact (suffix_of_skipGap hclose).trans (List.suffix_cons _ _)
        next =>
          exact ((hmembers _ _).map _).mono ((skipGap_suffix t).trans (List.suffix_cons _ _))
      next => exact scalar_stays _
    · intro s
      unfold items
      apply (hvalue s).bind
      intro item rest hrest
      dsimp only
      split
      next rest' hclose => exact (suffix_of_skipGap hclose).trans hrest
      next rest' hcomma =>
        have hnext := (skipGap_suffix rest').trans ((suffix_of_skipGap hcomma).trans hrest)
        apply ((hitems _).mono hnext).bind
        intro more last hlast
        exact hlast
      next => trivial
    · intro seen s
      unfold members
      split
      next hzero => cases hzero
      next n seen t hfuel =>
        obtain rfl := Nat.succ.inj hfuel
        have ht := List.suffix_cons (.char '"') t
        apply ((quotedString_stays t).mono ht).bind
        intro key rest hrest
        dsimp only
        split
        next rest' hcolon =>
          have hnext := (skipGap_suffix rest').trans ((suffix_of_skipGap hcolon).trans hrest)
          apply ((hvalue _).mono hnext).bind
          intro v last hlast
          dsimp only
          split
          next rest'' hclose => exact (suffix_of_skipGap hclose).trans hlast
          next rest'' hcomma =>
            have hmore := (skipGap_suffix rest'').trans ((suffix_of_skipGap hcomma).trans hlast)
            exact (hmembers _ _).mono hmore
          next => trivial
        next => trivial
      next => trivial

theorem readPoints_integerTooLong {s : Points} {n : Nat}
    (h : readPoints s = .error (.integerTooLong n)) : maxDigits < n ∧ PointsHold n s := by
  have hstays := ((reader_stays (2 * s.length + 2)).1 (skipGap s)).mono (skipGap_suffix s)
  unfold readPoints at h
  cases hvalue : value (2 * s.length + 2) (skipGap s) with
  | error fault =>
    rw [hvalue] at h hstays
    obtain rfl : fault = .integerTooLong n := Except.error.inj h
    exact hstays
  | ok result =>
    -- a value with something behind it is malformed
    rw [hvalue] at h
    change (if (skipGap result.2).isEmpty then Except.ok result.1
      else .error ReadFault.malformed) = _ at h
    split at h <;> cases h

/-- A text that is refused for an integer holds that many digits in a row. -/
theorem read_integerTooLong {s : Text} {n : Nat} (h : read s = .error (.integerTooLong n)) :
    maxDigits < n ∧ HoldsDigits n s :=
  (readPoints_integerTooLong h).imp_right PointsHold.holdsDigits

end DocAnnotator.Json
