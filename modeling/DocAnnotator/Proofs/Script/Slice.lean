import DocAnnotator.Proofs.Script.Splice

/-! ## Where bytes go

    Where a stretch of the source and an inserted text stand in the spliced bytes, in terms of the
    insertions made before them.

    - `made`: insertions in source order, made from the last to the first.
    - `applyAll_eq_made`: with distinct offsets, that is what splicing does.
    - `made_slice`: a stretch that no insertion cuts moves by what is inserted before it.
    - `made_text`: an inserted text stands at its offset, moved by what is inserted before it.
-/

namespace DocAnnotator.Insertion

/-- The bytes of a source with insertions made, the last one of the list first. -/
def made (source : Bytes) (insertions : List Insertion) : Bytes :=
  insertions.foldr (fun i bytes => apply bytes i) source

/-- How many bytes insertions add. -/
def size (insertions : List Insertion) : Nat :=
  (insertions.map fun i => (Utf8.encode i.text).length).sum

@[simp] theorem size_nil : size [] = 0 := rfl

@[simp] theorem size_cons (i : Insertion) (rest : List Insertion) :
    size (i :: rest) = (Utf8.encode i.text).length + size rest := rfl

@[simp] theorem size_append (first second : List Insertion) :
    size (first ++ second) = size first + size second := by
  simp [size]

@[simp] theorem made_cons (source : Bytes) (i : Insertion) (rest : List Insertion) :
    made source (i :: rest) = apply (made source rest) i := rfl

/-- Insertions at distinct offsets are made from the last to the first in source order. -/
theorem applyAll_eq_made {source : Bytes} {insertions sorted : List Insertion}
    (hsorted : sorted.Pairwise fun a b => a.offset ≤ b.offset)
    (hdistinct : (sorted.map (·.offset)).Nodup) (hperm : sorted.Perm insertions) :
    applyAll source insertions = made source sorted := by
  have hreverse : sorted.reverse.Pairwise NotBefore := List.pairwise_reverse.2 hsorted
  have horder : descending insertions = sorted.reverse :=
    descending_eq_of_perm hreverse ((hperm.map _).nodup_iff.1 hdistinct)
      (sorted.reverse_perm.trans hperm)
  rw [applyAll, horder, List.foldl_reverse]
  rfl

theorem length_apply (bytes : Bytes) (i : Insertion) :
    (apply bytes i).length = bytes.length + (Utf8.encode i.text).length := by
  simp only [apply, List.length_append, List.length_take, List.length_drop]
  omega

theorem length_made (source : Bytes) (insertions : List Insertion) :
    source.length ≤ (made source insertions).length := by
  induction insertions with
  | nil => exact Nat.le_refl _
  | cons i rest ih =>
    rw [made_cons, length_apply]
    omega

/-- What stands before all insertions stays where it is. -/
theorem take_made {source : Bytes} {insertions : List Insertion} {n : Nat}
    (hn : n ≤ source.length) (h : ∀ i ∈ insertions, n ≤ i.offset) :
    (made source insertions).take n = source.take n := by
  induction insertions with
  | nil => rfl
  | cons i rest ih =>
    -- the insertion made last goes behind the first `n` bytes
    have hlength := Nat.le_trans hn (length_made source rest)
    have hi := h i List.mem_cons_self
    rw [made_cons, apply, List.append_assoc, List.take_append_of_le_length, List.take_take,
      Nat.min_eq_left hi, ih fun j hj => h j (List.mem_cons_of_mem _ hj)]
    rw [List.length_take]
    omega

/-- What stands behind insertions moves by what they add. -/
theorem drop_made {source : Bytes} {first : List Insertion} (second : List Insertion) {n : Nat}
    (hn : n ≤ source.length) (h : ∀ i ∈ first, i.offset ≤ n) :
    (made source (first ++ second)).drop (n + size first) = (made source second).drop n := by
  induction first with
  | nil => rfl
  | cons i rest ih =>
    have hi := h i List.mem_cons_self
    have hlength := Nat.le_trans hn (length_made source (rest ++ second))
    -- skip the bytes before the insertion and the inserted text
    have hskip : (List.take i.offset (made source (rest ++ second)) ++
        Utf8.encode i.text).length = i.offset + (Utf8.encode i.text).length := by
      rw [List.length_append, List.length_take]
      omega
    have hsplit : n + size (i :: rest) =
        (i.offset + (Utf8.encode i.text).length) + (n + size rest - i.offset) := by
      rw [size_cons]
      omega
    rw [List.cons_append, made_cons, apply, hsplit, ← hskip, List.drop_length_add_append,
      List.drop_drop, Nat.add_sub_cancel' (by omega), ih fun j hj => h j (List.mem_cons_of_mem _ hj)]

/-- A stretch of the source that no insertion cuts. -/
theorem made_slice {source : Bytes} {first second : List Insertion} {a b : Nat} (hab : a ≤ b)
    (hb : b ≤ source.length) (hfirst : ∀ i ∈ first, i.offset ≤ a)
    (hsecond : ∀ i ∈ second, b ≤ i.offset) :
    ((made source (first ++ second)).take (b + size first)).drop (a + size first) =
      (source.take b).drop a := by
  have hdrop := drop_made second (Nat.le_trans hab hb) hfirst
  rw [List.drop_take, hdrop, ← take_made hb hsecond, List.drop_take, Nat.add_sub_add_right]

/-- An inserted text, behind what is inserted before it. -/
theorem made_text {source : Bytes} {first : List Insertion} (second : List Insertion)
    {i : Insertion} (n : Nat)
    (hi : i.offset ≤ source.length) (hfirst : ∀ j ∈ first, j.offset ≤ i.offset)
    (hn : n ≤ (Utf8.encode i.text).length) :
    ((made source (first ++ i :: second)).take (i.offset + size first + n)).drop
        (i.offset + size first) = (Utf8.encode i.text).take n := by
  have hlength := Nat.le_trans hi (length_made source second)
  rw [List.drop_take, drop_made _ hi hfirst, made_cons, apply, List.append_assoc,
    List.drop_left' (by rw [List.length_take]; omega), Nat.add_sub_cancel_left,
    List.take_append_of_le_length hn]

end DocAnnotator.Insertion
