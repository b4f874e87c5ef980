import DocAnnotator.Proofs.Comment.LineEnds
import DocAnnotator.Proofs.Script.Merge
import DocAnnotator.Proofs.Script.Slice

/-! ## What stands in front of an offset

    A pass over a source puts texts in front of its bytes. Up to the byte at an offset it is the pass
    over what stands in front of that byte, and it ends in the text for the offset.

    - `exists_textAt`: the text for an offset ends in one of the texts given for it.
    - `movedTo`: where the byte at an offset stands after the insertions.
    - `merge_at`: what the pass puts in front of it.
    - `paired_mergeFrom`: a pass keeps line feeds behind carriage returns.
-/

namespace DocAnnotator.Insertion

/-! ### The text for an offset -/

theorem textAt_append (first second : List Insertion) (offset : Nat) :
    textAt (first ++ second) offset = textAt second offset ++ textAt first offset := by
  simp [textAt]

/-- The text for an offset ends in one of the texts that are given for it. -/
theorem exists_textAt {insertions : List Insertion} {i : Insertion} (hi : i ∈ insertions) :
    ∃ j ∈ insertions, j.offset = i.offset ∧ ∃ s, textAt insertions i.offset = s ++ j.text := by
  induction insertions with
  | nil => cases hi
  | cons first rest ih =>
    by_cases hfirst : first.offset = i.offset
    · refine ⟨first, List.mem_cons_self, hfirst, textAt rest i.offset, ?_⟩
      rw [← hfirst, textAt_cons_self]
    · have hrest : i ∈ rest := by
        rcases List.mem_cons.1 hi with rfl | hrest
        · exact absurd rfl hfirst
        · exact hrest
      obtain ⟨j, hj, hoffset, s, hs⟩ := ih hrest
      exact ⟨j, List.mem_cons_of_mem _ hj, hoffset, s, by rw [textAt_cons_of_ne hfirst, hs]⟩

/-- With distinct offsets nothing else is inserted where an insertion is. -/
theorem textAt_of_distinct {first second : List Insertion} {i : Insertion}
    (h : ((first ++ i :: second).map (·.offset)).Nodup) : textAt first i.offset = [] := by
  refine textAt_eq_nil fun j hj hsame => ?_
  rw [List.map_append, List.nodup_append] at h
  exact h.2.2 j.offset (List.mem_map_of_mem hj) i.offset (by simp) hsame

/-- What can be put together and holds of all inserted texts holds of the text for an offset. -/
theorem textAt_bytes {Q : Bytes → Prop} (hnil : Q []) (happend : ∀ x y, Q x → Q y → Q (x ++ y))
    {insertions : List Insertion} (h : ∀ i ∈ insertions, Q (Utf8.encode i.text)) (offset : Nat) :
    Q (Utf8.encode (textAt insertions offset)) := by
  induction insertions with
  | nil => exact hnil
  | cons i rest ih =>
    have hrest := ih fun j hj => h j (List.mem_cons_of_mem _ hj)
    by_cases hi : i.offset = offset
    · rw [← hi] at hrest ⊢
      rw [textAt_cons_self, Utf8.encode_append]
      exact happend _ _ hrest (h i List.mem_cons_self)
    · rwa [textAt_cons_of_ne hi]

/-! ### The pass up to an offset -/

/-- A pass up to a byte is the pass over what stands in front of it. -/
theorem mergeFrom_append_cons (texts : Nat → Text) (position : Nat) (front : Bytes) (b : UInt8)
    (rest : Bytes) : mergeFrom texts position (front ++ b :: rest) =
      mergeFrom texts position front ++
        b :: mergeFrom texts (position + front.length + 1) rest := by
  induction front generalizing position with
  | nil => rfl
  | cons c front ih =>
    rw [List.cons_append, mergeFrom, ih, mergeFrom, List.length_cons]
    simp [Nat.add_assoc, Nat.add_comm 1]

/-- A pass ends in the text for the end. -/
theorem exists_mergeFrom (texts : Nat → Text) (position : Nat) (bytes : Bytes) :
    ∃ before, mergeFrom texts position bytes =
      before ++ Utf8.encode (texts (position + bytes.length)) := by
  induction bytes generalizing position with
  | nil => exact ⟨[], rfl⟩
  | cons b rest ih =>
    obtain ⟨before, hbefore⟩ := ih (position + 1)
    rw [Nat.add_assoc, Nat.add_comm 1] at hbefore
    exact ⟨Utf8.encode (texts position) ++ b :: before, by rw [mergeFrom, hbefore]; simp⟩

theorem mergeFrom_congr {texts texts' : Nat → Text} {position : Nat} {bytes : Bytes}
    (h : ∀ offset, offset ≤ position + bytes.length → texts offset = texts' offset) :
    mergeFrom texts position bytes = mergeFrom texts' position bytes := by
  induction bytes generalizing position with
  | nil => rw [mergeFrom, mergeFrom, h position (Nat.le_refl _)]
  | cons b rest ih =>
    have hrest : mergeFrom texts (position + 1) rest = mergeFrom texts' (position + 1) rest :=
      ih fun offset hoffset => h offset (by rw [List.length_cons]; omega)
    rw [mergeFrom, mergeFrom, hrest, h position (Nat.le_add_right _ _)]

theorem length_foldl_apply (sorted : List Insertion) (bytes : Bytes) :
    (sorted.foldl apply bytes).length = bytes.length + size sorted := by
  induction sorted generalizing bytes with
  | nil => rfl
  | cons i sorted ih => rw [List.foldl_cons, ih, length_apply, size_cons, Nat.add_assoc]

/-- Splicing adds the bytes of all insertions. -/
theorem length_applyAll (source : Bytes) (insertions : List Insertion) :
    (applyAll source insertions).length = source.length + size insertions := by
  have hsize : size (descending insertions) = size insertions :=
    ((descending_perm insertions).map _).sum_nat
  rw [applyAll, length_foldl_apply, hsize]

/-- Where the byte at an offset of the source stands after the insertions. -/
def movedTo (insertions : List Insertion) (offset : Nat) : Nat :=
  offset + size (insertions.filter (·.offset ≤ offset))

theorem length_merge (front : Bytes) (insertions : List Insertion) :
    (merge front insertions).length = movedTo insertions front.length := by
  have hsame : merge front insertions =
      merge front (insertions.filter (·.offset ≤ front.length)) := by
    refine mergeFrom_congr fun offset hoffset => ?_
    rw [Nat.zero_add] at hoffset
    have hfilter : insertions.filter (·.offset == offset) =
        (insertions.filter (·.offset ≤ front.length)).filter (·.offset == offset) := by
      rw [List.filter_filter]
      refine List.filter_congr fun i _ => ?_
      by_cases hi : i.offset = offset
      · simp [hi, hoffset]
      · simp [hi]
    rw [textAt, hfilter, textAt]
  rw [hsame, ← applyAll_eq_merge, length_applyAll, movedTo]
  intro i hi
  simpa using (List.mem_filter.1 hi).2

/-- The pass over a source puts the byte at an offset, and the pass over what stands in front of it
    before that byte. -/
theorem merge_at {source : Bytes} {offset : Nat} (h : offset < source.length)
    (insertions : List Insertion) :
    (merge source insertions).take (movedTo insertions offset) =
        merge (source.take offset) insertions ∧
      (merge source insertions)[movedTo insertions offset]? = source[offset]? := by
  have hsplit : source = source.take offset ++ source[offset] :: source.drop (offset + 1) := by
    rw [List.getElem_cons_drop, List.take_append_drop]
  have hlength : (merge (source.take offset) insertions).length = movedTo insertions offset := by
    rw [length_merge, List.length_take, Nat.min_eq_left (Nat.le_of_lt h)]
  have hmerge : merge source insertions = merge (source.take offset) insertions ++
      source[offset] :: mergeFrom (textAt insertions)
        (0 + (source.take offset).length + 1) (source.drop (offset + 1)) := by
    rw [merge, merge, ← mergeFrom_append_cons, ← hsplit]
  rw [hmerge, ← hlength]
  refine ⟨List.take_left, ?_⟩
  rw [List.getElem?_append_right (Nat.le_refl _), Nat.sub_self, List.getElem?_cons_zero,
    List.getElem?_eq_getElem h]

/-! ### Line ends in a pass -/

theorem mem_mergeFrom {texts : Nat → Text} {position : Nat} {bytes : Bytes} {b : UInt8}
    (h : b ∈ mergeFrom texts position bytes) :
    b ∈ bytes ∨ ∃ offset, b ∈ Utf8.encode (texts offset) := by
  induction bytes generalizing position with
  | nil => exact .inr ⟨position, h⟩
  | cons c rest ih =>
    rw [mergeFrom, List.mem_append, List.mem_cons] at h
    rcases h with htext | rfl | hrest
    · exact .inr ⟨position, htext⟩
    · exact .inl List.mem_cons_self
    · exact (ih hrest).imp_left (List.mem_cons_of_mem c)

theorem mem_mergeFrom_of_mem (texts : Nat → Text) (position : Nat) {bytes : Bytes} {b : UInt8}
    (h : b ∈ bytes) : b ∈ mergeFrom texts position bytes := by
  induction bytes generalizing position with
  | nil => cases h
  | cons c rest ih =>
    rw [mergeFrom, List.mem_append, List.mem_cons]
    rcases List.mem_cons.1 h with rfl | hrest
    · exact .inr (.inl rfl)
    · exact .inr (.inr (ih _ hrest))

/-- A pass keeps every line feed behind its carriage return, where no text goes in front of a line
    feed and the texts do likewise. `front` is what was passed since the last text. -/
theorem paired_mergeFrom {texts : Nat → Text} (htexts : ∀ offset, Paired (Utf8.encode (texts offset)))
    {position : Nat} {front bytes : Bytes} (h : Paired (front ++ bytes))
    (hplaces : ∀ k, texts (position + k) ≠ [] → bytes[k]? ≠ some 0x0A) :
    Paired (front ++ mergeFrom texts position bytes) := by
  induction bytes generalizing position front with
  | nil => exact h.left.append (htexts position)
  | cons b rest ih =>
    have hrest : ∀ k, texts (position + 1 + k) ≠ [] → rest[k]? ≠ some 0x0A := by
      intro k hk
      rw [Nat.add_assoc, Nat.add_comm 1] at hk
      exact hplaces (k + 1) hk
    rw [mergeFrom]
    by_cases htext : texts position = []
    · -- no text here: the byte joins what was passed
      rw [List.append_cons] at h
      rw [htext, Utf8.encode_nil, List.nil_append, List.append_cons]
      exact ih h hrest
    · -- a text: it stands in front of a byte that is no line feed
      have hb : b ≠ 0x0A := by
        rintro rfl
        exact hplaces 0 htext rfl
      have hbehind : Paired ([b] ++ mergeFrom texts (position + 1) rest) := ih (h.right hb) hrest
      exact h.left.append ((htexts position).append hbehind)

end DocAnnotator.Insertion
