import DocAnnotator.Proofs.Script.Splice
import DocAnnotator.Proofs.Text.Valid

/-! ## Splicing as one pass

    Insertions are made from the highest offset down, each into the bytes that the others left. The
    result is what one pass over the source makes from left to right, which puts the text for each
    offset in front of the byte at that offset.

    - `textAt`, `merge`: the text for an offset, and the pass.
    - `applyAll_eq_merge`: splicing makes the bytes of the pass.
    - `Stretch`, `WholeFronts`: the parts of the source between two texts, and those up to a text.
    - `isValid_merge_iff`: the bytes are well-formed exactly if every such part is.
    - `isValid_merge_encode_iff`: over a text, exactly if nothing is put inside a character.
    - `splice_merges`: the whole statement.
-/

namespace DocAnnotator

namespace Insertion

/-- The text for an offset: the texts that are given for it, the last one first. -/
def textAt (insertions : List Insertion) (offset : Nat) : Text :=
  (insertions.filter (·.offset == offset)).reverse.flatMap (·.text)

/-- Bytes that stand at `position`, with the text for each offset in front of its byte and the text
    for the end behind them. -/
def mergeFrom (texts : Nat → Text) (position : Nat) : Bytes → Bytes
  | [] => Utf8.encode (texts position)
  | b :: rest => Utf8.encode (texts position) ++ b :: mergeFrom texts (position + 1) rest

/-- The source with all insertions made in one pass from left to right. -/
def merge (source : Bytes) (insertions : List Insertion) : Bytes :=
  mergeFrom (textAt insertions) 0 source

/-! ### The text for an offset -/

theorem textAt_cons_self (i : Insertion) (rest : List Insertion) :
    textAt (i :: rest) i.offset = textAt rest i.offset ++ i.text := by
  simp [textAt]

theorem textAt_cons_of_ne {i : Insertion} {offset : Nat} (h : i.offset ≠ offset)
    (rest : List Insertion) : textAt (i :: rest) offset = textAt rest offset := by
  simp [textAt, h]

/-- Some text that is not empty is given for the offset. -/
def Receives (insertions : List Insertion) (offset : Nat) : Prop :=
  ∃ i ∈ insertions, i.offset = offset ∧ i.text ≠ []

theorem textAt_ne_nil_iff {insertions : List Insertion} {offset : Nat} :
    textAt insertions offset ≠ [] ↔ Receives insertions offset := by
  simp [textAt, Receives, List.flatMap_eq_nil_iff]

/-- Sorting keeps the order of the insertions at one offset. -/
theorem filter_place (i : Insertion) (sorted : List Insertion) (offset : Nat) :
    (place i sorted).filter (·.offset == offset) = (i :: sorted).filter (·.offset == offset) := by
  induction sorted with
  | nil => rfl
  | cons other rest ih =>
    rw [place]
    split
    · rfl
    next hlater =>
      -- `i` goes behind `other`, which has another offset
      rw [List.filter_cons, ih]
      by_cases hi : i.offset = offset
      · have hother : other.offset ≠ offset := by omega
        simp [hi, hother]
      · simp [List.filter_cons, hi]

theorem textAt_descending (insertions : List Insertion) :
    textAt (descending insertions) = textAt insertions := by
  have hfilter : ∀ offset, (descending insertions).filter (·.offset == offset) =
      insertions.filter (·.offset == offset) := by
    intro offset
    induction insertions with
    | nil => rfl
    | cons i rest ih =>
      change (place i (descending rest)).filter _ = _
      rw [filter_place, List.filter_cons, List.filter_cons, ih]
  funext offset
  rw [textAt, hfilter, textAt]

/-! ### The pass -/

/-- Where no text is left, the bytes stay as they are. -/
theorem mergeFrom_of_no_text {texts : Nat → Text} {position : Nat} (bytes : Bytes)
    (h : ∀ offset, position ≤ offset → texts offset = []) :
    mergeFrom texts position bytes = bytes := by
  induction bytes generalizing position with
  | nil => rw [mergeFrom, h position (Nat.le_refl _), Utf8.encode_nil]
  | cons b rest ih =>
    have hrest : mergeFrom texts (position + 1) rest = rest :=
      ih fun offset hoffset => h offset (by omega)
    rw [mergeFrom, h position (Nat.le_refl _), Utf8.encode_nil, List.nil_append, hrest]

theorem textAt_eq_nil {insertions : List Insertion} {offset : Nat}
    (h : ∀ i ∈ insertions, i.offset ≠ offset) : textAt insertions offset = [] := by
  by_contra hne
  obtain ⟨i, hi, hoffset, -⟩ := textAt_ne_nil_iff.1 hne
  exact h i hi hoffset

/-- An insertion that is behind all others cuts the bytes: the others are made in front of the cut,
    and nothing happens behind it. -/
theorem mergeFrom_cons {i : Insertion} {rest : List Insertion}
    (hi : ∀ j ∈ rest, j.offset ≤ i.offset) {position k : Nat} {bytes : Bytes}
    (hoffset : i.offset = position + k) (hk : k ≤ bytes.length) :
    mergeFrom (textAt (i :: rest)) position bytes =
      mergeFrom (textAt rest) position (bytes.take k) ++ (Utf8.encode i.text ++ bytes.drop k) := by
  induction bytes generalizing position k with
  | nil =>
    obtain rfl : k = 0 := Nat.le_zero.1 hk
    obtain rfl : i.offset = position := hoffset
    simp [mergeFrom, textAt_cons_self]
  | cons b bytes ih =>
    cases k with
    | zero =>
      obtain rfl : i.offset = position := hoffset
      have hnone : ∀ offset, i.offset + 1 ≤ offset → textAt (i :: rest) offset = [] := by
        intro offset hlater
        refine textAt_eq_nil fun j hj => ?_
        rcases List.mem_cons.1 hj with rfl | hj
        · omega
        · have := hi j hj
          omega
      rw [mergeFrom, textAt_cons_self, mergeFrom_of_no_text bytes hnone]
      simp [mergeFrom]
    | succ k =>
      have hne : i.offset ≠ position := by omega
      rw [mergeFrom, textAt_cons_of_ne hne, ih (by omega) (Nat.le_of_succ_le_succ hk)]
      simp [mergeFrom]

/-- Making insertions from the highest offset down, the first part of some bytes is passed over once
    and what follows it is left alone. -/
theorem foldl_apply_eq_mergeFrom {sorted : List Insertion} (hsorted : sorted.Pairwise NotBefore)
    {front : Bytes} (hfront : ∀ i ∈ sorted, i.offset ≤ front.length) (rest : Bytes) :
    sorted.foldl apply (front ++ rest) = mergeFrom (textAt sorted) 0 front ++ rest := by
  induction sorted generalizing front rest with
  | nil =>
    have hsame : mergeFrom (textAt []) 0 front = front := mergeFrom_of_no_text front fun _ _ => rfl
    rw [hsame, List.foldl_nil]
  | cons i sorted ih =>
    obtain ⟨hfirst, hothers⟩ := List.pairwise_cons.1 hsorted
    have hi : i.offset ≤ front.length := hfront i List.mem_cons_self
    have hinsert : apply (front ++ rest) i =
        front.take i.offset ++ (Utf8.encode i.text ++ (front.drop i.offset ++ rest)) := by
      rw [apply, List.take_append_of_le_length hi, List.drop_append_of_le_length hi,
        List.append_assoc]
    -- the others have their offsets in front of the cut
    have hbounds : ∀ j ∈ sorted, j.offset ≤ (front.take i.offset).length := by
      intro j hj
      rw [List.length_take, Nat.min_eq_left hi]
      exact hfirst j hj
    rw [List.foldl_cons, hinsert, ih hothers hbounds,
      mergeFrom_cons hfirst (Nat.zero_add i.offset).symm hi]
    simp only [List.append_assoc]

/-- Splicing makes the bytes of one pass over the source. -/
theorem applyAll_eq_merge {source : Bytes} {insertions : List Insertion}
    (h : ∀ i ∈ insertions, i.offset ≤ source.length) :
    applyAll source insertions = merge source insertions := by
  have hbounds : ∀ i ∈ descending insertions, i.offset ≤ source.length := by
    intro i hi
    exact h i ((descending_perm insertions).subset hi)
  have hpass := foldl_apply_eq_mergeFrom (descending_sorted insertions) hbounds []
  rw [List.append_nil, List.append_nil, textAt_descending] at hpass
  exact hpass

/-- The order in which insertions are given does not matter where their offsets are distinct. -/
theorem applyAll_of_perm {insertions other : List Insertion} (source : Bytes)
    (hdistinct : (insertions.map (·.offset)).Nodup) (hperm : other.Perm insertions) :
    applyAll source other = applyAll source insertions := by
  have horder : descending insertions = descending other :=
    descending_eq_of_perm (descending_sorted other) hdistinct ((descending_perm other).trans hperm)
  rw [applyAll, applyAll, horder]

/-! ### Stretches between texts -/

/-- A part of the source that no text cuts, from one text or the start to the next text or the
    end. -/
structure Stretch (source : Bytes) (insertions : List Insertion) (before piece after : Bytes) :
    Prop where
  parts : source = before ++ piece ++ after
  start : before = [] ∨ Receives insertions before.length
  stop : after = [] ∨ Receives insertions (before.length + piece.length)
  inside : ∀ offset, before.length < offset → offset < before.length + piece.length →
    ¬ Receives insertions offset

/-- Every beginning of the source up to a text, or up to its end, is well-formed. -/
def WholeFronts (source : Bytes) (insertions : List Insertion) : Prop :=
  ∀ front rest, source = front ++ rest → rest = [] ∨ Receives insertions front.length →
    Utf8.IsValid front

/-- If the bytes of a pass are well-formed, then so are the passed bytes up to each text and up to
    the end. `front` is what was passed since the last text. -/
theorem isValid_of_mergeFrom {texts : Nat → Text} {position : Nat} {front bytes : Bytes}
    (h : Utf8.IsValid (front ++ mergeFrom texts position bytes)) :
    ∀ first second, bytes = first ++ second →
      second = [] ∨ texts (position + first.length) ≠ [] → Utf8.IsValid (front ++ first) := by
  induction bytes generalizing position front with
  | nil =>
    intro first second hsplit _
    obtain ⟨rfl, -⟩ := List.append_eq_nil_iff.1 hsplit.symm
    rw [List.append_nil]
    by_cases htext : texts position = []
    · simpa [mergeFrom, htext] using h
    · rw [mergeFrom, ← List.append_nil (Utf8.encode _)] at h
      exact ((Utf8.isValid_insert htext).1 h).1
  | cons b rest ih =>
    intro first second hsplit hcut
    rw [mergeFrom] at h
    by_cases htext : texts position = []
    · -- no text here: the byte joins what was passed
      rw [htext, Utf8.encode_nil, List.nil_append, List.append_cons] at h
      cases first with
      | nil =>
        rcases hcut with rfl | hcut
        · cases hsplit
        · exact absurd htext hcut
      | cons c first =>
        obtain ⟨rfl, hrest⟩ := List.cons.inj hsplit
        rw [List.length_cons, Nat.add_comm first.length, ← Nat.add_assoc] at hcut
        rw [List.append_cons]
        exact ih h first second hrest hcut
    · -- a text: what was passed is whole, and the byte starts anew
      obtain ⟨hfront, hrest⟩ := (Utf8.isValid_insert htext).1 h
      rw [← List.singleton_append] at hrest
      cases first with
      | nil => rwa [List.append_nil]
      | cons c first =>
        obtain ⟨rfl, htail⟩ := List.cons.inj hsplit
        rw [List.length_cons, Nat.add_comm first.length, ← Nat.add_assoc] at hcut
        exact hfront.append (ih hrest first second htail hcut)

theorem wholeFronts_of_isValid {source : Bytes} {insertions : List Insertion}
    (h : Utf8.IsValid (merge source insertions)) : WholeFronts source insertions := by
  intro front rest hsplit hcut
  rw [merge, ← List.nil_append (mergeFrom _ _ _)] at h
  rw [← textAt_ne_nil_iff, ← Nat.zero_add front.length] at hcut
  exact isValid_of_mergeFrom h front rest hsplit hcut

/-- A stretch is what lies between two beginnings of the source. -/
theorem Stretch.isValid {source before piece after : Bytes} {insertions : List Insertion}
    (h : Stretch source insertions before piece after) (hfronts : WholeFronts source insertions) :
    Utf8.IsValid piece := by
  have hbefore : Utf8.IsValid before := by
    rcases h.start with rfl | hcut
    · exact Utf8.isValid_nil
    · exact hfronts before (piece ++ after) (by rw [h.parts, List.append_assoc]) (.inr hcut)
  have hboth : Utf8.IsValid (before ++ piece) :=
    hfronts (before ++ piece) after h.parts (by rw [List.length_append]; exact h.stop)
  obtain ⟨s, rfl⟩ := hbefore
  exact hboth.of_encode_append

/-- Well-formed stretches make well-formed bytes. `piece` is what was passed since the last text. -/
theorem isValid_mergeFrom {source : Bytes} {insertions : List Insertion}
    (h : ∀ before piece after, Stretch source insertions before piece after → Utf8.IsValid piece)
    {before piece rest : Bytes} (hparts : source = before ++ piece ++ rest)
    (hstart : before = [] ∨ Receives insertions before.length)
    (hinside : ∀ offset, before.length < offset → offset < before.length + piece.length →
      ¬ Receives insertions offset) :
    Utf8.IsValid (piece ++
      mergeFrom (textAt insertions) (before.length + piece.length) rest) := by
  induction rest generalizing before piece with
  | nil =>
    have hpiece : Utf8.IsValid piece := h before piece [] ⟨hparts, hstart, .inl rfl, hinside⟩
    exact hpiece.append (Utf8.isValid_encode _)
  | cons b rest ih =>
    rw [mergeFrom]
    by_cases hcut : Receives insertions (before.length + piece.length)
    · -- the stretch ends here, and the next one begins with `b`
      have hpiece : Utf8.IsValid piece :=
        h before piece (b :: rest) ⟨hparts, hstart, .inr hcut, hinside⟩
      have hnext := @ih (before ++ piece) [b] (by rw [hparts]; simp)
        (.inr (by rwa [List.length_append])) fun offset hlow hhigh => by
          rw [List.length_singleton] at hhigh
          omega
      rw [List.length_append, List.length_singleton, List.singleton_append] at hnext
      exact hpiece.append ((Utf8.isValid_encode _).append hnext)
    · -- the stretch goes on over `b`
      have hnone : textAt insertions (before.length + piece.length) = [] := by
        by_contra hne
        exact hcut (textAt_ne_nil_iff.1 hne)
      have hnext := @ih before (piece ++ [b]) (by rw [hparts]; simp) hstart
        fun offset hlow hhigh => by
          rw [List.length_append, List.length_singleton] at hhigh
          by_cases hlast : offset = before.length + piece.length
          · rwa [hlast]
          · exact hinside offset hlow (by omega)
      rw [List.length_append, List.length_singleton, ← Nat.add_assoc, ← List.append_cons] at hnext
      rwa [hnone, Utf8.encode_nil, List.nil_append]

theorem isValid_merge {source : Bytes} {insertions : List Insertion}
    (h : ∀ before piece after, Stretch source insertions before piece after → Utf8.IsValid piece) :
    Utf8.IsValid (merge source insertions) := by
  have hall := @isValid_mergeFrom source insertions h [] [] source rfl (.inl rfl)
    fun offset _ hhigh => absurd hhigh (Nat.not_lt_zero offset)
  exact hall

/-- The bytes of a pass are well-formed exactly if every stretch of the source between two texts
    is. -/
theorem isValid_merge_iff {source : Bytes} {insertions : List Insertion} :
    Utf8.IsValid (merge source insertions) ↔
      ∀ before piece after, Stretch source insertions before piece after → Utf8.IsValid piece := by
  constructor
  · intro hmerge before piece after hstretch
    exact hstretch.isValid (wholeFronts_of_isValid hmerge)
  · exact isValid_merge

/-! ### Texts inside characters -/

/-- The offset lies between two bytes of one character of the text. -/
def InsideChar (s : Text) (offset : Nat) : Prop :=
  ∃ a c b, s = a ++ c :: b ∧ (Utf8.encode a).length < offset ∧
    offset < (Utf8.encode (a ++ [c])).length

/-- An offset of a text is a boundary or lies inside a character. -/
theorem insideChar_of_not_boundary {s : Text} {offset : Nat} (hle : offset ≤ (Utf8.encode s).length)
    (h : ¬ Boundary s offset) : InsideChar s offset := by
  induction s generalizing offset with
  | nil => exact absurd ⟨[], [], rfl, (Nat.le_zero.1 hle).symm⟩ h
  | cons c s ih =>
    rw [Utf8.encode_cons, List.length_append] at hle
    by_cases hzero : offset = 0
    · exact absurd ⟨[], c :: s, rfl, hzero.symm⟩ h
    · by_cases hfirst : offset < (String.utf8EncodeChar c).length
      · refine ⟨[], c, s, rfl, Nat.pos_of_ne_zero hzero, ?_⟩
        simpa using hfirst
      · -- the offset lies behind `c`
        have hrest : ¬ Boundary s (offset - (String.utf8EncodeChar c).length) := by
          rintro ⟨a, b, rfl, ha⟩
          refine h ⟨c :: a, b, rfl, ?_⟩
          rw [Utf8.encode_cons, List.length_append]
          omega
        obtain ⟨a, d, b, rfl, hlow, hhigh⟩ := ih (by omega) hrest
        refine ⟨c :: a, d, b, rfl, ?_, ?_⟩
        · rw [Utf8.encode_cons, List.length_append]
          omega
        · rw [List.cons_append, Utf8.encode_cons, List.length_append]
          omega

/-- An offset inside a character is no boundary. -/
theorem InsideChar.not_boundary {s : Text} {offset : Nat} (h : InsideChar s offset) :
    ¬ Boundary s offset := by
  rintro ⟨x, y, hxy, hoffset⟩
  obtain ⟨a, c, b, hs, hlow, hhigh⟩ := h
  rw [hs] at hxy
  -- the boundary lies behind the character, or in front of it
  rcases List.append_eq_append_iff.1 hxy with ⟨m, rfl, hm⟩ | ⟨m, rfl, -⟩
  · cases m with
    | nil =>
      rw [List.append_nil] at hoffset
      omega
    | cons d m =>
      obtain ⟨rfl, -⟩ := List.cons.inj hm
      rw [List.append_cons, Utf8.encode_append, List.length_append] at hoffset
      omega
  · rw [Utf8.encode_append, List.length_append] at hlow
    omega

/-- Where a text is cut in two, the cut is a boundary exactly if the first part is well-formed. -/
theorem boundary_iff {s : Text} {front rest : Bytes} (h : Utf8.encode s = front ++ rest) :
    Boundary s front.length ↔ Utf8.IsValid front := by
  constructor
  · rintro ⟨a, b, rfl, hlength⟩
    rw [Utf8.encode_append] at h
    obtain ⟨rfl, -⟩ := List.append_inj h hlength
    exact Utf8.isValid_encode a
  · rintro ⟨a, rfl⟩
    obtain ⟨b, hs, -⟩ := Utf8.exists_of_encode_append h
    exact ⟨a, b, hs, rfl⟩

/-- Over the bytes of a text, a pass makes well-formed bytes exactly if no text that is not empty is
    put inside a character. -/
theorem isValid_merge_encode_iff {s : Text} {insertions : List Insertion}
    (h : ∀ i ∈ insertions, i.offset ≤ (Utf8.encode s).length) :
    Utf8.IsValid (merge (Utf8.encode s) insertions) ↔
      ∀ i ∈ insertions, i.text ≠ [] → ¬ InsideChar s i.offset := by
  constructor
  · intro hmerge i hi htext hinside
    have hsplit := (List.take_append_drop i.offset (Utf8.encode s)).symm
    have hlength : ((Utf8.encode s).take i.offset).length = i.offset := by
      rw [List.length_take, Nat.min_eq_left (h i hi)]
    have hfront := wholeFronts_of_isValid hmerge _ _ hsplit (.inr ⟨i, hi, hlength.symm, htext⟩)
    have hboundary := (boundary_iff hsplit).2 hfront
    rw [hlength] at hboundary
    exact hinside.not_boundary hboundary
  · intro hnone
    have hfronts : WholeFronts (Utf8.encode s) insertions := by
      intro front rest hsplit hcut
      rcases hcut with rfl | ⟨i, hi, hoffset, htext⟩
      · exact ⟨s, by rw [hsplit, List.append_nil]⟩
      · refine (boundary_iff hsplit).1 ?_
        by_contra hnot
        rw [← hoffset] at hnot
        exact hnone i hi htext (insideChar_of_not_boundary (h i hi) hnot)
    exact isValid_merge fun before piece after hstretch => hstretch.isValid hfronts

/-! ### The whole statement -/

/-- Splicing puts, at each offset of the source, the texts that are given for it, the last one
    first. The order of insertions with distinct offsets does not matter. Texts that all have a
    UTF-8 form fail to decode exactly if some stretch of the source between two texts is not
    well-formed; if the source is a text, exactly if a text that is not empty is put inside a
    character. A text without a UTF-8 form is refused before anything is decoded. -/
theorem splice_merges {source : Bytes} {insertions : List Insertion}
    (h : ∀ i ∈ insertions, i.offset ≤ source.length) :
    applyAll source insertions = merge source insertions ∧
    (∀ text, splice source insertions = .ok text ↔
      Whole insertions ∧ Utf8.encode text = merge source insertions) ∧
    (∀ other, other.Perm insertions → (insertions.map (·.offset)).Nodup →
      applyAll source other = applyAll source insertions ∧
        splice source other = splice source insertions) ∧
    ((∃ fault, splice source insertions = .error (.malformedText fault)) ↔
      Whole insertions ∧ ∃ before piece after,
        Stretch source insertions before piece after ∧ ¬ Utf8.IsValid piece) ∧
    (∀ s, source = Utf8.encode s →
      ((∃ fault, splice source insertions = .error (.malformedText fault)) ↔
        Whole insertions ∧ ∃ i ∈ insertions, i.text ≠ [] ∧ InsideChar s i.offset)) ∧
    (splice source insertions = .error .unencodableText ↔ ¬ Whole insertions) := by
  have hmerge := applyAll_eq_merge h
  have hfails : (∃ fault, splice source insertions = .error (.malformedText fault)) ↔
      Whole insertions ∧ ¬ Utf8.IsValid (merge source insertions) := by
    rw [exists_splice_malformed_iff, hmerge, Utf8.exists_error_iff]
  refine ⟨hmerge, fun text => ?_, fun other hperm hdistinct => ?_, ?_, ?_,
    splice_eq_unencodable_iff⟩
  · rw [splice_eq_ok_iff, hmerge, Utf8.decode_eq_ok_iff]
  · have hsame := applyAll_of_perm source hdistinct hperm
    have htorn : other.any (·.torn) = insertions.any (·.torn) := hperm.any_eq
    exact ⟨hsame, by rw [splice, splice, hsame, htorn]⟩
  · rw [hfails, isValid_merge_iff]
    simp only [not_forall, exists_prop]
  · rintro s rfl
    rw [hfails, isValid_merge_encode_iff h]
    simp only [not_forall, exists_prop, not_not]

/-- Two insertions at one offset, out of order and around a character of two bytes. -/
def tiedInsertions : List Insertion :=
  [⟨"x".toList, 1⟩, ⟨"z".toList, 3⟩, ⟨"y".toList, 1⟩]

/-- They go in with the later one first; at the offset between, nothing could go in. -/
theorem splice_merges_tied :
    (∀ i ∈ tiedInsertions, i.offset ≤ (Utf8.encode "aéb".toList).length) ∧
    splice (Utf8.encode "aéb".toList) tiedInsertions = .ok "ayxézb".toList ∧
    ∃ fault, splice (Utf8.encode "aéb".toList) (⟨"w".toList, 2⟩ :: tiedInsertions) =
      .error (.malformedText fault) := by
  have hbounds : ∀ i ∈ tiedInsertions, i.offset ≤ (Utf8.encode "aéb".toList).length := by decide
  obtain ⟨-, htext, -⟩ := splice_merges hbounds
  have hbounds' : ∀ i ∈ (⟨"w".toList, 2⟩ :: tiedInsertions : List Insertion),
      i.offset ≤ (Utf8.encode "aéb".toList).length := by decide
  obtain ⟨-, -, -, -, hfails, -⟩ := splice_merges hbounds'
  refine ⟨hbounds, (htext _).2 ⟨by decide, by decide⟩, (hfails _ rfl).2 ⟨by decide, ?_⟩⟩
  exact ⟨⟨"w".toList, 2⟩, List.mem_cons_self, by decide, "a".toList, 'é', "b".toList, by decide,
    by decide, by decide⟩

end Insertion

end DocAnnotator
