import Mathlib.Data.List.Sort
import DocAnnotator.Proofs.Text.Utf8
import DocAnnotator.Script.Splice

/-! ## What splicing does

    Insertions are made one after the other, from the highest offset down. Seen from the result,
    the source is cut into pieces and each text stands between two of them.

    - `descending_perm`, `descending_sorted`: the order in which insertions are made.
    - `descending_eq_of_perm`: with distinct offsets that order is the only one.
    - `Woven`: a text is a source with texts put in at byte offsets of the source, and nothing else
      is added, dropped or moved.
    - `Whole`: insertions whose texts all have a UTF-8 form.
    - `exists_splice`: splicing whole texts at code point boundaries never fails, and weaves.
-/

namespace DocAnnotator

namespace Insertion

/-! ### The order of the insertions -/

/-- The first insertion is made no earlier in the source than the second. -/
def NotBefore (a b : Insertion) : Prop := b.offset ≤ a.offset

instance : DecidableRel NotBefore := fun a b => inferInstanceAs (Decidable (b.offset ≤ a.offset))

instance : IsTrans Insertion NotBefore := ⟨fun _ _ _ hab hbc => Nat.le_trans hbc hab⟩

instance : Std.Total NotBefore := ⟨fun a b => Nat.le_total b.offset a.offset⟩

theorem place_eq (insertion : Insertion) (sorted : List Insertion) :
    place insertion sorted = sorted.orderedInsert NotBefore insertion := by
  induction sorted with
  | nil => rfl
  | cons other rest ih =>
    rw [place, List.orderedInsert_cons, ih]
    rfl

theorem descending_eq (insertions : List Insertion) :
    descending insertions = insertions.insertionSort NotBefore := by
  induction insertions with
  | nil => rfl
  | cons insertion rest ih =>
    rw [List.insertionSort_cons, ← ih, ← place_eq]
    rfl

theorem descending_perm (insertions : List Insertion) : (descending insertions).Perm insertions := by
  rw [descending_eq]
  exact List.perm_insertionSort _ insertions

/-- Insertions are made from the highest offset down. -/
theorem descending_sorted (insertions : List Insertion) :
    (descending insertions).Pairwise NotBefore := by
  rw [descending_eq]
  exact List.pairwise_insertionSort _ insertions

/-- With distinct offsets there is one order from the highest down. -/
theorem descending_eq_of_perm {insertions sorted : List Insertion}
    (hsorted : sorted.Pairwise NotBefore) (hdistinct : (insertions.map (·.offset)).Nodup)
    (hperm : sorted.Perm insertions) : descending insertions = sorted := by
  refine List.Perm.eq_of_pairwise ?_ (descending_sorted insertions) hsorted
    ((descending_perm insertions).trans hperm.symm)
  intro a b ha hb hab hba
  have ha' : a ∈ insertions := (descending_perm insertions).subset ha
  have hb' : b ∈ insertions := hperm.subset hb
  exact List.inj_on_of_nodup_map hdistinct ha' hb' (Nat.le_antisymm hba hab)

end Insertion

/-! ### Pieces -/

/-- A piece of a spliced text: a part of the source, or an inserted text. -/
inductive Piece where
  | kept (text : Text)
  | added (insertion : Insertion)

namespace Piece

/-- The text of a piece. -/
def text : Piece → Text
  | .kept text => text
  | .added insertion => insertion.text

/-- The text of a piece in the source. -/
def source : Piece → Text
  | .kept text => text
  | .added _ => []

/-- The insertion that a piece comes from. -/
def insertion? : Piece → Option Insertion
  | .kept _ => none
  | .added insertion => some insertion

end Piece

/-- The text that pieces make. -/
def written (pieces : List Piece) : Text := pieces.flatMap Piece.text

/-- The text that is left when the inserted texts are deleted. -/
def original (pieces : List Piece) : Text := pieces.flatMap Piece.source

/-- The inserted texts, in the order in which they stand. -/
def additions (pieces : List Piece) : List Insertion := pieces.filterMap Piece.insertion?

@[simp] theorem written_append (p q : List Piece) : written (p ++ q) = written p ++ written q := by
  simp [written]

@[simp] theorem original_append (p q : List Piece) :
    original (p ++ q) = original p ++ original q := by
  simp [original]

@[simp] theorem additions_append (p q : List Piece) :
    additions (p ++ q) = additions p ++ additions q := by
  simp [additions]

@[simp] theorem written_kept (text : Text) (rest : List Piece) :
    written (.kept text :: rest) = text ++ written rest := rfl

@[simp] theorem written_added (insertion : Insertion) (rest : List Piece) :
    written (.added insertion :: rest) = insertion.text ++ written rest := rfl

@[simp] theorem original_kept (text : Text) (rest : List Piece) :
    original (.kept text :: rest) = text ++ original rest := rfl

@[simp] theorem original_added (insertion : Insertion) (rest : List Piece) :
    original (.added insertion :: rest) = original rest := rfl

@[simp] theorem additions_kept (text : Text) (rest : List Piece) :
    additions (.kept text :: rest) = additions rest := rfl

@[simp] theorem additions_added (insertion : Insertion) (rest : List Piece) :
    additions (.added insertion :: rest) = insertion :: additions rest := rfl

/-- `pieces` cut the source where the insertions go: without the inserted texts they are the
    source, with them they are the result, every insertion is there once, and each stands after as
    many bytes of the source as its offset says. -/
structure Woven (source : Text) (insertions : List Insertion) (result : Text)
    (pieces : List Piece) : Prop where
  original : original pieces = source
  written : written pieces = result
  additions : (additions pieces).Perm insertions
  offset : ∀ before insertion after, pieces = before ++ .added insertion :: after →
    (Utf8.encode (DocAnnotator.original before)).length = insertion.offset

/-! ### What weaving leaves alone -/

/-- An added text makes a result longer than its source. -/
theorem length_written (pieces : List Piece) :
    (written pieces).length =
      (original pieces).length + ((additions pieces).map (·.text.length)).sum := by
  induction pieces with
  | nil => rfl
  | cons piece rest ih =>
    cases piece with
    | kept text =>
      simp only [written_kept, original_kept, additions_kept, List.length_append]
      omega
    | added insertion =>
      simp only [written_added, original_added, additions_added, List.length_append, List.map_cons,
        List.sum_cons]
      omega

/-- With nothing added, the result is the source. -/
theorem written_eq_original {pieces : List Piece} (h : additions pieces = []) :
    written pieces = original pieces := by
  induction pieces with
  | nil => rfl
  | cons piece rest ih =>
    cases piece with
    | kept text => rw [written_kept, original_kept, ih h]
    | added insertion => simp at h

/-- A source in front of which nothing is added keeps its first character. -/
theorem head?_written {pieces : List Piece}
    (h : ∀ before i after, pieces = before ++ .added i :: after → original before ≠ []) :
    (written pieces).head? = (original pieces).head? := by
  induction pieces with
  | nil => rfl
  | cons piece rest ih =>
    cases piece with
    | kept text =>
      rw [written_kept, original_kept]
      -- an empty piece leaves the question to the rest
      cases text with
      | cons c text => rfl
      | nil => exact ih fun before i after hrest => h (.kept [] :: before) i after (by rw [hrest]; rfl)
    | added insertion => exact absurd rfl (h [] insertion rest rfl)

/-- A source behind which nothing is added keeps its last character. -/
theorem getLast?_written {pieces : List Piece}
    (h : ∀ before i after, pieces = before ++ .added i :: after → original after ≠ []) :
    (written pieces).getLast? = (original pieces).getLast? := by
  induction pieces with
  | nil => rfl
  | cons piece rest ih =>
    have hrest := ih fun before i after hsplit => h (piece :: before) i after (by rw [hsplit]; rfl)
    cases piece with
    | kept text => rw [written_kept, original_kept, List.getLast?_append, hrest, List.getLast?_append]
    | added insertion =>
      -- what is behind the added text decides
      have hne : original rest ≠ [] := h [] insertion rest rfl
      rw [written_added, original_added, List.getLast?_append, hrest,
        List.getLast?_eq_some_getLast hne]
      rfl

/-! ### Splicing weaves -/

/-- A byte offset at which a code point of the text starts, or the text ends. -/
def Boundary (s : Text) (offset : Nat) : Prop :=
  ∃ a b, s = a ++ b ∧ (Utf8.encode a).length = offset

theorem encode_eq_nil {s : Text} (h : (Utf8.encode s).length = 0) : s = [] := by
  have : Utf8.encode s = Utf8.encode [] := List.eq_nil_of_length_eq_zero h
  exact Utf8.encode_injective this

/-- A byte offset cuts a text in one way. -/
theorem cut_unique {a b c d : Text} (h : a ++ b = c ++ d)
    (hlen : (Utf8.encode a).length = (Utf8.encode c).length) : a = c ∧ b = d := by
  -- one part is the other with `m` behind it, and `m` has no bytes
  rcases List.append_eq_append_iff.1 h with ⟨m, rfl, rfl⟩ | ⟨m, rfl, rfl⟩
  · obtain rfl : m = [] := encode_eq_nil (by
      rw [Utf8.encode_append, List.length_append] at hlen
      omega)
    simp
  · obtain rfl : m = [] := encode_eq_nil (by
      rw [Utf8.encode_append, List.length_append] at hlen
      omega)
    simp

/-- An added text stands where its offset cuts the source. -/
theorem Woven.cut {source result : Text} {insertions : List Insertion} {pieces before after : List Piece}
    {i : Insertion} {a b : Text} (h : Woven source insertions result pieces)
    (hsplit : pieces = before ++ .added i :: after) (hsource : source = a ++ b)
    (hoff : (Utf8.encode a).length = i.offset) :
    DocAnnotator.original before = a ∧ DocAnnotator.original after = b := by
  have hparts := h.original
  rw [hsplit, original_append, original_added, hsource] at hparts
  exact cut_unique hparts ((h.offset before i after hsplit).trans hoff.symm)

/-- A boundary before the end of a first part is a boundary of that part. -/
theorem Boundary.of_append {a b : Text} {offset : Nat} (h : Boundary (a ++ b) offset)
    (hle : offset ≤ (Utf8.encode a).length) : Boundary a offset := by
  obtain ⟨c, d, hcd, rfl⟩ := h
  rcases List.append_eq_append_iff.1 hcd with ⟨m, rfl, rfl⟩ | ⟨m, rfl, rfl⟩
  · -- the boundary lies past `a`, so nothing lies between them
    have hm : m = [] := encode_eq_nil (by
      rw [Utf8.encode_append, List.length_append] at hle
      omega)
    exact ⟨a, [], by simp, by simp [hm]⟩
  · exact ⟨c, m, rfl, rfl⟩

/-- Inserting at a boundary. -/
theorem Insertion.apply_encode (a b : Text) (insertion : Insertion) (rest : Bytes)
    (h : (Utf8.encode a).length = insertion.offset) :
    Insertion.apply (Utf8.encode (a ++ b) ++ rest) insertion =
      Utf8.encode a ++ (Utf8.encode insertion.text ++ (Utf8.encode b ++ rest)) := by
  rw [Insertion.apply, Utf8.encode_append, List.append_assoc (Utf8.encode a), ← h, List.take_left,
    List.drop_left, List.append_assoc]

/-- Making insertions from the highest offset down cuts the first part of some bytes into pieces
    and leaves what follows it alone. -/
theorem Insertion.foldl_apply {sorted : List Insertion} (hsorted : sorted.Pairwise NotBefore)
    (s : Text) (hs : ∀ i ∈ sorted, Boundary s i.offset) (rest : Bytes) :
    ∃ pieces, sorted.foldl Insertion.apply (Utf8.encode s ++ rest) =
        Utf8.encode (written pieces) ++ rest ∧
      Woven s sorted (written pieces) pieces := by
  induction sorted generalizing s rest with
  | nil =>
    refine ⟨[.kept s], by simp [written, Piece.text], by simp [original, Piece.source], rfl,
      List.Perm.refl _, fun before i after h => ?_⟩
    have hmem : Piece.added i ∈ [Piece.kept s] := by rw [h]; simp
    simp at hmem
  | cons i sorted ih =>
    obtain ⟨hfirst, hrest⟩ := List.pairwise_cons.1 hsorted
    obtain ⟨a, b, rfl, hoff⟩ := hs i List.mem_cons_self
    rw [List.foldl_cons, Insertion.apply_encode a b i rest hoff]
    -- the other insertions stay inside the part before this one
    have hbound : ∀ j ∈ sorted, Boundary a j.offset := fun j hj =>
      (hs j (List.mem_cons_of_mem _ hj)).of_append (hoff ▸ hfirst j hj)
    obtain ⟨pieces, hbytes, hwoven⟩ :=
      ih hrest a hbound (Utf8.encode i.text ++ (Utf8.encode b ++ rest))
    refine ⟨pieces ++ [.added i, .kept b], ?_, ?_, rfl, ?_, ?_⟩
    · rw [hbytes]
      simp [written, Piece.text]
    · rw [original_append, hwoven.original]
      simp [original, Piece.source]
    · rw [additions_append]
      exact (List.perm_append_comm).trans (hwoven.additions.cons i)
    · -- an added piece is `i` behind all of `a`, or one of the pieces of `a`
      intro before j after h
      rcases List.append_eq_append_iff.1 h with ⟨m, rfl, hm⟩ | ⟨m, rfl, hm⟩
      · match m, hm with
        | [], hm =>
          obtain rfl := Piece.added.inj (List.cons.inj hm).1
          rw [List.append_nil, hwoven.original, hoff]
        | [_], hm => simp at hm
        | _ :: _ :: _, hm => simp at hm
      · match m, hm with
        | [], hm =>
          obtain rfl := Piece.added.inj (List.cons.inj hm).1
          rw [← hoff, ← hwoven.original, List.append_nil]
        | .added _ :: m, hm =>
          obtain rfl := Piece.added.inj (List.cons.inj hm).1
          exact hwoven.offset before j m rfl

/-- Making insertions at code point boundaries weaves their texts into the source. -/
theorem Insertion.exists_woven {s : Text} {insertions : List Insertion}
    (h : ∀ i ∈ insertions, Boundary s i.offset) :
    ∃ result pieces, Utf8.decode (applyAll (Utf8.encode s) insertions) = .ok result ∧
      Woven s insertions result pieces := by
  obtain ⟨pieces, hbytes, hwoven⟩ := Insertion.foldl_apply (descending_sorted insertions) s
    (fun i hi => h i ((descending_perm insertions).subset hi)) []
  refine ⟨written pieces, pieces, ?_, hwoven.original, hwoven.written,
    hwoven.additions.trans (descending_perm insertions), hwoven.offset⟩
  rw [List.append_nil, List.append_nil] at hbytes
  exact Utf8.decode_eq_ok_iff.2 hbytes.symm

/-- All texts have a UTF-8 form: none holds half of a surrogate pair. -/
def Insertion.Whole (insertions : List Insertion) : Prop := ∀ i ∈ insertions, i.torn = false

instance Insertion.decidableWhole (insertions : List Insertion) :
    Decidable (Insertion.Whole insertions) :=
  inferInstanceAs (Decidable (∀ i ∈ insertions, i.torn = false))

/-- With whole texts, splicing decodes the bytes that the insertions make. -/
theorem Insertion.splice_of_whole {insertions : List Insertion} (source : Bytes)
    (h : Whole insertions) :
    Insertion.splice source insertions =
      (Utf8.decode (applyAll source insertions)).mapError .malformedText := by
  rw [Insertion.splice, if_neg (by simpa [Whole] using h)]

/-- A text that has no UTF-8 form stops the splicing, and nothing else does so. -/
theorem Insertion.splice_eq_unencodable_iff {insertions : List Insertion} {source : Bytes} :
    Insertion.splice source insertions = .error .unencodableText ↔ ¬ Whole insertions := by
  constructor
  · intro hstops hwhole
    rw [splice_of_whole source hwhole] at hstops
    cases hdecode : Utf8.decode (applyAll source insertions) with
    | ok text => rw [hdecode] at hstops; cases hstops
    | error fault => rw [hdecode] at hstops; cases hstops
  · intro htorn
    rw [Insertion.splice, if_pos (by simpa [Whole] using htorn)]

/-- Splicing gives a text exactly if all texts are whole and the bytes decode to it. -/
theorem Insertion.splice_eq_ok_iff {source : Bytes} {insertions : List Insertion} {text : Text} :
    Insertion.splice source insertions = .ok text ↔
      Whole insertions ∧ Utf8.decode (applyAll source insertions) = .ok text := by
  by_cases hwhole : Whole insertions
  · rw [splice_of_whole source hwhole]
    cases Utf8.decode (applyAll source insertions) <;> simp [Except.mapError, hwhole]
  · rw [splice_eq_unencodable_iff.2 hwhole]
    simp [hwhole]

/-- The bytes of a spliced text are those that the insertions make. -/
theorem Insertion.encode_of_splice {source : Bytes} {insertions : List Insertion} {text : Text}
    (h : Insertion.splice source insertions = .ok text) :
    Utf8.encode text = applyAll source insertions :=
  Utf8.decode_eq_ok_iff.1 (splice_eq_ok_iff.1 h).2

/-- Splicing fails to decode exactly if all texts are whole and the bytes do not decode. -/
theorem Insertion.exists_splice_malformed_iff {source : Bytes} {insertions : List Insertion} :
    (∃ fault, Insertion.splice source insertions = .error (.malformedText fault)) ↔
      Whole insertions ∧ ∃ fault, Utf8.decode (applyAll source insertions) = .error fault := by
  by_cases hwhole : Whole insertions
  · rw [splice_of_whole source hwhole]
    cases Utf8.decode (applyAll source insertions) <;> simp [Except.mapError, hwhole]
  · rw [splice_eq_unencodable_iff.2 hwhole]
    simp [hwhole]

/-- Splicing whole texts at code point boundaries never fails, and weaves them into the source. -/
theorem Insertion.exists_splice {s : Text} {insertions : List Insertion}
    (h : ∀ i ∈ insertions, Boundary s i.offset) (hwhole : Whole insertions) :
    ∃ result pieces, Insertion.splice (Utf8.encode s) insertions = .ok result ∧
      Woven s insertions result pieces := by
  obtain ⟨result, pieces, hdecode, hwoven⟩ := exists_woven h
  exact ⟨result, pieces, splice_eq_ok_iff.2 ⟨hwhole, hdecode⟩, hwoven⟩

end DocAnnotator
