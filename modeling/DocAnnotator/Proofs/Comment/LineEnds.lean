import DocAnnotator.Proofs.Comment.Layout

/-! ## Line ends and columns of a comment

    A comment ends its lines as the source does, whatever line breaks its lines hold, and it ends in
    what puts the code behind it back at its column.

    - `lastLine`: what stands behind the last line feed.
    - `HasPair`, `Paired`: a line feed, or every one, follows a carriage return.
    - `hasCrLf_iff`: one such pair decides for the line ends of all comments.
    - `layout_bytes`: what holds of the line end, the indentation and all text without line ends
      holds of a comment.
    - `layout_of_blank`, `layout_of_code`: how a comment ends, alone on its lines or behind code.
-/

namespace DocAnnotator

/-! ### Behind the last line feed -/

/-- What stands behind the last `x` of a list; all of the list where it has none. -/
def lastLine {α : Type} [DecidableEq α] (x : α) (l : List α) : List α :=
  (l.reverse.takeWhile (· != x)).reverse

section LastLine

variable {α : Type} [DecidableEq α] {x : α}

theorem lastLine_append_of_not_mem {r : List α} (h : x ∉ r) (l : List α) :
    lastLine x (l ++ r) = lastLine x l ++ r := by
  have hall : ∀ y ∈ r.reverse, (y != x) = true := by
    intro y hy
    rw [bne_iff_ne]
    rintro rfl
    exact h (List.mem_reverse.1 hy)
  rw [lastLine, List.reverse_append, List.takeWhile_append_of_pos hall, List.reverse_append,
    List.reverse_reverse, lastLine]

theorem lastLine_append_cons {r : List α} (h : x ∉ r) (l : List α) :
    lastLine x (l ++ x :: r) = r := by
  have hnil : lastLine x (l ++ [x]) = [] := by
    rw [lastLine, List.reverse_concat, List.takeWhile_cons_of_neg (by simp), List.reverse_nil]
  rw [List.append_cons, lastLine_append_of_not_mem h, hnil, List.nil_append]

theorem not_mem_lastLine (l : List α) : x ∉ lastLine x l := by
  intro hmem
  have hne := List.mem_takeWhile_imp (List.mem_reverse.1 hmem)
  simp at hne

theorem mem_of_mem_lastLine {l : List α} {y : α} (h : y ∈ lastLine x l) : y ∈ l :=
  List.mem_reverse.1 ((List.takeWhile_prefix _).subset (List.mem_reverse.1 h))

end LastLine

/-- A character of one byte is in a text where its byte is in the bytes of the text. -/
theorem Utf8.mem_encode_iff {d : Char} (hd : d.toNat < 0x80) {s : Text} :
    UInt8.ofNat d.toNat ∈ encode s ↔ d ∈ s := by
  rw [encode, List.mem_flatMap]
  constructor
  · rintro ⟨c, hc, hbyte⟩
    rwa [← eq_of_mem_encodeChar hd hbyte]
  · intro hmem
    exact ⟨d, hmem, by rw [encodeChar_ascii hd]; exact List.mem_singleton_self _⟩

/-- The bytes behind the last line feed are those of the characters behind it. -/
theorem lastLine_encode (s : Text) :
    lastLine 0x0A (Utf8.encode s) = Utf8.encode (lastLine '\n' s) := by
  induction s using List.reverseRecOn with
  | nil => rfl
  | append_singleton s c ih =>
    rw [Utf8.encode_append]
    by_cases hc : c = '\n'
    · subst hc
      rw [lastLine_append_cons List.not_mem_nil]
      exact lastLine_append_cons List.not_mem_nil _
    · have hchar : '\n' ∉ [c] := fun hmem => hc (List.mem_singleton.1 hmem).symm
      have hbytes : 0x0A ∉ Utf8.encode [c] := fun hmem =>
        hchar ((Utf8.mem_encode_iff (by decide)).1 hmem)
      rw [lastLine_append_of_not_mem hbytes, lastLine_append_of_not_mem hchar, ih,
        Utf8.encode_append]

/-! ### Line feeds behind carriage returns -/

/-- A line feed follows a carriage return. -/
def HasPair (bytes : Bytes) : Prop := ∃ front rest, bytes = front ++ 0x0D :: 0x0A :: rest

/-- Every line feed follows a carriage return. -/
def Paired (bytes : Bytes) : Prop :=
  ∀ front rest, bytes = front ++ 0x0A :: rest → front.getLast? = some 0x0D

namespace Paired

theorem of_no_lineFeed {bytes : Bytes} (h : 0x0A ∉ bytes) : Paired bytes := by
  rintro front rest rfl
  exact absurd (List.mem_append_right _ List.mem_cons_self) h

theorem crLf : Paired [0x0D, 0x0A] := by
  intro front rest hsplit
  match front, hsplit with
  | [b], hsplit => rw [← (List.cons.inj hsplit).1, List.getLast?_singleton]
  | _ :: _ :: _, hsplit => simp at hsplit

theorem append {first second : Bytes} (h : Paired first) (h' : Paired second) :
    Paired (first ++ second) := by
  intro front rest hsplit
  rcases List.append_eq_append_iff.1 hsplit with ⟨m, rfl, hm⟩ | ⟨m, rfl, hm⟩
  · -- the line feed stands in the second part
    have hlast := h' m rest hm
    rw [List.getLast?_append, hlast, Option.some_or]
  · cases m with
    | nil =>
      have hlast := h' [] rest hm.symm
      cases hlast
    | cons b m =>
      obtain ⟨rfl, -⟩ := List.cons.inj hm
      exact h front m rfl

theorem left {first second : Bytes} (h : Paired (first ++ second)) : Paired first := by
  rintro front rest rfl
  exact h front (rest ++ second) (by simp)

/-- Behind a byte other than a line feed, pairs stay whole. -/
theorem right {first rest : Bytes} {b : UInt8} (h : Paired (first ++ b :: rest)) (hb : b ≠ 0x0A) :
    Paired (b :: rest) := by
  intro front more hsplit
  have hlast := h (first ++ front) more (by rw [hsplit, List.append_assoc])
  cases front with
  | nil => exact absurd (List.cons.inj hsplit).1 hb
  | cons c front =>
    rwa [List.getLast?_append, List.getLast?_cons, Option.some_or, ← List.getLast?_cons] at hlast

end Paired

/-! ### Line ends of a comment -/

namespace Comment

/-- The two bytes are looked for as they stand. -/
theorem hasCrLf_iff {source : Bytes} : hasCrLf source = true ↔ HasPair source := by
  constructor
  · intro h
    fun_induction hasCrLf source with
    | case1 rest => exact ⟨[], rest, rfl⟩
    | case2 b rest _ ih =>
      obtain ⟨front, more, rfl⟩ := ih h
      exact ⟨b :: front, more, rfl⟩
    | case3 => cases h
  · rintro ⟨front, rest, rfl⟩
    induction front with
    | nil => rfl
    | cons b front ih =>
      rw [List.cons_append]
      unfold hasCrLf
      split
      · rfl
      next hcons =>
        obtain ⟨-, rfl⟩ := List.cons.inj hcons
        exact ih
      next hnil => cases hnil

/-- What can be put together and holds of the line end, of the indentation, and of all text without
    line ends, holds of a comment. -/
theorem layout_bytes {Q : Bytes → Prop} (happend : ∀ x y, Q x → Q y → Q (x ++ y))
    (hplain : ∀ s, '\n' ∉ s → '\r' ∉ s → Q (Utf8.encode s)) {source : Bytes} {offset : Nat}
    (hnewline : Q (Utf8.encode (newlineOf source)))
    (hindent : Q (Utf8.encode (indentation (lineHead source offset)))) (lines : List Text) :
    Q (Utf8.encode (layout lines source offset)) := by
  have hboth {s t : Text} (hs : Q (Utf8.encode s)) (ht : Q (Utf8.encode t)) :
      Q (Utf8.encode (s ++ t)) := by
    rw [Utf8.encode_append]
    exact happend _ _ hs ht
  have hspace : Q (Utf8.encode [' ']) := hplain _ (by decide) (by decide)
  have hrows {rows : List Text}
      (h : ∀ row ∈ rows, IsRow (indentation (lineHead source offset)) row) :
      Q (Utf8.encode (rows.flatMap (newlineOf source ++ ·))) := by
    induction rows with
    | nil => exact hplain [] List.not_mem_nil List.not_mem_nil
    | cons row rows ih =>
      obtain ⟨rest, rfl, -, -, hfeed, hreturn⟩ := h row List.mem_cons_self
      have hrow := hboth (hboth hindent (hplain " *".toList (by decide) (by decide)))
        (hplain rest hfeed hreturn)
      rw [List.flatMap_cons]
      exact hboth (hboth hnewline hrow) (ih fun r hr => h r (List.mem_cons_of_mem _ hr))
  have hbody : ∀ row ∈ lines.flatMap (bodyLines (indentation (lineHead source offset))),
      IsRow (indentation (lineHead source offset)) row := by
    intro row hrow
    obtain ⟨line, -, hrow⟩ := List.mem_flatMap.1 hrow
    exact isRow_of_mem_bodyLines hrow
  have hinside := hboth (hboth (hboth (hboth
    (hplain "/**".toList (by decide) (by decide)) (hrows hbody)) hnewline) hindent) hspace
  rw [layout_eq, blockAt_eq]
  refine hboth (hboth hinside (hplain "*/".toList (by decide) (by decide))) ?_
  simp only [gap]
  split
  · exact hboth hnewline hindent
  · exact hspace

/-! ### Columns -/

/-- The head of a line is the text behind the last line feed. -/
theorem lineHead_encode (a b : Text) :
    lineHead (Utf8.encode (a ++ b)) (Utf8.encode a).length = lastLine '\n' a := by
  rw [Utf8.encode_append, lineHead, List.take_left]
  exact (congrArg Utf8.decodeLossy (lastLine_encode a)).trans (Utf8.decodeLossy_encode _)

theorem isEmpty_trim_iff {s : Text} :
    (Text.trim s).isEmpty = true ↔ ∀ c ∈ s, Text.isBlank c = true := by
  rw [List.isEmpty_iff]
  constructor
  · intro hnil c hc
    by_contra hvisible
    have hmem := Text.mem_trim hc (Bool.eq_false_iff.2 hvisible)
    rw [hnil] at hmem
    exact List.not_mem_nil hmem
  · intro hblank
    have hnil := Text.trim_append_blank (s := []) hblank
    exact hnil

/-- Behind nothing but blanks, a comment ends in a line feed and those blanks. -/
theorem layout_of_blank {source : Bytes} {offset : Nat}
    (h : ∀ c ∈ lineHead source offset, Text.isBlank c = true) (lines : List Text) :
    ∃ s, layout lines source offset = s ++ '\n' :: lineHead source offset := by
  have hindent : indentation (lineHead source offset) = lineHead source offset :=
    List.takeWhile_eq_self_iff.2 h
  rw [layout_eq, gap, if_pos (isEmpty_trim_iff.2 h), hindent]
  rcases newlineOf_cases source with hn | hn
  · exact ⟨blockAt lines source offset ++ ['\r'], by rw [hn]; simp⟩
  · exact ⟨blockAt lines source offset, by rw [hn]; simp⟩

/-- Behind code, a comment ends in its closer and one space. -/
theorem layout_of_code {source : Bytes} {offset : Nat}
    (h : ¬ ∀ c ∈ lineHead source offset, Text.isBlank c = true) (lines : List Text) :
    ∃ s, layout lines source offset = s ++ "*/ ".toList := by
  rw [layout_eq, gap, if_neg fun hempty => h (isEmpty_trim_iff.1 hempty), blockAt_eq]
  exact ⟨_, List.append_assoc _ _ _⟩

end Comment

end DocAnnotator
