import Mathlib.Data.List.Chain
import Mathlib.Data.List.TakeWhile
import DocAnnotator.Comment.Layout
import DocAnnotator.Proofs.Text.Blank
import DocAnnotator.Proofs.Text.Utf8
import DocAnnotator.Target.DocComment

/-! ## A laid out comment is one doc comment

    Lines are arbitrary text, so the only closer in a comment must be the one that ends it.

    - `Unclosed`: no closer stands in a text.
    - `layout_eq`: a comment is its opening, its rows, its closer and blanks.
    - `unclosed_inside`: there is no closer before the last one.
    - `comments_layout`: a scan over the comment finds it, and goes on right after it.
-/

namespace DocAnnotator.Comment

/-- No block comment closer stands in the text. -/
def Unclosed (s : Text) : Prop := s.IsChain fun a b => ¬ (a = '*' ∧ b = '/')

instance (s : Text) : Decidable (Unclosed s) :=
  inferInstanceAs (Decidable (List.IsChain _ s))

/-- Without its first half, a pair stands nowhere in a list. -/
theorem isChain_of_not_mem {α : Type} {x y : α} {l : List α} (h : x ∉ l) :
    l.IsChain fun a b => ¬ (a = x ∧ b = y) := by
  induction l with
  | nil => exact List.isChain_nil
  | cons c l ih =>
    refine List.isChain_cons.2 ⟨fun d _ hcd => ?_, ih fun hl => h (List.mem_cons_of_mem _ hl)⟩
    exact h (hcd.1 ▸ List.mem_cons_self)

namespace Unclosed

theorem of_no_star {s : Text} (h : '*' ∉ s) : Unclosed s := isChain_of_not_mem h

theorem append {s t : Text} (hs : Unclosed s) (ht : Unclosed t) (h : t.head? ≠ some '/') :
    Unclosed (s ++ t) := by
  refine List.isChain_append.2 ⟨hs, ht, fun a _ b hb hab => h ?_⟩
  rw [← hab.2]
  exact hb

theorem of_subtext {s t : Text} (ht : Unclosed t) (h : s <:+: t) : Unclosed s :=
  List.IsChain.infix ht h

/-- The closer after an unclosed text is the only one, where no star follows it. -/
theorem eq_of_append_eq {s t a b : Text} (hs : Unclosed s) (ht : '*' ∉ t)
    (h : a ++ '*' :: '/' :: b = s ++ '*' :: '/' :: t) : a = s := by
  rcases List.append_eq_append_iff.1 h with ⟨m, rfl, hm⟩ | ⟨m, rfl, hm⟩
  · -- the other closer begins inside `s`
    match m, hm with
    | [], _ => simp
    | [c], hm =>
      simp only [List.cons_append, List.nil_append, List.cons.injEq] at hm
      exact absurd hm.2.1 (by decide)
    | c :: d :: m, hm =>
      simp only [List.cons_append, List.cons.injEq] at hm
      obtain ⟨rfl, rfl, -⟩ := hm
      have hpair := hs.of_subtext (s := ['*', '/']) ⟨a, m, by simp⟩
      exact absurd ⟨rfl, rfl⟩ (List.isChain_pair.1 hpair)
  · -- it begins after `s`
    match m, hm with
    | [], _ => simp
    | c :: m, hm =>
      simp only [List.cons_append, List.cons.injEq] at hm
      have hstar : '*' ∈ '/' :: t := by rw [hm.2]; simp
      rcases List.mem_cons.1 hstar with hstar | hstar
      · exact absurd hstar (by decide)
      · exact absurd hstar ht

end Unclosed

/-! ### Rows -/

theorem head?_escapeClosers (s : Text) : (escapeClosers s).head? = s.head? := by
  fun_cases escapeClosers s <;> rfl

/-- Escaping leaves no closer. -/
theorem unclosed_escapeClosers (s : Text) : Unclosed (escapeClosers s) := by
  fun_induction escapeClosers s with
  | case1 s ih =>
    -- a closer is written with a backslash between its two characters
    refine List.isChain_cons_cons.2 ⟨by decide, List.isChain_cons_cons.2 ⟨by decide, ?_⟩⟩
    exact List.isChain_cons.2 ⟨fun d _ h => absurd h.1 (by decide), ih⟩
  | case2 c s hpair ih =>
    -- escaping keeps the first character, so `c` and the next one are no closer either
    refine List.isChain_cons.2 ⟨fun d hd h => ?_, ih⟩
    rw [head?_escapeClosers] at hd
    obtain ⟨rest, rfl⟩ := List.head?_eq_some_iff.1 hd
    exact hpair rest h.1 (by rw [h.2])
  | case3 => exact List.isChain_nil

/-- A body line is the indentation, a star, and the line's text without blanks at its end. -/
theorem bodyLine_eq (indent part : Text) :
    bodyLine indent part = indent ++ " *".toList ++ Text.trimEnd (' ' :: part) := by
  unfold bodyLine
  split
  next h =>
    obtain rfl := List.isEmpty_iff.1 h
    have hblank : Text.trimEnd [' '] = [] := by decide
    rw [hblank, List.append_nil]
  next =>
    have hstar : indent ++ " * ".toList ++ part = (indent ++ [' ']) ++ '*' :: (' ' :: part) := by
      simp
    rw [hstar, Text.trimEnd_append_cons (by decide)]
    simp

/-- What a row of a comment may be: the indentation, a star, and text on one line that neither
    closes the comment nor does so together with the star. -/
def IsRow (indent row : Text) : Prop :=
  ∃ rest, row = indent ++ " *".toList ++ rest ∧ rest.head? ≠ some '/' ∧ Unclosed rest ∧
    '\n' ∉ rest ∧ '\r' ∉ rest

theorem isRow_bodyLine {indent part : Text} (hpart : Unclosed part)
    (hbreak : ∀ c ∈ part, Text.isLineBreak c = false) : IsRow indent (bodyLine indent part) := by
  have hpre := Text.trimEnd_isPrefix (' ' :: part)
  have hnot : ∀ c, Text.isLineBreak c = true → c ∉ Text.trimEnd (' ' :: part) := by
    intro c hc hmem
    rcases List.mem_cons.1 (hpre.subset hmem) with rfl | hmem
    · exact absurd hc (by decide)
    · rw [hbreak c hmem] at hc
      exact absurd hc (by decide)
  refine ⟨Text.trimEnd (' ' :: part), bodyLine_eq indent part, ?_, ?_, hnot _ (by decide),
    hnot _ (by decide)⟩
  · -- what is left of a line that starts with a blank is nothing, or starts with it too
    obtain ⟨after, hafter⟩ := hpre
    cases hrest : Text.trimEnd (' ' :: part) with
    | nil => simp
    | cons c rest =>
      rw [hrest] at hafter
      obtain ⟨rfl, -⟩ := List.cons.inj hafter
      simp
  · have hline : Unclosed (' ' :: part) :=
      List.isChain_cons.2 ⟨fun d _ h => absurd h.1 (by decide), hpart⟩
    exact hline.of_subtext hpre.isInfix

theorem isRow_of_mem_bodyLines {indent line row : Text} (h : row ∈ bodyLines indent line) :
    IsRow indent row := by
  unfold bodyLines at h
  obtain ⟨part, hpart, rfl⟩ := List.mem_map.1 h
  split at hpart
  next hnil =>
    obtain rfl := List.mem_singleton.1 hpart
    exact isRow_bodyLine List.isChain_nil (by simp)
  next =>
    refine isRow_bodyLine ?_ (Text.not_lineBreak_of_mem_splitLines hpart)
    exact (unclosed_escapeClosers line).of_subtext ((Text.splitLines_infix _).2 part hpart)

/-! ### The whole comment -/

/-- The comment up to its closer. -/
def inside (newline indent : Text) (lines : List Text) : Text :=
  "/**".toList ++ (lines.flatMap (bodyLines indent)).flatMap (newline ++ ·) ++ newline ++ indent ++
    [' ']

theorem intercalate_cons (separator first : Text) (more : List Text) :
    List.intercalate separator (first :: more) = first ++ more.flatMap (separator ++ ·) := by
  induction more generalizing first with
  | nil => simp
  | cons second more ih =>
    rw [List.intercalate_cons_cons, ih, List.flatMap_cons]
    simp

theorem block_eq (newline indent : Text) (lines : List Text) :
    block newline indent lines = inside newline indent lines ++ "*/".toList := by
  rw [block, List.cons_append, intercalate_cons]
  simp [inside]

theorem isBlank_indentation {s : Text} {c : Char} (h : c ∈ indentation s) :
    Text.isBlank c = true := List.mem_takeWhile_imp h

theorem not_star_of_blank {s : Text} (h : ∀ c ∈ s, Text.isBlank c = true) : '*' ∉ s := by
  intro hmem
  exact absurd (h _ hmem) (by decide)

theorem newlineOf_cases (source : Bytes) :
    newlineOf source = ['\r', '\n'] ∨ newlineOf source = ['\n'] := by
  unfold newlineOf
  split
  · exact .inl rfl
  · exact .inr rfl

theorem isBlank_newlineOf {source : Bytes} {c : Char} (h : c ∈ newlineOf source) :
    Text.isBlank c = true := by
  rcases newlineOf_cases source with hn | hn
  · rw [hn, List.mem_pair] at h
    rcases h with rfl | rfl <;> decide
  · rw [hn, List.mem_singleton] at h
    rw [h]
    decide

theorem head?_newlineOf_append (source : Bytes) (s : Text) :
    (newlineOf source ++ s).head? ≠ some '/' := by
  rcases newlineOf_cases source with hn | hn <;> rw [hn] <;> simp

theorem not_star_before_row {source : Bytes} {indent : Text}
    (hindent : ∀ c ∈ indent, Text.isBlank c = true) :
    '*' ∉ newlineOf source ++ indent ++ [' '] := by
  refine not_star_of_blank fun c hc => ?_
  rcases List.mem_append.1 hc with hc | hc
  · rcases List.mem_append.1 hc with hc | hc
    · exact isBlank_newlineOf hc
    · exact hindent c hc
  · obtain rfl := List.mem_singleton.1 hc
    decide

/-- A row on a line of its own: no closer, and none together with what stands before. -/
theorem unclosed_row {source : Bytes} {indent row : Text}
    (hindent : ∀ c ∈ indent, Text.isBlank c = true) (hrow : IsRow indent row) :
    Unclosed (newlineOf source ++ row) := by
  obtain ⟨rest, rfl, hhead, hrest, -, -⟩ := hrow
  have hstar : Unclosed ((newlineOf source ++ indent ++ [' ']) ++ ['*']) :=
    (Unclosed.of_no_star (not_star_before_row hindent)).append (List.isChain_singleton _) (by simp)
  have := hstar.append hrest hhead
  simpa using this

theorem head?_rows (source : Bytes) (rows : List Text) :
    (rows.flatMap (newlineOf source ++ ·)).head? ≠ some '/' := by
  cases rows with
  | nil => simp
  | cons row rows =>
    rw [List.flatMap_cons, List.append_assoc]
    exact head?_newlineOf_append source _

theorem unclosed_rows {source : Bytes} {indent : Text} {rows : List Text}
    (hindent : ∀ c ∈ indent, Text.isBlank c = true) (hrows : ∀ row ∈ rows, IsRow indent row) :
    Unclosed (rows.flatMap (newlineOf source ++ ·)) := by
  induction rows with
  | nil => exact List.isChain_nil
  | cons row rows ih =>
    rw [List.flatMap_cons]
    exact (unclosed_row hindent (hrows row List.mem_cons_self)).append
      (ih fun r hr => hrows r (List.mem_cons_of_mem _ hr)) (head?_rows source rows)

/-- Nothing before the closer of a comment closes it. -/
theorem unclosed_inside (source : Bytes) {indent : Text} (lines : List Text)
    (hindent : ∀ c ∈ indent, Text.isBlank c = true) :
    Unclosed (inside (newlineOf source) indent lines) := by
  have hrows : Unclosed ((lines.flatMap (bodyLines indent)).flatMap (newlineOf source ++ ·)) := by
    refine unclosed_rows hindent fun row hrow => ?_
    obtain ⟨line, -, hrow⟩ := List.mem_flatMap.1 hrow
    exact isRow_of_mem_bodyLines hrow
  have hopen : Unclosed "/**".toList := by decide
  have hlast : '*' ∉ newlineOf source ++ indent ++ [' '] := not_star_before_row hindent
  -- the opener ends in a star, so no slash may follow it; nor may one follow the rows
  have := (hopen.append hrows (head?_rows source _)).append (Unclosed.of_no_star hlast)
    (by rw [List.append_assoc]; exact head?_newlineOf_append source _)
  simpa [inside] using this

/-! ### Scanning -/

/-- The closer of a block comment is found where it stands, if none stands before it. -/
theorem blockEnd_append {s rest : Bytes}
    (h : (s ++ [0x2A]).IsChain fun a b => ¬ (a = 0x2A ∧ b = 0x2F)) :
    blockEnd (s ++ 0x2A :: 0x2F :: rest) = (s ++ [0x2A, 0x2F], rest) := by
  induction s with
  | nil => rfl
  | cons b s ih =>
    obtain ⟨hhead, htail⟩ := List.isChain_cons.1 h
    rw [List.cons_append, blockEnd.eq_3, ih htail]
    · rfl
    · intro more hb hmore
      -- the byte after `b` is the first of `s ++ [0x2A]`
      refine hhead 0x2F ?_ ⟨hb, rfl⟩
      cases s with
      | nil => exact absurd (List.cons.inj hmore).1 (by decide)
      | cons d s =>
        rw [(List.cons.inj hmore).1]
        rfl

/-- A closer in the bytes of a text is a closer in the text. -/
theorem isChain_encode {s : Text} (h : Unclosed s) :
    (Utf8.encode s).IsChain fun a b => ¬ (a = 0x2A ∧ b = 0x2F) := by
  induction s with
  | nil => exact List.isChain_nil
  | cons c s ih =>
    obtain ⟨hhead, htail⟩ := List.isChain_cons.1 h
    rw [Utf8.encode_cons]
    refine List.isChain_append.2 ⟨?_, ih htail, fun a ha b hb hab => ?_⟩
    · -- within the bytes of one character
      rcases Nat.lt_or_ge c.toNat 0x80 with hc | hc
      · rw [Utf8.encodeChar_ascii hc]
        exact List.isChain_singleton _
      · refine isChain_of_not_mem fun hmem => ?_
        exact absurd (Utf8.le_of_mem_encodeChar hc _ hmem) (by decide)
    · -- from one character to the next: both bytes are ASCII, so both characters are known
      obtain ⟨rfl, rfl⟩ := hab
      have hstar : c = '*' :=
        Utf8.eq_of_mem_encodeChar (d := '*') (by decide) (List.mem_of_getLast? ha)
      cases s with
      | nil => simp at hb
      | cons d s =>
        refine hhead d rfl ⟨hstar, Utf8.eq_of_mem_encodeChar (d := '/') (by decide) ?_⟩
        rw [Utf8.encode_cons, List.head?_append_of_ne_nil _ String.utf8EncodeChar_ne_nil] at hb
        exact List.mem_of_head? hb

/-- The blanks between a comment and the code after it. -/
def gap (source : Bytes) (offset : Nat) : Text :=
  let head := lineHead source offset
  if (Text.trim head).isEmpty then newlineOf source ++ indentation head else [' ']

/-- The block comment at an offset of a source, without the blanks after it. -/
def blockAt (lines : List Text) (source : Bytes) (offset : Nat) : Text :=
  block (newlineOf source) (indentation (lineHead source offset)) lines

theorem layout_eq (lines : List Text) (source : Bytes) (offset : Nat) :
    layout lines source offset = blockAt lines source offset ++ gap source offset := by
  simp only [layout, gap, blockAt]
  split <;> simp

theorem isBlank_gap {source : Bytes} {offset : Nat} {c : Char} (h : c ∈ gap source offset) :
    Text.isBlank c = true := by
  simp only [gap] at h
  split at h
  · rcases List.mem_append.1 h with h | h
    · exact isBlank_newlineOf h
    · exact isBlank_indentation h
  · obtain rfl := List.mem_singleton.1 h
    decide

theorem blockAt_eq (lines : List Text) (source : Bytes) (offset : Nat) :
    blockAt lines source offset =
      inside (newlineOf source) (indentation (lineHead source offset)) lines ++ "*/".toList :=
  block_eq _ _ lines

/-- Without the blanks behind it, a comment is the block comment. -/
theorem trimEnd_layout (lines : List Text) (source : Bytes) (offset : Nat) :
    Text.trimEnd (layout lines source offset) = blockAt lines source offset := by
  have hclose : "*/".toList = ['*'] ++ '/' :: [] := rfl
  rw [layout_eq, Text.trimEnd_append_blank fun c => isBlank_gap, blockAt_eq, hclose,
    ← List.append_assoc, Text.trimEnd_append_cons (by decide)]
  rfl

/-- The opening of a comment is followed by a line end. -/
theorem inside_eq (source : Bytes) (indent : Text) (lines : List Text) :
    ∃ more, inside (newlineOf source) indent lines = "/**".toList ++ newlineOf source ++ more := by
  unfold inside
  cases lines.flatMap (bodyLines indent) with
  | nil => exact ⟨indent ++ [' '], by simp⟩
  | cons row rows =>
    refine ⟨row ++ rows.flatMap (newlineOf source ++ ·) ++ newlineOf source ++ indent ++ [' '], ?_⟩
    simp

/-- The bytes of a comment make it a doc comment. -/
theorem isDocComment_blockAt (lines : List Text) (source : Bytes) (offset : Nat) :
    isDocComment (Utf8.encode (blockAt lines source offset)) = true := by
  obtain ⟨more, hmore⟩ := inside_eq source (indentation (lineHead source offset)) lines
  rw [blockAt_eq, hmore]
  rcases newlineOf_cases source with hn | hn <;> rw [hn] <;> rfl

theorem encode_opened (s : Text) (tail : Bytes) :
    Utf8.encode ("/**".toList ++ s ++ "*/".toList) ++ tail =
      0x2F :: 0x2A :: (Utf8.encode ('*' :: s) ++ 0x2A :: 0x2F :: tail) := by
  have hstar : String.utf8EncodeChar '*' = [0x2A] := by decide
  have hslash : String.utf8EncodeChar '/' = [0x2F] := by decide
  simp [hstar, hslash]

/-- A scan over an unclosed text between an opener and a closer finds the two. -/
theorem comments_opened {s : Text} (h : Unclosed ("/**".toList ++ s)) (tail : Bytes) :
    comments (Utf8.encode ("/**".toList ++ s ++ "*/".toList) ++ tail) =
      Utf8.encode ("/**".toList ++ s ++ "*/".toList) :: comments tail := by
  -- past the two bytes of the opener, the scan looks for the closer
  have hbody : Unclosed ('*' :: s ++ ['*']) := by
    refine Unclosed.append (h.of_subtext ⟨['/', '*'], [], by simp⟩) (List.isChain_singleton _) ?_
    simp
  have hchain := isChain_encode hbody
  rw [Utf8.encode_append] at hchain
  rw [encode_opened, comments, blockEnd_append hchain]
  have hself := encode_opened s []
  rw [List.append_nil] at hself
  rw [hself]

/-- A scan over a comment finds it whole, and goes on right after it. -/
theorem comments_layout (lines : List Text) (source : Bytes) (offset : Nat) (after : Bytes) :
    comments (Utf8.encode (layout lines source offset) ++ after) =
      Utf8.encode (blockAt lines source offset) ::
        comments (Utf8.encode (gap source offset) ++ after) := by
  have hinside := unclosed_inside source lines
    fun c hc => isBlank_indentation (s := lineHead source offset) hc
  obtain ⟨more, hmore⟩ := inside_eq source (indentation (lineHead source offset)) lines
  rw [hmore, List.append_assoc] at hinside
  rw [layout_eq, Utf8.encode_append, List.append_assoc, blockAt_eq, hmore,
    List.append_assoc "/**".toList, comments_opened hinside]

/-! ### One doc comment -/

/-- The rows of a comment after its first line. -/
def rowsAt (lines : List Text) (source : Bytes) (offset : Nat) : List Text :=
  let indent := indentation (lineHead source offset)
  lines.flatMap (bodyLines indent) ++ [indent ++ " */".toList]

/-- Every row is the indentation of the anchor's line, a star, and text without a line end. -/
theorem row_shape {lines : List Text} {source : Bytes} {offset : Nat} {row : Text}
    (h : row ∈ rowsAt lines source offset) :
    ∃ rest, row = indentation (lineHead source offset) ++ " *".toList ++ rest ∧
      '\n' ∉ rest ∧ '\r' ∉ rest := by
  rcases List.mem_append.1 h with h | h
  · obtain ⟨line, -, hrow⟩ := List.mem_flatMap.1 h
    obtain ⟨rest, rfl, -, -, hlf, hcr⟩ := isRow_of_mem_bodyLines hrow
    exact ⟨rest, rfl, hlf, hcr⟩
  · obtain rfl := List.mem_singleton.1 h
    exact ⟨['/'], by simp, by decide, by decide⟩

/-- A generated comment is exactly one doc comment, whatever its lines hold: it opens with the
    marker of a doc comment, its only closer ends it, its rows stand at the indentation of the
    anchor's line, and a scan over the source finds it whole. -/
theorem layout_one_docComment (lines : List Text) (source : Bytes) (offset : Nat) :
    ∃ (rows : List Text) (opened after : Text),
      layout lines source offset = opened ++ "*/".toList ++ after ∧
      "/**".toList <+: opened ∧
      (∀ c ∈ after, Text.isBlank c = true) ∧
      (∀ a b, layout lines source offset = a ++ "*/".toList ++ b → a = opened) ∧
      opened ++ "*/".toList = List.intercalate (newlineOf source) ("/**".toList :: rows) ∧
      (∀ row ∈ rows, ∃ rest, row = indentation (lineHead source offset) ++ " *".toList ++ rest ∧
        '\n' ∉ rest ∧ '\r' ∉ rest) ∧
      (∀ tail, comments (Utf8.encode (layout lines source offset) ++ tail) =
        Utf8.encode (opened ++ "*/".toList) :: comments (Utf8.encode after ++ tail)) ∧
      isDocComment (Utf8.encode (opened ++ "*/".toList)) = true := by
  have hblock := blockAt_eq lines source offset
  have hlayout := layout_eq lines source offset
  rw [hblock] at hlayout
  refine ⟨rowsAt lines source offset, _, gap source offset, hlayout, ?_, fun c => isBlank_gap, ?_,
    ?_, fun row => row_shape, fun tail => ?_, ?_⟩
  · obtain ⟨more, hmore⟩ := inside_eq source (indentation (lineHead source offset)) lines
    rw [hmore, List.append_assoc]
    exact List.prefix_append _ _
  · intro a b hab
    have hunclosed := unclosed_inside source lines
      fun c hc => isBlank_indentation (s := lineHead source offset) hc
    -- nothing before the closer closes, and nothing behind it can
    have hgap : '*' ∉ gap source offset := not_star_of_blank fun c => isBlank_gap
    rw [hlayout] at hab
    exact hunclosed.eq_of_append_eq hgap (b := b) (by simpa using hab.symm)
  · rw [← hblock]
    rfl
  · rw [comments_layout, hblock]
  · rw [← hblock]
    exact isDocComment_blockAt lines source offset

end DocAnnotator.Comment
