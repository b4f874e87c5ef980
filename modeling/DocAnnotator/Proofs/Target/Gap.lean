import Mathlib.Data.List.Infix
import DocAnnotator.Proofs.Comment.Layout
import DocAnnotator.Proofs.Target.Documented

/-! ## The gap before a node

    Whether a node is documented is asked twice: of the comment nodes right before it, and of a scan
    over the bytes of the gap before it. Where the gap holds nothing but blanks and those comments,
    both give the same answer.

    - `Trivia`, `Gap`: what stands between two nodes, piece by piece.
    - `Gap.comments_bytes`: the scan cuts a gap into just these pieces.
    - `Trivia.isDocComment_iff`: which of them are doc comments.
    - `Gap.bytes_of_spans`: comment nodes with the spans of the pieces have their bytes.
-/

namespace DocAnnotator

/-- No closer of a block comment stands in the bytes. -/
def NoCloser (s : Bytes) : Prop := ¬ [0x2A, 0x2F] <:+: s

instance (s : Bytes) : Decidable (NoCloser s) := inferInstanceAs (Decidable (¬ _))

namespace NoCloser

theorem tail {b : UInt8} {s : Bytes} (h : NoCloser (b :: s)) : NoCloser s :=
  fun hs => h (hs.trans (List.suffix_cons b s).isInfix)

theorem not_head {s : Bytes} : ¬ NoCloser (0x2A :: 0x2F :: s) :=
  fun h => h ⟨[], s, rfl⟩

/-- A star at the end does not close either. -/
theorem isChain {s : Bytes} (h : NoCloser s) :
    (s ++ [0x2A]).IsChain fun a b => ¬ (a = 0x2A ∧ b = 0x2F) := by
  induction s with
  | nil => exact List.isChain_singleton _
  | cons b s ih =>
    refine List.isChain_cons.2 ⟨?_, ih h.tail⟩
    rintro d hd ⟨rfl, rfl⟩
    cases s with
    | nil => simp at hd
    | cons e s =>
      obtain rfl : e = 0x2F := by simpa using hd
      exact not_head h

/-- Without a closer, a block comment goes on to the end. -/
theorem blockEnd_eq {s : Bytes} (h : NoCloser s) : blockEnd s = (s, []) := by
  fun_induction blockEnd s with
  | case1 => rfl
  | case2 rest => exact absurd h not_head
  | case3 b rest _ inside after hrest ih =>
    obtain ⟨rfl, rfl⟩ := Prod.mk.inj (hrest.symm.trans (ih h.tail))
    rfl

end NoCloser

/-! ### Pieces of a gap -/

/-- A piece of the gap between two nodes. -/
inductive Trivia where
  /-- A byte outside all comments. -/
  | byte (b : UInt8) (hb : b ≠ 0x2F)
  /-- A line comment. -/
  | line (text : Bytes) (htext : 0x0A ∉ text)
  /-- A block comment with its closer. -/
  | block (text : Bytes) (htext : NoCloser text)
  /-- A block comment that nothing closes. -/
  | unclosed (text : Bytes) (htext : NoCloser text)

namespace Trivia

/-- How a piece is written. -/
def bytes : Trivia → Bytes
  | byte b _ => [b]
  | line text _ => 0x2F :: 0x2F :: text
  | block text _ => 0x2F :: 0x2A :: (text ++ [0x2A, 0x2F])
  | unclosed text _ => 0x2F :: 0x2A :: text

/-- Is the piece a comment? -/
def isComment : Trivia → Bool
  | byte _ _ => false
  | _ => true

/-- Is the piece a block comment? -/
def isBlock : Trivia → Bool
  | block _ _ | unclosed _ _ => true
  | _ => false

/-- Where a piece can end: a line comment before a line feed or at the end of the gap, and a block
    comment without closer only at the end. -/
def EndsBefore (rest : Bytes) : Trivia → Prop
  | line _ _ => rest = [] ∨ rest.head? = some 0x0A
  | unclosed _ _ => rest = []
  | _ => True

/-- The bytes of some pieces. -/
def written (items : List Trivia) : Bytes := items.flatMap bytes

/-- The spans of the comments among some pieces, the first of which starts at `start`. -/
def spans (start : Nat) : List Trivia → List (Nat × Nat)
  | [] => []
  | item :: rest =>
    let stop := start + item.bytes.length
    if item.isComment then (start, stop) :: spans stop rest else spans stop rest

/-- Every piece ends where it can. -/
def Lexical : List Trivia → Prop
  | [] => True
  | item :: rest => item.EndsBefore (written rest) ∧ Lexical rest

/-- A scan takes one piece off, and goes on right after it. -/
theorem comments_append (item : Trivia) {rest : Bytes} (h : item.EndsBefore rest) :
    comments (item.bytes ++ rest) =
      if item.isComment then item.bytes :: comments rest else comments rest := by
  cases item with
  | byte b hb =>
    show comments (b :: rest) = comments rest
    rw [comments.eq_4]
    · intro more hb'
      exact absurd hb' hb
    · intro more hb'
      exact absurd hb' hb
  | line text htext =>
    have hpass : ∀ b ∈ text, (b != 0x0A) = true := by
      intro b hb
      simpa using fun h : b = 0x0A => htext (h ▸ hb)
    -- the line goes on through the text, and stops at what follows
    have hstop : rest.takeWhile (· != 0x0A) = [] ∧ rest.dropWhile (· != 0x0A) = rest := by
      rcases h with rfl | h
      · exact ⟨rfl, rfl⟩
      · obtain ⟨more, rfl⟩ := List.head?_eq_some_iff.1 h
        exact ⟨rfl, rfl⟩
    show comments (0x2F :: 0x2F :: (text ++ rest)) = (0x2F :: 0x2F :: text) :: comments rest
    rw [comments, List.takeWhile_append_of_pos hpass, List.dropWhile_append_of_pos hpass, hstop.1,
      hstop.2, List.append_nil]
  | block text htext =>
    have hend : blockEnd (text ++ 0x2A :: 0x2F :: rest) = (text ++ [0x2A, 0x2F], rest) :=
      Comment.blockEnd_append htext.isChain
    have hbytes : (Trivia.block text htext).bytes ++ rest =
        0x2F :: 0x2A :: (text ++ 0x2A :: 0x2F :: rest) := by
      simp [bytes]
    rw [hbytes, comments, hend]
    rfl
  | unclosed text htext =>
    obtain rfl : rest = [] := h
    show comments (0x2F :: 0x2A :: (text ++ [])) = (0x2F :: 0x2A :: text) :: comments []
    rw [List.append_nil, comments.eq_3, htext.blockEnd_eq]

/-- The doc comments are the block comments that open with two stars, but for the shortest one. -/
theorem isDocComment_iff (item : Trivia) (h : item.isComment = true) :
    isDocComment item.bytes = true ↔
      item.isBlock = true ∧ [0x2F, 0x2A, 0x2A] <+: item.bytes ∧
        item.bytes ≠ [0x2F, 0x2A, 0x2A, 0x2F] := by
  have hblock : ∀ s : Bytes, isDocComment (0x2F :: 0x2A :: s) = true ↔
      [0x2F, 0x2A, 0x2A] <+: 0x2F :: 0x2A :: s ∧ 0x2F :: 0x2A :: s ≠ [0x2F, 0x2A, 0x2A, 0x2F] := by
    intro s
    cases s with
    | nil => simp [isDocComment]
    | cons b s =>
      by_cases hb : b = 0x2A
      · subst hb
        simp [isDocComment]
      · simp [isDocComment, hb, Ne.symm hb]
  cases item with
  | byte b hb => cases h
  | line text htext => simp [bytes, isBlock, isDocComment]
  | block text htext => exact (hblock _).trans (and_iff_right rfl).symm
  | unclosed text htext => exact (hblock _).trans (and_iff_right rfl).symm

end Trivia

/-- A gap that consists of comments, and of bytes that are no slash. -/
structure Gap where
  items : List Trivia
  lexical : Trivia.Lexical items

namespace Gap

/-- How the gap is written. -/
def bytes (gap : Gap) : Bytes := Trivia.written gap.items

/-- The comments of the gap. -/
def comments (gap : Gap) : List Trivia := gap.items.filter Trivia.isComment

/-- The spans of its comments in a source where the gap starts at `start`. -/
def spans (gap : Gap) (start : Nat) : List (Nat × Nat) := Trivia.spans start gap.items

/-- The scan finds the comments of a gap, in order, and nothing else. -/
theorem comments_bytes (gap : Gap) :
    DocAnnotator.comments gap.bytes = gap.comments.map Trivia.bytes := by
  obtain ⟨items, hitems⟩ := gap
  show DocAnnotator.comments (Trivia.written items) =
    (items.filter Trivia.isComment).map Trivia.bytes
  induction items with
  | nil => rw [Trivia.written, List.flatMap_nil, DocAnnotator.comments]; rfl
  | cons item rest ih =>
    obtain ⟨hends, hrest⟩ := hitems
    have hwritten : Trivia.written (item :: rest) = item.bytes ++ Trivia.written rest := rfl
    rw [hwritten, item.comments_append hends, ih hrest, List.filter_cons]
    by_cases hcomment : item.isComment = true
    · simp [hcomment]
    · simp [hcomment]

/-- Nodes with the spans of the comments have the bytes of the comments. -/
theorem bytes_of_spans {source : Bytes} {items : List Trivia} {start stop : Nat}
    (h : (source.take stop).drop start = Trivia.written items) :
    (Trivia.spans start items).map (fun span => (source.take span.2).drop span.1) =
      (items.filter Trivia.isComment).map Trivia.bytes := by
  induction items generalizing start with
  | nil => rfl
  | cons item rest ih =>
    have hwritten : Trivia.written (item :: rest) = item.bytes ++ Trivia.written rest := rfl
    rw [hwritten] at h
    -- the first piece is a slice of the source, and the others are what follows it
    have hlength : item.bytes.length ≤ stop - start := by
      have := congrArg List.length h
      simp only [List.length_drop, List.length_take, List.length_append] at this
      omega
    have hitem : (source.take (start + item.bytes.length)).drop start = item.bytes := by
      have htake := congrArg (List.take item.bytes.length) h
      rw [List.take_left, List.drop_take, List.take_take, Nat.min_eq_left hlength] at htake
      rw [List.drop_take, Nat.add_sub_cancel_left]
      exact htake
    have hrest : (source.take stop).drop (start + item.bytes.length) = Trivia.written rest := by
      rw [← List.drop_drop, h, List.drop_left]
    rw [Trivia.spans, List.filter_cons]
    by_cases hcomment : item.isComment = true
    · simp only [hcomment, if_true, List.map_cons, hitem, ih hrest]
    · simp only [hcomment, if_false, Bool.false_eq_true, ih hrest]

end Gap

/-! ### Two ways to look for a doc comment -/

/-- The span of a node. -/
def Node.span (node : Node) : Nat × Nat := (node.start, node.stop)

namespace Place

/-- The comments right before a node, nearest first. -/
def leadingComments (place : Place) : List Node := place.before.takeWhile Node.isComment

/-- The bytes of the gap before a node. -/
def gapBytes (source : Bytes) (place : Place) : Bytes :=
  (source.take place.node.start).drop place.gapStart

/-- The gap before a node holds its leading comments, each as one comment of the gap, and otherwise
    no slash. -/
structure HasGap (source : Bytes) (place : Place) (gap : Gap) : Prop where
  bytes : place.gapBytes source = gap.bytes
  spans : place.leadingComments.reverse.map Node.span = gap.spans place.gapStart

/-- The leading comments are the comments that the scan finds. -/
theorem HasGap.map_bytes {source : Bytes} {place : Place} {gap : Gap}
    (h : place.HasGap source gap) :
    place.leadingComments.reverse.map (Node.bytes source) =
      DocAnnotator.comments (place.gapBytes source) := by
  have hbytes : place.leadingComments.reverse.map (Node.bytes source) =
      (place.leadingComments.reverse.map Node.span).map fun span =>
        (source.take span.2).drop span.1 := by
    rw [List.map_map]
    rfl
  rw [hbytes, h.spans, h.bytes, gap.comments_bytes]
  exact Gap.bytes_of_spans h.bytes

end Place

/-- The scan over a gap finds its comments, in order, so that it says yes exactly for a block
    comment that opens with two stars and is not the shortest one, whatever stands inside the
    others. Where the gap before a node consists of its leading comments and of bytes that are no
    slash, the comment nodes and the scan agree, and the node is documented exactly if one of the
    comment nodes is a doc comment. -/
theorem docComment_detectors_agree :
    (∀ gap : Gap, comments gap.bytes = gap.comments.map Trivia.bytes ∧
      ((comments gap.bytes).any isDocComment = true ↔
        ∃ c ∈ gap.comments, c.isBlock = true ∧ [0x2F, 0x2A, 0x2A] <+: c.bytes ∧
          c.bytes ≠ [0x2F, 0x2A, 0x2A, 0x2F])) ∧
    ∀ (source : Bytes) (anchor : Place) (gap : Gap), anchor.HasGap source gap →
      anchor.leadingComments.any (fun c => isDocComment (c.bytes source)) =
        (comments (anchor.gapBytes source)).any isDocComment ∧
      (anchor.isDocumented source = true ↔
        ∃ c ∈ anchor.leadingComments, isDocComment (c.bytes source) = true) := by
  refine ⟨fun gap => ⟨gap.comments_bytes, ?_⟩, fun source anchor gap hgap => ?_⟩
  · rw [gap.comments_bytes, List.any_map, List.any_eq_true]
    refine exists_congr fun c => and_congr_right fun hc => ?_
    exact c.isDocComment_iff (List.mem_filter.1 hc).2
  · have hagree : anchor.leadingComments.any (fun c => isDocComment (c.bytes source)) =
        (comments (anchor.gapBytes source)).any isDocComment := by
      rw [← hgap.map_bytes, List.any_map, List.any_reverse]
      rfl
    refine ⟨hagree, ?_⟩
    have hdocumented : anchor.isDocumented source =
        (anchor.leadingComments.any (fun c => isDocComment (c.bytes source)) ||
          (comments (anchor.gapBytes source)).any isDocComment) := rfl
    rw [hdocumented, ← hagree, Bool.or_self, List.any_eq_true]

/-- Four comments between two statements; only the last one is a doc comment. -/
def globSource : Bytes := Utf8.encode "a\n// b/**/*.ts\n/**//*/ /** */\n/***/\nf".toList

/-- The second statement of `globSource`. -/
def globAnchor : Place :=
  let comment (start stop : Nat) : Node := ⟨"comment", start, stop, true, none, []⟩
  let first : Node := ⟨"expression_statement", 0, 1, true, none, []⟩
  let second : Node := ⟨"expression_statement", 36, 37, true, none, []⟩
  let before := [comment 30 35, comment 19 29, comment 15 19, comment 2 14, first]
  ⟨second, [⟨before, ⟨"program", 0, 37, true, none, before.reverse ++ [second]⟩⟩]⟩

/-- The gap between the two statements, piece by piece. -/
def globGap : Gap where
  items :=
    [.byte 0x0A (by decide), .line (Utf8.encode " b/**/*.ts".toList) (by decide),
      .byte 0x0A (by decide), .block [] (by decide),
      .block (Utf8.encode "/ /** ".toList) (by decide), .byte 0x0A (by decide),
      .block [0x2A] (by decide), .byte 0x0A (by decide)]
  lexical := ⟨trivial, .inr rfl, trivial, trivial, trivial, trivial, trivial, trivial, trivial⟩

/-- The openers inside the first three comments do not count. -/
theorem docComment_detectors_agree_globs :
    globAnchor.HasGap globSource globGap ∧
    globAnchor.leadingComments.map (fun c => isDocComment (c.bytes globSource)) =
      [true, false, false, false] ∧
    globAnchor.isDocumented globSource = true := by
  have hgap : globAnchor.HasGap globSource globGap := ⟨by decide, by decide⟩
  have hcomments : globAnchor.leadingComments.map (fun c => isDocComment (c.bytes globSource)) =
      [true, false, false, false] := by decide
  refine ⟨hgap, hcomments, ((docComment_detectors_agree.2 _ _ _ hgap).2).2 ?_⟩
  have hdoc : true ∈
      globAnchor.leadingComments.map (fun c => isDocComment (c.bytes globSource)) := by
    rw [hcomments]
    exact List.mem_cons_self
  obtain ⟨c, hc, htrue⟩ := List.mem_map.1 hdoc
  exact ⟨c, hc, htrue⟩

end DocAnnotator
