import DocAnnotator.Tree.Place

/-! ## Doc comments in front of a node

    - `isDocComment`: a block comment that opens with two stars and is not empty.
    - `comments`: the comments in a gap between two nodes.
    - `Place.isDocumented`: does a doc comment lead the node?
-/

namespace DocAnnotator

/-- Does the text of a comment make it a doc comment? The shortest block comment does not. -/
def isDocComment : Bytes → Bool
  | 0x2F :: 0x2A :: 0x2A :: rest => rest != [0x2F]
  | _ => false

/-- A block comment after its opener: up to and with the first closer, or to the end. -/
def blockEnd : Bytes → Bytes × Bytes
  | [] => ([], [])
  | 0x2A :: 0x2F :: rest => ([0x2A, 0x2F], rest)
  | b :: rest =>
    let (inside, after) := blockEnd rest
    (b :: inside, after)

theorem length_blockEnd (s : Bytes) : (blockEnd s).2.length ≤ s.length := by
  fun_induction blockEnd s with
  | case1 => simp
  | case2 rest => simp only [List.length_cons]; omega
  | case3 b rest _ inside after h ih =>
    rw [h] at ih
    simp only [List.length_cons] at ih ⊢
    omega

/-- The comments in a gap, in order. A line comment ends before a line feed. -/
def comments : Bytes → List Bytes
  | [] => []
  | 0x2F :: 0x2F :: rest =>
    (0x2F :: 0x2F :: rest.takeWhile (· != 0x0A)) :: comments (rest.dropWhile (· != 0x0A))
  | 0x2F :: 0x2A :: rest => (0x2F :: 0x2A :: (blockEnd rest).1) :: comments (blockEnd rest).2
  | _ :: rest => comments rest
  termination_by gap => gap.length
  decreasing_by
  · have := (List.dropWhile_suffix (l := rest) (fun b : UInt8 => b != 0x0A)).length_le
    simp only [List.length_cons]
    omega
  · have := length_blockEnd rest
    simp only [List.length_cons]
    omega
  · simp

namespace Place

/-- Where the gap before a node starts: after the last sibling that is no comment, or else where
    its parent starts. -/
def gapStart (place : Place) : Nat :=
  match place.before.find? (!·.isComment), place.above with
  | some sibling, _ => sibling.stop
  | none, level :: _ => level.parent.start
  | none, [] => 0

/-- Is one of the comments directly before the node a doc comment, or is there one in the gap
    before it? -/
def isDocumented (source : Bytes) (place : Place) : Bool :=
  (place.before.takeWhile Node.isComment).any
      (fun c => isDocComment ((source.take c.stop).drop c.start)) ||
    (comments ((source.take place.node.start).drop place.gapStart)).any isDocComment

end Place

end DocAnnotator
