import DocAnnotator.Proofs.Target.Standing

/-! ## Functions in the body of a loop

    The same statement as the body of a loop and in a block. All that is declared inside it is found
    in both; what it declares itself is not found below a `for` loop.

    - `Node.isLoop`: the loops.
    - `Place.NamesFunction`: the functions that could have a doc comment.
    - `found_loopBody`: what is found in the loop and in the block.
-/

namespace DocAnnotator

/-! ### Loops and blocks -/

/-- The loops of the language. -/
def Node.isLoop (node : Node) : Bool :=
  Place.isForLoop node || node.kind == "while_statement" || node.kind == "do_statement"

theorem Node.IsPlain.of_isLoop {node : Node} (h : node.isLoop = true) : node.IsPlain := by
  simp only [isLoop, Place.isForLoop, Bool.or_eq_true, beq_iff_eq] at h
  constructor <;> rcases h with ((h | h) | h) | h <;> simp [Place.isDeclarationList, h]

theorem Node.IsPlain.of_block {node : Node} (h : node.kind = "statement_block") : node.IsPlain := by
  constructor <;> simp [Place.isDeclarationList, h]

/-- Leaving out members takes nothing away exactly if they have no value. -/
theorem length_filterMap_filter_eq_iff {α β : Type} (f : α → Option β) (keep : α → Bool)
    (l : List α) :
    ((l.filter keep).filterMap f).length = (l.filterMap f).length ↔
      ∀ a ∈ l, keep a = false → f a = none := by
  have hsplit := List.countP_eq_countP_filter_add l (fun a => (f a).isSome) keep
  rw [List.length_filterMap_eq_countP, List.length_filterMap_eq_countP, hsplit, Nat.left_eq_add,
    List.countP_eq_zero]
  simp

/-- A named function: declared, or the value of a variable. -/
inductive Place.NamesFunction (q : Place) : Prop
  | declared (hfunction : q.node.isFunctionDeclaration = true)
      (hname : (q.node.child? "name").isSome = true)
  | bound {value : Node} (hkind : q.node.kind = "variable_declarator")
      (hname : (q.node.child? "name").isSome = true)
      (hvalue : q.node.child? "value" = some value) (hfunction : value.isFunctionValue = true)

/-- A named function is left out only as a variable in the head of a loop. -/
theorem Place.NamesFunction.documentable?_eq_none_iff {q : Place} (h : q.NamesFunction) :
    q.documentable? = none ↔ q.node.kind = "variable_declarator" ∧ q.InLoopHead := by
  refine ⟨fun hnone => ?_, fun ⟨hkind, hhead⟩ => hhead.documentable? hkind⟩
  have hnot : ¬ q.IsDocumentable := by simp [isDocumentable_iff, hnone]
  cases h with
  | declared hfunction hname => exact absurd (.declared hfunction hname) hnot
  | bound hkind hname hvalue hfunction =>
    exact ⟨hkind, by_contra fun hhead => hnot (.bound hkind hname hvalue hfunction hhead)⟩

/-- A statement stands right below a loop, and the same statement in a block; a doc comment leads
    both or neither. The same functions are found in both, but for the declarators of the statement
    itself below a `for` loop: those count as in its head. So the same is found exactly if no such
    declarator binds a function without a doc comment. Nothing but the head of a loop makes a named
    function be left out, and what is found is a part of what is collected from the tree. -/
theorem found_loopBody {source source' part : Bytes} {distance distance' : Nat} {statement : Node}
    {body inner loop block : Place} (hbody : Stands source body statement part distance)
    (hparent : body.parent? = some loop) (hloop : loop.node.isLoop = true)
    (hinner : Stands source' inner statement part distance')
    (hparent' : inner.parent? = some block) (hblock : block.node.kind = "statement_block")
    (hled : inner.isDocumented source' = body.isDocumented source) :
    (body.found source).map Target.outline =
        ((inner.subtree.filter fun q => !loop.leavesOut inner q).filterMap
          (Place.target? source')).map Target.outline ∧
      ((body.found source).map Target.outline = (inner.found source').map Target.outline ↔
        ∀ q ∈ inner.subtree, loop.leavesOut inner q = true → q.target? source' = none) ∧
      (∀ q : Place, q.NamesFunction →
        (q.documentable? = none ↔ q.node.kind = "variable_declarator" ∧ q.InLoopHead)) ∧
      (∀ root, TellsAnchors root → Below root body → body.found source <:+: collect source root) ∧
      (∀ root, TellsAnchors root → Below root inner →
        inner.found source' <:+: collect source' root) := by
  have hnoLoop : Place.isForLoop block.node = false := by simp [Place.isForLoop, hblock]
  have hfound : (body.found source).map Target.outline =
      ((inner.subtree.filter fun q => !loop.leavesOut inner q).filterMap
        (Place.target? source')).map Target.outline := by
    rw [hbody.found_outline hparent (.of_isLoop hloop),
      hinner.found_outline_but hparent' (.of_block hblock) hnoLoop, hled]
  refine ⟨hfound, ⟨fun hsame => ?_, fun hnone => ?_⟩, fun q hq => hq.documentable?_eq_none_iff,
    fun root htells hbelow => hbelow.found_infix htells source,
    fun root htells hbelow => hbelow.found_infix htells source'⟩
  · -- as many are found without the declarators as with them
    have hlength := congrArg List.length (hfound.symm.trans hsame)
    rw [List.length_map, List.length_map, Place.found, length_filterMap_filter_eq_iff] at hlength
    exact fun q hq hout => hlength q hq (by rw [hout]; rfl)
  · rw [hfound, Place.found, List.filterMap_filter]
    refine congrArg (List.map _) (List.filterMap_congr fun q hq => ?_)
    cases hout : loop.leavesOut inner q with
    | true => exact (hnone q hq hout).symm
    | false => rfl

/-! ### One statement in three places -/

/-- The text `var f = () => 1;`. -/
def boundArrowText : Bytes := Utf8.encode "var f = () => 1;".toList

/-- The tree of the statement `var f = () => 1;` on its own. -/
def boundArrow : Node :=
  ⟨"variable_declaration", 0, 16, true, none,
    [⟨"var", 0, 3, false, none, []⟩,
     ⟨"variable_declarator", 4, 15, true, none,
      [⟨"identifier", 4, 5, true, some "name", []⟩,
       ⟨"=", 6, 7, false, none, []⟩,
       ⟨"arrow_function", 8, 15, true, some "value",
        [⟨"formal_parameters", 8, 10, true, some "parameters",
          [⟨"(", 8, 9, false, none, []⟩, ⟨")", 9, 10, false, none, []⟩]⟩,
         ⟨"=>", 11, 13, false, none, []⟩,
         ⟨"number", 14, 15, true, some "body", []⟩]⟩]⟩,
     ⟨";", 15, 16, false, none, []⟩]⟩

/-- The statement in a program that is one loop or block, between the other children of that one. -/
def boundArrowIn (kind : String) (distance stop : Nat) (field : Option String)
    (head tail : List Node) : Place :=
  let declaration : Node := { boundArrow.offsetBy distance with field := field }
  let host : Node := ⟨kind, 0, stop, true, none, head ++ declaration :: tail⟩
  ⟨declaration, [⟨head.reverse, host⟩, ⟨[], ⟨"program", 0, stop, true, none, [host]⟩⟩]⟩

/-- The root of the tree that a place is in. -/
def Place.top (place : Place) : Node :=
  (place.above.getLast?.map Level.parent).getD place.node

theorem below_boundArrowIn (kind : String) (distance stop : Nat) (field : Option String)
    (head tail : List Node) :
    Below (boundArrowIn kind distance stop field head tail).top
      (boundArrowIn kind distance stop field head tail) :=
  @Below.child _ _ head tail _ (@Below.child _ _ [] [] _ .root rfl) rfl

theorem relocated_boundArrowIn (kind : String) (distance stop : Nat) (field : Option String)
    (head tail : List Node) :
    Node.Relocated distance boundArrow (boundArrowIn kind distance stop field head tail).node :=
  ⟨rfl, rfl, rfl, rfl, Node.offsetAll_eq _ _⟩

/-- The statement in the text `while (c) var f = () => 1;`. -/
def boundArrowInWhile : Place :=
  boundArrowIn "while_statement" 10 26 (some "body")
    [⟨"while", 0, 5, false, none, []⟩,
     ⟨"parenthesized_expression", 6, 9, true, some "condition",
      [⟨"(", 6, 7, false, none, []⟩, ⟨"identifier", 7, 8, true, none, []⟩,
       ⟨")", 8, 9, false, none, []⟩]⟩] []

/-- The statement in the text `for (;;) var f = () => 1;`. -/
def boundArrowInFor : Place :=
  boundArrowIn "for_statement" 9 25 (some "body")
    [⟨"for", 0, 3, false, none, []⟩,
     ⟨"(", 4, 5, false, none, []⟩,
     ⟨"empty_statement", 5, 6, true, some "initializer", [⟨";", 5, 6, false, none, []⟩]⟩,
     ⟨"empty_statement", 6, 7, true, some "condition", [⟨";", 6, 7, false, none, []⟩]⟩,
     ⟨")", 7, 8, false, none, []⟩] []

/-- The statement in the text `{ var f = () => 1; }`. -/
def boundArrowInBlock : Place :=
  boundArrowIn "statement_block" 2 20 none [⟨"\x7b", 0, 1, false, none, []⟩]
    [⟨"\x7d", 19, 20, false, none, []⟩]

/-- The text `{ var f = () => 1; }`. -/
def blockText : Bytes := Utf8.encode "\x7b var f = () => 1; \x7d".toList

theorem stands_boundArrowInBlock :
    Stands blockText boundArrowInBlock boundArrow boundArrowText 2 where
  inside := by decide +kernel
  excerpt :=
    ⟨Utf8.encode "\x7b ".toList, Utf8.encode " \x7d".toList, by decide +kernel, by decide +kernel⟩
  relocated := relocated_boundArrowIn ..

/-- The text `while (c) var f = () => 1;`. -/
def whileText : Bytes := Utf8.encode "while (c) var f = () => 1;".toList

/-- Below a `while` loop the function is found as in a block, and collected from the program. -/
theorem found_loopBody_while :
    (boundArrowInWhile.found whileText).map Target.outline =
        (boundArrowInBlock.found blockText).map Target.outline ∧
      (boundArrowInWhile.found whileText).map Target.name = ["f".toList] ∧
      boundArrowInWhile.found whileText <:+: collect whileText boundArrowInWhile.top := by
  have hstands : Stands whileText boundArrowInWhile boundArrow boundArrowText 10 :=
    ⟨by decide +kernel, ⟨Utf8.encode "while (c) ".toList, [], by decide +kernel, by decide +kernel⟩,
      relocated_boundArrowIn ..⟩
  obtain ⟨-, hsame, -, hcollect, -⟩ :=
    found_loopBody hstands rfl rfl stands_boundArrowInBlock rfl rfl (by decide +kernel)
  exact ⟨hsame.2 fun q _ hout => (Bool.false_ne_true hout).elim, by decide +kernel,
    hcollect _ (by decide +kernel) (below_boundArrowIn ..)⟩

/-- The text `for (;;) var f = () => 1;`. -/
def forText : Bytes := Utf8.encode "for (;;) var f = () => 1;".toList

/-- As the body of a `for` loop the same statement is taken for a part of the head: nothing is found
    in it. -/
theorem found_loopBody_for :
    Stands forText boundArrowInFor boundArrow boundArrowText 9 ∧
      Stands blockText boundArrowInBlock boundArrow boundArrowText 2 ∧
      boundArrowInFor.node.field = some "body" ∧
      boundArrowInFor.isDocumented forText = boundArrowInBlock.isDocumented blockText ∧
      (boundArrowInBlock.found blockText).map Target.name = ["f".toList] ∧
      (boundArrowInFor.found forText).map Target.name = [] ∧
      (collect forText boundArrowInFor.top).map Target.name = [] := by
  have hstands : Stands forText boundArrowInFor boundArrow boundArrowText 9 :=
    ⟨by decide +kernel, ⟨Utf8.encode "for (;;) ".toList, [], by decide +kernel, by decide +kernel⟩,
      relocated_boundArrowIn ..⟩
  exact ⟨hstands, stands_boundArrowInBlock, rfl, by decide +kernel, by decide +kernel,
    by decide +kernel, by decide +kernel⟩

end DocAnnotator
