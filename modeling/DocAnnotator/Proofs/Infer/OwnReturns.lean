import DocAnnotator.Infer.Returns
import DocAnnotator.Proofs.Infer.Leaves
import DocAnnotator.Proofs.Tree.Places

/-! ## The return statements of a body

    A return statement belongs to the body that it stands in, unless a function, a class or another
    return statement lies between the two.

    - `Place.IsOwnReturn`, `Node.ownReturns`: the return statements that belong to a body.
    - `ReturnWalk`: a loop with a stack that looks for them without recursion.
    - `ReturnWalk.run_eq`: the loop finds what `returnsOf` lists.
    - `Node.returnsOf_eq`: these are the values of the body's own return statements.
    - `Below.returnsOf_rebuilt`: what is inside a function of the body does not count.
    - `ReturnWalk.run_ownReturns`: the whole statement.
-/

namespace DocAnnotator

/-! ### What belongs to a body -/

/-- Return statements below the node do not belong to what is around it. -/
def Node.closesScope (node : Node) : Bool := node.isFunctionLike || node.kind == "return_statement"

/-- No level but the outermost one closes the scope; the outermost parent is the body itself. -/
def InScope (above : List Level) : Prop :=
  ∀ level ∈ above.dropLast, level.parent.closesScope = false

instance (above : List Level) : Decidable (InScope above) :=
  inferInstanceAs (Decidable (∀ level ∈ above.dropLast, level.parent.closesScope = false))

namespace Place

/-- A return statement below the body, with nothing between the two that closes the scope. -/
def IsOwnReturn (place : Place) : Prop :=
  place.above ≠ [] ∧ place.node.kind = "return_statement" ∧ InScope place.above

instance (place : Place) : Decidable place.IsOwnReturn :=
  inferInstanceAs (Decidable (_ ∧ _ ∧ _))

/-- The place is somewhere above the other one. -/
def Encloses (outer inner : Place) : Prop :=
  ∃ before, (⟨before, outer.node⟩ :: outer.above : List Level) <:+ inner.above

end Place

/-- The return statements that belong to a body, in document order. -/
def Node.ownReturns (body : Node) : List Place := body.places.filter fun p => decide p.IsOwnReturn

theorem inScope_cons_iff {level : Level} {above : List Level} (hne : above ≠ []) :
    InScope (level :: above) ↔ level.parent.closesScope = false ∧ InScope above := by
  rw [InScope, List.dropLast_cons_of_ne_nil hne, List.forall_mem_cons]
  exact Iff.rfl

theorem inScope_singleton (level : Level) : InScope [level] := by
  intro other hother
  cases hother

/-! ### The loop -/

/-- The state of the loop. -/
structure ReturnWalk where
  /-- The nodes to visit, the next one on top. -/
  stack : List Node
  /-- The values of the return statements that were found. -/
  values : List (Option Node)

namespace ReturnWalk

/-- The children of the body are on the stack, the first one on top. -/
def start (body : Node) : ReturnWalk := ⟨body.children, []⟩

/-- One turn: the next node is taken off. A function is passed over, the value of a return statement
    is kept, and of any other node the children go on the stack with the first one on top. There is
    no turn when the stack is empty. -/
def step (walk : ReturnWalk) : Option ReturnWalk :=
  match walk.stack with
  | [] => none
  | node :: rest =>
    if node.isFunctionLike then some ⟨rest, walk.values⟩
    else if node.kind == "return_statement" then
      some ⟨rest, walk.values ++ [node.children.find? Node.isContent]⟩
    else some ⟨node.children ++ rest, walk.values⟩

/-- The number of nodes on the stack and below those on it. -/
def size (walk : ReturnWalk) : Nat := (walk.stack.flatMap Node.preorder).length

theorem step_size {walk next : ReturnWalk} (h : walk.step = some next) : next.size < walk.size := by
  unfold step at h
  split at h
  · cases h
  next node rest hstack =>
    have hpositive : 0 < node.preorder.length := by
      rw [Node.preorder_eq]
      exact Nat.succ_pos _
    rw [size, size, hstack, List.flatMap_cons, List.length_append]
    split at h
    · obtain rfl := Option.some.inj h
      simp only
      omega
    split at h
    · obtain rfl := Option.some.inj h
      simp only
      omega
    · obtain rfl := Option.some.inj h
      rw [Node.preorder_eq, List.flatMap_append, List.length_append, List.length_cons]
      omega

/-- All turns: the values that are kept until the stack is empty. -/
def run (walk : ReturnWalk) : List (Option Node) :=
  match _h : walk.step with
  | none => walk.values
  | some next => next.run
  termination_by walk.size
  decreasing_by exact step_size _h

end ReturnWalk

namespace Node

theorem returnsAt_eq (node : Node) :
    node.returnsAt = if node.isFunctionLike then []
      else if node.kind == "return_statement" then [node.children.find? isContent]
      else returnsOf node.children := by
  obtain ⟨kind, start, stop, named, field, children⟩ := node
  rw [returnsAt, returnedValue, contents, List.head?_filter]

theorem returnsAt_of_isFunctionLike {node : Node} (h : node.isFunctionLike = true) :
    node.returnsAt = [] := by
  rw [returnsAt_eq, if_pos h]

theorem returnsAt_of_not_closesScope {node : Node} (h : node.closesScope = false) :
    node.returnsAt = returnsOf node.children := by
  rw [closesScope, Bool.or_eq_false_iff] at h
  rw [returnsAt_eq, h.1, h.2]
  rfl

theorem returnsOf_append (first second : List Node) :
    returnsOf (first ++ second) = returnsOf first ++ returnsOf second := by
  induction first with
  | nil => rfl
  | cons node rest ih => rw [List.cons_append, returnsOf, returnsOf, ih, List.append_assoc]

end Node

namespace ReturnWalk

/-- A turn does not change what the loop is going to return. -/
theorem step_outcome {walk next : ReturnWalk} (h : walk.step = some next) :
    next.values ++ Node.returnsOf next.stack = walk.values ++ Node.returnsOf walk.stack := by
  unfold step at h
  split at h
  · cases h
  next node rest hstack =>
    rw [hstack, Node.returnsOf, Node.returnsAt_eq]
    split at h
    next hfunction =>
      obtain rfl := Option.some.inj h
      rw [if_pos hfunction, List.nil_append]
    next hfunction =>
      rw [if_neg hfunction]
      split at h
      next hreturn =>
        obtain rfl := Option.some.inj h
        rw [if_pos hreturn, List.append_assoc]
      next hreturn =>
        obtain rfl := Option.some.inj h
        rw [if_neg hreturn, Node.returnsOf_append]

theorem run_eq (walk : ReturnWalk) : walk.run = walk.values ++ Node.returnsOf walk.stack := by
  fun_induction run walk with
  | case1 walk hnone =>
    -- there is no turn, so the stack is empty
    unfold step at hnone
    split at hnone
    next hstack => rw [hstack, Node.returnsOf, List.append_nil]
    next =>
      split at hnone
      · cases hnone
      · split at hnone <;> cases hnone
  | case2 walk next hsome ih => rw [ih, step_outcome hsome]

theorem run_start (body : Node) : (start body).run = Node.returnsOf body.children := by
  rw [run_eq]
  rfl

end ReturnWalk

/-! ### The statements that are found -/

namespace Node

/-- What is below a node that closes the scope does not belong to the body around it. -/
theorem not_isOwnReturn_of_closesScope {node : Node} {above : List Level}
    {before children : List Node}
    (hne : above ≠ []) (hcloses : node.closesScope = true) :
    ∀ p ∈ placesOf node above before children, ¬ p.IsOwnReturn := by
  rintro p hp ⟨-, -, hscope⟩
  obtain ⟨level, hparent, -, front, hfront⟩ := suffix_of_mem_placesOf node above before children p hp
  have hmem : level ∈ p.above.dropLast := by
    rw [← hfront, List.dropLast_append_of_ne_nil (by simp), List.dropLast_cons_of_ne_nil hne]
    simp
  have hopen := hscope level hmem
  rw [hparent, hcloses] at hopen
  cases hopen

/-- The value of the return statement at a place. -/
def returnedAt (place : Place) : Option Node := place.node.children.find? isContent

mutual
/-- The own return statements at or below a node in the scope of the body. -/
theorem filter_placesAt {above : List Level} (hne : above ≠ []) (hscope : InScope above) :
    (node : Node) →
      ((node.placesAt above).filter fun p => decide p.IsOwnReturn).map returnedAt = node.returnsAt
  | ⟨kind, start, stop, named, field, children⟩ => by
    rw [returnsAt_eq, placesAt_eq]
    by_cases hcloses : (⟨kind, start, stop, named, field, children⟩ : Node).closesScope = true
    · -- only the node itself can belong to the body
      have hbelow : ((placesOf ⟨kind, start, stop, named, field, children⟩ above [] children).filter
          fun p => decide p.IsOwnReturn) = [] := by
        rw [List.filter_eq_nil_iff]
        intro p hp
        simpa using not_isOwnReturn_of_closesScope hne hcloses p hp
      rw [closesScope, Bool.or_eq_true] at hcloses
      by_cases hreturn : kind = "return_statement"
      · have hown : (⟨⟨kind, start, stop, named, field, children⟩, above⟩ : Place).IsOwnReturn :=
          ⟨hne, hreturn, hscope⟩
        rw [List.filter_cons_of_pos (by simpa using hown), hbelow]
        simp [isFunctionLike, isFunctionDeclaration, isFunctionValue, hreturn, returnedAt]
      · have hother : ¬ (⟨⟨kind, start, stop, named, field, children⟩, above⟩ : Place).IsOwnReturn :=
          fun hown => hreturn hown.2.1
        rw [List.filter_cons_of_neg (by simpa using hother), hbelow,
          if_pos (hcloses.resolve_right (by simpa using hreturn))]
        rfl
    · -- the node lets the scope of the body through
      rw [closesScope, Bool.or_eq_true, not_or] at hcloses
      have hother :
          ¬ (⟨⟨kind, start, stop, named, field, children⟩, above⟩ : Place).IsOwnReturn :=
        fun hown => hcloses.2 (by simpa using hown.2.1)
      rw [List.filter_cons_of_neg (by simpa using hother), if_neg hcloses.1, if_neg hcloses.2]
      refine filter_placesOf _ above [] (fun before => (inScope_cons_iff hne).2 ⟨?_, hscope⟩) children
      simpa [closesScope] using hcloses

theorem filter_placesOf (parent : Node) (above : List Level) (before : List Node)
    (hscope : ∀ before, InScope (⟨before, parent⟩ :: above)) :
    (children : List Node) →
      ((placesOf parent above before children).filter fun p => decide p.IsOwnReturn).map returnedAt =
        returnsOf children
  | [] => rfl
  | child :: rest => by
    rw [placesOf, List.filter_append, List.map_append, returnsOf,
      filter_placesAt (List.cons_ne_nil _ _) (hscope before) child,
      filter_placesOf parent above (child :: before) hscope rest]
end

/-- The values that are found are those of the own return statements of the body. -/
theorem returnsOf_eq (body : Node) : returnsOf body.children = body.ownReturns.map returnedAt := by
  have hroot : ¬ (⟨body, []⟩ : Place).IsOwnReturn := fun hown => hown.1 rfl
  rw [ownReturns, places, placesAt_eq, List.filter_cons_of_neg (by simpa using hroot),
    filter_placesOf body [] [] (fun before => inScope_singleton _)]

end Node

/-! ### Functions inside the body -/

/-- The tree around a place, with another node in it. -/
def rebuilt (node : Node) : List Level → Node
  | [] => node
  | level :: above =>
    rebuilt { level.parent with
      children := level.before.reverse ++ node :: level.parent.children.drop (level.before.length + 1) }
      above

theorem rebuilt_child {parent : Node} {before after : List Node} {child : Node}
    (hchildren : parent.children = before ++ child :: after) (node : Node) (above : List Level) :
    rebuilt node (⟨before.reverse, parent⟩ :: above) =
      rebuilt { parent with children := before ++ node :: after } above := by
  have hdrop : parent.children.drop (before.length + 1) = after := by
    rw [hchildren]
    simp
  rw [rebuilt, List.reverse_reverse, List.length_reverse, hdrop]

/-- With its own node in it, the tree around a place is the tree. -/
theorem Below.rebuilt_self {root : Node} {p : Place} (h : Below root p) :
    rebuilt p.node p.above = root := by
  induction h with
  | root => rfl
  | @child q before after child h hchildren ih =>
    obtain ⟨⟨kind, start, stop, named, field, children⟩, above⟩ := q
    obtain rfl : children = before ++ child :: after := hchildren
    rw [rebuilt_child rfl]
    exact ih

theorem Below.node_eq_root {root : Node} {p : Place} (h : Below root p) (hnil : p.above = []) :
    p.node = root := by
  have hself := h.rebuilt_self
  rwa [hnil] at hself

/-- Another node below the body does not change the values that are found, if it returns the same or
    is out of the scope of the body, and lies in none of the body's own return statements. -/
theorem Below.returnsOf_rebuilt {body : Node} {p : Place} (h : Below body p) (hne : p.above ≠ [])
    (hout : ∀ r : Place, r.Encloses p → ¬ r.IsOwnReturn) {node : Node}
    (hsame : node.returnsAt = p.node.returnsAt ∨ ¬ InScope p.above) :
    Node.returnsOf (rebuilt node p.above).children = Node.returnsOf body.children := by
  induction h generalizing node with
  | root => exact absurd rfl hne
  | @child q before after child h hchildren ih =>
    rw [rebuilt_child hchildren]
    have hof : node.returnsAt = child.returnsAt → Node.returnsOf (before ++ node :: after) =
        Node.returnsOf q.node.children := by
      intro heq
      rw [hchildren, Node.returnsOf_append, Node.returnsOf_append, Node.returnsOf, Node.returnsOf, heq]
    by_cases hq : q.above = []
    · -- a child of the body is in its scope
      rw [hq] at hsame ⊢
      rw [rebuilt, hof (hsame.resolve_right (not_not_intro (inScope_singleton _))),
        h.node_eq_root hq]
    · refine ih hq (fun r hr => hout r ?_) ?_
      · obtain ⟨front, hsuffix⟩ := hr
        exact ⟨front, hsuffix.trans (List.suffix_cons _ _)⟩
      by_cases hscope : InScope q.above
      · left
        cases hfunction : q.node.isFunctionLike with
        | true =>
          rw [Node.returnsAt_of_isFunctionLike hfunction]
          exact Node.returnsAt_of_isFunctionLike hfunction
        | false =>
          by_cases hreturn : q.node.kind = "return_statement"
          · -- a return statement in the scope of the body is its own
            exact absurd ⟨hq, hreturn, hscope⟩ (hout q ⟨before.reverse, List.suffix_refl _⟩)
          · have hopen : q.node.closesScope = false := by simp [Node.closesScope, hfunction, hreturn]
            have heq := hsame.resolve_right (not_not_intro ((inScope_cons_iff hq).2 ⟨hopen, hscope⟩))
            rw [Node.returnsAt_of_not_closesScope hopen, ← hof heq]
            exact Node.returnsAt_of_not_closesScope hopen
      · exact .inr hscope

/-- The tree with other children below a place. -/
def Place.withChildren (place : Place) (children : List Node) : Node :=
  rebuilt { place.node with children := children } place.above

theorem mem_ownReturns {body : Node} {p : Place} :
    p ∈ body.ownReturns ↔ Below body p ∧ p.IsOwnReturn := by
  rw [Node.ownReturns, List.mem_filter, Node.mem_places_iff, decide_eq_true_iff]

theorem Place.Encloses.below {root : Node} {outer inner : Place} (h : Below root inner)
    (henc : outer.Encloses inner) : Below root outer := by
  obtain ⟨before, hsuffix⟩ := henc
  induction h with
  | root => simp at hsuffix
  | @child q front after child h hchildren ih =>
    rcases List.suffix_cons_iff.1 hsuffix with heq | hsuffix
    · obtain ⟨hlevel, habove⟩ := List.cons.inj heq
      obtain ⟨-, hnode⟩ := Level.mk.inj hlevel
      have hsame : outer = q := by
        obtain ⟨node, above⟩ := outer
        obtain rfl : node = q.node := hnode
        obtain rfl : above = q.above := habove
        rfl
      rwa [hsame]
    · exact ih hsuffix

/-- The loop finds the values of the return statements of a body, each once and in document order:
    those with no function, class or other return statement between them and the body. The value of
    a statement is its first child that carries meaning. What a function holds does not count, if it
    lies below the body and in none of these statements. -/
theorem ReturnWalk.run_ownReturns (body : Node) :
    (start body).run = Node.returnsOf body.children ∧
    (start body).run = body.ownReturns.map (fun p => p.node.children.find? Node.isContent) ∧
    (∀ p, p ∈ body.ownReturns ↔ Below body p ∧ p.IsOwnReturn) ∧
    body.ownReturns.Nodup ∧ body.ownReturns.Sublist body.places ∧
    ∀ p, Below body p → p.above ≠ [] → p.node.isFunctionLike = true →
      (∀ r ∈ body.ownReturns, ¬ r.Encloses p) →
      ∀ children, (start (p.withChildren children)).run = (start body).run := by
  have hvalues := (run_start body).trans body.returnsOf_eq
  refine ⟨run_start body, hvalues, fun p => mem_ownReturns, body.places_nodup.filter _,
    List.filter_sublist, fun p hp hne hfunction hout children => ?_⟩
  have hnone : ({ p.node with children := children } : Node).returnsAt = p.node.returnsAt := by
    rw [Node.returnsAt_of_isFunctionLike hfunction]
    exact Node.returnsAt_of_isFunctionLike hfunction
  rw [run_start, run_start, Place.withChildren]
  exact hp.returnsOf_rebuilt hne
    (fun r hr hown => hout r (mem_ownReturns.2 ⟨hr.below hp, hown⟩) hr) (.inl hnone)

/-- The body `{ if (c) return 1; function g() { return 2; } return /* none */; }`. -/
def scopedBody : Node :=
  let number (start : Nat) : Node := ⟨"number", start, start + 1, true, none, []⟩
  ⟨"statement_block", 0, 66, true, some "body",
    [⟨"if_statement", 2, 18, true, none,
        [⟨"parenthesized_expression", 5, 8, true, some "condition",
            [⟨"identifier", 6, 7, true, none, []⟩]⟩,
          ⟨"return_statement", 9, 18, true, some "consequence", [number 16]⟩]⟩,
      ⟨"function_declaration", 19, 45, true, none,
        [⟨"identifier", 28, 29, true, some "name", []⟩,
          ⟨"statement_block", 32, 45, true, some "body",
            [⟨"return_statement", 34, 43, true, none, [number 41]⟩]⟩]⟩,
      ⟨"return_statement", 46, 64, true, none, [⟨"comment", 53, 63, true, none, []⟩]⟩]⟩

/-- The function inside `scopedBody`. -/
def scopedFunction : Place :=
  ⟨scopedBody.children.getD 1 scopedBody, [⟨scopedBody.children.take 1, scopedBody⟩]⟩

/-- Two of the three statements belong to the body, and still do when the function between them
    holds nothing but another return statement. -/
theorem ReturnWalk.run_ownReturns_scoped :
    scopedBody.ownReturns.map (·.node.start) = [9, 46] ∧
    scopedFunction.node.isFunctionLike = true ∧
    (start (scopedFunction.withChildren
      [⟨"return_statement", 34, 41, true, none, []⟩])).run =
        [some ⟨"number", 16, 17, true, none, []⟩, none] := by
  obtain ⟨-, hvalues, -, -, -, hfunctions⟩ := run_ownReturns scopedBody
  have hchildren : (⟨scopedBody, []⟩ : Place).node.children =
      scopedBody.children.take 1 ++ scopedFunction.node :: scopedBody.children.drop 2 := rfl
  have hbelow : Below scopedBody scopedFunction := .child .root hchildren
  have hout : ∀ r ∈ scopedBody.ownReturns, ¬ r.Encloses scopedFunction := by
    -- the function is a child of the body, so nothing below the body encloses it
    rintro r hr ⟨before, hsuffix⟩
    obtain ⟨-, hne, -⟩ := mem_ownReturns.1 hr
    have hlength : r.above.length + 1 ≤ 1 := hsuffix.length_le
    exact hne (List.length_eq_zero_iff.1 (by omega))
  refine ⟨by decide +kernel, rfl, ?_⟩
  rw [hfunctions scopedFunction hbelow (by simp [scopedFunction]) rfl hout, hvalues]
  rfl

end DocAnnotator
