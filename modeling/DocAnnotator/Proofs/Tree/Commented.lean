import DocAnnotator.Proofs.Script.Slice
import DocAnnotator.Proofs.Tree.Places
import DocAnnotator.Text.Blank

/-! ## A tree with comments put in

    What a tree becomes when comments are inserted in front of some of its nodes: each comment is a
    leaf right before its node, and every span moves by what is inserted before it.

    - `Node.commented`: the tree with the comments.
    - `Moved`: where a place of the old tree is in the new one, and what is inserted before it.
    - `moved_of_below`: every place of the new tree is an added comment or comes from an old one.
    - `Moved.bounds`: the insertions before, below and after a place.
-/

namespace DocAnnotator

open Insertion (size)

/-- The node of an inserted comment: its text without the blanks behind it. -/
def commentNode (start : Nat) (insertion : Insertion) : Node :=
  ⟨"comment", start, start + (Utf8.encode (Text.trimEnd insertion.text)).length, true, none, []⟩

/-- The insertion in front of each place that gets one. -/
abbrev Marks := Place → Option Insertion

namespace Node

mutual
/-- A node with the comments that go below it, after the insertions `done`. -/
def commentedAt (mark : Marks) (above : List Level) (done : List Insertion) : Node → Node
  | ⟨kind, start, stop, named, field, children⟩ =>
    let node : Node := ⟨kind, start, stop, named, field, children⟩
    let below := (placesOf node above [] children).filterMap mark
    ⟨kind, start + size done, stop + size (done ++ below), named, field,
      commentedOf mark node above [] done children⟩

/-- The children of `parent` that are still to come, each with its comment in front of it. -/
def commentedOf (mark : Marks) (parent : Node) (above : List Level) (before : List Node)
    (done : List Insertion) : List Node → List Node
  | [] => []
  | child :: rest =>
    let place : Place := ⟨child, ⟨before, parent⟩ :: above⟩
    let lead := (mark place).toList
    let here := (child.placesAt place.above).filterMap mark
    lead.map (commentNode (child.start + size done)) ++
      commentedAt mark place.above (done ++ lead) child ::
        commentedOf mark parent above (child :: before) (done ++ here) rest
end

/-- The tree with all comments in place. -/
def commented (mark : Marks) (root : Node) : Node := root.commentedAt mark [] []

/-! ### The shape of the new tree -/

variable {mark : Marks}

theorem commentedAt_eq (above : List Level) (done : List Insertion) (node : Node) :
    node.commentedAt mark above done =
      ⟨node.kind, node.start + size done,
        node.stop + size (done ++ (placesOf node above [] node.children).filterMap mark),
        node.named, node.field, commentedOf mark node above [] done node.children⟩ := by
  cases node
  rfl

@[simp] theorem commentedAt_kind (above : List Level) (done : List Insertion) (node : Node) :
    (node.commentedAt mark above done).kind = node.kind := by rw [commentedAt_eq]

@[simp] theorem commentedAt_named (above : List Level) (done : List Insertion) (node : Node) :
    (node.commentedAt mark above done).named = node.named := by rw [commentedAt_eq]

@[simp] theorem commentedAt_field (above : List Level) (done : List Insertion) (node : Node) :
    (node.commentedAt mark above done).field = node.field := by rw [commentedAt_eq]

@[simp] theorem commentedAt_start (above : List Level) (done : List Insertion) (node : Node) :
    (node.commentedAt mark above done).start = node.start + size done := by rw [commentedAt_eq]

@[simp] theorem commentedAt_children (above : List Level) (done : List Insertion) (node : Node) :
    (node.commentedAt mark above done).children =
      commentedOf mark node above [] done node.children := by rw [commentedAt_eq]

/-- The insertions at a node and below it. -/
theorem filterMap_placesAt (above : List Level) (node : Node) :
    (node.placesAt above).filterMap mark = (mark ⟨node, above⟩).toList ++
      (placesOf node above [] node.children).filterMap mark := by
  rw [placesAt_eq, List.filterMap_cons]
  cases mark ⟨node, above⟩ <;> rfl

theorem commentedOf_append (mark : Marks) (parent : Node) (above : List Level)
    (before first second : List Node) (done : List Insertion) :
    commentedOf mark parent above before done (first ++ second) =
      commentedOf mark parent above before done first ++
        commentedOf mark parent above (first.reverse ++ before)
          (done ++ (placesOf parent above before first).filterMap mark) second := by
  induction first generalizing before done with
  | nil => simp [commentedOf, placesOf]
  | cons child first ih => simp [commentedOf, placesOf, ih]

/-- A test that no added comment passes, and that looks neither at spans nor at children, picks
    nodes of the same kinds in the new tree. -/
theorem filter_commentedOf (test : Node → Bool) (hadded : ∀ start i, test (commentNode start i) = false)
    (hmoved : ∀ above done node, test (commentedAt mark above done node) = test node)
    (parent : Node) (above : List Level) (before children : List Node) (done : List Insertion) :
    ((commentedOf mark parent above before done children).filter test).map kind =
      (children.filter test).map kind := by
  induction children generalizing before done with
  | nil => rfl
  | cons child rest ih =>
    have hlead : ∀ lead : List Insertion,
        (lead.map (commentNode (child.start + size done))).filter test = [] := by
      intro lead
      rw [List.filter_eq_nil_iff]
      intro node hnode
      obtain ⟨i, -, rfl⟩ := List.mem_map.1 hnode
      simp [hadded]
    rw [commentedOf, List.filter_append, hlead, List.nil_append, List.filter_cons, hmoved,
      List.filter_cons]
    split <;> simp [ih]

/-- A child in the new tree is an added comment, or comes from a child in the old one. -/
theorem commentedOf_split {parent : Node} {above : List Level} {before children : List Node}
    {done : List Insertion} {front' back' : List Node} {child' : Node}
    (h : commentedOf mark parent above before done children = front' ++ child' :: back') :
    (∃ start i, child' = commentNode start i) ∨
    ∃ front child back, children = front ++ child :: back ∧
      let place : Place := ⟨child, ⟨front.reverse ++ before, parent⟩ :: above⟩
      let passed := done ++ (placesOf parent above before front).filterMap mark
      let lead := (mark place).toList
      child' = child.commentedAt mark place.above (passed ++ lead) ∧
      front' = commentedOf mark parent above before done front ++
        lead.map (commentNode (child.start + size passed)) := by
  induction children generalizing before done front' with
  | nil => simp [commentedOf] at h
  | cons child rest ih =>
    rw [commentedOf] at h
    rcases List.append_eq_append_iff.1 h with ⟨m, rfl, hm⟩ | ⟨m, hlead, hm⟩
    · -- the cut lies behind the comments of the first child
      cases m with
      | nil =>
        obtain ⟨rfl, -⟩ := List.cons.inj hm
        exact .inr ⟨[], child, rest, rfl, by simp [placesOf], by simp [placesOf, commentedOf]⟩
      | cons node m =>
        obtain ⟨rfl, hrest⟩ := List.cons.inj hm
        rcases ih hrest with hadded | ⟨front, other, back, rfl, hother, hfront⟩
        · exact .inl hadded
        · refine .inr ⟨child :: front, other, back, rfl, ?_, ?_⟩
          · simpa [placesOf] using hother
          · simp [hfront, commentedOf, placesOf]
    · -- it lies among them
      cases m with
      | nil =>
        obtain ⟨rfl, -⟩ := List.cons.inj hm
        refine .inr ⟨[], child, rest, rfl, by simp [placesOf], ?_⟩
        rw [List.append_nil] at hlead
        simp [placesOf, commentedOf, hlead]
      | cons node m =>
        obtain ⟨rfl, -⟩ := List.cons.inj hm
        have hmem : child' ∈ (mark ⟨child, ⟨before, parent⟩ :: above⟩).toList.map
            (commentNode (child.start + size done)) := by rw [hlead]; simp
        obtain ⟨i, -, hi⟩ := List.mem_map.1 hmem
        exact .inl ⟨_, i, hi.symm⟩

end Node

/-! ### Where places go -/

/-- `Moved mark root p done p'`: the place `p` of the old tree is the place `p'` of the new one, and
    `done` are the insertions in front of it. -/
inductive Moved (mark : Marks) (root : Node) : Place → List Insertion → Place → Prop
  | root : Moved mark root ⟨root, []⟩ [] ⟨root.commented mark, []⟩
  | child {p p' : Place} {done passed lead : List Insertion} {before after : List Node} {child : Node}
      (h : Moved mark root p done p') (hchildren : p.node.children = before ++ child :: after)
      (hpassed : passed = done ++ (Node.placesOf p.node p.above [] before).filterMap mark)
      (hlead : lead = (mark ⟨child, ⟨before.reverse, p.node⟩ :: p.above⟩).toList) :
      Moved mark root ⟨child, ⟨before.reverse, p.node⟩ :: p.above⟩ (passed ++ lead)
        ⟨child.commentedAt mark (⟨before.reverse, p.node⟩ :: p.above) (passed ++ lead),
          ⟨(Node.commentedOf mark p.node p.above [] done before ++
            lead.map (commentNode (child.start + size passed))).reverse, p'.node⟩ :: p'.above⟩

namespace Moved

variable {mark : Marks} {root : Node} {p p' : Place} {done : List Insertion}

theorem toBelow (h : Moved mark root p done p') : Below root p := by
  induction h with
  | root => exact .root
  | child _ hchildren _ _ ih => exact .child ih hchildren

theorem node_eq (h : Moved mark root p done p') :
    p'.node = p.node.commentedAt mark p.above done := by
  cases h <;> rfl

/-- A node and its parent move together. -/
theorem parent? (h : Moved mark root p done p') :
    (p.parent? = none ∧ p'.parent? = none) ∨
      ∃ q before q', p.parent? = some q ∧ p'.parent? = some q' ∧ Moved mark root q before q' := by
  cases h with
  | root => exact .inl ⟨rfl, rfl⟩
  | child h => exact .inr ⟨_, _, _, rfl, rfl, h⟩

end Moved

/-- Every place of the new tree is an added comment or comes from a place of the old one. -/
theorem moved_of_below {mark : Marks} {root : Node} {p' : Place}
    (h : Below (root.commented mark) p') :
    (∃ start i, p'.node = commentNode start i) ∨ ∃ p done, Moved mark root p done p' := by
  induction h with
  | root => exact .inr ⟨_, _, .root⟩
  | @child place' before' after' child' _ hchildren ih =>
    rcases ih with ⟨start, i, hnode⟩ | ⟨p, done, hmoved⟩
    · -- an added comment has no children
      simp [hnode, commentNode] at hchildren
    · rw [hmoved.node_eq, Node.commentedAt_children] at hchildren
      rcases Node.commentedOf_split hchildren with hadded | ⟨front, child, back, hfront, rfl, rfl⟩
      · exact .inl hadded
      · have := Moved.child hmoved hfront rfl rfl
        rw [List.append_nil]
        exact .inr ⟨_, _, this⟩

/-! ### What is inserted where -/

/-- Insertions go where their places start, and none goes in front of the root. -/
structure Marks.Fits (mark : Marks) (root : Node) : Prop where
  offset : ∀ p i, mark p = some i → i.offset = p.node.start
  root : mark ⟨root, []⟩ = none

theorem Marks.Fits.exists_place {mark : Marks} {root : Node} (h : mark.Fits root)
    {places : List Place} {i : Insertion} (hi : i ∈ places.filterMap mark) :
    ∃ p ∈ places, i.offset = p.node.start := by
  obtain ⟨p, hp, hmark⟩ := List.mem_filterMap.1 hi
  exact ⟨p, hp, h.offset p i hmark⟩

theorem WellNested.placesAt {source : Bytes} {root : Node} (h : WellNested source root) {p : Place}
    (hp : Below root p) : ∀ q ∈ p.node.placesAt p.above, q.node.Nested := fun q hq =>
  h.nested q (Node.mem_places_iff.2 (Node.below_of_mem_placesAt p.above p.node hp q hq))

/-- What is inserted below a place goes inside its span. -/
theorem Marks.Fits.within {mark : Marks} {source : Bytes} {root : Node} (hmark : mark.Fits root)
    (hroot : WellNested source root) {p : Place} (hp : Below root p) :
    ∀ i ∈ (p.node.placesAt p.above).filterMap mark,
      p.node.start ≤ i.offset ∧ i.offset ≤ p.node.stop := by
  intro i hi
  obtain ⟨q, hq, hoffset⟩ := hmark.exists_place hi
  have hnested := hroot.placesAt hp
  obtain ⟨hstart, hstop⟩ := Node.within_placesAt p.above p.node hnested q hq
  have := (hnested q hq).span
  omega

/-- What is inserted in front of and below some children goes inside the span of one of them. -/
theorem Marks.Fits.withinOf {mark : Marks} {source : Bytes} {root : Node} (hmark : mark.Fits root)
    (hroot : WellNested source root) {p : Place} (hp : Below root p) {front middle back : List Node}
    (hchildren : p.node.children = front ++ middle ++ back) :
    ∀ i ∈ (Node.placesOf p.node p.above front.reverse middle).filterMap mark,
      ∃ c ∈ middle, c.start ≤ i.offset ∧ i.offset ≤ c.stop := by
  intro i hi
  obtain ⟨q, hq, hoffset⟩ := hmark.exists_place hi
  have hnested : ∀ r ∈ Node.placesOf p.node p.above front.reverse middle, r.node.Nested := by
    intro r hr
    refine hroot.placesAt hp r ?_
    rw [Node.placesAt_eq, hchildren, Node.placesOf_append, Node.placesOf_append]
    simp [hr]
  obtain ⟨c, hc, hstart, hstop⟩ :=
    Node.within_placesOf p.node p.above front.reverse middle hnested q hq
  have := (hnested q hq).span
  exact ⟨c, hc, by omega, by omega⟩

/-- The insertions before, below and behind a place of a well-nested tree. -/
theorem Moved.bounds {mark : Marks} {source : Bytes} {root : Node} {p p' : Place}
    {done : List Insertion} (hmark : mark.Fits root) (hroot : WellNested source root)
    (h : Moved mark root p done p') :
    ∃ rest, root.places.filterMap mark =
        done ++ (Node.placesOf p.node p.above [] p.node.children).filterMap mark ++ rest ∧
      (∀ i ∈ done, i.offset ≤ p.node.start) ∧ ∀ i ∈ rest, p.node.stop ≤ i.offset := by
  induction h with
  | root =>
    refine ⟨[], ?_, by simp, by simp⟩
    rw [Node.places, Node.filterMap_placesAt, hmark.root]
    simp
  | @child p p' done passed lead before after child h hchildren hpassed hlead ih =>
    -- what lies below the parent is split at the child
    obtain ⟨rest, hall, hdone, hrest⟩ := ih
    have hnested := hroot.nested p (Node.mem_places_iff.2 h.toBelow)
    have hordered := hnested.ordered
    rw [hchildren] at hordered
    obtain ⟨-, hbehind, hbefore⟩ := List.pairwise_append.1 hordered
    obtain ⟨hstart, hstop⟩ := hnested.inside child (by simp [hchildren])
    have hsplit : p.node.children = (before ++ [child]) ++ after ++ [] := by simp [hchildren]
    refine ⟨(Node.placesOf p.node p.above (before ++ [child]).reverse after).filterMap mark ++ rest,
      ?_, ?_, ?_⟩
    · rw [hall, hchildren, Node.placesOf_append, Node.placesOf, List.filterMap_append,
        List.filterMap_append, List.append_nil, Node.filterMap_placesAt, hpassed, hlead]
      simp
    · intro i hi
      rw [hpassed, hlead] at hi
      rcases List.mem_append.1 hi with hi | hi
      · rcases List.mem_append.1 hi with hi | hi
        · exact Nat.le_trans (hdone i hi) hstart
        · -- inserted at or below an earlier sibling, which ends before this node
          have hfront : p.node.children = [] ++ before ++ child :: after := by simp [hchildren]
          obtain ⟨c, hc, -, hle⟩ := hmark.withinOf hroot h.toBelow hfront i hi
          exact Nat.le_trans hle (hbefore c hc child List.mem_cons_self)
      · exact Nat.le_of_eq (hmark.offset _ i (Option.mem_toList.1 hi))
    · intro i hi
      rcases List.mem_append.1 hi with hi | hi
      · -- inserted at or below a later sibling, which starts behind this node
        obtain ⟨c, hc, hle, -⟩ := hmark.withinOf hroot h.toBelow hsplit i hi
        exact Nat.le_trans ((List.pairwise_cons.1 hbehind).1 c hc) hle
      · exact Nat.le_trans hstop (hrest i hi)

end DocAnnotator
