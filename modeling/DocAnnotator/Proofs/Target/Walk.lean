import DocAnnotator.Proofs.Tree.Places
import DocAnnotator.Target.Collect

/-! ## Walking a tree with a stack

    Targets are also found without recursion: a loop takes the next place off a stack, keeps its
    target if the anchor is new, and puts the children of the place on the stack.

    - `Walk`, `Walk.step`, `Walk.run`: the state of the loop, one turn, and all turns.
    - `Walk.pending`: the places that the loop will still visit, in the order of the visits.
    - `Walk.step_outcome`: a turn does not change what the loop is going to return.
    - `Walk.run_start`: the loop returns what `collect` lists.
-/

namespace DocAnnotator

namespace Place

/-- The places of the children that are still to come, after the siblings `before`. -/
def childrenAfter (place : Place) (before : List Node) : List Node → List Place
  | [] => []
  | child :: rest =>
    ⟨child, ⟨before, place.node⟩ :: place.above⟩ :: place.childrenAfter (child :: before) rest

/-- The places of the children, in order. -/
def children (place : Place) : List Place := place.childrenAfter [] place.node.children

/-- The place and those below it, in document order. -/
def subtree (place : Place) : List Place := place.node.placesAt place.above

theorem flatMap_childrenAfter (place : Place) (before children : List Node) :
    (place.childrenAfter before children).flatMap subtree =
      Node.placesOf place.node place.above before children := by
  induction children generalizing before with
  | nil => rfl
  | cons child rest ih =>
    rw [childrenAfter, List.flatMap_cons, ih, Node.placesOf]
    rfl

/-- A place comes before its children, and each child before what is below the next one. -/
theorem subtree_eq (place : Place) : place.subtree = place :: place.children.flatMap subtree := by
  rw [subtree, Node.placesAt_eq, children, flatMap_childrenAfter]

end Place

/-- The state of the loop. -/
structure Walk where
  /-- The places to visit, the next one on top. -/
  stack : List Place
  /-- The anchors of the targets that were kept. -/
  seen : List AnchorKey
  /-- The targets that were kept, in the order they were found. -/
  targets : List Target

namespace Walk

/-- Nothing but the root is on the stack. -/
def start (root : Node) : Walk := ⟨[⟨root, []⟩], [], []⟩

/-- Puts places on a stack, one after the other. -/
def push (stack places : List Place) : List Place := places.foldl (fun stack p => p :: stack) stack

/-- Keeps a target, unless one with the same anchor is there already. -/
def keep (walk : Walk) : Option Target → Walk
  | none => walk
  | some target =>
    if walk.seen.contains target.key then walk
    else ⟨walk.stack, target.key :: walk.seen, walk.targets ++ [target]⟩

/-- One turn: the next place is taken off, its target is kept, and its children go on the stack
    with the first one on top. There is none when the stack is empty. -/
def step (source : Bytes) (walk : Walk) : Option Walk :=
  match walk.stack with
  | [] => none
  | place :: rest =>
    some ((⟨push rest place.children.reverse, walk.seen, walk.targets⟩ : Walk).keep
      (place.target? source))

/-- The places that are still visited, in the order of the visits. -/
def pending (walk : Walk) : List Place := walk.stack.flatMap Place.subtree

theorem push_reverse (stack places : List Place) : push stack places.reverse = places ++ stack := by
  rw [push, List.foldl_reverse]
  induction places with
  | nil => rfl
  | cons p rest ih => rw [List.foldr_cons, ih, List.cons_append]

theorem keep_stack (walk : Walk) (target : Option Target) : (walk.keep target).stack = walk.stack := by
  cases target with
  | none => rfl
  | some t =>
    rw [keep]
    split <;> rfl

/-- A turn visits the next place and leaves all others to be visited in their order. -/
theorem step_some {source : Bytes} {walk next : Walk} (h : walk.step source = some next) :
    ∃ place, walk.pending = place :: next.pending ∧
      next = (⟨next.stack, walk.seen, walk.targets⟩ : Walk).keep (place.target? source) := by
  unfold step at h
  split at h
  · cases h
  next place rest hstack =>
    obtain rfl := Option.some.inj h
    refine ⟨place, ?_, by rw [keep_stack]⟩
    rw [pending, hstack, pending, keep_stack, push_reverse, List.flatMap_cons, List.flatMap_append,
      Place.subtree_eq, List.cons_append]

/-- All turns: the targets that are kept until the stack is empty. -/
def run (source : Bytes) (walk : Walk) : List Target :=
  match _h : walk.step source with
  | none => walk.targets
  | some next => next.run source
  termination_by walk.pending.length
  decreasing_by
  obtain ⟨place, hpending, -⟩ := step_some _h
  rw [hpending, List.length_cons]
  exact Nat.lt_succ_self _

/-! ### What the loop returns -/

/-- What the loop returns from here: the targets so far, and the new ones among those pending. -/
def outcome (source : Bytes) (walk : Walk) : List Target :=
  walk.targets ++ distinctAnchors walk.seen (walk.pending.filterMap (Place.target? source))

/-- A turn does not change what the loop returns. -/
theorem step_outcome {source : Bytes} {walk next : Walk} (h : walk.step source = some next) :
    next.outcome source = walk.outcome source := by
  obtain ⟨place, hpending, hnext⟩ := step_some h
  rw [outcome, outcome, hpending, List.filterMap_cons]
  cases htarget : place.target? source with
  | none =>
    rw [htarget] at hnext
    rw [hnext]
    rfl
  | some target =>
    rw [htarget, keep] at hnext
    simp only [distinctAnchors]
    split at hnext
    next hseen =>
      -- its anchor is taken, so both sides drop it
      rw [hnext, if_pos hseen]
    next hseen =>
      rw [hnext, if_neg hseen, List.append_assoc, List.singleton_append]

/-- The loop ends, and returns the outcome of the state that it starts in. -/
theorem run_eq_outcome (source : Bytes) (walk : Walk) : walk.run source = walk.outcome source := by
  fun_induction run source walk with
  | case1 walk hnone =>
    -- the stack is empty, so nothing is pending
    unfold step at hnone
    split at hnone
    next hstack => simp [outcome, pending, hstack, distinctAnchors]
    next => cases hnone
  | case2 walk next hsome ih => rw [ih, step_outcome hsome]

/-- From the root, the loop returns the undocumented functions of the tree in document order. -/
theorem run_start (source : Bytes) (root : Node) :
    (start root).run source = collect source root := by
  rw [run_eq_outcome, outcome, pending, start, List.flatMap_singleton]
  rfl

end Walk

end DocAnnotator
