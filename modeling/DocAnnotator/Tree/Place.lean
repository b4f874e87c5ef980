import DocAnnotator.Tree.Node

/-! ## Places in a tree

    A place is a node together with its way up to the root: the siblings before it and its parent,
    level by level. Two places are told apart by where they are, not by what the nodes hold.

    `places` lists every place of a tree in document order.
-/

namespace DocAnnotator

/-- One step up: the parent, and the siblings before the node, nearest first. -/
structure Level where
  before : List Node
  parent : Node

/-- A node and the levels above it, innermost first. -/
structure Place where
  node : Node
  above : List Level

namespace Place

/-- The place of the parent. -/
def parent? (place : Place) : Option Place :=
  match place.above with
  | [] => none
  | level :: above => some ⟨level.parent, above⟩

/-- The siblings before the node, nearest first. -/
def before (place : Place) : List Node :=
  match place.above with
  | [] => []
  | level :: _ => level.before

/-- Is this the first child of its parent that fills the field? -/
def fills (place : Place) (field : String) : Bool :=
  place.node.field == some field && place.before.all (·.field != some field)

end Place

mutual
/-- The places of a node below `above`, itself first. -/
def Node.placesAt (above : List Level) : Node → List Place
  | ⟨kind, start, stop, named, field, children⟩ =>
    let node : Node := ⟨kind, start, stop, named, field, children⟩
    ⟨node, above⟩ :: Node.placesOf node above [] children

/-- The places of the children of `parent` that are still to come, after the siblings `before`. -/
def Node.placesOf (parent : Node) (above : List Level) (before : List Node) :
    List Node → List Place
  | [] => []
  | child :: rest =>
    Node.placesAt (⟨before, parent⟩ :: above) child ++
      Node.placesOf parent above (child :: before) rest
end

/-- Every place of a tree, in document order. -/
def Node.places (root : Node) : List Place := root.placesAt []

end DocAnnotator
