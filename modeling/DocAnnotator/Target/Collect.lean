import DocAnnotator.Target.Signature
import DocAnnotator.Target.DocComment

/-! ## Collecting targets

    Documentable are named function declarations, and variables that are bound to a function
    outside the head of a `for` loop. Each has an anchor: the declaration, lifted to the export
    statement around it, or the declarator itself where a declaration has several.

    `collect` lists the documentable functions of a tree whose anchor has no doc comment yet, in
    document order.
-/

namespace DocAnnotator

namespace Place

/-- The export statement whose declaration this is, or else the place itself. -/
def liftExport (place : Place) : Place :=
  match place.parent? with
  | some parent =>
    if parent.node.kind == "export_statement" && place.fills "declaration" then parent else place
  | none => place

/-- Does the node declare a list of variables? -/
def isDeclarationList (node : Node) : Bool :=
  node.kind == "lexical_declaration" || node.kind == "variable_declaration"

/-- Is the node a loop whose head can hold a declaration? -/
def isForLoop (node : Node) : Bool :=
  node.kind == "for_statement" || node.kind == "for_in_statement"

/-- The declarators of a declaration. -/
def declarators (declaration : Node) : List Node :=
  declaration.children.filter fun c => c.named && c.kind == "variable_declarator"

/-- The anchor of a variable that is bound to a function; none in the head of a loop. -/
def declaratorAnchor? (declarator : Place) : Option Place :=
  match declarator.parent? with
  | none => some declarator
  | some declaration =>
    if !isDeclarationList declaration.node then some declarator
    else if (declaration.parent?.map (isForLoop ·.node)).getD false then none
    else if (declarators declaration.node).length != 1 then some declarator
    else some declaration.liftExport

end Place

/-- The name that a target without a plain name gets. -/
def anonymousName : Text := "anonymous".toList

/-- A documentable function: its name node, the function node and its anchor. -/
structure Documentable where
  name : Node
  function : Node
  anchor : Place

/-- The documentable function at a place. -/
def Place.documentable? (place : Place) : Option Documentable :=
  let node := place.node
  if node.isFunctionDeclaration then
    (node.child? "name").map fun name => ⟨name, node, place.liftExport⟩
  else if node.kind == "variable_declarator" then
    match node.child? "name", node.child? "value" with
    | some name, some value =>
      if value.isFunctionValue then place.declaratorAnchor?.map fun anchor => ⟨name, value, anchor⟩
      else none
    | _, _ => none
  else none

/-- The target of a documentable function, before any type is inferred. -/
def Documentable.target (source : Bytes) (d : Documentable) : Target :=
  let anchor := d.anchor.node
  let declared := d.function.declaredReturn source
  { key := ⟨anchor.kind, anchor.start, anchor.stop⟩
    name := if d.name.kind == "identifier" || d.name.kind == "type_identifier"
      then d.name.text source else anonymousName
    parameters := d.function.parameters source
    returnType := declared
    snippet := anchor.text source
    anchorOffset := anchor.start
    isAsync := d.function.isAsync
    returnDeclared := declared.isSome
    function := some d.function }

/-- The target at a place, unless its anchor is documented. -/
def Place.target? (source : Bytes) (place : Place) : Option Target :=
  place.documentable?.bind fun d =>
    if d.anchor.isDocumented source then none else some (d.target source)

/-- Keeps the first target of every anchor. -/
def distinctAnchors (seen : List AnchorKey) : List Target → List Target
  | [] => []
  | target :: rest =>
    if seen.contains target.key then distinctAnchors seen rest
    else target :: distinctAnchors (target.key :: seen) rest

/-- The undocumented functions of a tree, in document order. -/
def collect (source : Bytes) (root : Node) : List Target :=
  distinctAnchors [] (root.places.filterMap (Place.target? source))

end DocAnnotator
