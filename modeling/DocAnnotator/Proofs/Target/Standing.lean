import DocAnnotator.Proofs.Target.Complete
import DocAnnotator.Proofs.Tree.Relocated

/-! ## Functions in a statement, wherever it stands

    What is collected from a statement depends on the statement and on little around it: whether a
    doc comment leads it, and whether it is a declaration right below a `for` loop.

    - `Place.found`: the targets at a place and below it.
    - `Stands`: a statement stands somewhere in a source.
    - `Carried`: where a place of the statement alone is in the tree that the statement stands in.
    - `Carried.documentable?`, `Carried.isDocumented`: functions, their anchors and their doc
      comments are carried along.
    - `Target.outline`: what a target says, but for where it is.
    - `Stands.found_outline`: what is found below a statement, wherever it stands.
-/

namespace DocAnnotator

/-! ### What is found below a place -/

/-- The targets at a place and below it, in document order. -/
def Place.found (source : Bytes) (place : Place) : List Target :=
  place.subtree.filterMap (Place.target? source)

/-- The places below a place are listed one after the other. -/
theorem Below.subtree_infix {root : Node} {p : Place} (h : Below root p) :
    p.subtree <:+: root.places := by
  induction h with
  | root => exact List.infix_rfl
  | @child q before after child h hchildren ih =>
    refine List.IsInfix.trans ?_ ih
    have hparts : q.subtree = (q :: Node.placesOf q.node q.above [] before) ++
        (⟨child, ⟨before.reverse, q.node⟩ :: q.above⟩ : Place).subtree ++
        Node.placesOf q.node q.above (child :: before.reverse) after := by
      rw [Place.subtree, Node.placesAt_eq, hchildren, Node.placesOf_append, Node.placesOf,
        List.append_nil, List.cons_append, List.cons_append, List.append_assoc]
      rfl
    exact ⟨_, _, hparts.symm⟩

/-- Where anchors are told apart, what is found below a place is a part of what is collected. -/
theorem Below.found_infix {root : Node} {p : Place} (h : Below root p) (htells : TellsAnchors root)
    (source : Bytes) : p.found source <:+: collect source root := by
  rw [htells.collect_eq source]
  exact h.subtree_infix.filterMap _

/-! ### A statement and where it stands -/

/-- The statement, with its part of the text, stands at a place of a source. -/
structure Stands (source : Bytes) (place : Place) (statement : Node) (part : Bytes)
    (distance : Nat) : Prop where
  inside : statement.Inside part.length
  excerpt : Excerpt source part distance
  relocated : Node.Relocated distance statement place.node

/-- `Carried distance statement place q q'`: what is at `q` in the statement alone is at `q'` in the
    tree where the statement stands at `place`. -/
inductive Carried (distance : Nat) (statement : Node) (place : Place) : Place → Place → Prop
  | whole : Carried distance statement place ⟨statement, []⟩ place
  | child {q q' : Place} {before after : List Node} {child : Node}
      (h : Carried distance statement place q q')
      (hchildren : q.node.children = before ++ child :: after) :
      Carried distance statement place ⟨child, ⟨before.reverse, q.node⟩ :: q.above⟩
        ⟨child.offsetBy distance,
          ⟨(before.map (Node.offsetBy distance)).reverse, q'.node⟩ :: q'.above⟩

namespace Carried

variable {distance : Nat} {statement : Node} {place q q' : Place}

theorem relocated (h : Carried distance statement place q q')
    (hplace : Node.Relocated distance statement place.node) :
    Node.Relocated distance q.node q'.node := by
  cases h with
  | whole => exact hplace
  | child => exact Node.relocated_offsetBy _ _

theorem inside {length : Nat} (h : Carried distance statement place q q')
    (hinside : statement.Inside length) : q.node.Inside length := by
  induction h with
  | whole => exact hinside
  | child h hchildren ih => exact ih.child (by simp [hchildren])

theorem eq_of_root (h : Carried distance statement place q q') (hroot : q.above = []) :
    q = ⟨statement, []⟩ ∧ q' = place := by
  cases h with
  | whole => exact ⟨rfl, rfl⟩
  | child => cases hroot

theorem length_above (h : Carried distance statement place q q') :
    q'.above.length = q.above.length + place.above.length := by
  induction h with
  | whole => simp
  | child h hchildren ih =>
    simp only [List.length_cons, ih]
    omega

/-- A place is the whole statement, or has a parent in it that is carried along. -/
theorem parent? (h : Carried distance statement place q q') :
    (q = ⟨statement, []⟩ ∧ q' = place) ∨ ∃ r r', q.parent? = some r ∧ q'.parent? = some r' ∧
      q.above.length = r.above.length + 1 ∧ Carried distance statement place r r' := by
  cases h with
  | whole => exact .inl ⟨rfl, rfl⟩
  | child h hchildren => exact .inr ⟨_, _, rfl, rfl, rfl, h⟩

/-- Children are carried with their parent, in their order. -/
theorem fills (h : Carried distance statement place q q') (hne : q.above ≠ []) (field : String) :
    q'.fills field = q.fills field := by
  cases h with
  | whole => exact absurd rfl hne
  | child =>
    -- the node and the siblings before it keep the fields that they fill
    simp only [Place.fills, Place.before, Node.offsetBy_field, List.all_reverse, List.all_map]
    refine congrArg (_ && ·) (congrArg (List.all _) (funext fun sibling => ?_))
    simp

end Carried

mutual
/-- The places of the statement and those of its tree are listed side by side. -/
theorem carried_placesAt {distance : Nat} {statement : Node} {place : Place}
    (hplace : Node.Relocated distance statement place.node) (above : List Level) (q' : Place) :
    (node : Node) → Carried distance statement place ⟨node, above⟩ q' →
      List.Forall₂ (Carried distance statement place) (node.placesAt above) q'.subtree
  | ⟨kind, start, stop, named, field, children⟩, h => by
    have hchildren := (h.relocated hplace).children
    rw [Node.placesAt_eq, Place.subtree, Node.placesAt_eq, hchildren]
    -- the two places themselves, then their children side by side
    refine .cons h ?_
    exact carried_placesOf hplace ⟨_, above⟩ q' h [] children rfl

theorem carried_placesOf {distance : Nat} {statement : Node} {place : Place}
    (hplace : Node.Relocated distance statement place.node) (q q' : Place)
    (h : Carried distance statement place q q') (before : List Node) :
    (children : List Node) → q.node.children = before ++ children →
      List.Forall₂ (Carried distance statement place)
        (Node.placesOf q.node q.above before.reverse children)
        (Node.placesOf q'.node q'.above (before.map (Node.offsetBy distance)).reverse
          (children.map (Node.offsetBy distance)))
  | [], _ => .nil
  | child :: rest, hchildren => by
    rw [List.map_cons, Node.placesOf, Node.placesOf]
    have hchild := Carried.child h hchildren
    refine List.rel_append (carried_placesAt hplace _ _ child hchild) ?_
    have hrest := carried_placesOf hplace q q' h (before ++ [child]) rest (by simp [hchildren])
    simpa using hrest
end

/-- The places of a statement, and those where it stands. -/
theorem Stands.carried {source part : Bytes} {distance : Nat} {statement : Node} {place : Place}
    (h : Stands source place statement part distance) :
    List.Forall₂ (Carried distance statement place) statement.places place.subtree :=
  carried_placesAt h.relocated [] place statement .whole

/-! ### Anchors -/

namespace Carried

section Anchors

variable {distance : Nat} {statement : Node} {place host q q' : Place}
variable (hplace : Node.Relocated distance statement place.node)

include hplace

theorem isDeclarationList (h : Carried distance statement place q q') :
    Place.isDeclarationList q'.node = Place.isDeclarationList q.node := by
  rw [Place.isDeclarationList, Place.isDeclarationList, (h.relocated hplace).kind]

theorem length_declarators (h : Carried distance statement place q q') :
    (Place.declarators q'.node).length = (Place.declarators q.node).length := by
  rw [Place.declarators, Place.declarators, (h.relocated hplace).children, List.filter_map,
    List.length_map]
  refine congrArg List.length (congrArg (List.filter · _) (funext fun child => ?_))
  simp

/-- Anchors are lifted to an export statement inside the statement, and never out of it. -/
theorem liftExport (h : Carried distance statement place q q')
    (hself : place.liftExport = place) :
    Carried distance statement place q.liftExport q'.liftExport := by
  rcases h.parent? with ⟨rfl, rfl⟩ | ⟨r, r', hr, hr', hlength, hcarried⟩
  · rw [hself]
    exact .whole
  · have hne : q.above ≠ [] := List.ne_nil_of_length_eq_add_one hlength
    unfold Place.liftExport
    rw [hr, hr']
    simp only [(hcarried.relocated hplace).kind, h.fills hne]
    split
    · exact hcarried
    · exact h

/-- The loop around a declaration is the same, unless the declaration is the whole statement. -/
theorem isForLoop_parent (h : Carried distance statement place q q')
    (hhost : place.parent? = some host)
    (hwhole : q.above = [] → Place.isForLoop host.node = false) :
    ((q'.parent?.map fun r => Place.isForLoop r.node).getD false) =
      (q.parent?.map fun r => Place.isForLoop r.node).getD false := by
  rcases h.parent? with ⟨rfl, rfl⟩ | ⟨r, r', hr, hr', -, hcarried⟩
  · rw [hhost, Option.map_some, Option.getD_some, hwhole rfl]
    rfl
  · rw [hr, hr']
    simp only [Option.map_some, Option.getD_some, Place.isForLoop, (hcarried.relocated hplace).kind]

/-- The anchor of a variable is carried along, unless a loop around the statement takes it away. -/
theorem declaratorAnchor? (h : Carried distance statement place q q')
    (hself : place.liftExport = place) (hhost : place.parent? = some host)
    (hlist : Place.isDeclarationList host.node = false)
    (hkept : q.above.length = 1 → Place.isDeclarationList statement = true →
      Place.isForLoop host.node = false) :
    Option.Rel (Carried distance statement place) q.declaratorAnchor? q'.declaratorAnchor? := by
  rcases h.parent? with ⟨rfl, rfl⟩ | ⟨r, r', hr, hr', hlength, hcarried⟩
  · -- the statement is a declarator on its own
    unfold Place.declaratorAnchor?
    rw [hhost]
    simp only [hlist, Bool.not_false, if_true]
    exact .some .whole
  · unfold Place.declaratorAnchor?
    rw [hr, hr']
    simp only [hcarried.isDeclarationList hplace]
    cases hdeclaration : Place.isDeclarationList r.node with
    | false => exact .some h
    | true =>
      -- a loop counts if it is around the declaration, which is the whole statement or inside it
      have hloop := hcarried.isForLoop_parent hplace hhost fun hroot => by
        obtain ⟨rfl, -⟩ := hcarried.eq_of_root hroot
        exact hkept hlength hdeclaration
      simp only [hloop, hcarried.length_declarators hplace, Bool.not_true, Bool.false_eq_true,
        if_false]
      split
      · exact .none
      split
      · exact .some h
      · exact .some (hcarried.liftExport hplace hself)

end Anchors

end Carried

/-- Two functions say the same: their nodes stand for each other, and so do their anchors. -/
structure Documentable.Alike (length distance : Nat) (statement : Node) (place : Place)
    (d d' : Documentable) : Prop where
  name : Node.Relocated distance d.name d'.name
  function : Node.Relocated distance d.function d'.function
  anchor : Carried distance statement place d.anchor d'.anchor
  nameInside : d.name.Inside length
  functionInside : d.function.Inside length

theorem Carried.documentable? {length distance : Nat} {statement : Node} {place host q q' : Place}
    (h : Carried distance statement place q q')
    (hplace : Node.Relocated distance statement place.node) (hinside : statement.Inside length)
    (hself : place.liftExport = place) (hhost : place.parent? = some host)
    (hlist : Place.isDeclarationList host.node = false)
    (hkept : q.node.kind = "variable_declarator" → q.above.length = 1 →
      Place.isDeclarationList statement = true → Place.isForLoop host.node = false) :
    Option.Rel (Documentable.Alike length distance statement place) q.documentable?
      q'.documentable? := by
  have hnode := h.relocated hplace
  have hnodeInside := h.inside hinside
  unfold Place.documentable?
  simp only [hnode.isFunctionDeclaration, hnode.kind, hnode.child?]
  split
  · -- a declaration of a function
    cases hname : q.node.child? "name" with
    | none => exact .none
    | some name =>
      exact .some ⟨Node.relocated_offsetBy _ _, hnode, h.liftExport hplace hself,
        hnodeInside.child (Node.mem_of_child? hname), hnodeInside⟩
  split
  next hdeclarator =>
    -- a variable
    cases hname : q.node.child? "name" with
    | none => exact .none
    | some name =>
      cases hvalue : q.node.child? "value" with
      | none => exact .none
      | some value =>
        simp only [Option.map_some, (Node.relocated_offsetBy distance value).isFunctionValue]
        split
        · have hanchor := h.declaratorAnchor? hplace hself hhost hlist
            (hkept (by simpa using hdeclarator))
          generalize q.declaratorAnchor? = anchor, q'.declaratorAnchor? = anchor' at hanchor ⊢
          cases hanchor with
          | none => exact .none
          | some hcarried =>
            exact .some ⟨Node.relocated_offsetBy _ _, Node.relocated_offsetBy _ _, hcarried,
              hnodeInside.child (Node.mem_of_child? hname),
              hnodeInside.child (Node.mem_of_child? hvalue)⟩
        · exact .none
  next => exact .none

/-! ### Doc comments -/

section DocComments

variable {source part : Bytes} {distance : Nat} {statement : Node} {place q q' : Place}

theorem Stands.slice (h : Stands source place statement part distance) {node : Node}
    (hinside : node.Inside part.length) :
    (source.take (node.offsetBy distance).stop).drop (node.offsetBy distance).start =
      (part.take node.stop).drop node.start := by
  have hnode := Node.relocated_offsetBy distance node
  rw [hnode.start, hnode.stop, h.excerpt.slice hinside.self.2]

/-- Inside the statement, the gap before a node starts at the same byte. -/
theorem Carried.gapStart (h : Carried distance statement place q q') (hne : q.above ≠ [])
    (hplace : Node.Relocated distance statement place.node) :
    q'.gapStart = q.gapStart + distance := by
  cases h with
  | whole => exact absurd rfl hne
  | @child r r' before after child hparent hchildren =>
    have hcomment : (fun c : Node => !(c.offsetBy distance).isComment) = fun c => !c.isComment :=
      funext fun c => by simp [Node.isComment]
    simp only [Place.gapStart, Place.before, ← List.map_reverse, List.find?_map, Function.comp_def,
      hcomment]
    cases before.reverse.find? (fun c => !c.isComment) with
    | none => exact (hparent.relocated hplace).start
    | some sibling => exact (Node.relocated_offsetBy distance sibling).stop

/-- Inside the statement, a node is documented as in the statement alone. -/
theorem Carried.isDocumented (h : Carried distance statement place q q') (hne : q.above ≠ [])
    (hstands : Stands source place statement part distance) :
    q'.isDocumented source = q.isDocumented part := by
  have hgap := h.gapStart hne hstands.relocated
  have hstart := (h.relocated hstands.relocated).start
  have hinside := h.inside hstands.inside
  -- the gap is the same text, so that only the comments directly before are left to compare
  rw [Place.isDocumented, Place.isDocumented, hgap, hstart, hstands.excerpt.slice hinside.self.1]
  refine congrArg (· || _) ?_
  cases h with
  | whole => exact absurd rfl hne
  | @child r r' before after child hparent hchildren =>
    have hcomment : Node.isComment ∘ Node.offsetBy distance = Node.isComment :=
      funext fun c => by simp [Node.isComment]
    have hbefore : ∀ c ∈ before, c.Inside part.length := fun c hc =>
      (hparent.inside hstands.inside).child (by simp [hchildren, hc])
    simp only [Place.before, ← List.map_reverse, List.takeWhile_map, hcomment, List.any_map]
    rw [Bool.eq_iff_iff, List.any_eq_true, List.any_eq_true]
    refine exists_congr fun c => and_congr_right fun hc => ?_
    have hmem : c ∈ before := List.mem_reverse.1 ((List.takeWhile_sublist _).subset hc)
    rw [Function.comp_apply, hstands.slice (hbefore c hmem)]

end DocComments

/-! ### What the targets say -/

/-- Lists side by side have the same values if their members have. -/
theorem filterMap_eq_of_forall₂ {α β γ : Type} {r : α → β → Prop} {f : α → Option γ}
    {g : β → Option γ} (h : ∀ a b, r a b → g b = f a) {as : List α} {bs : List β}
    (hside : List.Forall₂ r as bs) : bs.filterMap g = as.filterMap f := by
  induction hside with
  | nil => rfl
  | cons hab _ ih => rw [List.filterMap_cons, List.filterMap_cons, h _ _ hab, ih]

/-- What a target says, but for where it is in the text. -/
structure Outline where
  anchorKind : String
  name : Text
  /-- The parameters by name and type; is it a rest parameter? -/
  parameters : List (Text × Option Text × Bool)
  returnType : Option Text
  snippet : Text
  isAsync : Bool
  returnDeclared : Bool
  deriving DecidableEq

/-- What a target says. -/
def Target.outline (target : Target) : Outline :=
  { anchorKind := target.key.kind
    name := target.name
    parameters := target.parameters.map fun p => (p.name, p.type, p.rest)
    returnType := target.returnType
    snippet := target.snippet
    isAsync := target.isAsync
    returnDeclared := target.returnDeclared }

theorem Documentable.Alike.outline {source part : Bytes} {distance : Nat} {statement : Node}
    {place : Place} {d d' : Documentable}
    (h : d.Alike part.length distance statement place d')
    (hstands : Stands source place statement part distance) :
    (d'.target source).outline = (d.target part).outline := by
  have hanchor := h.anchor.relocated hstands.relocated
  have hparameters := h.function.parameters hstands.excerpt h.functionInside
  simp only [Documentable.target, Target.outline, hanchor.kind, h.name.kind,
    h.name.text hstands.excerpt h.nameInside,
    hanchor.text hstands.excerpt (h.anchor.inside hstands.inside), hparameters, List.map_map,
    h.function.declaredReturn hstands.excerpt h.functionInside, h.function.isAsync]
  rfl

/-- What is found at a place of the statement alone, if we are told whether a doc comment leads the
    statement. -/
def Place.outline? (part : Bytes) (led : Bool) (q : Place) : Option Outline :=
  q.documentable?.bind fun d =>
    if (if d.anchor.above.isEmpty then led else d.anchor.isDocumented part) then none
    else some (d.target part).outline

/-- Is this a declarator of the declaration itself? -/
def Place.isDeclaratorOf (declaration q : Place) : Bool :=
  isDeclarationList declaration.node && q.node.kind == "variable_declarator" &&
    q.above.length == declaration.above.length + 1

/-- Does the loop, right around a declaration, leave out this declarator of it? -/
def Place.leavesOut (loop declaration q : Place) : Bool :=
  isForLoop loop.node && declaration.isDeclaratorOf q

/-- Nothing is found at a variable in the head of a loop. -/
theorem Place.InLoopHead.documentable? {q : Place} (h : q.InLoopHead)
    (hkind : q.node.kind = "variable_declarator") : q.documentable? = none := by
  refine Option.eq_none_iff_forall_not_mem.2 fun d hd => ?_
  rcases documentable?_eq_some hd with ⟨hfunction, -⟩ | ⟨-, -, -, -, hanchor⟩
  · simp [not_isFunctionDeclaration hkind] at hfunction
  · rw [q.declaratorAnchor?_eq_none_iff.2 h] at hanchor
    cases hanchor

/-- A node that no anchor is lifted to and that lists no variables. -/
structure Node.IsPlain (node : Node) : Prop where
  not_export : node.kind ≠ "export_statement"
  not_list : Place.isDeclarationList node = false

theorem Place.liftExport_of_isPlain {place host : Place} (hhost : place.parent? = some host)
    (hplain : host.node.IsPlain) : place.liftExport = place := by
  rcases liftExport_cases place with hself | ⟨parent, hparent, hexport, -, -⟩
  · exact hself
  · obtain rfl := Option.some.inj (hparent.symm.trans hhost)
    exact absurd hexport hplain.not_export

section Found

variable {source part : Bytes} {distance : Nat} {statement : Node} {place host q q' : Place}

theorem Carried.isDeclaratorOf (h : Carried distance statement place q q')
    (hplace : Node.Relocated distance statement place.node) :
    place.isDeclaratorOf q' = (⟨statement, []⟩ : Place).isDeclaratorOf q := by
  simp only [Place.isDeclaratorOf, Place.isDeclarationList, hplace.kind, (h.relocated hplace).kind,
    h.length_above, List.length_nil, Nat.add_comm place.above.length, Nat.add_right_cancel_iff,
    Bool.beq_eq_decide_eq]

/-- A declarator of the statement itself is in the head of a loop right around the statement. -/
theorem Carried.inLoopHead (h : Carried distance statement place q q')
    (hplace : Node.Relocated distance statement place.node) (hhost : place.parent? = some host)
    (hloop : Place.isForLoop host.node = true)
    (hdeclarator : (⟨statement, []⟩ : Place).isDeclaratorOf q = true) : q'.InLoopHead := by
  simp only [Place.isDeclaratorOf, Bool.and_eq_true, beq_iff_eq, List.length_nil] at hdeclarator
  obtain ⟨⟨hlist, -⟩, hlength⟩ := hdeclarator
  rcases h.parent? with ⟨rfl, -⟩ | ⟨r, r', -, hr', hup, hcarried⟩
  · cases hlength
  · have hroot : r.above = [] := List.eq_nil_of_length_eq_zero (by omega)
    obtain ⟨-, rfl⟩ := hcarried.eq_of_root hroot
    refine ⟨_, host, hr', ?_, hhost, hloop⟩
    rwa [Place.isDeclarationList, hplace.kind]

/-- What is found at a place of a statement, wherever the statement stands. -/
theorem Carried.outline? (h : Carried distance statement place q q')
    (hstands : Stands source place statement part distance) (hhost : place.parent? = some host)
    (hplain : host.node.IsPlain) :
    (q'.target? source).map Target.outline =
      if host.leavesOut ⟨statement, []⟩ q then none
      else q.outline? part (place.isDocumented source) := by
  have hplace := hstands.relocated
  split
  next hout =>
    -- a declarator of the statement, in what counts as the head of the loop
    rw [Place.leavesOut, Bool.and_eq_true] at hout
    have hkind : q.node.kind = "variable_declarator" := by
      simpa using (Bool.and_eq_true_iff.1 (Bool.and_eq_true_iff.1 hout.2).1).2
    have hnone := (h.inLoopHead hplace hhost hout.1 hout.2).documentable?
      ((h.relocated hplace).kind.trans hkind)
    rw [Place.target?, hnone, Option.bind_none, Option.map_none]
  next hkept =>
    have halike := h.documentable? hplace hstands.inside
      (Place.liftExport_of_isPlain hhost hplain) hhost hplain.not_list fun hkind hlength hlist => by
        simpa [Place.leavesOut, Place.isDeclaratorOf, hkind, hlength, hlist] using hkept
    rw [Place.target?, Place.outline?]
    generalize q.documentable? = found, q'.documentable? = found' at halike ⊢
    cases halike with
    | none => rfl
    | @some d d' hd =>
      -- a doc comment leads the anchor here if it does so there
      have hdocumented : d'.anchor.isDocumented source =
          if d.anchor.above.isEmpty then place.isDocumented source
          else d.anchor.isDocumented part := by
        split
        next hempty =>
          obtain ⟨-, hanchor⟩ := hd.anchor.eq_of_root (List.isEmpty_iff.1 hempty)
          rw [hanchor]
        next hne =>
          exact hd.anchor.isDocumented (fun hroot => hne (by rw [hroot]; rfl)) hstands
      simp only [Option.bind_some, ← hdocumented]
      split
      · rfl
      · exact congrArg some (hd.outline hstands)

/-- What is found at and below a statement, wherever the statement stands. -/
theorem Stands.found_outline (h : Stands source place statement part distance)
    (hhost : place.parent? = some host) (hplain : host.node.IsPlain) :
    (place.found source).map Target.outline =
      statement.places.filterMap fun q =>
        if host.leavesOut ⟨statement, []⟩ q then none
        else q.outline? part (place.isDocumented source) := by
  rw [Place.found, List.map_filterMap]
  exact filterMap_eq_of_forall₂ (fun q q' hq => hq.outline? h hhost hplain) h.carried

/-- What is found in a statement that no `for` loop is right around, but for what another place
    would leave out. -/
theorem Stands.found_outline_but (h : Stands source place statement part distance)
    (hhost : place.parent? = some host) (hplain : host.node.IsPlain)
    (hloop : Place.isForLoop host.node = false) (other : Place) :
    ((place.subtree.filter fun q => !other.leavesOut place q).filterMap
        (Place.target? source)).map Target.outline =
      statement.places.filterMap fun q =>
        if other.leavesOut ⟨statement, []⟩ q then none
        else q.outline? part (place.isDocumented source) := by
  rw [List.filterMap_filter, List.map_filterMap]
  refine filterMap_eq_of_forall₂ (fun q q' hq => ?_) h.carried
  have hout := hq.outline? h hhost hplain
  have hleaves : other.leavesOut place q' = other.leavesOut ⟨statement, []⟩ q := by
    rw [Place.leavesOut, Place.leavesOut, hq.isDeclaratorOf h.relocated]
  rw [Place.leavesOut, hloop, Bool.false_and, if_neg Bool.false_ne_true] at hout
  rw [hleaves]
  by_cases hleft : other.leavesOut ⟨statement, []⟩ q = true
  · simp [hleft]
  · simp [hleft, hout]

end Found

end DocAnnotator
