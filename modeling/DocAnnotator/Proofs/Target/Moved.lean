import DocAnnotator.Proofs.Target.Collect
import DocAnnotator.Proofs.Tree.Commented

/-! ## Added comments make no new targets

    A place that has moved is documentable where the old one was, and its anchor is the old anchor,
    moved.

    - `Moved.fills`, `Moved.liftExport`, `Moved.declaratorAnchor?`: the steps to an anchor.
    - `Moved.documentable?`: the documentable functions of the new tree.
    - `moved_of_mem_anchors`: its anchors.
-/

namespace DocAnnotator

namespace Moved

variable {mark : Marks} {root : Node} {p p' : Place} {done : List Insertion}

theorem kind (h : Moved mark root p done p') : p'.node.kind = p.node.kind := by
  rw [h.node_eq, Node.commentedAt_kind]

theorem isFunctionDeclaration (h : Moved mark root p done p') :
    p'.node.isFunctionDeclaration = p.node.isFunctionDeclaration := by
  simp only [Node.isFunctionDeclaration, h.kind]

theorem isDeclarationList (h : Moved mark root p done p') :
    Place.isDeclarationList p'.node = Place.isDeclarationList p.node := by
  simp only [Place.isDeclarationList, h.kind]

/-- The children that fill a field are the same, moved. -/
theorem filter_field (field : String) (parent : Node) (above : List Level)
    (before children : List Node) (done : List Insertion) :
    ((Node.commentedOf mark parent above before done children).filter
      (·.field == some field)).map Node.kind =
      (children.filter (·.field == some field)).map Node.kind := by
  refine Node.filter_commentedOf _ (fun start i => ?_) (fun above done node => ?_) _ _ _ _ _
  · simp [commentNode]
  · rw [Node.commentedAt_field]

theorem child?_kind (h : Moved mark root p done p') (field : String) :
    (p'.node.child? field).map Node.kind = (p.node.child? field).map Node.kind := by
  unfold Node.child?
  rw [← List.head?_filter, ← List.head?_filter, ← List.head?_map, ← List.head?_map, h.node_eq,
    Node.commentedAt_children, filter_field]

theorem child?_isSome (h : Moved mark root p done p') (field : String) :
    (p'.node.child? field).isSome = (p.node.child? field).isSome := by
  have := congrArg Option.isSome (h.child?_kind field)
  rwa [Option.isSome_map, Option.isSome_map] at this

theorem all_field_ne (field : String) (nodes : List Node) :
    nodes.all (·.field != some field) =
      ((nodes.filter (·.field == some field)).map Node.kind).isEmpty := by
  induction nodes with
  | nil => rfl
  | cons node rest ih =>
    rw [List.all_cons, List.filter_cons, ih]
    by_cases hfield : node.field = some field <;> simp [hfield]

theorem fills (h : Moved mark root p done p') (field : String) : p'.fills field = p.fills field := by
  unfold Place.fills
  rw [h.node_eq, Node.commentedAt_field]
  cases h with
  | root => rfl
  | @child p p' done passed lead before after child h hchildren hpassed hlead =>
    -- an added comment fills no field, so the first child to fill it is the same
    have hadded : (lead.map (commentNode (child.start + Insertion.size passed))).all
        (·.field != some field) = true := by
      simp [List.all_eq_true, commentNode]
    simp only [Place.before, List.all_reverse, List.all_append, hadded, Bool.and_true]
    rw [all_field_ne, filter_field, ← all_field_ne]

/-! ### Anchors -/

theorem liftExport (h : Moved mark root p done p') :
    ∃ before, Moved mark root p.liftExport before p'.liftExport := by
  unfold Place.liftExport
  rcases h.parent? with ⟨hp, hp'⟩ | ⟨q, before, q', hq, hq', hmoved⟩
  · rw [hp, hp']
    exact ⟨done, h⟩
  · rw [hq, hq']
    simp only [hmoved.kind, h.fills]
    split
    · exact ⟨before, hmoved⟩
    · exact ⟨done, h⟩

theorem length_declarators (h : Moved mark root p done p') :
    (Place.declarators p'.node).length = (Place.declarators p.node).length := by
  unfold Place.declarators
  rw [h.node_eq, Node.commentedAt_children, ← List.length_map Node.kind, Node.filter_commentedOf,
    List.length_map]
  · simp [commentNode]
  · intro above done node
    rw [Node.commentedAt_named, Node.commentedAt_kind]

theorem isForLoop_parent (h : Moved mark root p done p') :
    (p'.parent?.map fun q => Place.isForLoop q.node) =
      p.parent?.map fun q => Place.isForLoop q.node := by
  rcases h.parent? with ⟨hp, hp'⟩ | ⟨q, before, q', hq, hq', hmoved⟩
  · rw [hp, hp']
  · rw [hq, hq']
    simp only [Option.map_some, Place.isForLoop, hmoved.kind]

theorem declaratorAnchor? (h : Moved mark root p done p') {a' : Place}
    (ha' : p'.declaratorAnchor? = some a') :
    ∃ a before, p.declaratorAnchor? = some a ∧ Moved mark root a before a' := by
  unfold Place.declaratorAnchor? at ha' ⊢
  rcases h.parent? with ⟨hp, hp'⟩ | ⟨q, before, q', hq, hq', hmoved⟩
  · rw [hp'] at ha'
    obtain rfl := Option.some.inj ha'
    rw [hp]
    exact ⟨p, done, rfl, h⟩
  · rw [hq'] at ha'
    rw [hq]
    -- the questions about the declaration have the same answers in the new tree
    simp only [hmoved.isDeclarationList, hmoved.isForLoop_parent, hmoved.length_declarators] at ha' ⊢
    split at ha'
    next hlist =>
      obtain rfl := Option.some.inj ha'
      rw [if_pos hlist]
      exact ⟨p, done, rfl, h⟩
    next hlist =>
      rw [if_neg hlist]
      split at ha'
      next => simp at ha'
      next hloop =>
        rw [if_neg hloop]
        split at ha'
        next hseveral =>
          obtain rfl := Option.some.inj ha'
          rw [if_pos hseveral]
          exact ⟨p, done, rfl, h⟩
        next hone =>
          obtain rfl := Option.some.inj ha'
          rw [if_neg hone]
          obtain ⟨lifted, hlifted⟩ := hmoved.liftExport
          exact ⟨_, lifted, rfl, hlifted⟩

/-- A documentable function of the new tree was one in the old tree, at the same anchor. -/
theorem documentable? (h : Moved mark root p done p') {d' : Documentable}
    (hd' : p'.documentable? = some d') :
    ∃ d before, p.documentable? = some d ∧ Moved mark root d.anchor before d'.anchor := by
  unfold Place.documentable? at hd' ⊢
  simp only [h.isFunctionDeclaration, h.kind] at hd' ⊢
  split at hd'
  next hfunction =>
    -- a function declaration with a name
    rw [if_pos hfunction]
    obtain ⟨name', hname', rfl⟩ := Option.map_eq_some_iff.1 hd'
    have hsome := h.child?_isSome "name"
    rw [hname'] at hsome
    obtain ⟨name, hname⟩ := Option.isSome_iff_exists.1 hsome.symm
    obtain ⟨before, hlifted⟩ := h.liftExport
    exact ⟨_, before, by rw [hname]; rfl, hlifted⟩
  next hfunction =>
    rw [if_neg hfunction]
    split at hd'
    next hdeclarator =>
      -- a declarator with a name and a function value
      rw [if_pos hdeclarator]
      split at hd'
      next name' value' hname' hvalue' =>
        have hsome := h.child?_isSome "name"
        rw [hname'] at hsome
        obtain ⟨name, hname⟩ := Option.isSome_iff_exists.1 hsome.symm
        have hkind := h.child?_kind "value"
        rw [hvalue'] at hkind
        obtain ⟨value, hvalue, hsame⟩ := Option.map_eq_some_iff.1 hkind.symm
        have hfunctionValue : value'.isFunctionValue = value.isFunctionValue := by
          simp only [Node.isFunctionValue, hsame]
        split at hd'
        next hisFunction =>
          obtain ⟨anchor', hanchor', rfl⟩ := Option.map_eq_some_iff.1 hd'
          obtain ⟨anchor, before, hanchor, hmoved⟩ := h.declaratorAnchor? hanchor'
          refine ⟨⟨name, value, anchor⟩, before, ?_, hmoved⟩
          simp only [hname, hvalue, ← hfunctionValue, hisFunction, hanchor, if_true, Option.map_some]
        next => simp at hd'
      next => simp at hd'
    next => simp at hd'

end Moved

/-- Every anchor of the new tree is an anchor of the old one, moved. -/
theorem moved_of_mem_anchors {mark : Marks} {root : Node} {a' : Place}
    (h : a' ∈ anchors (root.commented mark)) :
    ∃ a ∈ anchors root, ∃ done, Moved mark root a done a' := by
  obtain ⟨p', hp', d', hd', rfl⟩ := mem_anchors.1 h
  rcases moved_of_below (Node.mem_places_iff.1 hp') with ⟨start, i, hnode⟩ | ⟨p, done, hmoved⟩
  · -- an added comment is no function
    simp [Place.documentable?, hnode, commentNode, Node.isFunctionDeclaration] at hd'
  · obtain ⟨d, before, hd, hanchor⟩ := hmoved.documentable? hd'
    exact ⟨d.anchor, mem_anchors.2 ⟨p, Node.mem_places_iff.2 hmoved.toBelow, d, hd, rfl⟩, before,
      hanchor⟩

end DocAnnotator
