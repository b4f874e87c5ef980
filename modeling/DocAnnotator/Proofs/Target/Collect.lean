import DocAnnotator.Proofs.Tree.Places
import DocAnnotator.Target.Collect

/-! ## What is collected

    Targets stand for the anchors of a tree that have no doc comment.

    - `anchors`, `openAnchors`: the anchors of a tree, and those without a doc comment.
    - `mem_collect`, `exists_mem_collect`: targets are made for the open anchors, and for all of
      them.
    - `collect_keys_nodup`: no two targets share an anchor.
    - `below_of_mem_anchors`: an anchor is a place of the tree, of one of a few kinds.
-/

namespace DocAnnotator

/-- The anchors of the documentable functions of a tree. -/
def anchors (root : Node) : List Place :=
  (root.places.filterMap Place.documentable?).map (·.anchor)

/-- The anchors without a doc comment. -/
def openAnchors (source : Bytes) (root : Node) : List Place :=
  (anchors root).filter (!·.isDocumented source)

/-- What tells an anchor apart. -/
def Place.key (place : Place) : AnchorKey := ⟨place.node.kind, place.node.start, place.node.stop⟩

theorem mem_anchors {root : Node} {a : Place} :
    a ∈ anchors root ↔ ∃ p ∈ root.places, ∃ d, p.documentable? = some d ∧ d.anchor = a := by
  simp only [anchors, List.mem_map, List.mem_filterMap]
  constructor
  · rintro ⟨d, ⟨p, hp, hd⟩, rfl⟩
    exact ⟨p, hp, d, hd, rfl⟩
  · rintro ⟨p, hp, d, hd, rfl⟩
    exact ⟨d, ⟨p, hp, hd⟩, rfl⟩

/-! ### Targets and anchors -/

theorem target?_eq_some {source : Bytes} {place : Place} {t : Target} :
    place.target? source = some t ↔ ∃ d, place.documentable? = some d ∧
      d.anchor.isDocumented source = false ∧ d.target source = t := by
  unfold Place.target?
  rw [Option.bind_eq_some_iff]
  refine exists_congr fun d => and_congr_right fun _ => ?_
  split
  next h => simp [h]
  next h => simp [h]

theorem mem_of_mem_distinctAnchors {seen : List AnchorKey} {targets : List Target} {t : Target}
    (h : t ∈ distinctAnchors seen targets) : t ∈ targets ∧ t.key ∉ seen := by
  induction targets generalizing seen with
  | nil => simp [distinctAnchors] at h
  | cons first rest ih =>
    rw [distinctAnchors] at h
    split at h
    next hseen =>
      -- the first one is dropped
      obtain ⟨hmem, hkey⟩ := ih h
      exact ⟨List.mem_cons_of_mem _ hmem, hkey⟩
    next hseen =>
      rcases List.mem_cons.1 h with rfl | h
      · exact ⟨List.mem_cons_self, by simpa using hseen⟩
      · obtain ⟨hmem, hkey⟩ := ih h
        exact ⟨List.mem_cons_of_mem _ hmem, fun hold => hkey (List.mem_cons_of_mem _ hold)⟩

theorem exists_mem_distinctAnchors {seen : List AnchorKey} {targets : List Target} {t : Target}
    (h : t ∈ targets) (hseen : t.key ∉ seen) :
    ∃ t' ∈ distinctAnchors seen targets, t'.key = t.key := by
  induction targets generalizing seen with
  | nil => simp at h
  | cons first rest ih =>
    rw [distinctAnchors]
    split
    next hfirst =>
      refine ih ((List.mem_cons.1 h).resolve_left fun heq => hseen ?_) hseen
      rw [heq]
      simpa using hfirst
    next hfirst =>
      -- either the first one has the key, or it is still to come
      by_cases hkey : t.key = first.key
      · exact ⟨first, List.mem_cons_self, hkey.symm⟩
      · have hrest : t ∈ rest := (List.mem_cons.1 h).resolve_left fun heq => hkey (by rw [heq])
        have hseen' : t.key ∉ first.key :: seen := by simp [hkey, hseen]
        obtain ⟨t', ht', hkey'⟩ := ih hrest hseen'
        exact ⟨t', List.mem_cons_of_mem _ ht', hkey'⟩

theorem distinctAnchors_nodup (seen : List AnchorKey) (targets : List Target) :
    (distinctAnchors seen targets).Pairwise fun a b => a.key ≠ b.key := by
  induction targets generalizing seen with
  | nil => exact List.Pairwise.nil
  | cons first rest ih =>
    rw [distinctAnchors]
    split
    · exact ih seen
    · refine List.pairwise_cons.2 ⟨fun t ht hkey => ?_, ih _⟩
      exact (mem_of_mem_distinctAnchors ht).2 (by simp [hkey])

/-- No two targets share an anchor. -/
theorem collect_keys_nodup (source : Bytes) (root : Node) :
    (collect source root).Pairwise fun a b => a.key ≠ b.key :=
  distinctAnchors_nodup [] _

/-- A target is made for an anchor without a doc comment. -/
theorem mem_collect {source : Bytes} {root : Node} {t : Target} (h : t ∈ collect source root) :
    ∃ a ∈ openAnchors source root, t.key = a.key ∧ t.anchorOffset = a.node.start := by
  obtain ⟨p, hp, hsome⟩ := List.mem_filterMap.1 (mem_of_mem_distinctAnchors h).1
  obtain ⟨d, hd, hopen, rfl⟩ := target?_eq_some.1 hsome
  refine ⟨d.anchor, List.mem_filter.2 ⟨mem_anchors.2 ⟨p, hp, d, hd, rfl⟩, ?_⟩, rfl, rfl⟩
  simp [hopen]

/-- Where a tree has one documentable function, nothing else is collected. -/
theorem eq_of_mem_collect {source : Bytes} {root : Node} {d : Documentable} {t : Target}
    (hone : root.places.filterMap Place.documentable? = [d]) (h : t ∈ collect source root) :
    t = d.target source := by
  obtain ⟨place, hplace, hsome⟩ := List.mem_filterMap.1 (mem_of_mem_distinctAnchors h).1
  obtain ⟨other, hother, -, rfl⟩ := target?_eq_some.1 hsome
  have hmem : other ∈ root.places.filterMap Place.documentable? :=
    List.mem_filterMap.2 ⟨place, hplace, hother⟩
  rw [hone, List.mem_singleton] at hmem
  rw [hmem]

/-- An anchor without a doc comment has a target. -/
theorem exists_mem_collect {source : Bytes} {root : Node} {a : Place}
    (h : a ∈ openAnchors source root) : ∃ t ∈ collect source root, t.anchorOffset = a.node.start := by
  obtain ⟨hanchor, hopen⟩ := List.mem_filter.1 h
  obtain ⟨p, hp, d, hd, rfl⟩ := mem_anchors.1 hanchor
  have hmem : d.target source ∈ root.places.filterMap (Place.target? source) :=
    List.mem_filterMap.2 ⟨p, hp, target?_eq_some.2 ⟨d, hd, by simpa using hopen, rfl⟩⟩
  -- the target that is kept may be another one, but it has the same anchor
  obtain ⟨t, ht, hkey⟩ := exists_mem_distinctAnchors hmem List.not_mem_nil
  obtain ⟨b, -, hb, hoffset⟩ := mem_collect ht
  have hstart : b.node.start = d.anchor.node.start := congrArg AnchorKey.start (hb.symm.trans hkey)
  exact ⟨t, ht, hoffset.trans hstart⟩

/-- Nothing is collected where every anchor has a doc comment. -/
theorem collect_eq_nil {source : Bytes} {root : Node}
    (h : ∀ a ∈ anchors root, a.isDocumented source = true) : collect source root = [] := by
  rw [List.eq_nil_iff_forall_not_mem]
  intro t ht
  obtain ⟨a, ha, -⟩ := mem_collect ht
  obtain ⟨hanchor, hopen⟩ := List.mem_filter.1 ha
  simp [h a hanchor] at hopen

/-! ### What an anchor can be -/

/-- The kinds of nodes that are anchors. -/
def Node.canAnchor (node : Node) : Bool :=
  node.isFunctionDeclaration || node.kind == "variable_declarator" ||
    Place.isDeclarationList node || node.kind == "export_statement"

theorem Node.not_comment_of_canAnchor {node : Node} (h : node.canAnchor = true) :
    node.isComment = false := by
  simp only [canAnchor, isFunctionDeclaration, Place.isDeclarationList, Bool.or_eq_true,
    beq_iff_eq] at h
  rw [isComment, beq_eq_false_iff_ne]
  intro hkind
  rw [hkind] at h
  simp at h

theorem liftExport_cases (p : Place) :
    p.liftExport = p ∨ ∃ q, p.parent? = some q ∧ q.node.kind = "export_statement" ∧
      p.fills "declaration" = true ∧ p.liftExport = q := by
  unfold Place.liftExport
  split
  next q hq =>
    split
    next hexport =>
      rw [Bool.and_eq_true, beq_iff_eq] at hexport
      exact .inr ⟨q, hq, hexport.1, hexport.2, rfl⟩
    next => exact .inl rfl
  next => exact .inl rfl

theorem Below.of_parent? {root : Node} {p q : Place} (h : Below root p) (hq : p.parent? = some q) :
    Below root q := by
  obtain ⟨node, above⟩ := p
  cases above with
  | nil => simp [Place.parent?] at hq
  | cons level above =>
    obtain rfl := Option.some.inj hq
    exact h.parent.1

theorem Below.liftExport {root : Node} {p : Place} (h : Below root p)
    (hkind : p.node.canAnchor = true) :
    Below root p.liftExport ∧ p.liftExport.node.canAnchor = true := by
  rcases liftExport_cases p with hself | ⟨q, hq, hexport, -, hlift⟩
  · rw [hself]
    exact ⟨h, hkind⟩
  · rw [hlift]
    exact ⟨h.of_parent? hq, by simp [Node.canAnchor, hexport]⟩

/-- The anchor of a variable: its declarator, or the declaration that holds no other one. -/
theorem Place.declaratorAnchor?_eq_some {p a : Place} (h : p.declaratorAnchor? = some a) :
    a = p ∨ ∃ declaration, p.parent? = some declaration ∧
      isDeclarationList declaration.node = true ∧ (declarators declaration.node).length = 1 ∧
      a = declaration.liftExport := by
  unfold Place.declaratorAnchor? at h
  split at h
  · -- a declarator on its own
    exact .inl (Option.some.inj h).symm
  next declaration hparent =>
    split at h
    · exact .inl (Option.some.inj h).symm
    next hlist =>
      split at h
      · -- the head of a loop has no anchor
        cases h
      split at h
      · -- one of several declarators is its own anchor
        exact .inl (Option.some.inj h).symm
      next honly =>
        exact .inr ⟨declaration, hparent, by simpa using hlist, by simpa using honly,
          (Option.some.inj h).symm⟩

theorem Below.declaratorAnchor? {root : Node} {p a : Place} (h : Below root p)
    (hkind : p.node.canAnchor = true) (ha : p.declaratorAnchor? = some a) :
    Below root a ∧ a.node.canAnchor = true := by
  rcases Place.declaratorAnchor?_eq_some ha with rfl | ⟨declaration, hparent, hlist, -, rfl⟩
  · exact ⟨h, hkind⟩
  · exact (h.of_parent? hparent).liftExport (by simp [Node.canAnchor, hlist])

/-- What is found at a place: the declared function with its name, or the name and the value of a
    variable. -/
theorem Place.documentable?_eq_some {place : Place} {d : Documentable}
    (h : place.documentable? = some d) :
    (place.node.isFunctionDeclaration = true ∧ place.node.child? "name" = some d.name ∧
      d.function = place.node ∧ d.anchor = place.liftExport) ∨
    (place.node.kind = "variable_declarator" ∧ place.node.child? "name" = some d.name ∧
      place.node.child? "value" = some d.function ∧ d.function.isFunctionValue = true ∧
      place.declaratorAnchor? = some d.anchor) := by
  unfold Place.documentable? at h
  simp only at h
  split at h
  next hfunction =>
    obtain ⟨name, hname, rfl⟩ := Option.map_eq_some_iff.1 h
    exact .inl ⟨hfunction, hname, rfl, rfl⟩
  next =>
    split at h
    next hkind =>
      split at h
      next name value hname hvalue =>
        split at h
        next hfunction =>
          obtain ⟨anchor, hanchor, rfl⟩ := Option.map_eq_some_iff.1 h
          exact .inr ⟨by simpa using hkind, hname, hvalue, hfunction, hanchor⟩
        next => cases h
      next => cases h
    next => cases h

/-- An anchor is a place of the tree, of one of a few kinds. -/
theorem below_of_mem_anchors {root : Node} {a : Place} (h : a ∈ anchors root) :
    Below root a ∧ a.node.canAnchor = true := by
  obtain ⟨p, hp, d, hd, rfl⟩ := mem_anchors.1 h
  have hbelow := Node.mem_places_iff.1 hp
  rcases Place.documentable?_eq_some hd with ⟨hfunction, -, -, hanchor⟩ | ⟨hkind, -, -, -, hanchor⟩
  · rw [hanchor]
    exact hbelow.liftExport (by simp [Node.canAnchor, hfunction])
  · exact hbelow.declaratorAnchor? (by simp [Node.canAnchor, hkind]) hanchor

end DocAnnotator
