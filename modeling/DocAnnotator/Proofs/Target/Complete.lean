import Mathlib.Data.List.Forall2
import Mathlib.Data.List.Nodup
import DocAnnotator.Proofs.Target.Collect
import DocAnnotator.Proofs.Target.Walk

/-! ## Collecting is complete

    Every documentable function whose anchor has no doc comment is collected, once, and nothing
    else is. The list of anchors that were seen drops none of them, because different functions
    have different anchors.

    - `Place.IsDocumentable`: the functions that can be documented, said without their anchors.
    - `Place.StandsIn`, `Place.LiftsTo`: the two steps from a function to its anchor.
    - `Below.eq_of_standsIn`, `Below.eq_of_liftsTo`: both steps can be undone.
    - `collect_complete`: what is collected, and that a loop with a stack collects the same.
-/

namespace DocAnnotator

/-! ### Documentable functions -/

namespace Place

/-- The place is in the head of a loop: in a declaration that is a child of the loop itself. -/
def InLoopHead (place : Place) : Prop :=
  ∃ declaration loop, place.parent? = some declaration ∧ isDeclarationList declaration.node = true ∧
    declaration.parent? = some loop ∧ isForLoop loop.node = true

/-- The documentable functions of a tree: declarations of functions with a name, and variables with
    a name and a function for their value, outside the head of a loop. -/
inductive IsDocumentable (place : Place) : Prop
  | declared (hfunction : place.node.isFunctionDeclaration = true)
      (hname : (place.node.child? "name").isSome = true)
  | bound {value : Node} (hkind : place.node.kind = "variable_declarator")
      (hname : (place.node.child? "name").isSome = true)
      (hvalue : place.node.child? "value" = some value) (hfunction : value.isFunctionValue = true)
      (hhead : ¬ place.InLoopHead)

/-- A variable has no anchor exactly in the head of a loop. -/
theorem declaratorAnchor?_eq_none_iff (place : Place) :
    place.declaratorAnchor? = none ↔ place.InLoopHead := by
  unfold declaratorAnchor?
  constructor
  · intro hnone
    split at hnone
    · cases hnone
    next declaration hparent =>
      split at hnone
      · cases hnone
      next hlist =>
        split at hnone
        next hloop =>
          obtain ⟨loop, hloop, hfor⟩ : ∃ loop, declaration.parent? = some loop ∧
              isForLoop loop.node = true := by
            cases hup : declaration.parent? with
            | none => simp [hup] at hloop
            | some loop => exact ⟨loop, rfl, by simpa [hup] using hloop⟩
          exact ⟨declaration, loop, hparent, by simpa using hlist, hloop, hfor⟩
        next =>
          split at hnone <;> cases hnone
  · rintro ⟨declaration, loop, hparent, hlist, hloop, hfor⟩
    simp [hparent, hlist, hloop, hfor]

theorem not_isFunctionDeclaration {node : Node} (h : node.kind = "variable_declarator") :
    node.isFunctionDeclaration = false := by
  simp [Node.isFunctionDeclaration, h]

/-- The documentable functions are those that are found. -/
theorem isDocumentable_iff {place : Place} :
    place.IsDocumentable ↔ place.documentable?.isSome = true := by
  constructor
  · intro h
    cases h with
    | declared hfunction hname =>
      obtain ⟨name, hname⟩ := Option.isSome_iff_exists.1 hname
      simp [documentable?, hfunction, hname]
    | bound hkind hname hvalue hfunction hhead =>
      obtain ⟨name, hname⟩ := Option.isSome_iff_exists.1 hname
      rw [← declaratorAnchor?_eq_none_iff] at hhead
      obtain ⟨anchor, hanchor⟩ := Option.ne_none_iff_exists'.1 hhead
      simp [documentable?, not_isFunctionDeclaration hkind, hkind, hname, hvalue, hfunction, hanchor]
  · intro h
    obtain ⟨d, hd⟩ := Option.isSome_iff_exists.1 h
    rcases documentable?_eq_some hd with
      ⟨hfunction, hname, -, -⟩ | ⟨hkind, hname, hvalue, hfunction, hanchor⟩
    · exact .declared hfunction (by rw [hname]; rfl)
    · refine .bound hkind (by rw [hname]; rfl) hvalue hfunction fun hhead => ?_
      rw [← declaratorAnchor?_eq_none_iff, hanchor] at hhead
      cases hhead

instance (place : Place) : Decidable place.IsDocumentable :=
  decidable_of_iff _ isDocumentable_iff.symm

/-- A documentable function whose anchor has no doc comment. -/
def IsOpen (source : Bytes) (place : Place) : Prop :=
  place.IsDocumentable ∧ ∀ d ∈ place.documentable?, d.anchor.isDocumented source = false

instance (source : Bytes) (place : Place) : Decidable (place.IsOpen source) :=
  inferInstanceAs (Decidable (_ ∧ _))

/-- A target is made exactly for the open functions. -/
theorem isOpen_iff {source : Bytes} {place : Place} :
    place.IsOpen source ↔ (place.target? source).isSome = true := by
  rw [IsOpen, isDocumentable_iff]
  cases hd : place.documentable? with
  | none => simp [target?, hd]
  | some d => cases hdoc : d.anchor.isDocumented source <;> simp [target?, hd, hdoc]

end Place

/-! ### From a function to its anchor -/

namespace Place

/-- A function stands in a statement: it is the statement itself, or its only declarator. -/
inductive StandsIn (place : Place) : Place → Prop
  | itself (hkind : place.node.isFunctionDeclaration = true ∨
      place.node.kind = "variable_declarator") : StandsIn place place
  | only {declaration : Place} (hkind : place.node.kind = "variable_declarator")
      (hparent : place.parent? = some declaration)
      (hlist : isDeclarationList declaration.node = true)
      (honly : (declarators declaration.node).length = 1) : StandsIn place declaration

theorem not_isDeclarationList {node : Node}
    (h : node.isFunctionDeclaration = true ∨ node.kind = "variable_declarator") :
    ¬ isDeclarationList node = true := by
  simp only [Node.isFunctionDeclaration, isDeclarationList, Bool.or_eq_true, beq_iff_eq] at h ⊢
  rcases h with (h | h) | h <;> simp [h]

/-- A statement is lifted: it stays, or goes to the export statement whose declaration it is. -/
inductive LiftsTo (place : Place) : Place → Prop
  | itself : LiftsTo place place
  | exported {parent : Place} (hparent : place.parent? = some parent)
      (hexport : parent.node.kind = "export_statement")
      (hfills : place.fills "declaration" = true) : LiftsTo place parent

theorem liftsTo_liftExport (place : Place) : place.LiftsTo place.liftExport := by
  rcases liftExport_cases place with hself | ⟨parent, hparent, hexport, hfills, hlift⟩
  · rw [hself]
    exact .itself
  · rw [hlift]
    exact .exported hparent hexport hfills

/-- The way from a function to its anchor. -/
theorem exists_standsIn {place : Place} {d : Documentable} (h : place.documentable? = some d) :
    ∃ statement, place.StandsIn statement ∧ statement.LiftsTo d.anchor := by
  rcases documentable?_eq_some h with ⟨hfunction, -, -, hanchor⟩ | ⟨hkind, -, -, -, hanchor⟩
  · rw [hanchor]
    exact ⟨place, .itself (.inl hfunction), place.liftsTo_liftExport⟩
  · rcases declaratorAnchor?_eq_some hanchor with
      hself | ⟨declaration, hparent, hlist, honly, hlift⟩
    · rw [hself]
      exact ⟨place, .itself (.inr hkind), .itself⟩
    · rw [hlift]
      exact ⟨declaration, .only hkind hparent hlist honly, declaration.liftsTo_liftExport⟩

/-- Neither functions nor declarations are export statements. -/
theorem StandsIn.not_export {place statement : Place} (h : place.StandsIn statement) :
    statement.node.kind ≠ "export_statement" := by
  intro hexport
  cases h with
  | itself hkind => simp [Node.isFunctionDeclaration, hexport] at hkind
  | only hkind hparent hlist honly => simp [isDeclarationList, hexport] at hlist

end Place

/-! ### The way back -/

/-- A place is told by its parent, its node and the siblings before it. -/
theorem Below.child_of {root : Node} {p parent : Place} (hp : Below root p)
    (hparent : p.parent? = some parent) :
    p = ⟨p.node, ⟨p.before, parent.node⟩ :: parent.above⟩ ∧
      ∃ after, parent.node.children = p.before.reverse ++ p.node :: after := by
  obtain ⟨node, above⟩ := p
  cases above with
  | nil => cases hparent
  | cons level above =>
    obtain rfl := Option.some.inj hparent
    exact ⟨rfl, hp.parent.2⟩

/-- Of two children of one node, one stands before the other unless they are the same. -/
theorem Below.siblings {root : Node} {p q parent : Place} (hp : Below root p) (hq : Below root q)
    (hparent : p.parent? = some parent) (hparent' : q.parent? = some parent) :
    p = q ∨ p.node ∈ q.before ∨ q.node ∈ p.before := by
  obtain ⟨hshape, after, hchildren⟩ := hp.child_of hparent
  obtain ⟨hshape', after', hchildren'⟩ := hq.child_of hparent'
  -- both cut the same list of children in two
  have hcut := hchildren.symm.trans hchildren'
  rcases Nat.lt_trichotomy p.before.length q.before.length with hlt | heq | hlt
  · refine .inr (.inl (List.mem_reverse.1 ?_))
    have hat := congrArg (·[p.before.length]?) hcut
    simp only [List.getElem?_append, List.length_reverse, Nat.lt_irrefl, hlt, if_true, if_false,
      Nat.sub_self, List.getElem?_cons_zero] at hat
    exact List.mem_of_getElem? hat.symm
  · obtain ⟨hbefore, hrest⟩ := List.append_inj hcut (by simpa using heq)
    obtain ⟨hnode, -⟩ := List.cons.inj hrest
    refine .inl ?_
    rw [hshape, hshape', hnode, List.reverse_inj.1 hbefore]
  · refine .inr (.inr (List.mem_reverse.1 ?_))
    have hat := congrArg (·[q.before.length]?) hcut
    simp only [List.getElem?_append, List.length_reverse, Nat.lt_irrefl, hlt, if_true, if_false,
      Nat.sub_self, List.getElem?_cons_zero] at hat
    exact List.mem_of_getElem? hat

theorem Below.of_standsIn {root : Node} {p statement : Place} (hp : Below root p)
    (h : p.StandsIn statement) : Below root statement := by
  cases h with
  | itself => exact hp
  | only _ hparent _ _ => exact hp.of_parent? hparent

namespace Place

theorem fills_field {place : Place} {field : String} (h : place.fills field = true) :
    place.node.field = some field ∧ ∀ sibling ∈ place.before, sibling.field ≠ some field := by
  rw [fills, Bool.and_eq_true, List.all_eq_true] at h
  exact ⟨by simpa using h.1, fun sibling hsibling => by simpa using h.2 sibling hsibling⟩

end Place

/-- A statement can be told from what it is lifted to. -/
theorem Below.eq_of_liftsTo {root : Node} {s t anchor : Place} (hs : Below root s)
    (ht : Below root t) (hlift : s.LiftsTo anchor) (hlift' : t.LiftsTo anchor)
    (hplain : s.node.kind ≠ "export_statement") (hplain' : t.node.kind ≠ "export_statement") :
    s = t := by
  cases hlift with
  | itself =>
    cases hlift' with
    | itself => rfl
    | exported _ hexport _ => exact absurd hexport hplain
  | exported hparent hexport hfills =>
    cases hlift' with
    | itself => exact absurd hexport hplain'
    | exported hparent' _ hfills' =>
      -- only the first child of the field counts
      obtain ⟨hfield, hfirst⟩ := Place.fills_field hfills
      obtain ⟨hfield', hfirst'⟩ := Place.fills_field hfills'
      rcases hs.siblings ht hparent hparent' with heq | hbefore | hbefore
      · exact heq
      · exact absurd hfield (hfirst' _ hbefore)
      · exact absurd hfield' (hfirst _ hbefore)

/-- With another declarator before it, a declarator is not the only one. -/
theorem Below.two_le_length_declarators {root : Node} {p declaration : Place} {node : Node}
    (hp : Below root p) (hparent : p.parent? = some declaration) (hbefore : node ∈ p.before)
    (hdeclarator : (p.node.named && p.node.kind == "variable_declarator") = true)
    (hdeclarator' : (node.named && node.kind == "variable_declarator") = true) :
    2 ≤ (Place.declarators declaration.node).length := by
  obtain ⟨-, after, hchildren⟩ := hp.child_of hparent
  have hfirst : 0 < (p.before.reverse.filter
      fun c => c.named && c.kind == "variable_declarator").length :=
    List.length_pos_of_mem (List.mem_filter.2 ⟨List.mem_reverse.2 hbefore, hdeclarator'⟩)
  rw [Place.declarators, hchildren, List.filter_append,
    List.filter_cons_of_pos (by simpa using hdeclarator), List.length_append, List.length_cons]
  omega

/-- A function can be told from the statement that it stands in, if declarators are named nodes. -/
theorem Below.eq_of_standsIn {root : Node} {p q statement : Place} (hp : Below root p)
    (hq : Below root q) (hstands : p.StandsIn statement) (hstands' : q.StandsIn statement)
    (hnamed : ∀ p, Below root p → p.node.kind = "variable_declarator" → p.node.named = true) :
    p = q := by
  cases hstands with
  | itself hkind =>
    cases hstands' with
    | itself => rfl
    | only _ _ hlist _ => exact absurd hlist (Place.not_isDeclarationList hkind)
  | only hkind hparent hlist honly =>
    cases hstands' with
    | itself hkind' => exact absurd hlist (Place.not_isDeclarationList hkind')
    | only hkind' hparent' _ _ =>
      have hdeclarator : (p.node.named && p.node.kind == "variable_declarator") = true := by
        simp [hnamed p hp hkind, hkind]
      have hdeclarator' : (q.node.named && q.node.kind == "variable_declarator") = true := by
        simp [hnamed q hq hkind', hkind']
      rcases hp.siblings hq hparent hparent' with heq | hbefore | hbefore
      · exact heq
      · have := hq.two_le_length_declarators hparent' hbefore hdeclarator' hdeclarator
        omega
      · have := hp.two_le_length_declarators hparent hbefore hdeclarator hdeclarator'
        omega

/-! ### Complete and exact -/

/-- What a grammar promises about the nodes that can be anchors: kind and span tell them apart, and
    declarators are named nodes. -/
structure TellsAnchors (root : Node) : Prop where
  distinct : ((root.places.filter (·.node.canAnchor)).map Place.key).Nodup
  named : ∀ p ∈ root.places, p.node.kind = "variable_declarator" → p.node.named = true

instance (root : Node) : Decidable (TellsAnchors root) :=
  decidable_of_iff (((root.places.filter (·.node.canAnchor)).map Place.key).Nodup ∧
      ∀ p ∈ root.places, p.node.kind = "variable_declarator" → p.node.named = true)
    ⟨fun h => ⟨h.1, h.2⟩, fun h => ⟨h.distinct, h.named⟩⟩

/-- Different functions have different anchors, even by kind and span. -/
theorem TellsAnchors.eq_of_anchor_key {root : Node} (h : TellsAnchors root) {p q : Place}
    (hp : p ∈ root.places) (hq : q ∈ root.places) {d e : Documentable}
    (hd : p.documentable? = some d) (he : q.documentable? = some e)
    (hkey : d.anchor.key = e.anchor.key) : p = q := by
  obtain ⟨hbelow, hcan⟩ := below_of_mem_anchors (mem_anchors.2 ⟨p, hp, d, hd, rfl⟩)
  obtain ⟨hbelow', hcan'⟩ := below_of_mem_anchors (mem_anchors.2 ⟨q, hq, e, he, rfl⟩)
  have hanchor : d.anchor = e.anchor :=
    List.inj_on_of_nodup_map h.distinct
      (List.mem_filter.2 ⟨Node.mem_places_iff.2 hbelow, hcan⟩)
      (List.mem_filter.2 ⟨Node.mem_places_iff.2 hbelow', hcan'⟩) hkey
  -- the way from the functions to their anchor is taken back, one step after the other
  obtain ⟨s, hstands, hlift⟩ := Place.exists_standsIn hd
  obtain ⟨t, hstands', hlift'⟩ := Place.exists_standsIn he
  rw [← hanchor] at hlift'
  have hp' := Node.mem_places_iff.1 hp
  have hq' := Node.mem_places_iff.1 hq
  obtain rfl := (hp'.of_standsIn hstands).eq_of_liftsTo (hq'.of_standsIn hstands') hlift hlift'
    hstands.not_export hstands'.not_export
  exact hp'.eq_of_standsIn hq' hstands hstands' fun p hp => h.named p (Node.mem_places_iff.2 hp)

theorem distinctAnchors_eq_self {seen : List AnchorKey} {targets : List Target}
    (hnodup : (targets.map Target.key).Nodup) (hseen : ∀ t ∈ targets, t.key ∉ seen) :
    distinctAnchors seen targets = targets := by
  induction targets generalizing seen with
  | nil => rfl
  | cons first rest ih =>
    obtain ⟨hfirst, hrest⟩ := List.nodup_cons.1 hnodup
    have hnew : first.key ∉ seen := hseen first List.mem_cons_self
    rw [distinctAnchors, if_neg (by simpa using hnew), ih hrest]
    intro t ht hmem
    rcases List.mem_cons.1 hmem with hkey | hmem
    · exact hfirst (hkey ▸ List.mem_map_of_mem ht)
    · exact hseen t (List.mem_cons_of_mem _ ht) hmem

/-- The targets of all places have different anchors. -/
theorem TellsAnchors.keys_nodup {root : Node} (h : TellsAnchors root) (source : Bytes) :
    ((root.places.filterMap (Place.target? source)).map Target.key).Nodup := by
  refine List.pairwise_map.2 (List.pairwise_filterMap.2 (root.places_nodup.imp_of_mem ?_))
  intro p q hp hq hpq t ht u hu hkey
  obtain ⟨d, hd, -, rfl⟩ := target?_eq_some.1 ht
  obtain ⟨e, he, -, rfl⟩ := target?_eq_some.1 hu
  exact hpq (h.eq_of_anchor_key hp hq hd he hkey)

/-- Nothing that has a target is dropped. -/
theorem TellsAnchors.collect_eq {root : Node} (h : TellsAnchors root) (source : Bytes) :
    collect source root = root.places.filterMap (Place.target? source) :=
  distinctAnchors_eq_self (h.keys_nodup source) fun _ _ => List.not_mem_nil

/-- The target of a documentable function, before any type is inferred. -/
def Place.Yields (source : Bytes) (place : Place) (target : Target) : Prop :=
  ∃ d, place.documentable? = some d ∧ target = d.target source

/-- The values of a partial function stand to the arguments that have one, in order. -/
theorem forall₂_filterMap {α β : Type} (f : α → Option β) (l : List α) :
    List.Forall₂ (fun a b => f a = some b) (l.filter fun a => (f a).isSome) (l.filterMap f) := by
  induction l with
  | nil => exact .nil
  | cons a rest ih =>
    cases hvalue : f a with
    | none => simpa [hvalue] using ih
    | some b =>
      rw [List.filter_cons_of_pos (by simp [hvalue]), List.filterMap_cons_some hvalue]
      exact .cons hvalue ih

/-- The loop over the stack collects one target for each documentable function without a doc
    comment, in document order, and no other. Different functions have different anchors, so that
    none is dropped as seen, and all targets are told apart by their anchors. -/
theorem collect_complete {root : Node} (source : Bytes) (h : TellsAnchors root) :
    (Walk.start root).run source = collect source root ∧
    List.Forall₂ (Place.Yields source) (root.places.filter fun p => decide (p.IsOpen source))
      (collect source root) ∧
    collect source root = root.places.filterMap (Place.target? source) ∧
    (∀ p ∈ root.places, ∀ q ∈ root.places, p ≠ q → ∀ d e, p.documentable? = some d →
      q.documentable? = some e → d.anchor ≠ e.anchor ∧ d.anchor.key ≠ e.anchor.key) ∧
    ((collect source root).map Target.key).Nodup := by
  have hcollect := h.collect_eq source
  refine ⟨Walk.run_start source root, ?_, hcollect, ?_, ?_⟩
  · have hopen : (root.places.filter fun p => decide (p.IsOpen source)) =
        root.places.filter fun p => (p.target? source).isSome := by
      simp only [Place.isOpen_iff, Bool.decide_eq_true]
    rw [hcollect, hopen]
    refine (forall₂_filterMap (Place.target? source) root.places).imp fun p t ht => ?_
    obtain ⟨d, hd, -, htarget⟩ := target?_eq_some.1 ht
    exact ⟨d, hd, htarget.symm⟩
  · intro p hp q hq hpq d e hd he
    have hkeys : d.anchor.key ≠ e.anchor.key :=
      fun hkey => hpq (h.eq_of_anchor_key hp hq hd he hkey)
    exact ⟨fun hanchor => hkeys (by rw [hanchor]), hkeys⟩
  · rw [hcollect]
    exact h.keys_nodup source

/-- The tree of `export const f = () => { function g() {} }`, and after it that of a loop
    `for (let h = () => 1;;) {}`: an exported function with another one inside, and a third one in
    the head of a loop. -/
def nestedTree : Node :=
  ⟨"program", 0, 68, true, none,
    [⟨"export_statement", 0, 42, true, none,
      [⟨"lexical_declaration", 7, 42, true, some "declaration",
        [⟨"variable_declarator", 13, 42, true, none,
          [⟨"identifier", 13, 14, true, some "name", []⟩,
           ⟨"arrow_function", 17, 42, true, some "value",
            [⟨"statement_block", 23, 42, true, some "body",
              [⟨"function_declaration", 25, 40, true, none,
                [⟨"identifier", 34, 35, true, some "name", []⟩]⟩]⟩]⟩]⟩]⟩]⟩,
     ⟨"for_statement", 42, 68, true, none,
      [⟨"lexical_declaration", 47, 64, true, some "initializer",
        [⟨"variable_declarator", 51, 62, true, none,
          [⟨"identifier", 51, 52, true, some "name", []⟩,
           ⟨"arrow_function", 55, 62, true, some "value", []⟩]⟩]⟩]⟩]⟩

/-- Of the three functions the loop collects the first two, the outer one at its export statement. -/
theorem collect_complete_nested :
    TellsAnchors nestedTree ∧
    ((Walk.start nestedTree).run []).map Target.key =
      [⟨"export_statement", 0, 42⟩, ⟨"function_declaration", 25, 40⟩] := by
  have htells : TellsAnchors nestedTree := by decide
  obtain ⟨hrun, -, hcollect, -, -⟩ := collect_complete [] htells
  refine ⟨htells, ?_⟩
  rw [hrun, hcollect]
  decide +kernel

end DocAnnotator
