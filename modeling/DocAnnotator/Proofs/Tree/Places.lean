import Mathlib.Data.List.Basic
import DocAnnotator.Tree.Place

/-! ## The places of a tree

    Every place is reached from the root by going down to a child, and each is listed once.

    - `Below`: the places that can be reached.
    - `mem_places_iff`: they are the places that are listed.
    - `Below.eq_of_path`, `places_nodup`: a place is told by its path, and is listed once.
    - `WellNested`: children lie in order, apart, and inside the span of their parent.
    - `places_sorted`: the nodes of a well-nested tree are listed by where they start.
-/

namespace DocAnnotator

/-! ### Reaching a place -/

/-- The places that are reached from the root, child by child. -/
inductive Below (root : Node) : Place → Prop
  | root : Below root ⟨root, []⟩
  | child {place : Place} {before after : List Node} {child : Node} (h : Below root place)
      (hchildren : place.node.children = before ++ child :: after) :
      Below root ⟨child, ⟨before.reverse, place.node⟩ :: place.above⟩

namespace Node

theorem placesAt_eq (above : List Level) (node : Node) :
    node.placesAt above = ⟨node, above⟩ :: placesOf node above [] node.children := by
  cases node
  rfl

theorem placesOf_append (parent : Node) (above : List Level) (before first second : List Node) :
    placesOf parent above before (first ++ second) =
      placesOf parent above before first ++
        placesOf parent above (first.reverse ++ before) second := by
  induction first generalizing before with
  | nil => rfl
  | cons child first ih => simp [placesOf, ih]

mutual
theorem below_of_mem_placesAt {root : Node} (above : List Level) :
    (node : Node) → Below root ⟨node, above⟩ → ∀ p ∈ node.placesAt above, Below root p
  | ⟨kind, start, stop, named, field, children⟩, h, p, hp => by
    rcases List.mem_cons.1 hp with rfl | hp
    · exact h
    · exact below_of_mem_placesOf _ above [] children h rfl p hp

theorem below_of_mem_placesOf {root : Node} (parent : Node) (above : List Level)
    (before : List Node) : (children : List Node) → Below root ⟨parent, above⟩ →
      parent.children = before.reverse ++ children →
      ∀ p ∈ placesOf parent above before children, Below root p
  | [], _, _, p, hp => by simp [placesOf] at hp
  | child :: rest, h, hchildren, p, hp => by
    rcases List.mem_append.1 hp with hp | hp
    · -- at the child or below it
      have hchild := Below.child h hchildren
      rw [List.reverse_reverse] at hchild
      exact below_of_mem_placesAt _ child hchild p hp
    · exact below_of_mem_placesOf parent above (child :: before) rest h (by simp [hchildren]) p hp
end

/-- The children of a listed place are listed with it. -/
def ClosedDown (places : List Place) : Prop :=
  ∀ p ∈ places, ∀ before child after, p.node.children = before ++ child :: after →
    (⟨child, ⟨before.reverse, p.node⟩ :: p.above⟩ : Place) ∈ places

theorem mem_placesOf (parent : Node) (above : List Level) (before : List Node) (child : Node)
    (after : List Node) :
    (⟨child, ⟨before.reverse, parent⟩ :: above⟩ : Place) ∈
      placesOf parent above [] (before ++ child :: after) := by
  rw [placesOf_append, placesOf, placesAt_eq]
  simp

mutual
theorem closedDown_placesAt (above : List Level) :
    (node : Node) → ClosedDown (node.placesAt above)
  | ⟨kind, start, stop, named, field, children⟩, p, hp, before, child, after, hchildren => by
    rcases List.mem_cons.1 hp with rfl | hp
    · -- the children of the node itself come right after it
      refine List.mem_cons_of_mem _ ?_
      obtain rfl : children = before ++ child :: after := hchildren
      exact mem_placesOf _ above before child after
    · exact List.mem_cons_of_mem _
        (closedDown_placesOf _ above [] children p hp before child after hchildren)

theorem closedDown_placesOf (parent : Node) (above : List Level) (before : List Node) :
    (children : List Node) → ClosedDown (placesOf parent above before children)
  | [], p, hp => by simp [placesOf] at hp
  | node :: rest, p, hp => by
    intro front child after hchildren
    rcases List.mem_append.1 hp with hp | hp
    · exact List.mem_append_left _ (closedDown_placesAt _ node p hp front child after hchildren)
    · exact List.mem_append_right _
        (closedDown_placesOf parent above (node :: before) rest p hp front child after hchildren)
end

/-- The places of a tree are those that are reached from its root. -/
theorem mem_places_iff {root : Node} {p : Place} : p ∈ root.places ↔ Below root p := by
  constructor
  · exact below_of_mem_placesAt [] root .root p
  · intro h
    induction h with
    | root =>
      rw [places, placesAt_eq]
      exact List.mem_cons_self
    | child h hchildren ih => exact closedDown_placesAt [] root _ ih _ _ _ hchildren

end Node

/-! ### Telling places apart -/

/-- The path to a place: its number among its siblings, then that of its parent, and so on up. -/
def Place.path (place : Place) : List Nat := place.above.map (·.before.length)

/-- The parent of a place is reached too, and has the node among its children. -/
theorem Below.parent {root node : Node} {level : Level} {above : List Level}
    (h : Below root ⟨node, level :: above⟩) :
    Below root ⟨level.parent, above⟩ ∧
      ∃ after, level.parent.children = level.before.reverse ++ node :: after := by
  cases h with
  | @child place before after child h hchildren =>
    exact ⟨h, after, by rw [List.reverse_reverse]; exact hchildren⟩

/-- A path leads to one place. -/
theorem Below.eq_of_path {root : Node} {p q : Place} (hp : Below root p) (hq : Below root q)
    (hpath : p.path = q.path) : p = q := by
  induction hp generalizing q with
  | root =>
    cases hq with
    | root => rfl
    | child => simp [Place.path] at hpath
  | @child place before after child h hchildren ih =>
    cases hq with
    | root => simp [Place.path] at hpath
    | @child place' before' after' child' h' hchildren' =>
      -- the parents agree, and so do the numbers among their children
      obtain ⟨hlength, habove⟩ := List.cons.inj hpath
      obtain rfl := ih h' habove
      rw [hchildren] at hchildren'
      obtain ⟨rfl, hrest⟩ := List.append_inj hchildren' (by simpa using hlength)
      obtain ⟨rfl, -⟩ := List.cons.inj hrest
      rfl

namespace Node

mutual
theorem suffix_of_mem_placesAt (above : List Level) :
    (node : Node) → ∀ p ∈ node.placesAt above, above <:+ p.above
  | ⟨kind, start, stop, named, field, children⟩, p, hp => by
    rcases List.mem_cons.1 hp with rfl | hp
    · exact List.suffix_refl above
    · obtain ⟨level, -, -, hsuffix⟩ := suffix_of_mem_placesOf _ above [] children p hp
      exact (List.suffix_cons level above).trans hsuffix

/-- A place below one of some children goes through it. -/
theorem suffix_of_mem_placesOf (parent : Node) (above : List Level) (before : List Node) :
    (children : List Node) → ∀ p ∈ placesOf parent above before children,
      ∃ level, level.parent = parent ∧ before.length ≤ level.before.length ∧
        level :: above <:+ p.above
  | [], p, hp => by simp [placesOf] at hp
  | child :: rest, p, hp => by
    rcases List.mem_append.1 hp with hp | hp
    · exact ⟨⟨before, parent⟩, rfl, Nat.le_refl _, suffix_of_mem_placesAt _ child p hp⟩
    · obtain ⟨level, hparent, hlength, hsuffix⟩ :=
        suffix_of_mem_placesOf parent above (child :: before) rest p hp
      exact ⟨level, hparent, Nat.le_of_succ_le hlength, hsuffix⟩
end

mutual
theorem placesAt_nodup (above : List Level) : (node : Node) → (node.placesAt above).Nodup
  | ⟨kind, start, stop, named, field, children⟩ => by
    refine List.nodup_cons.2 ⟨fun hmem => ?_, placesOf_nodup _ above [] children⟩
    -- a place below the node has more levels above it
    obtain ⟨level, -, -, hsuffix⟩ := suffix_of_mem_placesOf _ above [] children _ hmem
    exact Nat.not_succ_le_self _ hsuffix.length_le

theorem placesOf_nodup (parent : Node) (above : List Level) (before : List Node) :
    (children : List Node) → (placesOf parent above before children).Nodup
  | [] => List.nodup_nil
  | child :: rest => by
    refine List.nodup_append.2 ⟨placesAt_nodup _ child,
      placesOf_nodup parent above (child :: before) rest, fun p hp q hq hpq => ?_⟩
    -- the two would go through different children
    subst hpq
    have hhere := suffix_of_mem_placesAt _ child p hp
    obtain ⟨level, -, hlength, hlater⟩ :=
      suffix_of_mem_placesOf parent above (child :: before) rest p hq
    have hsame := List.suffix_of_suffix_length_le hhere hlater (by simp)
    obtain ⟨rfl, -⟩ := List.cons.inj (hsame.eq_of_length (by simp))
    exact Nat.not_succ_le_self _ hlength
end

/-- Every place is listed once. -/
theorem places_nodup (root : Node) : root.places.Nodup := placesAt_nodup [] root

end Node

/-! ### Nesting -/

/-- The children of a node lie in order, apart from each other, and inside its span. -/
structure Node.Nested (node : Node) : Prop where
  span : node.start ≤ node.stop
  inside : ∀ c ∈ node.children, node.start ≤ c.start ∧ c.stop ≤ node.stop
  ordered : node.children.Pairwise fun a b => a.stop ≤ b.start

instance (node : Node) : Decidable node.Nested :=
  decidable_of_iff (node.start ≤ node.stop ∧
      (∀ c ∈ node.children, node.start ≤ c.start ∧ c.stop ≤ node.stop) ∧
      node.children.Pairwise fun a b => a.stop ≤ b.start)
    ⟨fun h => ⟨h.1, h.2.1, h.2.2⟩, fun h => ⟨h.span, h.inside, h.ordered⟩⟩

/-- The tree fits its source: every node's children are nested in it, comments are leaves, and the
    root ends inside the source. -/
structure WellNested (source : Bytes) (root : Node) : Prop where
  nested : ∀ p ∈ root.places, p.node.Nested
  leaf : ∀ p ∈ root.places, p.node.isComment = true → p.node.children = []
  inside : root.stop ≤ source.length

instance (source : Bytes) (root : Node) : Decidable (WellNested source root) :=
  decidable_of_iff ((∀ p ∈ root.places, p.node.Nested) ∧
      (∀ p ∈ root.places, p.node.isComment = true → p.node.children = []) ∧
      root.stop ≤ source.length)
    ⟨fun h => ⟨h.1, h.2.1, h.2.2⟩, fun h => ⟨h.nested, h.leaf, h.inside⟩⟩

namespace Node

mutual
/-- What lies below a node lies inside its span. -/
theorem within_placesAt (above : List Level) : (node : Node) →
    (∀ p ∈ node.placesAt above, p.node.Nested) →
    ∀ p ∈ node.placesAt above, node.start ≤ p.node.start ∧ p.node.stop ≤ node.stop
  | ⟨kind, start, stop, named, field, children⟩, hnested, p, hp => by
    have hself := hnested _ List.mem_cons_self
    rcases List.mem_cons.1 hp with rfl | hp
    · exact ⟨Nat.le_refl _, Nat.le_refl _⟩
    · obtain ⟨c, hc, hstart, hstop⟩ := within_placesOf _ above [] children
        (fun q hq => hnested q (List.mem_cons_of_mem _ hq)) p hp
      obtain ⟨hlow, hhigh⟩ := hself.inside c hc
      exact ⟨Nat.le_trans hlow hstart, Nat.le_trans hstop hhigh⟩

theorem within_placesOf (parent : Node) (above : List Level) (before : List Node) :
    (children : List Node) → (∀ p ∈ placesOf parent above before children, p.node.Nested) →
      ∀ p ∈ placesOf parent above before children,
        ∃ c ∈ children, c.start ≤ p.node.start ∧ p.node.stop ≤ c.stop
  | [], _, p, hp => by simp [placesOf] at hp
  | child :: rest, hnested, p, hp => by
    rcases List.mem_append.1 hp with hp | hp
    · exact ⟨child, List.mem_cons_self, within_placesAt _ child
        (fun q hq => hnested q (List.mem_append_left _ hq)) p hp⟩
    · obtain ⟨c, hc, hspan⟩ := within_placesOf parent above (child :: before) rest
        (fun q hq => hnested q (List.mem_append_right _ hq)) p hp
      exact ⟨c, List.mem_cons_of_mem _ hc, hspan⟩
end

mutual
theorem sorted_placesAt (above : List Level) : (node : Node) →
    (∀ p ∈ node.placesAt above, p.node.Nested) →
    (node.placesAt above).Pairwise fun p q => p.node.start ≤ q.node.start
  | ⟨kind, start, stop, named, field, children⟩, hnested => by
    refine List.pairwise_cons.2 ⟨fun p hp => ?_, ?_⟩
    · exact (within_placesAt above _ hnested p (List.mem_cons_of_mem _ hp)).1
    · exact sorted_placesOf _ above [] children (hnested _ List.mem_cons_self).ordered
        fun p hp => hnested p (List.mem_cons_of_mem _ hp)

theorem sorted_placesOf (parent : Node) (above : List Level) (before : List Node) :
    (children : List Node) → (children.Pairwise fun a b => a.stop ≤ b.start) →
      (∀ p ∈ placesOf parent above before children, p.node.Nested) →
      (placesOf parent above before children).Pairwise fun p q => p.node.start ≤ q.node.start
  | [], _, _ => List.Pairwise.nil
  | child :: rest, hordered, hnested => by
    obtain ⟨hchild, hrest⟩ := List.pairwise_cons.1 hordered
    have hhere : ∀ p ∈ child.placesAt (⟨before, parent⟩ :: above), p.node.Nested :=
      fun p hp => hnested p (List.mem_append_left _ hp)
    have hlater : ∀ p ∈ placesOf parent above (child :: before) rest, p.node.Nested :=
      fun p hp => hnested p (List.mem_append_right _ hp)
    refine List.pairwise_append.2 ⟨sorted_placesAt _ child hhere,
      sorted_placesOf parent above (child :: before) rest hrest hlater, fun p hp q hq => ?_⟩
    -- `p` ends before the later child starts that `q` lies in
    have hp' := (within_placesAt _ child hhere p hp).2
    obtain ⟨c, hc, hq', -⟩ := within_placesOf parent above (child :: before) rest hlater q hq
    have := (hhere p hp).span
    have := hchild c hc
    omega
end

/-- The nodes of a well-nested tree are listed by where they start. -/
theorem places_sorted {source : Bytes} {root : Node} (h : WellNested source root) :
    root.places.Pairwise fun p q => p.node.start ≤ q.node.start :=
  sorted_placesAt [] root h.nested

end Node

end DocAnnotator
