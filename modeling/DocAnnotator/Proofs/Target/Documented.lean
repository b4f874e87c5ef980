import Mathlib.Data.List.TakeWhile
import DocAnnotator.Proofs.Target.Moved
import DocAnnotator.Proofs.Text.Blank
import DocAnnotator.Target.DocComment

/-! ## Doc comments stay in front of their nodes

    Inserting comments elsewhere does not hide the doc comment of a node, and an inserted doc
    comment is found.

    - `isDocumented_eq`: the comments right before a node, and the gap before it.
    - `Moved.isDocumented_of_mark`: a node in front of which a doc comment is inserted is
      documented.
    - `Moved.isDocumented`: a node that was documented still is.
-/

namespace DocAnnotator

open Insertion (size made)

/-! ### Comments and gap -/

/-- Where the gap before a node starts, by its parent and the siblings before its comments. -/
def gapAfter (parent : Node) (front : List Node) : Nat :=
  match front.getLast? with
  | some sibling => sibling.stop
  | none => parent.start

/-- The bytes that a node spans. -/
def Node.bytes (source : Bytes) (node : Node) : Bytes := (source.take node.stop).drop node.start

/-- Whether a node is documented, by the run of comments before it and the sibling before them. -/
theorem isDocumented_eq {source : Bytes} {node parent : Node} {above : List Level}
    {front run : List Node} (hrun : ∀ c ∈ run, c.isComment = true)
    (hfront : ∀ s, front.getLast? = some s → s.isComment = false) :
    Place.isDocumented source ⟨node, ⟨(front ++ run).reverse, parent⟩ :: above⟩ =
      (run.any (fun c => isDocComment (c.bytes source)) ||
        (comments ((source.take node.start).drop (gapAfter parent front))).any isDocComment) := by
  have hreverse : ∀ c ∈ run.reverse, c.isComment = true := fun c hc => hrun c (List.mem_reverse.1 hc)
  -- siblings are listed from the nearest one on, so the walk back takes `run` and stops at `front`
  have htake : ((front ++ run).reverse.takeWhile Node.isComment) = run.reverse := by
    rw [List.reverse_append, List.takeWhile_append_of_pos hreverse]
    cases hlast : front.reverse with
    | nil => simp
    | cons s more =>
      have hs : front.getLast? = some s := by rw [← List.head?_reverse, hlast]; rfl
      rw [List.takeWhile_cons_of_neg (by simp [hfront s hs]), List.append_nil]
  have hfind : (front ++ run).reverse.find? (!·.isComment) = front.getLast? := by
    rw [List.reverse_append, List.find?_append, List.find?_eq_none.2 (by simpa using hrun),
      Option.none_or]
    cases hlast : front.reverse with
    | nil =>
      rw [← List.head?_reverse, hlast]
      rfl
    | cons s more =>
      have hs : front.getLast? = some s := by rw [← List.head?_reverse, hlast]; rfl
      rw [List.find?_cons_of_pos (by simp [hfront s hs]), hs]
  have hgap : Place.gapStart ⟨node, ⟨(front ++ run).reverse, parent⟩ :: above⟩ =
      gapAfter parent front := by
    simp only [Place.gapStart, Place.before, hfind, gapAfter]
    cases front.getLast? <;> rfl
  simp only [Place.isDocumented, hgap]
  simp only [Place.before, htake, List.any_reverse, Node.bytes]

/-- A doc comment right before a node documents it. -/
theorem isDocumented_of_nearest {source : Bytes} {node nearest parent : Node} {before : List Node}
    {above : List Level} (hcomment : nearest.isComment = true)
    (hdoc : isDocComment (nearest.bytes source) = true) :
    Place.isDocumented source ⟨node, ⟨nearest :: before, parent⟩ :: above⟩ = true := by
  rw [Node.bytes] at hdoc
  simp only [Place.isDocumented, Place.before, List.takeWhile_cons_of_pos hcomment, List.any_cons,
    hdoc, Bool.true_or]

/-- The siblings before a node end in a run of comments. -/
theorem exists_run (before : List Node) :
    ∃ front run, before = front ++ run ∧ (∀ c ∈ run, c.isComment = true) ∧
      ∀ s, front.getLast? = some s → s.isComment = false := by
  refine ⟨(before.reverse.dropWhile Node.isComment).reverse,
    (before.reverse.takeWhile Node.isComment).reverse, ?_, ?_, ?_⟩
  · rw [← List.reverse_append, List.takeWhile_append_dropWhile, List.reverse_reverse]
  · intro c hc
    exact List.mem_takeWhile_imp (List.mem_reverse.1 hc)
  · intro s hs
    have := List.head?_dropWhile_not Node.isComment before.reverse
    rw [List.getLast?_reverse] at hs
    rw [hs] at this
    exact this

/-! ### Comments that move -/

/-- Marks stand in front of code, and put doc comments there. -/
structure Marks.Sound (mark : Marks) (root : Node) : Prop extends mark.Fits root where
  code : ∀ p i, mark p = some i → p.node.isComment = false
  doc : ∀ p i, mark p = some i → isDocComment (Utf8.encode (Text.trimEnd i.text)) = true

/-- A node moved by a number of bytes. -/
def Node.shift (distance : Nat) (node : Node) : Node :=
  ⟨node.kind, node.start + distance, node.stop + distance, node.named, node.field, node.children⟩

/-- A run of comments moves as a whole: nothing is inserted between them. -/
theorem commentedOf_comments {mark : Marks} {root : Node} (hmark : mark.Sound root) (parent : Node)
    (above : List Level) (before : List Node) (done : List Insertion) {run : List Node}
    (hrun : ∀ c ∈ run, c.isComment = true ∧ c.children = []) :
    Node.commentedOf mark parent above before done run = run.map (Node.shift (size done)) ∧
      (Node.placesOf parent above before run).filterMap mark = [] := by
  induction run generalizing before with
  | nil => exact ⟨rfl, rfl⟩
  | cons c run ih =>
    obtain ⟨hcomment, hleaf⟩ := hrun c List.mem_cons_self
    -- a comment gets no mark, and has nothing below it that could
    have hnone : mark ⟨c, ⟨before, parent⟩ :: above⟩ = none := by
      cases hm : mark ⟨c, ⟨before, parent⟩ :: above⟩ with
      | none => rfl
      | some i =>
        have := hmark.code _ i hm
        simp [hcomment] at this
    have hhere : (c.placesAt (⟨before, parent⟩ :: above)).filterMap mark = [] := by
      rw [Node.filterMap_placesAt, hnone, hleaf]
      rfl
    have hmoved : c.commentedAt mark (⟨before, parent⟩ :: above) done = c.shift (size done) := by
      rw [Node.commentedAt_eq, hleaf]
      simp [Node.shift, Node.placesOf, Node.commentedOf, hleaf]
    obtain ⟨hrest, hplaces⟩ := ih (c :: before) fun d hd => hrun d (List.mem_cons_of_mem _ hd)
    constructor
    · rw [Node.commentedOf, hnone, hhere]
      simp [hmoved, hrest]
    · rw [Node.placesOf, List.filterMap_append, hhere, hplaces]
      rfl

theorem WellNested.stop_le {source : Bytes} {root : Node} (h : WellNested source root) {p : Place}
    (hp : Below root p) : p.node.stop ≤ source.length := by
  have hstop := (Node.within_placesAt [] root h.nested p (Node.mem_places_iff.2 hp)).2
  exact Nat.le_trans hstop h.inside

section Moved

variable {mark : Marks} {source : Bytes} {root : Node} {p p' : Place} {done : List Insertion}

/-- A node in front of which a doc comment is inserted is documented. -/
theorem Moved.isDocumented_of_mark (hmark : mark.Sound root) (hroot : WellNested source root)
    (h : Moved mark root p done p') {i : Insertion} (hi : mark p = some i) :
    p'.isDocumented (made source (root.places.filterMap mark)) = true := by
  obtain ⟨rest, hall, hdone, -⟩ := h.bounds hmark.toFits hroot
  have hspan := (hroot.nested p (Node.mem_places_iff.2 h.toBelow)).span
  have hstop := hroot.stop_le h.toBelow
  have hoffset := hmark.offset p i hi
  cases h with
  | root =>
    rw [hmark.root] at hi
    simp at hi
  | @child p p' before passed lead front after child h hchildren hpassed hlead =>
    rw [hi] at hlead
    subst hlead
    -- the inserted comment is the nearest sibling; its node spans the text without the blanks
    have hprefix : Utf8.encode (Text.trimEnd i.text) <+: Utf8.encode i.text := by
      obtain ⟨blanks, hblanks⟩ := Text.trimEnd_isPrefix i.text
      refine ⟨Utf8.encode blanks, ?_⟩
      rw [← Utf8.encode_append, hblanks]
    have hpassed' : ∀ j ∈ passed, j.offset ≤ i.offset := by
      intro j hj
      rw [hoffset]
      exact hdone j (List.mem_append_left _ hj)
    have hinside : i.offset ≤ source.length := by omega
    -- so its bytes are found behind all that is inserted earlier
    have hbytes := Insertion.made_text ((Node.placesOf child (⟨front.reverse, p.node⟩ :: p.above) []
        child.children).filterMap mark ++ rest)
      (Utf8.encode (Text.trimEnd i.text)).length hinside hpassed' hprefix.length_le
    rw [← List.prefix_iff_eq_take.1 hprefix, hoffset] at hbytes
    have hcomment : (commentNode (child.start + size passed) i).bytes
        (made source (root.places.filterMap mark)) = Utf8.encode (Text.trimEnd i.text) := by
      rw [Node.bytes, hall]
      simpa [commentNode] using hbytes
    rw [Option.toList_some, List.map_singleton, List.reverse_append, List.reverse_singleton,
      List.singleton_append]
    refine isDocumented_of_nearest rfl ?_
    rw [hcomment]
    exact hmark.doc _ i hi

/-! ### The gap before a node -/

/-- The gap starts before every later child. -/
theorem gapAfter_le {node : Node} (hnested : node.Nested) {front back : List Node}
    (hchildren : node.children = front ++ back) {c : Node} (hc : c ∈ back) :
    gapAfter node front ≤ c.start := by
  have hordered := hnested.ordered
  rw [hchildren] at hordered
  obtain ⟨-, -, hbetween⟩ := List.pairwise_append.1 hordered
  unfold gapAfter
  split
  next s hs => exact hbetween s (List.mem_of_getLast? hs) c hc
  next => exact (hnested.inside c (by simp [hchildren, hc])).1

/-- What is inserted before the gap goes no further than its start. -/
theorem Moved.passed_le (hmark : mark.Fits root) (hroot : WellNested source root)
    (h : Moved mark root p done p') {front back : List Node}
    (hchildren : p.node.children = front ++ back) :
    ∀ i ∈ done ++ (Node.placesOf p.node p.above [] front).filterMap mark,
      i.offset ≤ gapAfter p.node front := by
  intro i hi
  obtain ⟨rest, -, hdone, -⟩ := h.bounds hmark hroot
  have hnested := hroot.nested p (Node.mem_places_iff.2 h.toBelow)
  have hspans : ∀ c ∈ p.node.children, c.start ≤ c.stop := by
    intro c hc
    obtain ⟨a, b, hab⟩ := List.append_of_mem hc
    exact (hroot.nested _ (Node.mem_places_iff.2 (.child h.toBelow hab))).span
  rcases List.eq_nil_or_concat' front with rfl | ⟨f, s, rfl⟩
  · -- the gap starts with the parent
    rw [Node.placesOf, List.filterMap_nil, List.append_nil] at hi
    exact hdone i hi
  · -- it starts behind the sibling `s`, and all that is inserted is at or below a sibling up to `s`
    have hgap : gapAfter p.node (f ++ [s]) = s.stop := by simp [gapAfter]
    have hs : s ∈ p.node.children := by simp [hchildren]
    rw [hgap]
    rcases List.mem_append.1 hi with hi | hi
    · have := hdone i hi
      have := (hnested.inside s hs).1
      have := hspans s hs
      omega
    · have hsplit : p.node.children = [] ++ (f ++ [s]) ++ back := by simp [hchildren]
      obtain ⟨c, hc, -, hle⟩ := hmark.withinOf hroot h.toBelow hsplit i hi
      rcases List.mem_append.1 hc with hc | hc
      · have hordered := hnested.ordered
        rw [hchildren, List.append_assoc] at hordered
        have hcs := (List.pairwise_append.1 hordered).2.2 c hc s (by simp)
        have := hspans s hs
        omega
      · rw [List.mem_singleton.1 hc] at hle
        exact hle

/-- The gap of the new tree starts where the old one did, moved. -/
theorem gapAfter_commentedOf (mark : Marks) {parent parent' : Node} (above : List Level)
    (done : List Insertion) (front : List Node) (hparent : parent'.start = parent.start + size done) :
    gapAfter parent' (Node.commentedOf mark parent above [] done front) = gapAfter parent front +
        size (done ++ (Node.placesOf parent above [] front).filterMap mark) ∧
      ∀ s', (Node.commentedOf mark parent above [] done front).getLast? = some s' →
        ∃ s, front.getLast? = some s ∧ s'.kind = s.kind := by
  rcases List.eq_nil_or_concat' front with rfl | ⟨f, s, rfl⟩
  · simp [gapAfter, Node.commentedOf, Node.placesOf, hparent]
  · -- the last sibling takes the insertions before and below it along
    have hlast := Node.commentedOf_append mark parent above [] f [s] done
    rw [Node.commentedOf, Node.commentedOf, ← List.append_assoc, List.append_nil] at hlast
    constructor
    · rw [hlast, Node.placesOf_append, Node.placesOf, Node.placesOf, List.append_nil,
        List.filterMap_append, List.append_nil, Node.filterMap_placesAt]
      simp only [gapAfter, List.getLast?_concat, Node.commentedAt_eq]
      simp only [List.append_assoc]
    · intro s' hs'
      rw [hlast, List.getLast?_concat] at hs'
      obtain rfl := Option.some.inj hs'
      exact ⟨s, by simp, Node.commentedAt_kind _ _ _⟩

/-- The children before a node: those up to its comments, with what is inserted at or below them,
    and its comments, which move together with the node. -/
theorem Moved.siblings (hmark : mark.Sound root) (hroot : WellNested source root)
    (h : Moved mark root p done p') {front run after : List Node} {child : Node}
    (hchildren : p.node.children = front ++ run ++ child :: after)
    (hrun : ∀ c ∈ run, c.isComment = true) {passed : List Insertion}
    (hpassed : passed = done ++ (Node.placesOf p.node p.above [] front).filterMap mark) :
    Node.commentedOf mark p.node p.above [] done (front ++ run) =
        Node.commentedOf mark p.node p.above [] done front ++ run.map (Node.shift (size passed)) ∧
      done ++ (Node.placesOf p.node p.above [] (front ++ run)).filterMap mark = passed := by
  have hleaf : ∀ c ∈ run, c.isComment = true ∧ c.children = [] := by
    intro c hc
    obtain ⟨a, b, hab⟩ := List.append_of_mem hc
    have hsplit : p.node.children = (front ++ a) ++ c :: (b ++ child :: after) := by
      simp [hchildren, hab]
    have hplace := Below.child h.toBelow hsplit
    exact ⟨hrun c hc, hroot.leaf _ (Node.mem_places_iff.2 hplace) (hrun c hc)⟩
  obtain ⟨hmoved, hplaces⟩ :=
    commentedOf_comments hmark p.node p.above (front.reverse ++ []) passed hleaf
  constructor
  · rw [Node.commentedOf_append, ← hpassed, hmoved]
  · rw [Node.placesOf_append, List.filterMap_append, hplaces, List.append_nil, hpassed]

/-- The bytes between the siblings before a node's comments and the node move as a whole, unless
    something is inserted right before the node. -/
theorem Moved.stretch (hmark : mark.Sound root) (hroot : WellNested source root)
    (h : Moved mark root p done p') {front run after : List Node} {child : Node}
    (hchildren : p.node.children = front ++ run ++ child :: after)
    (hrun : ∀ c ∈ run, c.isComment = true) {passed : List Insertion}
    (hpassed : passed = done ++ (Node.placesOf p.node p.above [] front).filterMap mark)
    (hnone : mark ⟨child, ⟨(front ++ run).reverse, p.node⟩ :: p.above⟩ = none) {a b : Nat}
    (ha : gapAfter p.node front ≤ a) (hab : a ≤ b) (hb : b ≤ child.start) :
    ((made source (root.places.filterMap mark)).take (b + size passed)).drop (a + size passed) =
      (source.take b).drop a := by
  have hchild := Moved.child h hchildren rfl rfl
  rw [hnone, (h.siblings hmark hroot hchildren hrun hpassed).2] at hchild
  obtain ⟨rest, hall, -, hrest⟩ := hchild.bounds hmark.toFits hroot
  have hspan : child.start ≤ child.stop :=
    (hroot.nested _ (Node.mem_places_iff.2 hchild.toBelow)).span
  have hstop : child.stop ≤ source.length := hroot.stop_le hchild.toBelow
  have hwithin := hmark.toFits.within hroot hchild.toBelow
  rw [Node.filterMap_placesAt, hnone] at hwithin
  -- all insertions are made before the gap, or inside the node, or behind it
  rw [hall, Option.toList_none, List.append_nil, List.append_assoc]
  refine Insertion.made_slice hab (by omega) (fun i hi => ?_) fun i hi => ?_
  · rw [hpassed] at hi
    have hchildren' : p.node.children = front ++ (run ++ child :: after) := by simp [hchildren]
    exact Nat.le_trans (h.passed_le hmark.toFits hroot hchildren' i hi) ha
  · rcases List.mem_append.1 hi with hi | hi
    · exact Nat.le_trans hb (hwithin i hi).1
    · exact Nat.le_trans hb (Nat.le_trans hspan (hrest i hi))

/-- The comments before a node lie between the sibling before them and the node. -/
theorem Moved.run_span (hroot : WellNested source root) (h : Moved mark root p done p')
    {front run after : List Node} {child c : Node}
    (hchildren : p.node.children = front ++ run ++ child :: after) (hc : c ∈ run) :
    gapAfter p.node front ≤ c.start ∧ c.start ≤ c.stop ∧ c.stop ≤ child.start := by
  have hnested := hroot.nested p (Node.mem_places_iff.2 h.toBelow)
  have hordered := hnested.ordered
  rw [hchildren] at hordered
  obtain ⟨a, b, hab⟩ := List.append_of_mem hc
  have hplace : p.node.children = (front ++ a) ++ c :: (b ++ child :: after) := by
    simp [hchildren, hab]
  have hsplit : p.node.children = front ++ (run ++ child :: after) := by simp [hchildren]
  refine ⟨gapAfter_le hnested hsplit (by simp [hc]),
    (hroot.nested _ (Node.mem_places_iff.2 (.child h.toBelow hplace))).span, ?_⟩
  exact (List.pairwise_append.1 hordered).2.2 c (by simp [hc]) child (by simp)

/-- A node that had a doc comment still has one. -/
theorem Moved.isDocumented (hmark : mark.Sound root) (hroot : WellNested source root)
    (h : Moved mark root p done p') (habove : p.above ≠ []) (hnone : mark p = none)
    (hp : p.isDocumented source = true) :
    p'.isDocumented (made source (root.places.filterMap mark)) = true := by
  cases h with
  | root => exact absurd rfl habove
  | @child q q' done all lead before after child h hchildren hall hlead =>
    rw [hnone] at hlead
    obtain rfl : lead = [] := hlead
    obtain ⟨front, run, rfl, hrun, hfront⟩ := exists_run before
    -- nothing is inserted from the gap on up to the node, so comments and gap move by `passed`
    generalize hpassed :
      done ++ (Node.placesOf q.node q.above [] front).filterMap mark = passed
    obtain ⟨hmoved, hdone⟩ := h.siblings hmark hroot hchildren hrun hpassed.symm
    obtain rfl : all = passed := hall.trans hdone
    have hstart : q'.node.start = q.node.start + size done := by
      rw [h.node_eq, Node.commentedAt_start]
    obtain ⟨hgap, hlast⟩ := gapAfter_commentedOf mark q.above done front hstart
    rw [hpassed] at hgap
    rw [isDocumented_eq hrun hfront, Bool.or_eq_true] at hp
    rw [hmoved, List.map_nil, List.append_nil, List.append_nil, isDocumented_eq, Bool.or_eq_true]
    · rcases hp with hp | hp
      · -- the doc comment is a node of its own, with the same bytes as before
        obtain ⟨c, hc, hdoc⟩ := List.any_eq_true.1 hp
        refine .inl (List.any_eq_true.2 ⟨c.shift (size all), List.mem_map_of_mem hc, ?_⟩)
        obtain ⟨hlow, hspan, hhigh⟩ := h.run_span hroot hchildren hc
        have hbytes := h.stretch hmark hroot hchildren hrun hpassed.symm hnone hlow hspan hhigh
        rw [← hdoc, Node.bytes, Node.bytes, ← hbytes]
        rfl
      · -- it stands in the gap, which holds the same bytes as before
        refine .inr ?_
        have hchildren' : q.node.children = front ++ (run ++ child :: after) := by simp [hchildren]
        have hlow := gapAfter_le (hroot.nested q (Node.mem_places_iff.2 h.toBelow)) hchildren'
          (c := child) (by simp)
        rw [hgap, Node.commentedAt_start, h.stretch hmark hroot hchildren hrun hpassed.symm hnone
          (Nat.le_refl _) hlow (Nat.le_refl _), hp]
    · -- the run is still a run of comments, and still ends at the same sibling
      intro c hc
      obtain ⟨d, hd, rfl⟩ := List.mem_map.1 hc
      exact hrun d hd
    · intro s' hs'
      obtain ⟨s, hs, hkind⟩ := hlast s' hs'
      rw [Node.isComment, hkind]
      exact hfront s hs

end Moved

end DocAnnotator
