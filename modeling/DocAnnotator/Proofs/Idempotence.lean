import DocAnnotator.Proofs.Annotate
import DocAnnotator.Proofs.Comment.Layout
import DocAnnotator.Proofs.Conservation
import DocAnnotator.Proofs.Target.Documented

/-! ## A second run has nothing to do

    After a run, every anchor of a plain unit has a doc comment: its own, or the one just inserted.

    - `Anchored`: what a grammar promises about the anchors of a tree.
    - `anchorMarks`: which insertion goes in front of which place.
    - `anchorMarks_perm`, `applyAll_eq_made_marks`: every insertion has its place, and the spliced
      bytes are those that the places say.
    - `collect_commented`: in the new tree there is nothing to collect.
    - `annotate_again`: so a second run returns its input, unless its configuration is refused.
-/

namespace DocAnnotator

open Insertion (made)

/-- What a grammar promises about a tree: it is well-nested, the root is no anchor, and no two
    anchors start at the same byte. -/
structure Anchored (source : Bytes) (root : Node) : Prop extends WellNested source root where
  notRoot : ∀ a ∈ anchors root, a.above ≠ []
  distinct : ∀ a ∈ anchors root, ∀ b ∈ anchors root, a.node.start = b.node.start → a = b

/-- Are two places at the same position, with nodes of the same kind and span? -/
def Place.same (a b : Place) : Bool := a.path == b.path && decide (a.key = b.key)

/-- The insertion for each anchor that has no doc comment: the one made where it starts. -/
def anchorMarks (source : Bytes) (root : Node) (insertions : List Insertion) : Marks := fun place =>
  if (openAnchors source root).any (·.same place) then
    insertions.find? (·.offset == place.node.start)
  else none

/-! ### Marks and anchors -/

section Marks

variable {source : Bytes} {root : Node} {insertions : List Insertion}

theorem below_of_mem_openAnchors {a : Place} (h : a ∈ openAnchors source root) : Below root a :=
  (below_of_mem_anchors (List.mem_filter.1 h).1).1

/-- A mark stands at the position of an anchor without a doc comment, and is an insertion made
    where the place starts. -/
theorem anchorMarks_some {p : Place} {i : Insertion}
    (hi : anchorMarks source root insertions p = some i) :
    (∃ a ∈ openAnchors source root, a.path = p.path ∧ a.key = p.key) ∧
      i ∈ insertions ∧ i.offset = p.node.start := by
  unfold anchorMarks at hi
  split at hi
  next hany =>
    obtain ⟨a, ha, hsame⟩ := List.any_eq_true.1 hany
    rw [Place.same, Bool.and_eq_true, beq_iff_eq, decide_eq_true_eq] at hsame
    exact ⟨⟨a, ha, hsame⟩, List.mem_of_find?_eq_some hi, by simpa using List.find?_some hi⟩
  next => simp at hi

theorem mark_mem {p : Place} {i : Insertion} (hi : anchorMarks source root insertions p = some i) :
    i ∈ insertions ∧ i.offset = p.node.start :=
  (anchorMarks_some hi).2

/-- A marked place of the tree is an anchor without a doc comment. -/
theorem mem_openAnchors_of_mark {p : Place} (hp : Below root p) {i : Insertion}
    (hi : anchorMarks source root insertions p = some i) : p ∈ openAnchors source root := by
  obtain ⟨⟨a, ha, hpath, -⟩, -⟩ := anchorMarks_some hi
  -- there is only one place at that path
  obtain rfl := (below_of_mem_openAnchors ha).eq_of_path hp hpath
  exact ha

/-- An anchor without a doc comment is marked. -/
theorem exists_mark (hdocs : List.Forall₂ (Documents source) (collect source root) insertions)
    {a : Place} (ha : a ∈ openAnchors source root) :
    ∃ i, anchorMarks source root insertions a = some i := by
  obtain ⟨t, ht, hoffset⟩ := exists_mem_collect ha
  obtain ⟨i, hi, hi', -⟩ := exists_of_forall₂ hdocs.flip ht
  have hany : (openAnchors source root).any (·.same a) = true :=
    List.any_eq_true.2 ⟨a, ha, by simp [Place.same]⟩
  rw [anchorMarks, if_pos hany]
  refine Option.isSome_iff_exists.1 (List.find?_isSome.2 ⟨i, hi, ?_⟩)
  simp [hi', hoffset]

/-- The marks put doc comments in front of code. -/
theorem anchorMarks_sound (hroot : Anchored source root)
    (hdocs : List.Forall₂ (Documents source) (collect source root) insertions) :
    (anchorMarks source root insertions).Sound root where
  offset p i hi := (mark_mem hi).2
  root := by
    cases hmark : anchorMarks source root insertions ⟨root, []⟩ with
    | none => rfl
    | some i =>
      obtain ⟨⟨a, ha, hpath, -⟩, -⟩ := anchorMarks_some hmark
      exact absurd (List.map_eq_nil_iff.1 hpath) (hroot.notRoot a (List.mem_filter.1 ha).1)
  code p i hi := by
    obtain ⟨⟨a, ha, -, hkey⟩, -⟩ := anchorMarks_some hi
    have hkind : a.node.kind = p.node.kind := congrArg AnchorKey.kind hkey
    have := Node.not_comment_of_canAnchor (below_of_mem_anchors (List.mem_filter.1 ha).1).2
    rwa [Node.isComment, hkind] at this
  doc p i hi := by
    obtain ⟨t, -, -, lines, htext⟩ := exists_of_forall₂ hdocs (mark_mem hi).1
    rw [htext, Comment.trimEnd_layout]
    exact Comment.isDocComment_blockAt lines source t.anchorOffset

/-! ### Every insertion has its place -/

theorem map_offset_eq {targets : List Target}
    (hdocs : List.Forall₂ (Documents source) targets insertions) :
    insertions.map (·.offset) = targets.map (·.anchorOffset) := by
  induction hdocs with
  | nil => rfl
  | cons hfirst _ ih => rw [List.map_cons, List.map_cons, hfirst.1, ih]

/-- No two insertions go to the same offset. -/
theorem insertions_offset_nodup (hroot : Anchored source root)
    (hdocs : List.Forall₂ (Documents source) (collect source root) insertions) :
    (insertions.map (·.offset)).Nodup := by
  rw [map_offset_eq hdocs]
  refine List.pairwise_map.2 ((collect_keys_nodup source root).imp_of_mem ?_)
  intro s t hs ht hkeys hoffsets
  -- two targets at one offset would have one anchor
  obtain ⟨a, ha, hakey, haoffset⟩ := mem_collect hs
  obtain ⟨b, hb, hbkey, hboffset⟩ := mem_collect ht
  have hab := hroot.distinct a (List.mem_filter.1 ha).1 b (List.mem_filter.1 hb).1
    (by rw [← haoffset, ← hboffset, hoffsets])
  exact hkeys (by rw [hakey, hbkey, hab])

/-- The places of the insertions are at distinct offsets. -/
theorem marks_offset_nodup (hroot : Anchored source root) :
    ((root.places.filterMap (anchorMarks source root insertions)).map (·.offset)).Nodup := by
  refine List.pairwise_map.2 (List.pairwise_filterMap.2 (root.places_nodup.imp_of_mem ?_))
  intro p q hp hq hpq i hi j hj hoffsets
  have hp' := mem_openAnchors_of_mark (Node.mem_places_iff.1 hp) hi
  have hq' := mem_openAnchors_of_mark (Node.mem_places_iff.1 hq) hj
  rw [(mark_mem hi).2, (mark_mem hj).2] at hoffsets
  exact hpq (hroot.distinct p (List.mem_filter.1 hp').1 q (List.mem_filter.1 hq').1 hoffsets)

/-- Each insertion is made in front of exactly one place. -/
theorem anchorMarks_perm (hroot : Anchored source root)
    (hdocs : List.Forall₂ (Documents source) (collect source root) insertions) :
    (root.places.filterMap (anchorMarks source root insertions)).Perm insertions := by
  have hnodup := insertions_offset_nodup hroot hdocs
  refine (List.perm_ext_iff_of_nodup (marks_offset_nodup hroot).of_map hnodup.of_map).2 fun i => ?_
  constructor
  · intro hi
    obtain ⟨p, -, hp⟩ := List.mem_filterMap.1 hi
    exact (mark_mem hp).1
  · intro hi
    obtain ⟨t, ht, hoffset, -⟩ := exists_of_forall₂ hdocs hi
    obtain ⟨a, ha, -, hstart⟩ := mem_collect ht
    obtain ⟨j, hj⟩ := exists_mark hdocs ha
    obtain ⟨hmem, hjoffset⟩ := mark_mem hj
    -- the anchor's mark has the same offset, so it is this insertion
    obtain rfl : j = i :=
      List.inj_on_of_nodup_map hnodup hmem hi (by rw [hjoffset, hoffset, hstart])
    exact List.mem_filterMap.2 ⟨a, Node.mem_places_iff.2 (below_of_mem_openAnchors ha), hj⟩

/-- The spliced bytes, by the places of the insertions. -/
theorem applyAll_eq_made_marks (hroot : Anchored source root)
    (hdocs : List.Forall₂ (Documents source) (collect source root) insertions) :
    Insertion.applyAll source insertions =
      made source (root.places.filterMap (anchorMarks source root insertions)) := by
  refine Insertion.applyAll_eq_made ?_ (marks_offset_nodup hroot) (anchorMarks_perm hroot hdocs)
  refine List.pairwise_filterMap.2 ((Node.places_sorted hroot.toWellNested).imp ?_)
  intro p q hpq i hi j hj
  rw [(mark_mem hi).2, (mark_mem hj).2]
  exact hpq

/-! ### Nothing is left -/

/-- In the tree with the comments, over the spliced bytes, there is nothing to collect. -/
theorem collect_commented (hroot : Anchored source root)
    (hdocs : List.Forall₂ (Documents source) (collect source root) insertions) :
    collect (Insertion.applyAll source insertions)
      (root.commented (anchorMarks source root insertions)) = [] := by
  have hsound := anchorMarks_sound hroot hdocs
  refine collect_eq_nil fun a' ha' => ?_
  obtain ⟨a, ha, done, hmoved⟩ := moved_of_mem_anchors ha'
  rw [applyAll_eq_made_marks hroot hdocs]
  cases hdoc : a.isDocumented source with
  | false =>
    -- its comment has just been inserted
    have hopen : a ∈ openAnchors source root := List.mem_filter.2 ⟨ha, by simp [hdoc]⟩
    obtain ⟨i, hi⟩ := exists_mark hdocs hopen
    exact hmoved.isDocumented_of_mark hsound hroot.toWellNested hi
  | true =>
    -- nothing goes in front of it, and its doc comment is still found
    have hnone : anchorMarks source root insertions a = none := by
      cases hmark : anchorMarks source root insertions a with
      | none => rfl
      | some i =>
        have hopen := (List.mem_filter.1 (mem_openAnchors_of_mark hmoved.toBelow hmark)).2
        simp [hdoc] at hopen
    exact hmoved.isDocumented hsound hroot.toWellNested (hroot.notRoot a ha) hnone hdoc

end Marks

/-- A second run over a plain unit finds nothing to do, whatever the two runs are configured to do,
    and whatever the oracle and the description service say: it returns its input, unless its own
    configuration is refused. -/
theorem annotate_again {grammar : Grammar} {options : Options} {id code result : Text}
    {session : Session} (hplain : Identifier.dialect id ≠ .vue)
    (htree : Anchored (Utf8.encode code) (grammar (Identifier.dialect id) code))
    (hfirst : (annotate grammar options id code session).1 = .ok result)
    (hreparse : grammar (Identifier.dialect id) result =
      (grammar (Identifier.dialect id) code).commented
        (anchorMarks (Utf8.encode code) (grammar (Identifier.dialect id) code)
          (insertionsOf grammar options id code session))) :
    collect (Utf8.encode result) (grammar (Identifier.dialect id) result) = [] ∧
    ∀ later again, (annotate grammar later id result again).1 =
      (Config.resolve later.sources).1.map fun _ => result := by
  have hrange := ScriptRange.extract?_plain hplain code
  have hdocs := insertionsOf_forall₂ hfirst hrange
  have hresult := annotate_ok hfirst
  rw [hrange] at hresult
  obtain ⟨script, hsplice, rfl⟩ := hresult
  -- the bytes of the new script are the spliced ones
  have hbytes := Insertion.encode_of_splice hsplice
  have hnone : collect (Utf8.encode script) (grammar (Identifier.dialect id) script) = [] := by
    rw [ScriptRange.reassemble_plain] at hreparse
    rw [hreparse, hbytes]
    exact collect_commented htree hdocs
  rw [ScriptRange.reassemble_plain]
  exact ⟨hnone, fun later again => annotate_of_no_targets later again hplain hnone⟩

/-! ### The component's script, on its own -/

theorem anchored_componentTree : Anchored (Utf8.encode componentRange.script) componentTree where
  toWellNested := by decide
  notRoot a ha := by
    rw [anchors_componentTree, List.mem_singleton] at ha
    simp [ha]
  distinct a ha b hb _ := by
    rw [anchors_componentTree, List.mem_singleton] at ha hb
    rw [ha, hb]

/-- The grammar that knows the script, and reads every other text as the script with the comments
    of a first run. -/
def reparsing : Grammar := fun _ script =>
  if script = componentRange.script then componentTree
  else componentTree.commented (anchorMarks (Utf8.encode componentRange.script) componentTree
    (insertionsOf componentGrammar quietOptions "a.js".toList componentRange.script ⟨[], [], []⟩))

/-- The script can be annotated, and the result is read as the script with its comments. -/
theorem exists_first_run :
    ∃ result, (annotate reparsing quietOptions "a.js".toList componentRange.script
        ⟨[], [], []⟩).1 = .ok result ∧
      reparsing .javascript result = componentTree.commented
        (anchorMarks (Utf8.encode componentRange.script) componentTree
          (insertionsOf reparsing quietOptions "a.js".toList componentRange.script ⟨[], [], []⟩)) := by
  have hplain : Identifier.dialect "a.js".toList ≠ .vue := by decide
  have hrange := ScriptRange.extract?_plain hplain componentRange.script
  have htree : ∀ range, ScriptRange.extract? componentRange.script
      (Identifier.dialect "a.js".toList) = some range →
      reparsing range.dialect range.script = componentGrammar range.dialect range.script := by
    intro range hother
    rw [hrange] at hother
    obtain rfl := Option.some.inj hother
    exact if_pos rfl
  obtain ⟨hsame, hinsertions⟩ := annotate_congr quietOptions ⟨[], [], []⟩ htree
  obtain ⟨result, hresult⟩ := annotate_component_returns hrange rfl
  -- the result is another text, so the grammar reads it as the commented script
  have hne : result ≠ componentRange.script := fun heq => targetsOf_component
    ((annotate_eq_self_iff (.of_anchors hrange startsToken_component) hresult hrange).1 heq)
  refine ⟨result, by rw [hsame, hresult], ?_⟩
  rw [hinsertions]
  exact if_neg hne

/-- After a run over the script, a second one has nothing to do. -/
theorem annotate_again_component :
    ∃ result, (annotate reparsing quietOptions "a.js".toList componentRange.script
        ⟨[], [], []⟩).1 = .ok result ∧
      collect (Utf8.encode result) (reparsing .javascript result) = [] ∧
      (annotate reparsing quietOptions "a.js".toList result ⟨[], [], []⟩).1 = .ok result := by
  obtain ⟨result, hresult, hreparse⟩ := exists_first_run
  have hplain : Identifier.dialect "a.js".toList ≠ .vue := by decide
  obtain ⟨hnone, hagain⟩ := annotate_again hplain anchored_componentTree hresult hreparse
  exact ⟨result, hresult, hnone, hagain quietOptions ⟨[], [], []⟩⟩

/-- A timeout that is no number, in the configuration of a run. -/
def endlessOptions : Options :=
  ⟨⟨.absent, [("ai".toList, .obj [("timeoutMs".toList, .num (.infinite false))])], true, []⟩, .none,
    .sending⟩

/-- A second run over the script fails where its timeout is infinite, although it has nothing to
    do. -/
theorem annotate_again_refused :
    ∃ result, (annotate reparsing quietOptions "a.js".toList componentRange.script
        ⟨[], [], []⟩).1 = .ok result ∧
      reparsing .javascript result = componentTree.commented
        (anchorMarks (Utf8.encode componentRange.script) componentTree
          (insertionsOf reparsing quietOptions "a.js".toList componentRange.script ⟨[], [], []⟩)) ∧
      (annotate reparsing endlessOptions "a.js".toList result ⟨[], [], []⟩).1 =
        .error .timeoutInfinite := by
  obtain ⟨result, hresult, hreparse⟩ := exists_first_run
  exact ⟨result, hresult, hreparse, annotate_of_refused rfl _ _ _ _⟩

end DocAnnotator
