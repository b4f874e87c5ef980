import Mathlib.Data.List.Nodup
import DocAnnotator.Proofs.Config.Service
import DocAnnotator.Proofs.Json.Memory

/-! ## What a merge keeps

    The values of nested objects that are no objects themselves are their leaves, each known by the
    keys that lead to it. A merge has all leaves of the override, and those of the base that the
    override spares.

    - `Distinct`: objects give each of their keys once.
    - `valueAt?`, `leaves`: the value at the end of a path, and all leaves with their paths.
    - `get?_merge`: the value of a key after a merge.
    - `Spares`, `leafAt_merge_iff`: which leaves of the base are left.
    - `merge_self`: merging an object with itself changes nothing.
    - `merge_keeps_leaves`: the whole statement, with what merging leaves alone in memory.
-/

namespace DocAnnotator.Json

/-- The keys that lead into nested objects, the outermost first. -/
abbrev KeyPath := List Text

/-! ### Objects with distinct keys -/

mutual
/-- Every object at or below the value, outside lists, gives each of its keys once. -/
def Distinct : Json → Prop
  | .obj fields => Fields.Distinct fields
  | _ => True

/-- The keys of the fields are distinct, and those of the objects in them too. -/
def Fields.Distinct : Fields → Prop
  | [] => True
  | (key, value) :: rest => Fields.get? key rest = none ∧ value.Distinct ∧ Fields.Distinct rest
end

theorem Fields.Distinct.value {fields : Fields} (h : fields.Distinct) {key : Text} {value : Json}
    (hvalue : fields.get? key = some value) : value.Distinct := by
  induction fields with
  | nil => cases hvalue
  | cons first rest ih =>
    obtain ⟨k, v⟩ := first
    obtain ⟨-, hv, hrest⟩ := h
    by_cases hkey : k = key
    · simp only [Fields.get?, if_pos hkey] at hvalue
      exact Option.some.inj hvalue ▸ hv
    · simp only [Fields.get?, if_neg hkey] at hvalue
      exact ih hrest hvalue

theorem Fields.Distinct.put {fields : Fields} (h : fields.Distinct) (key : Text) {value : Json}
    (hvalue : value.Distinct) : (fields.put key value).Distinct := by
  induction fields with
  | nil => exact ⟨rfl, hvalue, trivial⟩
  | cons first rest ih =>
    obtain ⟨k, v⟩ := first
    obtain ⟨hnew, hv, hrest⟩ := h
    by_cases hkey : k = key
    · simp only [Fields.put, if_pos hkey]
      exact ⟨hnew, hvalue, hrest⟩
    · simp only [Fields.put, if_neg hkey]
      refine ⟨?_, hv, ih hrest⟩
      rw [get?_put, if_neg (Ne.symm hkey), hnew]

/-- Putting the value that a key has already changes nothing. -/
theorem Fields.put_get? {fields : Fields} {key : Text} {value : Json}
    (h : fields.get? key = some value) : fields.put key value = fields := by
  induction fields with
  | nil => cases h
  | cons first rest ih =>
    obtain ⟨k, v⟩ := first
    by_cases hkey : k = key
    · simp only [Fields.get?, if_pos hkey] at h
      simp only [Fields.put, if_pos hkey, Option.some.inj h]
    · simp only [Fields.get?, if_neg hkey] at h
      simp only [Fields.put, if_neg hkey, ih h]

mutual
/-- The value of a key that both sides give has distinct keys if both values have. -/
theorem distinct_mergeValue : ∀ (value : Json) {current : Option Json},
    (∀ base, current = some base → base.Distinct) → value.Distinct →
      (mergeValue current value).Distinct
  | .obj fields, current, hcurrent, hvalue => by
    match current, hcurrent with
    | some (.obj base), hcurrent => exact distinct_merge fields (hcurrent _ rfl) hvalue
    | none, _ | some .null, _ | some (.bool _), _ | some (.num _), _ | some (.str _), _
    | some (.arr _), _ => exact hvalue
  | .null, _, _, _ | .bool _, _, _, _ | .num _, _, _, _ | .str _, _, _, _ | .arr _, _, _, _ =>
    trivial

/-- Merged objects have distinct keys if both objects have. -/
theorem distinct_merge : ∀ (override : Fields) {base : Fields}, base.Distinct →
    override.Distinct → (merge base override).Distinct
  | [], _, hbase, _ => hbase
  | (key, value) :: rest, base, hbase, ⟨_, hvalue, hrest⟩ => by
    rw [merge]
    refine distinct_merge rest (hbase.put key ?_) hrest
    exact distinct_mergeValue value (fun current hcurrent => hbase.value hcurrent) hvalue
end

/-! ### The value of a key -/

/-- After a merge a key has the value of the override, merged with that of the base where both are
    objects, and the value of the base where the override gives none. -/
theorem get?_merge {override : Fields} (h : override.Distinct) (base : Fields) (key : Text) :
    (merge base override).get? key =
      match override.get? key with
      | some value => some (mergeValue (base.get? key) value)
      | none => base.get? key := by
  induction override generalizing base with
  | nil => rfl
  | cons first rest ih =>
    obtain ⟨k, v⟩ := first
    obtain ⟨hnew, -, hrest⟩ := h
    rw [merge, ih hrest]
    by_cases hkey : k = key
    · -- no later field gives the key another value
      subst hkey
      simp [hnew, Fields.get?, get?_put]
    · simp [Fields.get?, hkey, get?_put]

mutual
theorem mergeValue_self : ∀ (value : Json), value.Distinct → mergeValue (some value) value = value
  | .obj fields, h => by
    rw [mergeValue, merge_of_held fields h fun _ _ => id]
  | .null, _ | .bool _, _ | .num _, _ | .str _, _ | .arr _, _ => rfl

/-- Merging what an object holds already changes nothing. -/
theorem merge_of_held : ∀ (override : Fields) {base : Fields},
    override.Distinct →
    (∀ key value, override.get? key = some value → base.get? key = some value) →
      merge base override = base
  | [], _, _, _ => rfl
  | (key, value) :: rest, base, ⟨hnew, hvalue, hrest⟩, hheld => by
    have hhere : base.get? key = some value := hheld key value (by simp [Fields.get?])
    rw [merge, hhere, mergeValue_self value hvalue, Fields.put_get? hhere]
    refine merge_of_held rest hrest fun other v hother => hheld other v ?_
    -- a later field has another key
    have hne : key ≠ other := by
      rintro rfl
      rw [hnew] at hother
      cases hother
    simp [Fields.get?, hne, hother]
end

/-- Merging an object with itself changes nothing, not even the order of its keys. -/
theorem merge_self {fields : Fields} (h : fields.Distinct) : merge fields fields = fields :=
  merge_of_held fields h fun _ _ => id

/-! ### Leaves -/

/-- The value at the end of a path; the empty path ends at the value itself. -/
def valueAt? : KeyPath → Json → Option Json
  | [], value => some value
  | key :: path, value => (value.field? key).bind (valueAt? path)

/-- The value is no object. -/
def IsLeaf (value : Json) : Prop := value.fields? = none

mutual
/-- The leaves of a value with the paths to them. A value that is no object is its own leaf. -/
def leaves : Json → List (KeyPath × Json)
  | .obj fields => Fields.leaves fields
  | value => [([], value)]

/-- The leaves of an object's fields, in their order. -/
def Fields.leaves : Fields → List (KeyPath × Json)
  | [] => []
  | (key, value) :: rest =>
    value.leaves.map (fun leaf => (key :: leaf.1, leaf.2)) ++ Fields.leaves rest
end

@[simp] theorem valueAt?_nil (value : Json) : valueAt? [] value = some value := rfl

@[simp] theorem valueAt?_cons (key : Text) (path : KeyPath) (fields : Fields) :
    valueAt? (key :: path) (.obj fields) = (fields.get? key).bind (valueAt? path) := rfl

theorem valueAt?_singleton (key : Text) (fields : Fields) :
    valueAt? [key] (.obj fields) = fields.get? key := by
  rw [valueAt?_cons]
  cases fields.get? key <;> rfl

/-- No path leads into a leaf. -/
theorem valueAt?_of_isLeaf {value : Json} (h : value.IsLeaf) (key : Text) (path : KeyPath) :
    valueAt? (key :: path) value = none := by
  rw [valueAt?, field?, h]
  rfl

/-- A leaf stands at the end of a path. -/
def LeafAt (value : Json) (path : KeyPath) (leaf : Json) : Prop :=
  valueAt? path value = some leaf ∧ leaf.IsLeaf

theorem leafAt_iff_of_isLeaf {value : Json} (h : value.IsLeaf) {path : KeyPath} {leaf : Json} :
    value.LeafAt path leaf ↔ path = [] ∧ leaf = value := by
  cases path with
  | nil =>
    constructor
    · rintro ⟨hvalue, -⟩
      exact ⟨rfl, (Option.some.inj hvalue).symm⟩
    · rintro ⟨-, rfl⟩
      exact ⟨rfl, h⟩
  | cons key path => simp [LeafAt, valueAt?_of_isLeaf h]

theorem mem_leaves_of_isLeaf {value : Json} (h : value.IsLeaf) {path : KeyPath} {leaf : Json} :
    (path, leaf) ∈ value.leaves ↔ value.LeafAt path leaf := by
  have hself : value.leaves = [([], value)] := by
    cases value with
    | obj fields => cases h
    | _ => rfl
  rw [hself, leafAt_iff_of_isLeaf h, List.mem_singleton, Prod.mk.injEq]

theorem not_leafAt_nil (fields : Fields) (leaf : Json) : ¬ (Json.obj fields).LeafAt [] leaf := by
  rintro ⟨hvalue, hleaf⟩
  rw [← Option.some.inj hvalue] at hleaf
  cases hleaf

theorem leafAt_cons {fields : Fields} {key : Text} {path : KeyPath} {leaf : Json} :
    (Json.obj fields).LeafAt (key :: path) leaf ↔
      ∃ value, fields.get? key = some value ∧ value.LeafAt path leaf := by
  simp only [LeafAt, valueAt?_cons, Option.bind_eq_some_iff]
  constructor
  · rintro ⟨⟨value, hvalue, hpath⟩, hleaf⟩
    exact ⟨value, hvalue, hpath, hleaf⟩
  · rintro ⟨value, hvalue, hpath, hleaf⟩
    exact ⟨⟨value, hvalue, hpath⟩, hleaf⟩

/-- A path into fields starts with one of their keys. -/
theorem get?_of_mem_leaves {fields : Fields} {key : Text} {path : KeyPath} {leaf : Json}
    (h : (key :: path, leaf) ∈ fields.leaves) : fields.get? key ≠ none := by
  induction fields with
  | nil => simp [Fields.leaves] at h
  | cons first rest ih =>
    obtain ⟨k, v⟩ := first
    rw [Fields.get?]
    split
    · exact Option.some_ne_none _
    next hkey =>
      rcases List.mem_append.1 h with h | h
      · obtain ⟨_, -, heq⟩ := List.mem_map.1 h
        exact absurd (List.cons.inj (Prod.mk.inj heq).1).1 hkey
      · exact ih h

mutual
/-- The leaves that are listed are those that paths lead to. -/
theorem mem_leaves : ∀ (value : Json), value.Distinct → ∀ {path : KeyPath} {leaf : Json},
    (path, leaf) ∈ value.leaves ↔ value.LeafAt path leaf
  | .obj fields, h, path, leaf => mem_leaves_fields fields h
  | .null, _, _, _ | .bool _, _, _, _ | .num _, _, _, _ | .str _, _, _, _ | .arr _, _, _, _ =>
    mem_leaves_of_isLeaf (by rfl)

theorem mem_leaves_fields : ∀ (fields : Fields), fields.Distinct →
    ∀ {path : KeyPath} {leaf : Json},
      (path, leaf) ∈ fields.leaves ↔ (Json.obj fields).LeafAt path leaf
  | [], _, path, leaf => by
    cases path with
    | nil => simp [Fields.leaves, not_leafAt_nil]
    | cons key path => simp [Fields.leaves, leafAt_cons, Fields.get?]
  | (k, v) :: rest, ⟨hnew, hv, hrest⟩, path, leaf => by
    cases path with
    | nil =>
      refine iff_of_false ?_ (not_leafAt_nil _ _)
      intro hmem
      rcases List.mem_append.1 hmem with hmem | hmem
      · obtain ⟨_, -, heq⟩ := List.mem_map.1 hmem
        cases (Prod.mk.inj heq).1
      · exact not_leafAt_nil rest leaf ((mem_leaves_fields rest hrest).1 hmem)
    | cons key path =>
      have hhere : (key :: path, leaf) ∈ v.leaves.map (fun leaf => (k :: leaf.1, leaf.2)) ↔
          k = key ∧ v.LeafAt path leaf := by
        rw [← mem_leaves v hv]
        constructor
        · intro hmem
          obtain ⟨⟨p, l⟩, hl, heq⟩ := List.mem_map.1 hmem
          obtain ⟨hpath, rfl⟩ := Prod.mk.inj heq
          obtain ⟨rfl, rfl⟩ := List.cons.inj hpath
          exact ⟨rfl, hl⟩
        · rintro ⟨rfl, hl⟩
          exact List.mem_map.2 ⟨_, hl, rfl⟩
      rw [Fields.leaves, List.mem_append, hhere, mem_leaves_fields rest hrest, leafAt_cons,
        leafAt_cons]
      by_cases hkey : k = key
      · subst hkey
        simp [Fields.get?, hnew]
      · simp [Fields.get?, hkey]
end

mutual
theorem nodup_leaves : ∀ (value : Json), value.Distinct → (value.leaves.map Prod.fst).Nodup
  | .obj fields, h => nodup_leaves_fields fields h
  | .null, _ | .bool _, _ | .num _, _ | .str _, _ | .arr _, _ => List.nodup_singleton _

/-- No path leads to two leaves. -/
theorem nodup_leaves_fields : ∀ (fields : Fields), fields.Distinct →
    (fields.leaves.map Prod.fst).Nodup
  | [], _ => List.nodup_nil
  | (key, value) :: rest, ⟨hnew, hvalue, hrest⟩ => by
    have hpaths : (value.leaves.map (fun leaf => (key :: leaf.1, leaf.2))).map Prod.fst =
        (value.leaves.map Prod.fst).map (key :: ·) := by
      simp [List.map_map, Function.comp_def]
    rw [Fields.leaves, List.map_append, hpaths]
    refine List.Nodup.append ?_ (nodup_leaves_fields rest hrest) ?_
    · exact (nodup_leaves value hvalue).map fun _ _ heq => (List.cons.inj heq).2
    · -- the later fields have other keys
      intro path hfirst hlater
      obtain ⟨p, -, rfl⟩ := List.mem_map.1 hfirst
      obtain ⟨⟨_, leaf⟩, hleaf, rfl⟩ := List.mem_map.1 hlater
      exact get?_of_mem_leaves hleaf hnew
end

/-! ### Which leaves are left -/

/-- The fields spare what another object has at the end of a path: they give no value there, and
    nothing but objects on the way. -/
structure Fields.Spares (override : Fields) (path : KeyPath) : Prop where
  absent : valueAt? path (.obj override) = none
  passed : ∀ before value, before <+: path → before ≠ path →
    valueAt? before (.obj override) = some value → ¬ value.IsLeaf

theorem not_isLeaf_obj (fields : Fields) : ¬ (Json.obj fields).IsLeaf := nofun

theorem not_spares_nil (override : Fields) : ¬ override.Spares [] := by
  intro h
  cases h.absent

/-- A key that is not given is spared with all that is below it. -/
theorem spares_of_absent {override : Fields} {key : Text} (h : override.get? key = none)
    (path : KeyPath) : override.Spares (key :: path) := by
  refine ⟨by simp [h], ?_⟩
  intro before value hbefore _ hvalue
  cases before with
  | nil =>
    obtain rfl := Option.some.inj hvalue
    exact not_isLeaf_obj override
  | cons k before =>
    obtain ⟨rfl, -⟩ := List.cons_prefix_cons.1 hbefore
    simp [h] at hvalue

/-- Nothing at or below a leaf is spared. -/
theorem not_spares_of_isLeaf {override : Fields} {key : Text} {value : Json}
    (h : override.get? key = some value) (hleaf : value.IsLeaf) (path : KeyPath) :
    ¬ override.Spares (key :: path) := by
  intro hspares
  have hvalue : valueAt? [key] (.obj override) = some value := by simp [h]
  by_cases hpath : path = []
  · subst hpath
    rw [hspares.absent] at hvalue
    cases hvalue
  · refine hspares.passed [key] value ⟨path, rfl⟩ ?_ hvalue hleaf
    intro heq
    exact hpath (List.cons.inj heq).2.symm

/-- Below an object, what the object spares is spared. -/
theorem spares_cons_iff {override fields : Fields} {key : Text}
    (h : override.get? key = some (.obj fields)) (path : KeyPath) :
    override.Spares (key :: path) ↔ fields.Spares path := by
  have hbelow : ∀ p, valueAt? (key :: p) (.obj override) = valueAt? p (.obj fields) := by
    intro p
    simp [h]
  constructor
  · rintro ⟨habsent, hpassed⟩
    refine ⟨by rw [← hbelow, habsent], ?_⟩
    intro before value hbefore hne hvalue
    refine hpassed (key :: before) value ((List.prefix_cons_inj key).2 hbefore) ?_ ?_
    · intro heq
      exact hne (List.cons.inj heq).2
    · rw [hbelow, hvalue]
  · rintro ⟨habsent, hpassed⟩
    refine ⟨by rw [hbelow, habsent], ?_⟩
    intro before value hbefore hne hvalue
    cases before with
    | nil =>
      obtain rfl := Option.some.inj hvalue
      exact not_isLeaf_obj override
    | cons k before =>
      obtain ⟨rfl, hshorter⟩ := List.cons_prefix_cons.1 hbefore
      rw [hbelow] at hvalue
      refine hpassed before value hshorter ?_ hvalue
      rintro rfl
      exact hne rfl

/-- A value that the override gives for a key replaces a value that is no object, and an object
    unless it is one too. -/
theorem mergeValue_cases (current : Option Json) (value : Json) :
    (∃ base fields, current = some (.obj base) ∧ value = .obj fields ∧
      mergeValue current value = .obj (merge base fields)) ∨
    ((∀ base fields, current = some (.obj base) → value ≠ .obj fields) ∧
      mergeValue current value = value) := by
  by_cases hboth : ∃ base fields, current = some (.obj base) ∧ value = .obj fields
  · obtain ⟨base, fields, rfl, rfl⟩ := hboth
    exact .inl ⟨base, fields, rfl, rfl, rfl⟩
  · have hother : ∀ base fields, current = some (.obj base) → value ≠ .obj fields :=
      fun base fields hbase hfields => hboth ⟨base, fields, hbase, hfields⟩
    exact .inr ⟨hother, mergeValue_eq_self hother⟩

theorem isLeaf_or_obj (value : Json) : value.IsLeaf ∨ ∃ fields, value = .obj fields := by
  cases value with
  | obj fields => exact .inr ⟨fields, rfl⟩
  | _ => exact .inl rfl

/-- The leaves of a merge are those of the override, and those of the base that it spares. -/
theorem leafAt_merge_iff {override : Fields} (h : override.Distinct) (base : Fields)
    (path : KeyPath) (leaf : Json) :
    (Json.obj (merge base override)).LeafAt path leaf ↔
      (Json.obj override).LeafAt path leaf ∨
        (Json.obj base).LeafAt path leaf ∧ override.Spares path := by
  induction path generalizing base override with
  | nil => simp [not_leafAt_nil]
  | cons key path ih =>
    rw [leafAt_cons, leafAt_cons, leafAt_cons, get?_merge h]
    cases hkey : override.get? key with
    | none => simp [spares_of_absent hkey path]
    | some value =>
      rcases mergeValue_cases (base.get? key) value with
        ⟨inner, fields, hbase, rfl, hmerged⟩ | ⟨hother, hmerged⟩
      · -- both sides give an object: the question is the same one level down
        have hbelow := ih (h.value hkey) inner
        simp only [hmerged, spares_cons_iff hkey, Option.some.injEq, exists_eq_left']
        simpa [hbase] using hbelow
      · have hspares : ∀ current, base.get? key = some current → current.LeafAt path leaf →
            ¬ override.Spares (key :: path) := by
          intro current hcurrent hleaf
          rcases isLeaf_or_obj value with hvalue | ⟨fields, rfl⟩
          · exact not_spares_of_isLeaf hkey hvalue path
          · -- an object replaces a value of the base that is none, and so the leaf that it is
            rcases isLeaf_or_obj current with hcurrentLeaf | ⟨inner, rfl⟩
            · obtain ⟨rfl, rfl⟩ := (leafAt_iff_of_isLeaf hcurrentLeaf).1 hleaf
              rw [spares_cons_iff hkey]
              exact not_spares_nil fields
            · exact absurd rfl (hother inner fields hcurrent)
        have hgone : ¬ ((∃ current, base.get? key = some current ∧ current.LeafAt path leaf) ∧
            override.Spares (key :: path)) := by
          rintro ⟨⟨current, hcurrent, hleaf⟩, hspared⟩
          exact hspares current hcurrent hleaf hspared
        rw [or_iff_left hgone]
        simp only [hmerged]

/-- At the end of a path where the override gives nothing, a merge has what the base has, or
    nothing. -/
theorem valueAt?_merge_of_none {override : Fields} (h : override.Distinct) (base : Fields)
    {path : KeyPath} (hnone : valueAt? path (.obj override) = none) :
    valueAt? path (.obj (merge base override)) = none ∨
      valueAt? path (.obj (merge base override)) = valueAt? path (.obj base) := by
  induction path generalizing base override with
  | nil => cases hnone
  | cons key path ih =>
    rw [valueAt?_cons] at hnone
    rw [valueAt?_cons, valueAt?_cons, get?_merge h]
    cases hkey : override.get? key with
    | none => exact .inr rfl
    | some value =>
      rw [hkey, Option.bind_some] at hnone
      rcases mergeValue_cases (base.get? key) value with
        ⟨inner, fields, hbase, rfl, hmerged⟩ | ⟨-, hmerged⟩
      · have hbelow := ih (h.value hkey) inner hnone
        rw [hbase] at hmerged ⊢
        simp only [hmerged, Option.bind_some]
        exact hbelow
      · simp only [hmerged, Option.bind_some]
        exact .inl hnone

/-! ### The whole statement -/

/-- A merge has exactly the leaves of the override and those of the base for which the override has
    neither a value nor, on the way, a value that is no object; each path leads to one leaf, and
    keys stay distinct. Merging nothing, or an object with itself, changes nothing. In memory,
    objects that are read as the two can be merged, whatever else they share; the result is read as
    the merge, and every object that was there before stays as it is. -/
theorem merge_keeps_leaves {base override : Fields} (hbase : base.Distinct)
    (hoverride : override.Distinct) :
    (∀ path leaf, (path, leaf) ∈ (merge base override).leaves ↔
      (path, leaf) ∈ override.leaves ∨ (path, leaf) ∈ base.leaves ∧ override.Spares path) ∧
    ((merge base override).leaves.map Prod.fst).Nodup ∧
    (merge base override).Distinct ∧
    merge base [] = base ∧ merge base base = base ∧
    ∀ (memory : Memory) (b o : Nat),
      Reads (memory[·]?) (.obj base) (.object b) → Reads (memory[·]?) (.obj override) (.object o) →
      (∃ memory' result, Merges memory b o memory' result) ∧
      ∀ memory' result, Merges memory b o memory' result →
        Reads (memory'[·]?) (.obj (merge base override)) (.object result) ∧
        (∀ address < memory.length, memory'[address]? = memory[address]?) ∧
        Reads (memory'[·]?) (.obj base) (.object b) ∧
        Reads (memory'[·]?) (.obj override) (.object o) := by
  have hmerged : (merge base override).Distinct := distinct_merge override hbase hoverride
  refine ⟨?_, nodup_leaves_fields _ hmerged, hmerged, rfl, merge_self hbase, ?_⟩
  · intro path leaf
    rw [mem_leaves_fields _ hmerged, mem_leaves_fields _ hoverride, mem_leaves_fields _ hbase,
      leafAt_merge_iff hoverride]
  · intro memory b o hb ho
    have hb' := hb
    have ho' := ho
    rw [← Memory.outside_nil] at hb' ho'
    refine ⟨exists_merges _ (by simp) hb' ho', ?_⟩
    intro memory' result hrun
    have hresult := hrun.reads (by simp) hb' ho'
    rw [Memory.outside_nil] at hresult
    exact ⟨hresult, hrun.frame.2.2, hrun.keeps hb, hrun.keeps ho⟩

/-- An object with an object, a truth value and another object. -/
def sharedBase : Fields :=
  [("a".toList, .obj [("b".toList, .num (.int 1))]), ("d".toList, .bool true),
    ("e".toList, .obj [("x".toList, .null)])]

/-- An override with the same object, an empty object for the truth value, and a text for the other
    object. -/
def sharedOverride : Fields :=
  [("a".toList, .obj [("b".toList, .num (.int 1))]), ("d".toList, .obj []),
    ("e".toList, .str "s".toList)]

/-- A memory in which the two hold their first object at one address. -/
def sharedMemory : Memory :=
  [[("b".toList, .plain (.num (.int 1)))], [("x".toList, .plain .null)], [],
    [("a".toList, .object 0), ("d".toList, .plain (.bool true)), ("e".toList, .object 1)],
    [("a".toList, .object 0), ("d".toList, .object 2), ("e".toList, .plain (.str "s".toList))]]

/-- The empty object takes the truth value away and the text the object, and all five objects of
    the memory stay as they are. -/
theorem merge_keeps_leaves_shared :
    sharedBase.Distinct ∧ sharedOverride.Distinct ∧
    (∀ path leaf, (path, leaf) ∈ [(["a".toList, "b".toList], Json.num (.int 1)),
        (["e".toList], .str "s".toList)] ↔
      (path, leaf) ∈ sharedOverride.leaves ∨
        (path, leaf) ∈ sharedBase.leaves ∧ sharedOverride.Spares path) ∧
    ∃ memory' result, Merges sharedMemory 3 4 memory' result ∧
      Reads (memory'[·]?) (.obj (merge sharedBase sharedOverride)) (.object result) ∧
      ∀ address < 5, memory'[address]? = sharedMemory[address]? := by
  have hbase : sharedBase.Distinct := ⟨rfl, ⟨rfl, trivial, trivial⟩, rfl, trivial, rfl,
    ⟨rfl, trivial, trivial⟩, trivial⟩
  have hoverride : sharedOverride.Distinct := ⟨rfl, ⟨rfl, trivial, trivial⟩, rfl, trivial, rfl,
    trivial, trivial⟩
  have hb : Reads (sharedMemory[·]?) (.obj sharedBase) (.object 3) :=
    ⟨3, _, rfl, rfl, _, _, rfl, ⟨0, _, rfl, rfl, _, _, rfl, rfl, rfl⟩, _, _, rfl, rfl, _, _, rfl,
      ⟨1, _, rfl, rfl, _, _, rfl, rfl, rfl⟩, rfl⟩
  have ho : Reads (sharedMemory[·]?) (.obj sharedOverride) (.object 4) :=
    ⟨4, _, rfl, rfl, _, _, rfl, ⟨0, _, rfl, rfl, _, _, rfl, rfl, rfl⟩, _, _, rfl,
      ⟨2, _, rfl, rfl, rfl⟩, _, _, rfl, rfl, rfl⟩
  obtain ⟨hleaves, -, -, -, -, hmemory⟩ := merge_keeps_leaves hbase hoverride
  obtain ⟨⟨memory', result, hrun⟩, hall⟩ := hmemory sharedMemory 3 4 hb ho
  obtain ⟨hreads, hsame, -, -⟩ := hall memory' result hrun
  exact ⟨hbase, hoverride, hleaves, memory', result, hrun, hreads, hsame⟩

end DocAnnotator.Json
