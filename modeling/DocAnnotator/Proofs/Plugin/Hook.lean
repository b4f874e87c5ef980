import DocAnnotator.Plugin.Hook
import DocAnnotator.Proofs.Conservation

/-! ## What the build hook looks at

    Of a module's identifier the hook sees the path: the part before the query, with slashes only.

    - `Identifier.path`: what is left of an identifier.
    - `annotate_of_dialect`: annotating sees the dialect of an identifier and nothing else of it.
    - `Hook.Accepts`: the modules that are annotated.
    - `Hook.transform_path`: the hook answers as it does for the path.
    - `Identifier.suffixDialect_eq`: which suffixes have a dialect of their own.
    - `Hook.transform_normalized`: the whole statement.
-/

namespace DocAnnotator

/-! ### The path in an identifier -/

namespace Identifier

/-- The path that an identifier stands for: without a query, and with slashes only. -/
def path (id : Text) : Text := normalize (stripQuery id)

theorem stripQuery_append {id : Text} (h : '?' ∉ id) (query : Text) :
    stripQuery (id ++ '?' :: query) = id := by
  rw [stripQuery, List.takeWhile_append_of_pos, List.takeWhile_cons_of_neg (by simp),
    List.append_nil]
  intro c hc
  exact bne_iff_ne.2 fun heq => h (heq ▸ hc)

theorem stripQuery_of_not_mem {id : Text} (h : '?' ∉ id) : stripQuery id = id := by
  rw [stripQuery, List.takeWhile_eq_self_iff]
  intro c hc
  exact bne_iff_ne.2 fun heq => h (heq ▸ hc)

theorem not_mem_stripQuery (id : Text) : '?' ∉ stripQuery id := by
  intro hmem
  have hkept := List.mem_takeWhile_imp hmem
  simp at hkept

theorem not_mem_normalize {id : Text} (h : '?' ∉ id) : '?' ∉ normalize id := by
  intro hmem
  obtain ⟨c, hc, hnew⟩ := List.mem_map.1 hmem
  split at hnew
  · cases hnew
  · exact h (hnew ▸ hc)

theorem normalize_normalize (id : Text) : normalize (normalize id) = normalize id := by
  rw [normalize, normalize, Text.replaceChar, Text.replaceChar, List.map_map]
  refine List.map_congr_left fun c _ => ?_
  by_cases hc : c = '\\' <;> simp [hc]

theorem path_of_not_mem {id : Text} (h : '?' ∉ id) : path id = normalize id := by
  rw [path, stripQuery_of_not_mem h]

theorem path_append {id : Text} (h : '?' ∉ id) (query : Text) :
    path (id ++ '?' :: query) = path id := by
  rw [path, stripQuery_append h, path_of_not_mem h]

theorem stripQuery_path (id : Text) : stripQuery (path id) = path id :=
  stripQuery_of_not_mem (not_mem_normalize (not_mem_stripQuery id))

theorem path_path (id : Text) : path (path id) = path id := by
  rw [path, stripQuery_path, path, normalize_normalize]

/-- The dialect is that of the path. -/
theorem dialect_path (id : Text) : dialect (path id) = dialect id :=
  congrArg (fun path => suffixDialect (Text.lower (suffix path))) (path_path id)

theorem dialect_stripQuery (id : Text) : dialect (stripQuery id) = dialect id := by
  rw [dialect, stripQuery_of_not_mem (not_mem_stripQuery id)]
  rfl

/-! ### Dialects of suffixes -/

/-- The suffixes with a dialect of their own. -/
def ownDialects : List (Text × Dialect) :=
  [(".js".toList, .javascript), (".mjs".toList, .javascript), (".cjs".toList, .javascript),
    (".jsx".toList, .jsx), (".ts".toList, .typescript), (".mts".toList, .typescript),
    (".cts".toList, .typescript), (".tsx".toList, .tsx), (".vue".toList, .vue)]

/-- A suffix without a dialect of its own falls back to TypeScript. -/
theorem suffixDialect_eq (suffix : Text) :
    suffixDialect suffix = (ownDialects.lookup suffix).getD .typescript := by
  by_cases hown : suffix ∈ ownDialects.map Prod.fst
  · have hall : ∀ s ∈ ownDialects.map Prod.fst,
        suffixDialect s = (ownDialects.lookup s).getD .typescript := by decide +kernel
    exact hall suffix hown
  · have hnone : ownDialects.lookup suffix = none := by
      rw [List.lookup_eq_none_iff]
      intro entry hentry
      refine bne_iff_ne.2 fun heq => hown ?_
      rw [heq]
      exact List.mem_map_of_mem hentry
    simp only [ownDialects, List.map_cons, List.map_nil, List.mem_cons, not_or] at hown
    rw [hnone]
    unfold suffixDialect
    simp only [List.contains_cons, hown, beq_iff_eq, Bool.or_eq_true, List.contains_nil,
      Bool.false_eq_true, or_self, if_false, Option.getD_none]

end Identifier

/-- Of an identifier, a run looks at the dialect. -/
theorem annotate_of_dialect {id other : Text} (h : Identifier.dialect id = Identifier.dialect other)
    (grammar : Grammar) (options : Options) (code : Text) (session : Session) :
    annotate grammar options id code session = annotate grammar options other code session := by
  unfold annotate prepare
  rw [h]

namespace Hook

/-! ### The modules that are annotated -/

/-- A module is annotated: its identifier is not empty and not that of a virtual module, its suffix
    is listed in small or capital letters, no filter excludes its path, and one of those that
    include, if there are any, takes it. -/
structure Accepts (hook : Hook) (id : Text) : Prop where
  ne_nil : id ≠ []
  real : id.head? ≠ some '\x00'
  listed : ∃ extension ∈ hook.extensions,
    Text.lower extension = Text.lower (Identifier.suffix (Identifier.normalize id))
  kept : ∀ filter ∈ hook.excluded, ¬ Filter.accepts (Identifier.normalize id) filter = true
  taken : hook.included = [] ∨
    ∃ filter ∈ hook.included, Filter.accepts (Identifier.normalize id) filter = true

theorem shouldProcess_iff {hook : Hook} {id : Text} :
    hook.shouldProcess id = true ↔ hook.Accepts id := by
  cases id with
  | nil =>
    constructor
    · exact nofun
    · exact fun h => absurd rfl h.ne_nil
  | cons c rest =>
    by_cases hnul : c = '\x00'
    · subst hnul
      constructor
      · exact nofun
      · exact fun h => absurd rfl h.real
    · have hcode : c.toNat ≠ 0 := fun h => hnul (Char.toNat_inj.1 h)
      have hhead : (c :: rest).head? ≠ some '\x00' := by simpa using hnul
      simp only [shouldProcess, hcode, if_false, Bool.and_eq_true, Bool.or_eq_true,
        Bool.not_eq_true', List.contains_iff_mem, List.mem_map, List.isEmpty_iff, List.any_eq_true,
        List.any_eq_false]
      constructor
      · rintro ⟨⟨hlisted, hkept⟩, htaken⟩
        exact ⟨List.cons_ne_nil _ _, hhead, hlisted, hkept, htaken⟩
      · rintro ⟨-, -, hlisted, hkept, htaken⟩
        exact ⟨⟨hlisted, hkept⟩, htaken⟩

-- a capital sigma at the end of a suffix is listed under its final small form
example : Text.lower ".ΑΣ".toList = ".ας".toList ∧ Text.lower ".ΑΣ".toList ≠ ".ασ".toList := by
  decide +kernel

/-- A module and its path are annotated together. -/
theorem accepts_normalize {hook : Hook} {id : Text} :
    hook.Accepts (Identifier.normalize id) ↔ hook.Accepts id := by
  have hnil : Identifier.normalize id ≠ [] ↔ id ≠ [] := not_congr List.map_eq_nil_iff
  have hreal : (Identifier.normalize id).head? ≠ some '\x00' ↔ id.head? ≠ some '\x00' := by
    cases id with
    | nil => exact Iff.rfl
    | cons c rest => by_cases hc : c = '\\' <;> simp [Identifier.normalize, Text.replaceChar, hc]
  constructor
  · rintro ⟨hne, hhead, hlisted, hkept, htaken⟩
    rw [Identifier.normalize_normalize] at hlisted hkept htaken
    exact ⟨hnil.1 hne, hreal.1 hhead, hlisted, hkept, htaken⟩
  · rintro ⟨hne, hhead, hlisted, hkept, htaken⟩
    rw [← Identifier.normalize_normalize id] at hlisted hkept htaken
    exact ⟨hnil.2 hne, hreal.2 hhead, hlisted, hkept, htaken⟩

/-! ### The answer -/

section Answer

variable {grammar : Grammar} {hook : Hook} {code id : Text} {session : Session}

theorem transform_of_accepts (h : hook.Accepts (Identifier.stripQuery id)) :
    hook.transform grammar code id session =
      ((annotate grammar hook.options id code session).1.map fun text =>
          if text = code then none else some text,
        (annotate grammar hook.options id code session).2) := by
  rw [transform, if_pos (shouldProcess_iff.2 h),
    annotate_of_dialect (Identifier.dialect_stripQuery id)]

theorem transform_of_not_accepts (h : ¬ hook.Accepts (Identifier.stripQuery id)) :
    hook.transform grammar code id session = (.ok none, session) := by
  rw [transform, if_neg (fun hprocess => h (shouldProcess_iff.1 hprocess))]

/-- The hook answers as it does for the path. -/
theorem transform_path (grammar : Grammar) (hook : Hook) (code id : Text) (session : Session) :
    hook.transform grammar code (Identifier.path id) session =
      hook.transform grammar code id session := by
  have hboth : hook.Accepts (Identifier.stripQuery (Identifier.path id)) ↔
      hook.Accepts (Identifier.stripQuery id) := by
    rw [Identifier.stripQuery_path]
    exact accepts_normalize
  by_cases h : hook.Accepts (Identifier.stripQuery id)
  · rw [transform_of_accepts h, transform_of_accepts (hboth.2 h),
      annotate_of_dialect (Identifier.dialect_path id)]
  · rw [transform_of_not_accepts h, transform_of_not_accepts fun hpath => h (hboth.1 hpath)]

end Answer

/-- By default, a module that is annotated has the dialect of its suffix. -/
theorem Accepts.dialect {hook : Hook} {id : Text} (h : hook.Accepts id) (hid : '?' ∉ id)
    (hdefault : hook.extensions = defaultExtensions) :
    Text.lower (Identifier.suffix (Identifier.normalize id)) ∈ defaultExtensions ∧
      Identifier.ownDialects.lookup (Text.lower (Identifier.suffix (Identifier.normalize id))) =
        some (Identifier.dialect id) := by
  obtain ⟨extension, hextension, hlower⟩ := h.listed
  rw [hdefault] at hextension
  -- the listed suffixes are in small letters, and each has a dialect
  have hlisted : ∀ e ∈ defaultExtensions, Text.lower e = e ∧
      (Identifier.ownDialects.lookup e).isSome = true := by decide +kernel
  obtain ⟨hsmall, hsome⟩ := hlisted extension hextension
  obtain ⟨dialect, hdialect⟩ := Option.isSome_iff_exists.1 hsome
  have hsuffix : Text.lower (Identifier.suffix (Identifier.normalize id)) = extension :=
    hlower.symm.trans hsmall
  refine ⟨hsuffix ▸ hextension, ?_⟩
  rw [Identifier.dialect, Identifier.stripQuery_of_not_mem hid, hsuffix, Identifier.suffixDialect_eq,
    hdialect]
  rfl

/-- Of an identifier, the hook looks at the path: the query and the way the slashes lean do not
    count. A module that is not accepted is left alone. For any other one the hook hands over what
    annotating it with the same options gives, if that is another text, and fails where annotating
    fails. By default each accepted module is read in the dialect that its own suffix stands for. -/
theorem transform_normalized (grammar : Grammar) (hook : Hook) (code : Text) {id : Text}
    (hid : '?' ∉ id) (query : Text) (session : Session) :
    hook.transform grammar code (id ++ '?' :: query) session =
      hook.transform grammar code id session ∧
    hook.transform grammar code (Identifier.normalize id) session =
      hook.transform grammar code id session ∧
    (∀ other, Identifier.path other = Identifier.path id →
      hook.transform grammar code other session = hook.transform grammar code id session) ∧
    (¬ hook.Accepts id → hook.transform grammar code id session = (.ok none, session)) ∧
    (hook.Accepts id → ∀ result later,
      annotate grammar hook.options id code session = (result, later) →
      (result = .ok code → hook.transform grammar code id session = (.ok none, later)) ∧
      (∀ text, result = .ok text → text ≠ code →
        hook.transform grammar code id session = (.ok (some text), later)) ∧
      ∀ e, result = .error e → hook.transform grammar code id session = (.error e, later)) ∧
    (hook.Accepts id → hook.extensions = defaultExtensions →
      Text.lower (Identifier.suffix (Identifier.normalize id)) ∈ defaultExtensions ∧
      Identifier.ownDialects.lookup (Text.lower (Identifier.suffix (Identifier.normalize id))) =
        some (Identifier.dialect id) ∧
      (Identifier.dialect id ≠ .vue →
        ScriptRange.extract? code (Identifier.dialect id) =
          some ⟨code, 0, code.length, [], [], Identifier.dialect id⟩)) := by
  have hpath : ∀ other, Identifier.path other = Identifier.path id →
      hook.transform grammar code other session = hook.transform grammar code id session := by
    intro other hother
    rw [← transform_path grammar hook code other, hother, transform_path]
  have hself : Identifier.stripQuery id = id := Identifier.stripQuery_of_not_mem hid
  refine ⟨hpath _ (Identifier.path_append hid query), hpath _ ?_, hpath, fun hnot => ?_,
    fun haccepts result later hrun => ?_, fun haccepts hdefault => ?_⟩
  · rw [← Identifier.path_of_not_mem hid, Identifier.path_path]
  · exact transform_of_not_accepts (by rwa [hself])
  · have hstripped : hook.Accepts (Identifier.stripQuery id) := by rwa [hself]
    have htransform : hook.transform grammar code id session = _ := transform_of_accepts hstripped
    rw [hrun] at htransform
    refine ⟨?_, ?_, ?_⟩
    · rintro rfl
      rw [htransform]
      simp [Except.map]
    · rintro text rfl hne
      rw [htransform]
      simp [Except.map, hne]
    · rintro e rfl
      exact htransform
  · obtain ⟨hmem, hlookup⟩ := haccepts.dialect hid hdefault
    exact ⟨hmem, hlookup, fun hvue => ScriptRange.extract?_plain hvue code⟩

/-- The hook as it is set up without options of its own, and without a description service. -/
def plainHook : Hook := ⟨[], defaultExclude, defaultExtensions, .both, quietOptions⟩

/-- An identifier with a slash that leans backwards and a suffix in capital letters. -/
def slantedId : Text := "src\\App.VUE".toList

/-- A component whose identifier has a query is annotated as without one. -/
theorem transform_normalized_component :
    plainHook.Accepts slantedId ∧ ∃ text, text ≠ component ∧
      (plainHook.transform componentGrammar component (slantedId ++ '?' :: "vue&type=script".toList)
        ⟨[], [], []⟩).1 = .ok (some text) := by
  have hid : '?' ∉ slantedId := by decide +kernel
  have haccepts : plainHook.Accepts slantedId := shouldProcess_iff.1 (by decide +kernel)
  have hdialect : Identifier.dialect slantedId = Identifier.dialect "a.vue".toList := by decide +kernel
  have hrange := extract?_component
  rw [← hdialect] at hrange
  obtain ⟨text, htext⟩ := annotate_component_returns hrange rfl
  have hne : text ≠ component := by
    have htokens : TokenAnchors componentGrammar slantedId component :=
      TokenAnchors.of_anchors hrange startsToken_component
    intro hsame
    exact targetsOf_component ((annotate_eq_self_iff htokens htext hrange).1 hsame)
  obtain ⟨hquery, -, -, -, hanswer, -⟩ := transform_normalized componentGrammar plainHook component hid
    "vue&type=script".toList ⟨[], [], []⟩
  obtain ⟨-, hother, -⟩ := hanswer haccepts _ _ Prod.mk.eta.symm
  refine ⟨haccepts, text, hne, ?_⟩
  rw [hquery, hother text htext hne]

end Hook

end DocAnnotator
