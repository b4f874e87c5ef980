import DocAnnotator.Config.Resolve
import DocAnnotator.Describe.Service

/-! ## The service that a configuration asks

    Descriptions are asked for where the configuration enables them and has a key, and never where
    they are switched off.

    - `Json.get?_put`: look-up in an object after a field is set.
    - `resolve_ai`: the `ai` settings are those of the merged section.
    - `resolve_disabled`: with descriptions switched off, the environment changes nothing but the
      key, which nobody asks for then.
    - `resolve_enabled`: enabled settings name a known service and have a key.
    - `Describe.describer_eq`: the service of enabled settings, unless its timeout is too large.
-/

namespace DocAnnotator

theorem Json.get?_put (key other : Text) (value : Json) (fields : Json.Fields) :
    (fields.put key value).get? other = if key = other then some value else fields.get? other := by
  induction fields with
  | nil => rfl
  | cons first rest ih =>
    obtain ⟨k, v⟩ := first
    rw [Json.Fields.put]
    by_cases hkey : k = key
    · subst hkey
      by_cases hother : k = other <;> simp [Json.Fields.get?, hother]
    · by_cases hother : k = other
      · subst hother
        simp [Json.Fields.get?, hkey, Ne.symm hkey]
      · simp [Json.Fields.get?, hkey, hother, ih]

namespace Config

/-! ### The merged section -/

/-- The `ai` section of the sources, once the file is read. -/
def Sources.aiSection (sources : Sources) (file : Json.Fields) : Json.Fields :=
  sectionOf (mergeSources file sources.inline sources.disableAi) "ai".toList defaultAiSection

/-- The `ai` settings are those of the merged section. -/
theorem resolve_ai (sources : Sources) :
    (resolve sources).1.map Settings.ai = (loadFile sources.file).1.bind fun file =>
      resolveAi (sources.aiSection file) sources.environment := by
  change ((loadFile sources.file).1.bind _).map Settings.ai = _
  cases (loadFile sources.file).1 with
  | error e => rfl
  | ok file =>
    change (resolveMerged _ sources.environment).map Settings.ai = resolveAi _ sources.environment
    unfold resolveMerged Sources.aiSection
    simp only
    cases resolveAi _ sources.environment <;> rfl

/-- Settings that are resolved come from a file that can be read. -/
theorem resolveAi_of_resolve {sources : Sources} {settings : Settings}
    (h : (resolve sources).1 = .ok settings) :
    ∃ file, (loadFile sources.file).1 = .ok file ∧
      resolveAi (sources.aiSection file) sources.environment = .ok settings.ai := by
  have hai := resolve_ai sources
  rw [h] at hai
  cases hfile : (loadFile sources.file).1 with
  | error e =>
    rw [hfile] at hai
    cases hai
  | ok file =>
    rw [hfile] at hai
    exact ⟨file, rfl, hai.symm⟩

/-! ### Switched off -/

/-- Whatever the other sources say, the switch leaves an `ai` section that is not enabled. -/
theorem mergeSources_disabled (file inline : Json.Fields) :
    ∃ fields, (mergeSources file inline true).get? "ai".toList = some (.obj fields) ∧
      Json.Fields.get? "enabled".toList fields = some (.bool false) := by
  have hput (merged : Json.Fields) : Json.merge merged disableAiFields =
      merged.put "ai".toList (Json.mergeValue (merged.get? "ai".toList)
        (.obj [("enabled".toList, .bool false)])) := rfl
  simp only [mergeSources, if_true, hput, Json.get?_put]
  generalize Json.Fields.get? "ai".toList (Json.merge (Json.merge defaults file) inline) = current
  cases current with
  | none => exact ⟨_, rfl, rfl⟩
  | some value =>
    cases value with
    | obj base =>
      -- only here the section is merged with what was there before
      refine ⟨_, rfl, ?_⟩
      exact (Json.get?_put _ _ _ _).trans (if_pos rfl)
    | _ => exact ⟨_, rfl, rfl⟩

/-- Settings that write the same lines, and ask no service. -/
structure SameLines (settings other : Settings) : Prop where
  templates : settings.templates = other.templates
  includeReturns : settings.includeReturnsWhenVoid = other.includeReturnsWhenVoid
  disabled : settings.ai.enabled = false
  disabled' : other.ai.enabled = false

theorem resolveMerged_disabled {merged fields : Json.Fields}
    (hsection : merged.get? "ai".toList = some (.obj fields))
    (henabled : Json.Fields.get? "enabled".toList fields = some (.bool false))
    (environment environment' : Environment) :
    (∃ e, resolveMerged merged environment = .error e ∧
      resolveMerged merged environment' = .error e) ∨
    ∃ settings other, resolveMerged merged environment = .ok settings ∧
      resolveMerged merged environment' = .ok other ∧ SameLines settings other := by
  have hfalse : boolField fields "enabled".toList true = false := by
    rw [boolField, henabled]
    rfl
  simp only [resolveMerged, sectionOf, hsection, resolveAi, hfalse, Bool.false_and]
  -- only the timeout can be refused, and it does not come from the environment
  cases resolveTimeout (Json.Fields.get? "timeoutMs".toList fields) with
  | error e => exact .inl ⟨e, rfl, rfl⟩
  | ok timeout => exact .inr ⟨_, _, rfl, rfl, rfl, rfl, rfl, rfl⟩

/-- With descriptions switched off, two environments give the same warnings, and the same error or
    settings that write the same lines. -/
theorem resolve_disabled (file : FileState) (inline : Json.Fields)
    (environment environment' : Environment) :
    (resolve ⟨file, inline, true, environment⟩).2 = (resolve ⟨file, inline, true, environment'⟩).2 ∧
    ((∃ e, (resolve ⟨file, inline, true, environment⟩).1 = .error e ∧
      (resolve ⟨file, inline, true, environment'⟩).1 = .error e) ∨
    ∃ settings other, (resolve ⟨file, inline, true, environment⟩).1 = .ok settings ∧
      (resolve ⟨file, inline, true, environment'⟩).1 = .ok other ∧ SameLines settings other) := by
  refine ⟨rfl, ?_⟩
  simp only [resolve]
  cases (loadFile file).1 with
  | error e => exact .inl ⟨e, rfl, rfl⟩
  | ok loaded =>
    obtain ⟨fields, hsection, henabled⟩ := mergeSources_disabled loaded inline
    exact resolveMerged_disabled hsection henabled environment environment'

/-! ### Enabled -/

theorem resolveKey_ne_nil {provider : Provider} {environment : Environment} {given key : RawText}
    (h : resolveKey provider environment given = some key) : key.text ≠ [] := by
  unfold resolveKey at h
  split at h
  · -- a variable that is empty counts as not set
    obtain ⟨name, -, hvalue⟩ := List.exists_of_findSome?_eq_some h
    simpa [RawText.isEmpty] using (Option.filter_eq_some_iff.1 hvalue).2
  next hgiven =>
    rw [← Option.some.inj h]
    simpa [RawText.isEmpty] using hgiven

theorem exists_of_map_ok {α β : Type} {f : α → β} {x : Except Error α} {b : β}
    (h : x.map f = .ok b) : ∃ a, x = .ok a ∧ f a = b := by
  cases x with
  | error e => cases h
  | ok a => exact ⟨a, rfl, Except.ok.inj h⟩

theorem error_of_map_error {α β : Type} {f : α → β} {x : Except Error α} {e : Error}
    (h : x.map f = .error e) : x = .error e := by
  cases x with
  | error e' => rw [Except.error.inj h]
  | ok a => cases h

theorem resolveAi_ok {fields : Json.Fields} {environment : Environment} {ai : AiSettings}
    (h : resolveAi fields environment = .ok ai) :
    ∃ provider : Provider, ai.provider = provider.name ∧
      (ai.enabled = true → ∃ key, ai.apiKey = some key ∧ key.text ≠ []) := by
  obtain ⟨timeout, -, rfl⟩ := exists_of_map_ok h
  refine ⟨_, rfl, fun henabled => ?_⟩
  obtain ⟨key, hkey⟩ := Option.isSome_iff_exists.1 (Bool.and_eq_true_iff.1 henabled).2
  exact ⟨key, hkey, resolveKey_ne_nil hkey⟩

/-- Resolved settings name a known service, and they have a key where descriptions are enabled. -/
theorem resolve_enabled {sources : Sources} {settings : Settings}
    (h : (resolve sources).1 = .ok settings) :
    ∃ provider : Provider, settings.ai.provider = provider.name ∧
      (settings.ai.enabled = true → ∃ key, settings.ai.apiKey = some key ∧ key.text ≠ []) := by
  change (loadFile sources.file).1.bind _ = .ok settings at h
  cases hfile : (loadFile sources.file).1 with
  | error e =>
    rw [hfile] at h
    cases h
  | ok file =>
    rw [hfile] at h
    obtain ⟨ai, hai, rfl⟩ := exists_of_map_ok h
    exact resolveAi_ok hai

end Config

namespace Describe

theorem isEnabled_eq_false {ai : AiSettings} (h : ai.enabled = false ∨ ai.apiKey = none) :
    isEnabled ai = false := by
  rcases h with h | h <;> simp [isEnabled, h]

/-- Settings that are not enabled, or have no key, ask no service. -/
theorem describer_eq_none {ai : AiSettings} (client : Client)
    (h : ai.enabled = false ∨ ai.apiKey = none) : describer client ai = .ok none := by
  rw [describer, isEnabled_eq_false h]
  rfl

theorem ofName?_name (provider : Provider) : Provider.ofName? provider.name = some provider := by
  cases provider <;> decide

theorem name_of_ofName? {name : Text} {provider : Provider}
    (h : Provider.ofName? name = some provider) : name = provider.name := by
  unfold Provider.ofName? at h
  split at h
  next hname => rw [hname, ← Option.some.inj h]
  next =>
    split at h
    next hname => rw [hname, ← Option.some.inj h]
    next => cases h

/-- Enabled settings ask their service, unless the timeout is too large a number of seconds. -/
theorem describer_eq {ai : AiSettings} {provider : Provider} {key : RawText} (client : Client)
    (henabled : ai.enabled = true) (hprovider : ai.provider = provider.name)
    (hkey : ai.apiKey = some key) (hne : key.text ≠ []) :
    describer client ai = if isTimeoutTooLarge ai.timeoutMs then .error .timeoutTooLarge
      else .ok (some ⟨provider, key, ai.model, ai.baseUrl, ai.timeoutMs, ai.promptTemplate,
        client⟩) := by
  have hasked : isEnabled ai = true := by simp [isEnabled, henabled, hkey, RawText.isEmpty, hne]
  simp only [describer, hasked, if_true, hprovider, ofName?_name, hkey, Option.getD_some]

end Describe

end DocAnnotator
