import DocAnnotator.Proofs.Config.Service

/-! ## The normal form of resolved settings

    Whatever sections and fields the sources miss or give with a wrong type, the resolved settings
    name a known service, have a model, an address and a prompt for it, and are enabled only with a
    key. So the service that they ask for exists.

    - `AiSettings.Normal`: the normal form.
    - `providerSetting_ne`: a setting of a service is neither empty nor the other service's default.
    - `aiSection_disabled`: the switch leaves nothing enabled.
    - `describer_of_normal`: the service that settings in normal form ask.
    - `resolve_normal`: resolved settings are in normal form.
-/

namespace DocAnnotator

/-- Settings that a service can be asked with. -/
structure AiSettings.Normal (ai : AiSettings) (provider : Provider) : Prop where
  named : ai.provider = provider.name
  model : ai.model.text ≠ [] ∧ ai.model ≠ provider.other.defaultModel
  baseUrl : ai.baseUrl.text ≠ [] ∧ ai.baseUrl ≠ provider.other.defaultUrl
  prompt : ai.promptTemplate.text ≠ []
  key : ∀ key, ai.apiKey = some key → key.text ≠ []
  enabled : ai.enabled = true → ∃ key, ai.apiKey = some key

namespace Config

/-! ### Fields -/

/-- A service's own default serves where the given setting does not. -/
theorem providerSetting_ne {provider : Provider} {default : Provider → Text}
    (hdefault : default provider ≠ [] ∧ default provider ≠ default provider.other)
    (given : RawText) :
    (providerSetting provider default given).text ≠ [] ∧
      providerSetting provider default given ≠ default provider.other := by
  unfold providerSetting
  by_cases hgiven : given.isEmpty || given = default provider.other
  · rw [if_pos hgiven]
    exact ⟨hdefault.1, fun hsame => hdefault.2 (congrArg RawText.text hsame)⟩
  · rw [if_neg hgiven]
    simpa [RawText.isEmpty] using hgiven

theorem defaultModel_ne (provider : Provider) : provider.defaultModel ≠ [] ∧
    provider.defaultModel ≠ provider.other.defaultModel := by
  cases provider <;> decide

theorem defaultUrl_ne (provider : Provider) : provider.defaultUrl ≠ [] ∧
    provider.defaultUrl ≠ provider.other.defaultUrl := by
  cases provider <;> decide

theorem defaultPrompt_ne_nil : defaultPrompt ≠ [] := by
  unfold defaultPrompt
  rw [String.toList_append]
  intro hnil
  exact absurd (List.append_eq_nil_iff.1 hnil).2 (by decide)

/-- Settings that are resolved from any section are in normal form, and enabled only where the
    section does not say otherwise. -/
theorem resolveAi_normal {fields : Json.Fields} {environment : Environment} {ai : AiSettings}
    (h : resolveAi fields environment = .ok ai) :
    ∃ provider, ai.Normal provider ∧
      (ai.enabled = true → boolField fields "enabled".toList true = true) := by
  obtain ⟨timeout, -, rfl⟩ := exists_of_map_ok h
  refine ⟨_, ⟨rfl, providerSetting_ne (defaultModel_ne _) _,
    providerSetting_ne (defaultUrl_ne _) _, ?_, ?_, ?_⟩, ?_⟩
  · show (if _ then (defaultPrompt : RawText) else _).text ≠ []
    by_cases hprompt : (textField fields "promptTemplate".toList .empty).isEmpty = true
    · rw [if_pos hprompt]
      rw [RawText.text_ofText]
      exact defaultPrompt_ne_nil
    · rw [if_neg hprompt]
      exact fun hnil => hprompt (List.isEmpty_iff.2 hnil)
  · intro key hkey
    exact resolveKey_ne_nil hkey
  · intro henabled
    exact Option.isSome_iff_exists.1 (Bool.and_eq_true_iff.1 henabled).2
  · intro henabled
    exact (Bool.and_eq_true_iff.1 henabled).1

/-- With the switch on, the merged section says that descriptions are not enabled. -/
theorem aiSection_disabled {sources : Sources} (h : sources.disableAi = true)
    (file : Json.Fields) :
    boolField (sources.aiSection file) "enabled".toList true = false := by
  obtain ⟨fields, hsection, hdisabled⟩ := mergeSources_disabled file sources.inline
  have hfields : sources.aiSection file = fields := by
    unfold Sources.aiSection sectionOf
    rw [h, hsection]
  rw [hfields, boolField, hdisabled]
  rfl

/-! ### The service -/

/-- Settings in normal form ask their service where they are enabled and no service otherwise. Only
    a timeout that is too large is an error. -/
theorem describer_of_normal {ai : AiSettings} {provider : Provider} (client : Client)
    (h : ai.Normal provider) :
    (ai.enabled = false ∧ Describe.describer client ai = .ok none) ∨
    ∃ key, ai.enabled = true ∧ ai.apiKey = some key ∧
      Describe.describer client ai =
        if Describe.isTimeoutTooLarge ai.timeoutMs then .error .timeoutTooLarge
        else .ok (some ⟨provider, key, ai.model, ai.baseUrl, ai.timeoutMs, ai.promptTemplate,
          client⟩) := by
  cases henabled : ai.enabled with
  | false => exact .inl ⟨rfl, Describe.describer_eq_none client (.inl henabled)⟩
  | true =>
    obtain ⟨key, hkey⟩ := h.enabled henabled
    exact .inr ⟨key, rfl, hkey,
      Describe.describer_eq client henabled h.named hkey (h.key key hkey)⟩

theorem describer_ne_unknown {ai : AiSettings} {provider : Provider} (h : ai.Normal provider)
    (client : Client) (name : Text) :
    Describe.describer client ai ≠ .error (.unknownProvider name) := by
  intro hunknown
  rcases describer_of_normal client h with ⟨-, hnone⟩ | ⟨key, -, -, hservice⟩
  · rw [hnone] at hunknown
    cases hunknown
  · rw [hservice] at hunknown
    split at hunknown <;> cases hunknown

/-! ### The whole statement -/

/-- Resolved settings are in normal form, and not enabled where the switch turns them off. -/
theorem exists_normal {sources : Sources} {settings : Settings}
    (h : (resolve sources).1 = .ok settings) :
    ∃ provider, settings.ai.Normal provider ∧
      (settings.ai.enabled = true → sources.disableAi = false) := by
  obtain ⟨file, -, hai⟩ := resolveAi_of_resolve h
  obtain ⟨provider, hnormal, henabled⟩ := resolveAi_normal hai
  refine ⟨provider, hnormal, ?_⟩
  intro hon
  cases hswitch : sources.disableAi with
  | false => rfl
  | true => cases (henabled hon).symm.trans (aiSection_disabled hswitch file)

/-- Resolved settings are in normal form, are not enabled where the switch turns them off, and name
    a service that exists. -/
theorem resolve_normal {sources : Sources} {settings : Settings}
    (h : (resolve sources).1 = .ok settings) :
    ∃ provider, settings.ai.Normal provider ∧
      (settings.ai.enabled = true → sources.disableAi = false) ∧
      Provider.ofName? settings.ai.provider = some provider ∧
      ∀ client name, Describe.describer client settings.ai ≠ .error (.unknownProvider name) := by
  obtain ⟨provider, hnormal, hswitch⟩ := exists_normal h
  refine ⟨provider, hnormal, hswitch, ?_, describer_ne_unknown hnormal⟩
  rw [hnormal.named]
  exact Describe.ofName?_name provider

/-- A configuration of wrong types, with a key for the service that it names in capitals. -/
def brokenSources : Sources :=
  { file := .absent
    inline :=
      [("template".toList, .arr []),
        ("includeReturnsWhenVoid".toList, .null),
        ("ai".toList, .obj
          [("provider".toList, .str " GEMINI".toList),
            ("model".toList, .str Provider.openai.defaultModel),
            ("baseUrl".toList, .bool true),
            ("promptTemplate".toList, .str .empty),
            ("apiKey".toList, .num (.int 7)),
            ("enabled".toList, .str "no".toList)])]
    disableAi := false
    environment :=
      [("GEMINI_API_KEY".toList, .empty), ("GOOGLE_API_KEY".toList, "secret".toList)] }

/-- Such a configuration still resolves to enabled settings of the service. -/
theorem resolve_normal_broken :
    ∃ settings, (resolve brokenSources).1 = .ok settings ∧ settings.ai.enabled = true ∧
      ∃ provider, settings.ai.Normal provider ∧
        Provider.ofName? settings.ai.provider = some provider := by
  obtain ⟨provider, hnormal, -, hnamed, -⟩ :=
    resolve_normal (show (resolve brokenSources).1 = .ok _ from rfl)
  exact ⟨_, rfl, rfl, provider, hnormal, hnamed⟩

end Config

end DocAnnotator
