import DocAnnotator.Proofs.Config.Normal
import DocAnnotator.Proofs.Json.Keys

/-! ## The inline configuration beats the file

    Sources are merged in increasing precedence. So what the inline configuration gives, and can be
    used, is what is resolved, whatever the file holds; and what neither gives is the default.

    - `given`: the value of a field of a section.
    - `get?_section_of_given`: a field that the inline configuration gives reaches the settings.
    - `get?_section_of_neither`: a field that neither gives is missing there, or is the default.
    - `Names`: the service that a text names.
    - `Follows`, `Defaulted`: settings that follow a configuration, and that keep the defaults.
    - `resolve_inline_wins`: the whole statement, for any two files.
-/

namespace DocAnnotator.Config

/-! ### Fields of the merged configuration -/

/-- The value of a field of a section of a configuration. -/
def given (fields : Json.Fields) (name key : Text) : Option Json :=
  Json.valueAt? [name, key] (.obj fields)

theorem distinct_disableAiFields : disableAiFields.Distinct :=
  ⟨rfl, ⟨rfl, trivial, trivial⟩, trivial⟩

theorem get?_disableAiFields (name : Text) :
    disableAiFields.get? name =
      if "ai".toList = name then some (.obj [("enabled".toList, .bool false)]) else none := rfl

/-- The switch spares every field of a section but one. -/
theorem spares_disableAiFields {key : Text} (hkey : key ≠ "enabled".toList) (name : Text) :
    disableAiFields.Spares [name, key] := by
  by_cases hname : "ai".toList = name
  · have hsection : disableAiFields.get? name = some (.obj [("enabled".toList, .bool false)]) := by
      rw [get?_disableAiFields, if_pos hname]
    rw [Json.spares_cons_iff hsection]
    refine Json.spares_of_absent ?_ []
    exact if_neg hkey.symm
  · refine Json.spares_of_absent ?_ [key]
    rw [get?_disableAiFields, if_neg hname]

/-- A leaf of the inline configuration that the switch spares is a leaf of the merged one. -/
theorem leafAt_mergeSources {inline : Json.Fields} (hinline : inline.Distinct)
    {path : Json.KeyPath} {leaf : Json} (h : (Json.obj inline).LeafAt path leaf)
    (hspares : disableAiFields.Spares path) (file : Json.Fields) (disableAi : Bool) :
    (Json.obj (mergeSources file inline disableAi)).LeafAt path leaf := by
  have hmerged : (Json.obj (Json.merge (Json.merge defaults file) inline)).LeafAt path leaf :=
    (Json.leafAt_merge_iff hinline _ path leaf).2 (.inl h)
  cases disableAi with
  | false => exact hmerged
  | true =>
    exact (Json.leafAt_merge_iff distinct_disableAiFields _ path leaf).2 (.inr ⟨hmerged, hspares⟩)

/-- A leaf two levels down is a field of a section. -/
theorem get?_sectionOf_of_leafAt {merged : Json.Fields} {name key : Text} {leaf : Json}
    (h : (Json.obj merged).LeafAt [name, key] leaf) (fallback : Json.Fields) :
    (sectionOf merged name fallback).get? key = some leaf := by
  obtain ⟨value, hvalue, hleaf⟩ := Json.leafAt_cons.1 h
  rcases Json.isLeaf_or_obj value with hscalar | ⟨fields, rfl⟩
  · cases ((Json.leafAt_iff_of_isLeaf hscalar).1 hleaf).1
  · obtain ⟨inner, hinner, hpath⟩ := Json.leafAt_cons.1 hleaf
    obtain rfl := Option.some.inj hpath.1
    rw [sectionOf, hvalue]
    exact hinner

/-- A field that the inline configuration gives reaches the settings, whatever the file holds. -/
theorem get?_section_of_given {inline : Json.Fields} (hinline : inline.Distinct)
    {name key : Text} {leaf : Json} (hkey : key ≠ "enabled".toList) (hleaf : leaf.IsLeaf)
    (h : given inline name key = some leaf) (file : Json.Fields) (disableAi : Bool)
    (fallback : Json.Fields) :
    (sectionOf (mergeSources file inline disableAi) name fallback).get? key = some leaf :=
  get?_sectionOf_of_leafAt
    (leafAt_mergeSources hinline ⟨h, hleaf⟩ (spares_disableAiFields hkey name) file disableAi)
    fallback

/-- At the end of a path where no source gives anything, the merged configuration has what the
    defaults have, or nothing. -/
theorem valueAt?_mergeSources {file inline : Json.Fields} (hfile : file.Distinct)
    (hinline : inline.Distinct) {path : Json.KeyPath}
    (h : Json.valueAt? path (.obj file) = none) (h' : Json.valueAt? path (.obj inline) = none)
    (hswitch : Json.valueAt? path (.obj disableAiFields) = none) (disableAi : Bool) :
    let value := Json.valueAt? path (.obj (mergeSources file inline disableAi))
    value = none ∨ value = Json.valueAt? path (.obj defaults) := by
  have hstep {base override : Json.Fields} (hoverride : override.Distinct)
      (hnone : Json.valueAt? path (.obj override) = none)
      (hbase : Json.valueAt? path (.obj base) = none ∨
        Json.valueAt? path (.obj base) = Json.valueAt? path (.obj defaults)) :
      Json.valueAt? path (.obj (Json.merge base override)) = none ∨
        Json.valueAt? path (.obj (Json.merge base override)) =
          Json.valueAt? path (.obj defaults) := by
    rcases Json.valueAt?_merge_of_none hoverride base hnone with hgone | hsame
    · exact .inl hgone
    · rw [hsame]
      exact hbase
  have hmerged := hstep hinline h' (hstep hfile h (.inr rfl))
  cases disableAi with
  | false => exact hmerged
  | true => exact hstep distinct_disableAiFields hswitch hmerged

/-- Neither configuration gives the field of the section. -/
def Neither (inline file : Json.Fields) (name key : Text) : Prop :=
  given inline name key = none ∧ given file name key = none

/-- A field that neither configuration gives is missing in the merged section, or has its default
    there. -/
theorem get?_section_of_neither {file inline : Json.Fields} (hfile : file.Distinct)
    (hinline : inline.Distinct) {name key : Text} {fallback : Json.Fields}
    (hfallback : defaults.get? name = some (.obj fallback)) (hkey : key ≠ "enabled".toList)
    (h : Neither inline file name key) (disableAi : Bool) :
    let value := (sectionOf (mergeSources file inline disableAi) name fallback).get? key
    value = none ∨ value = fallback.get? key := by
  have hvalue := valueAt?_mergeSources hfile hinline h.2 h.1
    (spares_disableAiFields hkey name).absent disableAi
  have hdefault : Json.valueAt? [name, key] (.obj defaults) = fallback.get? key := by
    rw [Json.valueAt?_cons, hfallback, Option.bind_some, Json.valueAt?_singleton]
  unfold sectionOf
  split
  next fields hfields =>
    rw [hdefault, Json.valueAt?_cons, hfields, Option.bind_some, Json.valueAt?_singleton] at hvalue
    exact hvalue
  next => exact .inr rfl

/-- A truth value that neither configuration gives is missing in the merged one, or has its
    default there. -/
theorem boolField_of_neither {file inline : Json.Fields} (hfile : file.Distinct)
    (hinline : inline.Distinct) {key : Text} {b : Bool} (hkey : key ≠ "ai".toList)
    (h : file.get? key = none) (h' : inline.get? key = none)
    (hdefault : defaults.get? key = some (.bool b)) (disableAi : Bool) :
    boolField (mergeSources file inline disableAi) key b = b := by
  have hswitch : disableAiFields.get? key = none := by
    rw [get?_disableAiFields, if_neg hkey.symm]
  rw [← Json.valueAt?_singleton] at h h' hswitch hdefault
  have hvalue := valueAt?_mergeSources hfile hinline h h' hswitch disableAi
  rw [hdefault, Json.valueAt?_singleton] at hvalue
  unfold boolField
  rcases hvalue with hmissing | hsame
  · rw [hmissing]
    rfl
  · rw [hsame]
    rfl

/-! ### The service -/

/-- The service that a text names: the one of that name, without regard to case and to blanks
    around it, and the first one if there is none. -/
inductive Names (s : Text) : Provider → Prop
  | known {provider : Provider} (h : Text.lower (Text.trim s) = provider.name) : Names s provider
  | unknown (h : ∀ provider : Provider, Text.lower (Text.trim s) ≠ provider.name) :
      Names s .openai

/-- A text names exactly the service that it is taken for. -/
theorem names_iff {s : Text} {provider : Provider} :
    Names s provider ↔ coerceProvider (some (.str s)) = provider := by
  have hcoerce : coerceProvider (some (.str s)) =
      (Provider.ofName? (Text.lower (Text.trim s))).getD .openai := rfl
  rw [hcoerce]
  constructor
  · intro h
    cases h with
    | known hknown => rw [hknown, Describe.ofName?_name, Option.getD_some]
    | unknown hunknown =>
      cases hname : Provider.ofName? (Text.lower (Text.trim s)) with
      | none => rfl
      | some other => exact absurd (Describe.name_of_ofName? hname) (hunknown other)
  · intro h
    cases hname : Provider.ofName? (Text.lower (Text.trim s)) with
    | none =>
      rw [hname, Option.getD_none] at h
      subst h
      refine .unknown fun other hother => ?_
      rw [hother, Describe.ofName?_name] at hname
      cases hname
    | some other =>
      rw [hname, Option.getD_some] at h
      subst h
      exact .known (Describe.name_of_ofName? hname)

/-! ### Settings and their sources -/

/-- Settings follow a configuration: what it gives, and can be used, is what they hold. A model or
    an address counts together with the service that it is given for. -/
structure Follows (inline : Json.Fields) (settings : Settings) : Prop where
  description : ∀ s, given inline "template".toList "descriptionLine".toList = some (.str s) →
    settings.templates.description = s
  parameter : ∀ s, given inline "template".toList "paramLine".toList = some (.str s) →
    settings.templates.parameter = s
  returns : ∀ s, given inline "template".toList "returnsLine".toList = some (.str s) →
    settings.templates.returns = s
  includeReturns : ∀ b, inline.get? "includeReturnsWhenVoid".toList = some (.bool b) →
    settings.includeReturnsWhenVoid = b
  provider : ∀ s, given inline "ai".toList "provider".toList = some (.str s) →
    ∃ provider, Names s.text provider ∧ settings.ai.provider = provider.name
  prompt : ∀ s, given inline "ai".toList "promptTemplate".toList = some (.str s) → s.text ≠ [] →
    settings.ai.promptTemplate = s
  timeout : ∀ n, given inline "ai".toList "timeoutMs".toList = some (.num (.int n)) → 0 < n →
    settings.ai.timeoutMs = n
  key : ∀ s, given inline "ai".toList "apiKey".toList = some (.str s) → s.text ≠ [] →
    settings.ai.apiKey = some s
  model : ∀ s provider model, given inline "ai".toList "provider".toList = some (.str s) →
    Names s.text provider → given inline "ai".toList "model".toList = some (.str model) →
    model.text ≠ [] → settings.ai.model =
      if model = provider.other.defaultModel then .ofText provider.defaultModel else model
  baseUrl : ∀ s provider url, given inline "ai".toList "provider".toList = some (.str s) →
    Names s.text provider → given inline "ai".toList "baseUrl".toList = some (.str url) →
    url.text ≠ [] → settings.ai.baseUrl =
      if url = provider.other.defaultUrl then .ofText provider.defaultUrl else url

/-- Settings keep the defaults: a field that neither configuration gives has its default, which for
    a model and an address is that of the resolved service. -/
structure Defaulted (inline file : Json.Fields) (settings : Settings) : Prop where
  description : Neither inline file "template".toList "descriptionLine".toList →
    settings.templates.description = defaultTemplates.description
  parameter : Neither inline file "template".toList "paramLine".toList →
    settings.templates.parameter = defaultTemplates.parameter
  returns : Neither inline file "template".toList "returnsLine".toList →
    settings.templates.returns = defaultTemplates.returns
  includeReturns : inline.get? "includeReturnsWhenVoid".toList = none →
    file.get? "includeReturnsWhenVoid".toList = none → settings.includeReturnsWhenVoid = true
  prompt : Neither inline file "ai".toList "promptTemplate".toList →
    settings.ai.promptTemplate = defaultPrompt
  timeout : Neither inline file "ai".toList "timeoutMs".toList →
    settings.ai.timeoutMs = defaultTimeoutMs
  model : Neither inline file "ai".toList "model".toList →
    ∃ provider : Provider, settings.ai.provider = provider.name ∧
      settings.ai.model = provider.defaultModel
  baseUrl : Neither inline file "ai".toList "baseUrl".toList →
    ∃ provider : Provider, settings.ai.provider = provider.name ∧
      settings.ai.baseUrl = provider.defaultUrl

/-- Once the file is read, the settings are made of the merged configuration. -/
theorem resolve_of_loadFile {sources : Sources} {file : Json.Fields}
    (h : (loadFile sources.file).1 = .ok file) :
    (resolve sources).1 =
      resolveMerged (mergeSources file sources.inline sources.disableAi) sources.environment := by
  change (loadFile sources.file).1.bind _ = _
  rw [h]
  rfl

/-- The fields of a file have distinct keys. -/
theorem loadFile_distinct {file : FileState} {fields : Json.Fields}
    (h : (loadFile file).1 = .ok fields) : fields.Distinct := by
  unfold loadFile at h
  split at h
  · obtain rfl := Except.ok.inj h
    trivial
  · obtain rfl := Except.ok.inj h
    trivial
  next content =>
    split at h
    · obtain rfl := Except.ok.inj h
      trivial
    next text _ =>
      split at h
      next read hread =>
        obtain rfl := Except.ok.inj h
        exact Json.read_distinct hread
      · obtain rfl := Except.ok.inj h
        trivial
      · obtain rfl := Except.ok.inj h
        trivial
      · cases h

/-! ### Texts and settings of the service -/

theorem textField_of_get? {fields : Json.Fields} {key : Text} {s : RawText}
    (h : fields.get? key = some (.str s)) (fallback : RawText) :
    textField fields key fallback = s := by
  rw [textField, h]
  rfl

theorem textField_of_missing {fields : Json.Fields} {key : Text} (h : fields.get? key = none)
    (fallback : RawText) : textField fields key fallback = fallback := by
  rw [textField, h]
  rfl

/-- A setting of a service is the one that is given, or the default of the service where that is
    the default of the other one. -/
theorem providerSetting_of_ne_nil {given : RawText} (h : given.text ≠ []) (provider : Provider)
    (default : Provider → Text) :
    providerSetting provider default given =
      if given = default provider.other then .ofText (default provider) else given := by
  simp [providerSetting, RawText.isEmpty, h]

/-- A setting that is missing, or the default of the first service, gives the default of the
    resolved one. -/
theorem providerSetting_of_default {given : RawText} {default : Provider → Text}
    (h : given = .empty ∨ given = default .openai) (provider : Provider) :
    providerSetting provider default given = default provider := by
  unfold providerSetting
  rcases h with rfl | rfl
  · rfl
  · cases provider with
    | gemini => simp [Provider.other]
    | openai => split <;> rfl

/-! ### Following the inline configuration -/

section Follows

variable {sources : Sources} (hinline : sources.inline.Distinct) (file : Json.Fields)
include hinline

/-- A text that the inline configuration gives is the field of the merged section. -/
theorem textField_section {name key : Text} {s : RawText} (hkey : key ≠ "enabled".toList)
    (h : given sources.inline name key = some (.str s)) (fallback : Json.Fields)
    (other : RawText) :
    textField (sectionOf (mergeSources file sources.inline sources.disableAi) name fallback) key
      other = s :=
  textField_of_get? (get?_section_of_given hinline hkey (by rfl) h file sources.disableAi fallback) other

/-- The service that the inline configuration names is the one of the merged section. -/
theorem coerceProvider_section {s : RawText} {provider : Provider}
    (h : given sources.inline "ai".toList "provider".toList = some (.str s))
    (hnames : Names s.text provider) :
    coerceProvider ((sources.aiSection file).get? "provider".toList) = provider := by
  have hgiven : (sources.aiSection file).get? "provider".toList = some (.str s) :=
    get?_section_of_given hinline (by decide) (by rfl) h file sources.disableAi defaultAiSection
  rw [hgiven]
  exact names_iff.1 hnames

/-- A setting that the inline configuration gives together with a service. -/
theorem providerSetting_section {key : Text} {s value : RawText} {provider : Provider}
    (default : Provider → Text) (hkey : key ≠ "enabled".toList)
    (h : given sources.inline "ai".toList "provider".toList = some (.str s))
    (hnames : Names s.text provider)
    (hvalue : given sources.inline "ai".toList key = some (.str value)) (hne : value.text ≠ []) :
    providerSetting (coerceProvider ((sources.aiSection file).get? "provider".toList)) default
      (textField (sources.aiSection file) key .empty) =
      if value = default provider.other then .ofText (default provider) else value := by
  have htext : textField (sources.aiSection file) key .empty = value :=
    textField_section hinline file hkey hvalue defaultAiSection .empty
  rw [coerceProvider_section hinline file h hnames, htext, providerSetting_of_ne_nil hne]

/-- The truth value that the inline configuration gives is the one of the merged configuration. -/
theorem boolField_mergeSources {key : Text} {b : Bool} (hkey : key ≠ "ai".toList)
    (h : sources.inline.get? key = some (.bool b)) (other : Bool) :
    boolField (mergeSources file sources.inline sources.disableAi) key other = b := by
  have hleaf : (Json.obj sources.inline).LeafAt [key] (.bool b) :=
    Json.leafAt_cons.2 ⟨_, h, rfl, rfl⟩
  have hspares : disableAiFields.Spares [key] := by
    refine Json.spares_of_absent ?_ []
    rw [get?_disableAiFields, if_neg hkey.symm]
  obtain ⟨value, hvalue, hpath⟩ :=
    Json.leafAt_cons.1 (leafAt_mergeSources hinline hleaf hspares file sources.disableAi)
  obtain rfl := Option.some.inj hpath.1
  rw [boolField, hvalue]
  rfl

end Follows

/-- Settings that are resolved follow the inline configuration. -/
theorem follows_of_resolve {sources : Sources} {settings : Settings}
    (hinline : sources.inline.Distinct) (h : (resolve sources).1 = .ok settings) :
    Follows sources.inline settings := by
  obtain ⟨file, hfile, -⟩ := resolveAi_of_resolve h
  rw [resolve_of_loadFile hfile] at h
  obtain ⟨ai, hai, rfl⟩ := exists_of_map_ok h
  obtain ⟨timeout, htimeout, rfl⟩ := exists_of_map_ok hai
  refine ⟨?_, ?_, ?_, ?_, ?_, ?_, ?_, ?_, ?_, ?_⟩
  · intro s hs
    exact textField_section hinline file (by decide) hs _ _
  · intro s hs
    exact textField_section hinline file (by decide) hs _ _
  · intro s hs
    exact textField_section hinline file (by decide) hs _ _
  · intro b hb
    exact boolField_mergeSources hinline file (by decide) hb true
  · intro s hs
    have hnames : Names s.text (coerceProvider (some (.str s))) := names_iff.2 rfl
    exact ⟨_, hnames, congrArg Provider.name (coerceProvider_section hinline file hs hnames)⟩
  · intro s hs hne
    have hprompt : textField (sources.aiSection file) "promptTemplate".toList .empty = s :=
      textField_section hinline file (by decide) hs _ _
    show (if (textField (sources.aiSection file) _ .empty).isEmpty
      then (defaultPrompt : RawText) else _) = s
    rw [hprompt, if_neg (by simpa [RawText.isEmpty] using hne)]
    exact hprompt
  · intro n hn hpos
    have hgiven : (sources.aiSection file).get? "timeoutMs".toList = some (.num (.int n)) :=
      get?_section_of_given hinline (by decide) (by rfl) hn file sources.disableAi defaultAiSection
    have htaken : resolveTimeout (some (.num (.int n))) = .ok n := by
      rw [resolveTimeout, if_pos hpos]
    change resolveTimeout ((sources.aiSection file).get? _) = _ at htimeout
    rw [hgiven, htaken] at htimeout
    exact (Except.ok.inj htimeout).symm
  · intro s hs hne
    have hkey : textField (sources.aiSection file) "apiKey".toList .empty = s :=
      textField_section hinline file (by decide) hs _ _
    show resolveKey _ _ (textField (sources.aiSection file) _ .empty) = some s
    rw [hkey, resolveKey, if_neg (by simpa [RawText.isEmpty] using hne)]
  · intro s provider model hs hnames hmodel hne
    exact providerSetting_section hinline file _ (by decide) hs hnames hmodel hne
  · intro s provider url hs hnames hurl hne
    exact providerSetting_section hinline file _ (by decide) hs hnames hurl hne

/-! ### Keeping the defaults -/

/-- Settings that are resolved keep the defaults of what neither configuration gives. -/
theorem defaulted_of_resolve {sources : Sources} {settings : Settings} {file : Json.Fields}
    (hinline : sources.inline.Distinct) (hfile : (loadFile sources.file).1 = .ok file)
    (h : (resolve sources).1 = .ok settings) : Defaulted sources.inline file settings := by
  rw [resolve_of_loadFile hfile] at h
  obtain ⟨ai, hai, rfl⟩ := exists_of_map_ok h
  obtain ⟨timeout, htimeout, rfl⟩ := exists_of_map_ok hai
  have hdistinct := loadFile_distinct hfile
  -- a text of a section is its default, or its default stands in for it
  have htext {name key : Text} {s : RawText} {fallback : Json.Fields}
      (hkey : key ≠ "enabled".toList)
      (hfallback : defaults.get? name = some (.obj fallback))
      (hdefault : fallback.get? key = some (.str s)) (hneither : Neither sources.inline file name key)
      (instead : RawText) :
      let value := textField (sectionOf (mergeSources file sources.inline sources.disableAi) name
        fallback) key instead
      value = instead ∨ value = s := by
    rcases get?_section_of_neither hdistinct hinline hfallback hkey hneither sources.disableAi with
      hmissing | hsame
    · exact .inl (textField_of_missing hmissing instead)
    · exact .inr (textField_of_get? (hsame.trans hdefault) instead)
  refine ⟨?_, ?_, ?_, ?_, ?_, ?_, ?_, ?_⟩
  · intro hneither
    exact (htext (by decide) rfl rfl hneither _).elim id id
  · intro hneither
    exact (htext (by decide) rfl rfl hneither _).elim id id
  · intro hneither
    exact (htext (by decide) rfl rfl hneither _).elim id id
  · intro hnone hnone'
    exact boolField_of_neither hdistinct hinline (by decide) hnone' hnone rfl sources.disableAi
  · intro hneither
    show (if (textField _ _ .empty).isEmpty then (defaultPrompt : RawText)
      else textField _ _ .empty) = defaultPrompt
    rcases htext (by decide) rfl rfl hneither .empty with hmissing | hsame
    · rw [hmissing]
      exact if_pos rfl
    · rw [hsame, ite_self]
  · intro hneither
    rcases get?_section_of_neither hdistinct hinline rfl (by decide) hneither
      sources.disableAi with hmissing | hsame
    · rw [hmissing] at htimeout
      exact (Except.ok.inj htimeout).symm
    · rw [hsame] at htimeout
      exact (Except.ok.inj htimeout).symm
  · intro hneither
    exact ⟨_, rfl, providerSetting_of_default (htext (by decide) rfl rfl hneither .empty) _⟩
  · intro hneither
    exact ⟨_, rfl, providerSetting_of_default (htext (by decide) rfl rfl hneither .empty) _⟩

/-! ### The whole statement -/

/-- Whatever two files hold, with one inline configuration, environment and switch the settings
    follow the inline configuration in both cases; and what neither it nor the file gives has its
    default. -/
theorem resolve_inline_wins {inline : Json.Fields} (hinline : inline.Distinct)
    {environment : Environment} {disableAi : Bool} {file other : FileState}
    {settings settings' : Settings}
    (h : (resolve ⟨file, inline, disableAi, environment⟩).1 = .ok settings)
    (h' : (resolve ⟨other, inline, disableAi, environment⟩).1 = .ok settings') :
    Follows inline settings ∧ Follows inline settings' ∧
      (∀ fields, (loadFile file).1 = .ok fields → Defaulted inline fields settings) ∧
      ∀ fields, (loadFile other).1 = .ok fields → Defaulted inline fields settings' := by
  refine ⟨?_, ?_, ?_, ?_⟩
  · exact follows_of_resolve hinline h
  · exact follows_of_resolve hinline h'
  · intro fields hfields
    exact defaulted_of_resolve hinline hfields h
  · intro fields hfields
    exact defaulted_of_resolve hinline hfields h'

/-- A configuration that names a service, with a model that is the default of the other one. -/
def switching : Json.Fields :=
  [("template".toList, .obj [("paramLine".toList, .str "$\x7bname\x7d".toList)]),
    ("includeReturnsWhenVoid".toList, .bool false),
    ("ai".toList, .obj [("provider".toList, .str " Gemini".toList),
      ("model".toList, .str "gpt-4o-mini".toList), ("timeoutMs".toList, .num (.int 5)),
      ("promptTemplate".toList, .str "p".toList), ("apiKey".toList, .str "k".toList)])]

/-- A file that says otherwise, and whose template section is a number. -/
def contrary : Text :=
  "\x7b\"template\":3,\"ai\":\x7b\"model\":\"m\",\"timeoutMs\":7,\"baseUrl\":\"u\"\x7d\x7d".toList

/-- The settings that the two make, which differ in the address alone. -/
def switched (url : Text) : Settings :=
  { templates := { defaultTemplates with parameter := "$\x7bname\x7d".toList }
    includeReturnsWhenVoid := false
    ai :=
      { provider := Provider.gemini.name
        enabled := true
        model := Provider.gemini.defaultModel
        baseUrl := url
        timeoutMs := 5
        promptTemplate := "p".toList
        apiKey := some (.ofText "k".toList) } }

/-- With that file and without one, the inline service has its own default model and the inline
    timeout; the address is the file's, or the default one. -/
theorem resolve_inline_wins_switching :
    (resolve ⟨.regular (Utf8.encode contrary), switching, false, []⟩).1 =
        .ok (switched "u".toList) ∧
      (resolve ⟨.absent, switching, false, []⟩).1 = .ok (switched Provider.gemini.defaultUrl) ∧
      Follows switching (switched "u".toList) ∧
      Follows switching (switched Provider.gemini.defaultUrl) ∧
      Defaulted switching [] (switched Provider.gemini.defaultUrl) := by
  have hdistinct : switching.Distinct := by
    simp [switching, Json.Fields.Distinct, Json.Distinct, Json.Fields.get?]
  have hfile : (resolve ⟨.regular (Utf8.encode contrary), switching, false, []⟩).1 =
      .ok (switched "u".toList) := by
    decide +kernel
  have hnone : (resolve ⟨.absent, switching, false, []⟩).1 =
      .ok (switched Provider.gemini.defaultUrl) := by
    decide +kernel
  obtain ⟨hfollows, hfollows', -, hdefaulted⟩ := resolve_inline_wins hdistinct hfile hnone
  exact ⟨hfile, hnone, hfollows, hfollows', hdefaulted [] rfl⟩

end DocAnnotator.Config
