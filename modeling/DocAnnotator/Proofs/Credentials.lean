import DocAnnotator.Proofs.Config.Normal
import DocAnnotator.Proofs.Requests

/-! ## Keys stay with their service

    Of the environment, a run looks at the variables of its service only. So whatever the variables
    of the other service hold, it gives the same settings, requests, warnings and text.

    - `Environment.SameKey`: two environments agree on the variables of a service.
    - `resolve_sameKey`: the settings depend on the variables of their service.
    - `annotate_resolve`: a run sees of its sources what they resolve to.
    - `Request.Carries`: a request carries a key the way its service wants it.
    - `callsOf_carries`: a call is made by the service of the settings, with their key.
    - `annotate_credentials`: the whole statement.
-/

namespace DocAnnotator

namespace Config

/-! ### Environments that agree -/

/-- Two environments agree on the variables of a service, as far as they are looked at. A variable
    that is empty counts as not set. -/
def Environment.SameKey (environment environment' : Environment) : Provider → Prop
  | .openai =>
    environment.nonEmpty? "OPENAI_API_KEY".toList = environment'.nonEmpty? "OPENAI_API_KEY".toList
  | .gemini =>
    environment.nonEmpty? "GEMINI_API_KEY".toList = environment'.nonEmpty? "GEMINI_API_KEY".toList ∧
    (environment.nonEmpty? "GEMINI_API_KEY".toList = none →
      environment.nonEmpty? "GOOGLE_API_KEY".toList =
        environment'.nonEmpty? "GOOGLE_API_KEY".toList)

theorem resolveKey_sameKey {provider : Provider} {environment environment' : Environment}
    (h : environment.SameKey environment' provider) (given : RawText) :
    resolveKey provider environment given = resolveKey provider environment' given := by
  have hfound : provider.keyVariables.findSome? environment.nonEmpty? =
      provider.keyVariables.findSome? environment'.nonEmpty? := by
    cases provider with
    | openai =>
      have hopenai : environment.nonEmpty? _ = environment'.nonEmpty? _ := h
      simp only [Provider.keyVariables, List.findSome?_cons, List.findSome?_nil, hopenai]
    | gemini =>
      obtain ⟨hgemini, hgoogle⟩ := h
      simp only [Provider.keyVariables, List.findSome?_cons, ← hgemini]
      -- the second variable is looked at only where the first one is not set
      cases hfirst : environment.nonEmpty? "GEMINI_API_KEY".toList with
      | some key => rfl
      | none => simp only [List.findSome?_nil, hgoogle hfirst]
  rw [resolveKey, resolveKey, hfound]

/-- Environments that agree on the variables of the service resolve a section alike. -/
theorem resolveAi_sameKey {fields : Json.Fields} {environment environment' : Environment}
    (hagree : ∀ ai provider, resolveAi fields environment = .ok ai → ai.provider = provider.name →
      environment.SameKey environment' provider) :
    resolveAi fields environment' = resolveAi fields environment := by
  unfold resolveAi at hagree ⊢
  cases htimeout : resolveTimeout (fields.get? "timeoutMs".toList) with
  | error e => rfl
  | ok timeout =>
    rw [htimeout] at hagree
    have hsame := hagree _ _ rfl rfl
    simp only [resolveKey_sameKey hsame]

/-- Environments that agree on the variables of the service resolve to the same settings. -/
theorem resolve_sameKey {sources : Sources} {environment' : Environment}
    (hagree : ∀ settings provider, (resolve sources).1 = .ok settings →
      settings.ai.provider = provider.name → sources.environment.SameKey environment' provider) :
    resolve { sources with environment := environment' } = resolve sources := by
  refine Prod.ext ?_ rfl
  show (loadFile sources.file).1.bind _ = (loadFile sources.file).1.bind _
  cases hfile : (loadFile sources.file).1 with
  | error e => rfl
  | ok file =>
    show resolveMerged _ environment' = resolveMerged _ sources.environment
    have hsection : resolveAi (sources.aiSection file) environment' =
        resolveAi (sources.aiSection file) sources.environment := by
      apply resolveAi_sameKey
      intro ai provider hai hnamed
      have hresolved := resolve_ai sources
      rw [hfile] at hresolved
      obtain ⟨settings, hsettings, rfl⟩ := exists_of_map_ok (hresolved.trans hai)
      exact hagree settings provider hsettings hnamed
    unfold resolveMerged
    simp only
    rw [show resolveAi (sectionOf _ "ai".toList defaultAiSection) environment' = _ from hsection]
    rfl

/-! ### Keys from the environment -/

/-- No key is configured: it is missing or empty, or no text. -/
def Sources.Keyless (sources : Sources) : Prop :=
  ∀ file, (loadFile sources.file).1 = .ok file →
    (textField (sources.aiSection file) "apiKey".toList .empty).isEmpty

theorem resolveAi_key {fields : Json.Fields} {environment : Environment} {ai : AiSettings}
    (h : resolveAi fields environment = .ok ai) :
    ∃ provider, ai.provider = Provider.name provider ∧
      ai.apiKey = resolveKey provider environment (textField fields "apiKey".toList .empty) := by
  obtain ⟨timeout, -, rfl⟩ := exists_of_map_ok h
  exact ⟨_, rfl, rfl⟩

theorem name_injective {provider provider' : Provider} (h : provider.name = provider'.name) :
    provider = provider' := by
  apply Option.some.inj
  rw [← Describe.ofName?_name provider, h, Describe.ofName?_name]

/-- Where no key is configured, the key is the value of a variable of the service. -/
theorem resolve_keyless {sources : Sources} {settings : Settings} {provider : Provider}
    {key : RawText} (hkeyless : sources.Keyless) (h : (resolve sources).1 = .ok settings)
    (hnamed : settings.ai.provider = provider.name) (hkey : settings.ai.apiKey = some key) :
    ∃ name ∈ provider.keyVariables, sources.environment.nonEmpty? name = some key := by
  obtain ⟨file, hfile, hai⟩ := resolveAi_of_resolve h
  obtain ⟨resolved, hresolved, hgiven⟩ := resolveAi_key hai
  obtain rfl := name_injective (hnamed.symm.trans hresolved)
  rw [hgiven, resolveKey, if_pos (hkeyless file hfile)] at hkey
  exact List.exists_of_findSome?_eq_some hkey

end Config

/-! ### Requests -/

/-- A request carries a key the way its service wants it, and no other key. -/
def Request.Carries (request : Request) (key : RawText) : Provider → Prop
  | .openai => request.authorization = some (.ofText "Bearer ".toList ++ key) ∧ request.key = none
  | .gemini => request.key = some key ∧ request.authorization = none

theorem Describe.carries_request (d : Describer) (prompt : RawText) :
    (request d prompt).Carries d.key d.provider := by
  unfold request
  split
  next hopenai =>
    rw [hopenai]
    exact ⟨rfl, rfl⟩
  next hgemini =>
    rw [hgemini]
    exact ⟨rfl, rfl⟩

/-- Every call about a target carries the key of the service that is asked. -/
theorem Describe.carries_of_call? {describer : Option Describer} {target : Target}
    {call : Request} (h : call? describer target = some call) :
    ∃ d, describer = some d ∧ call.Carries d.key d.provider := by
  obtain ⟨d, rfl, hcall⟩ := Option.bind_eq_some_iff.1 h
  split at hcall
  · cases hcall
  · obtain rfl := Option.some.inj hcall
    exact ⟨d, rfl, carries_request d _⟩

/-- Every call of a run is made by the service of the settings, and carries their key. -/
theorem callsOf_carries {grammar : Grammar} {options : Options} {id code : Text} {call : Request}
    (h : call ∈ callsOf grammar options id code) :
    ∃ settings provider key, (Config.resolve options.sources).1 = .ok settings ∧
      settings.ai.provider = provider.name ∧ settings.ai.apiKey = some key ∧
      call.Carries key provider := by
  unfold callsOf at h
  split at h
  next plan hplan =>
    obtain ⟨target, -, hcall⟩ := List.mem_filterMap.1 h
    obtain ⟨d, hd, hcarries⟩ := Describe.carries_of_call? hcall
    obtain ⟨hsettings, hservice, -, -, -, -⟩ := prepare_some hplan
    obtain ⟨provider, hnormal, -⟩ := Config.exists_normal hsettings
    rw [hd] at hservice
    rcases Config.describer_of_normal options.client hnormal with
      ⟨-, hnone⟩ | ⟨key, -, hkey, hsome⟩
    · cases hnone.symm.trans hservice
    · rw [hsome] at hservice
      split at hservice
      · cases hservice
      · obtain rfl := Option.some.inj (Except.ok.inj hservice)
        exact ⟨plan.settings, provider, key, hsettings, hnormal.named, hkey, hcarries⟩
  next => cases h

/-- So does every request: the client makes none of its own. -/
theorem requestsOf_carries {grammar : Grammar} {options : Options} {id code : Text}
    {request : Request} (h : request ∈ requestsOf grammar options id code) :
    ∃ settings provider key, (Config.resolve options.sources).1 = .ok settings ∧
      settings.ai.provider = provider.name ∧ settings.ai.apiKey = some key ∧
      request.Carries key provider :=
  callsOf_carries ((options.client.requests_sublist _).subset h)

/-! ### Runs -/

/-- A run sees of its sources what they resolve to. -/
theorem annotate_resolve {sources sources' : Config.Sources}
    (h : Config.resolve sources' = Config.resolve sources) (grammar : Grammar)
    (oracle : OracleSource) (client : Client) (id code : Text) (session : Session) :
    annotate grammar ⟨sources', oracle, client⟩ id code session =
      annotate grammar ⟨sources, oracle, client⟩ id code session := by
  unfold annotate prepare
  rw [h]

/-- Two environments that agree on the variables of the resolved service give the same settings, and
    the same run for any script, oracle, client and answers. Where no key is configured, every request
    carries the value of a variable of that service, and no other key. -/
theorem annotate_credentials {sources : Config.Sources} {environment' : Config.Environment}
    (hagree : ∀ settings provider, (Config.resolve sources).1 = .ok settings →
      settings.ai.provider = provider.name → sources.environment.SameKey environment' provider) :
    Config.resolve { sources with environment := environment' } = Config.resolve sources ∧
    ∀ grammar oracle client id code session,
      annotate grammar ⟨{ sources with environment := environment' }, oracle, client⟩ id code
          session = annotate grammar ⟨sources, oracle, client⟩ id code session ∧
      ∃ requests, (annotate grammar ⟨sources, oracle, client⟩ id code session).2.requests =
          session.requests ++ requests ∧
        (sources.Keyless → ∀ request ∈ requests,
          ∃ settings provider, ∃ name ∈ provider.keyVariables, ∃ key,
            (Config.resolve sources).1 = .ok settings ∧
              settings.ai.provider = provider.name ∧
              sources.environment.nonEmpty? name = some key ∧ request.Carries key provider) := by
  have hresolve := Config.resolve_sameKey hagree
  refine ⟨hresolve, ?_⟩
  intro grammar oracle client id code session
  refine ⟨annotate_resolve hresolve grammar oracle client id code session, _,
    annotate_requests grammar ⟨sources, oracle, client⟩ id code session, ?_⟩
  intro hkeyless request hrequest
  obtain ⟨settings, provider, key, hsettings, hnamed, hkey, hcarries⟩ := requestsOf_carries hrequest
  obtain ⟨name, hname, hvalue⟩ := Config.resolve_keyless hkeyless hsettings hnamed hkey
  exact ⟨settings, provider, name, hname, key, hsettings, hnamed, hvalue, hcarries⟩

/-! ### The component, with keys for both services -/

/-- Sources that name the second service, with keys for both. -/
def sharedSources (openaiKey : RawText) : Config.Sources :=
  { file := .absent
    inline := [("ai".toList, .obj [("provider".toList, .str Provider.gemini.name)])]
    disableAi := false
    environment := [("OPENAI_API_KEY".toList, openaiKey),
      ("GOOGLE_API_KEY".toList, .ofText "g".toList)] }

theorem sharedSources_sameKey (openaiKey openaiKey' : RawText) {settings : Settings}
    {provider : Provider} (h : (Config.resolve (sharedSources openaiKey)).1 = .ok settings)
    (hnamed : settings.ai.provider = provider.name) :
    (sharedSources openaiKey).environment.SameKey (sharedSources openaiKey').environment
      provider := by
  obtain rfl := Except.ok.inj h
  obtain rfl : Provider.gemini = provider := Config.name_injective hnamed
  exact ⟨rfl, fun _ => rfl⟩

theorem sharedSources_key {openaiKey key : RawText} {name : Text}
    (hname : name ∈ Provider.gemini.keyVariables)
    (h : (sharedSources openaiKey).environment.nonEmpty? name = some key) :
    key = .ofText "g".toList := by
  rcases List.mem_cons.1 hname with rfl | hname
  · cases h
  · obtain rfl := List.mem_singleton.1 hname
    exact (Option.some.inj h).symm

/-- The component is asked about with the second service's key, whatever the first one's is. -/
theorem annotate_credentials_component :
    (∀ settings provider, (Config.resolve (sharedSources "a".toList)).1 = .ok settings →
      settings.ai.provider = provider.name →
      (sharedSources "a".toList).environment.SameKey (sharedSources "b".toList).environment
        provider) ∧
    annotate componentGrammar ⟨sharedSources "b".toList, .none, .sending⟩ "a.vue".toList component
        ⟨[], [], []⟩ =
      annotate componentGrammar ⟨sharedSources "a".toList, .none, .sending⟩ "a.vue".toList component
        ⟨[], [], []⟩ ∧
    ∃ request, (annotate componentGrammar ⟨sharedSources "a".toList, .none, .sending⟩
        "a.vue".toList component ⟨[], [], []⟩).2.requests = [request] ∧
      request.Carries "g".toList .gemini := by
  have hagree (settings : Settings) (provider : Provider) :=
    @sharedSources_sameKey "a".toList "b".toList settings provider
  obtain ⟨hsame, requests, hrequests, hcarry⟩ := (annotate_credentials hagree).2 componentGrammar
    .none .sending "a.vue".toList component ⟨[], [], []⟩
  refine ⟨hagree, hsame, ?_⟩
  -- one function, so one call, and it is sent
  obtain ⟨hasks, -⟩ := callsOf_asks
    (show (Config.resolve (Options.mk (sharedSources "a".toList) .none .sending).sources).1 = .ok _
      from rfl)
    rfl (by decide) (by decide +kernel) componentGrammar "a.vue".toList component
  have hlength := hasks.length_eq
  rw [length_inferredOf_component] at hlength
  obtain ⟨request, hone⟩ := List.length_eq_one_iff.1 hlength.symm
  rw [annotate_requests, requestsOf, Client.requests_eq_self fun _ _ => rfl, hone] at hrequests ⊢
  obtain rfl : [request] = requests := hrequests
  refine ⟨request, rfl, ?_⟩
  have hkeyless : (sharedSources "a".toList).Keyless := by
    intro file hfile
    obtain rfl := Except.ok.inj hfile
    rfl
  obtain ⟨settings, provider, name, hname, key, hsettings, hnamed, hvalue, hcarries⟩ :=
    hcarry hkeyless request (List.mem_singleton_self _)
  obtain rfl := Except.ok.inj hsettings
  obtain rfl : Provider.gemini = provider := Config.name_injective hnamed
  obtain rfl := sharedSources_key hname hvalue
  exact hcarries

end DocAnnotator
