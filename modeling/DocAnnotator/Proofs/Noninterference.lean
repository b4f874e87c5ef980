import DocAnnotator.Proofs.Comment.Outline
import DocAnnotator.Proofs.Requests

/-! ## Noninterference

    What the outside world can change about a run: nothing where descriptions are switched off, and
    otherwise only what stands in the places for a description.

    - `annotate_of_sameLines`: runs that ask no service and write the same lines end alike.
    - `annotate_switched_off`: the environment and the answers in store change nothing where
      descriptions are switched off, and nothing is requested then, or without a key.
    - `writtenOf`: what a run writes about each target, before it is laid out.
    - `Plan.written_sameOutline`: runs with different answers fill the same outlines.
    - `annotate_description_only`: an answer goes only where a template has a place for it.
-/

namespace DocAnnotator

/-! ### Runs without a service -/

section NoService

variable {grammar : Grammar} {options : Options} {id code : Text} {settings : Settings}

/-- Without a service the plan of a run has none. -/
theorem prepare_of_no_service (hsettings : (Config.resolve options.sources).1 = .ok settings)
    (hservice : Describe.describer options.client settings.ai = .ok none) (grammar : Grammar)
    (id code : Text) :
    (inferredOf grammar options id code = [] ∧ (prepare grammar options id code).1 = .ok none) ∨
    ∃ range, ScriptRange.extract? code (Identifier.dialect id) = some range ∧
      inferredOf grammar options id code ≠ [] ∧
      (prepare grammar options id code).1 =
        .ok (some (planOf grammar options.oracle settings range none)) := by
  rcases prepare_cases hsettings grammar id code with h | ⟨range, hrange, hne, hprepare⟩
  · exact .inl h
  · rw [hservice] at hprepare
    exact .inr ⟨range, hrange, hne, hprepare⟩

theorem callsOf_of_no_service (hsettings : (Config.resolve options.sources).1 = .ok settings)
    (hservice : Describe.describer options.client settings.ai = .ok none) (grammar : Grammar)
    (id code : Text) : callsOf grammar options id code = [] := by
  rcases prepare_of_no_service hsettings hservice grammar id code with
    ⟨-, hprepare⟩ | ⟨range, -, -, hprepare⟩
  · rw [callsOf, hprepare]
  · rw [callsOf, hprepare]
    exact List.filterMap_eq_nil_iff.2 fun target _ => rfl

theorem requestsOf_of_no_service (hsettings : (Config.resolve options.sources).1 = .ok settings)
    (hservice : Describe.describer options.client settings.ai = .ok none) (grammar : Grammar)
    (id code : Text) : requestsOf grammar options id code = [] := by
  rw [requestsOf, callsOf_of_no_service hsettings hservice]
  rfl

theorem stopOf_of_no_service (hsettings : (Config.resolve options.sources).1 = .ok settings)
    (hservice : Describe.describer options.client settings.ai = .ok none) (grammar : Grammar)
    (id code : Text) : stopOf grammar options id code = none := by
  rw [stopOf, callsOf_of_no_service hsettings hservice]
  rfl

/-- Without a service a comment is the same for all answers and all settings that write the same
    lines. -/
theorem planOf_answered {other : Settings} (hsame : Config.SameLines settings other)
    (grammar : Grammar) (oracle : OracleSource) (range : ScriptRange) (target : Target)
    (a b : Answer) :
    (planOf grammar oracle settings range none).answered target a =
      (planOf grammar oracle other range none).answered target b := by
  simp only [Plan.answered, Plan.insertion, Describe.told, planOf, hsame.templates,
    hsame.includeReturns]

theorem inferredOf_congr {other : Options} (h : options.oracle = other.oracle) (grammar : Grammar)
    (id code : Text) : inferredOf grammar options id code = inferredOf grammar other id code := by
  unfold inferredOf
  rw [h]

/-- Two runs with one oracle that ask no service and write the same lines end alike. -/
theorem annotate_of_sameLines {other : Options} {settings' : Settings}
    (horacle : options.oracle = other.oracle)
    (hsettings : (Config.resolve options.sources).1 = .ok settings)
    (hsettings' : (Config.resolve other.sources).1 = .ok settings')
    (hsame : Config.SameLines settings settings') (grammar : Grammar) (id code : Text)
    (session session' : Session) :
    (annotate grammar options id code session).1 = (annotate grammar other id code session').1 := by
  have hservice := Describe.describer_eq_none options.client (.inl hsame.disabled)
  have hservice' := Describe.describer_eq_none other.client (.inl hsame.disabled')
  have hinferred := inferredOf_congr horacle grammar id code
  rw [annotate_text, annotate_text, insertionsOf_eq, insertionsOf_eq,
    stopOf_of_no_service hsettings hservice, stopOf_of_no_service hsettings' hservice']
  rcases prepare_of_no_service hsettings hservice grammar id code with
    ⟨hnil, hprepare⟩ | ⟨range, hrange, hne, hprepare⟩
  · rcases prepare_of_no_service hsettings' hservice' grammar id code with
      ⟨-, hprepare'⟩ | ⟨-, -, hne', -⟩
    · rw [hprepare, hprepare']
    · exact absurd (hinferred ▸ hnil) hne'
  · rcases prepare_of_no_service hsettings' hservice' grammar id code with
      ⟨hnil', -⟩ | ⟨range', hrange', -, hprepare'⟩
    · exact absurd (hinferred ▸ hnil') hne
    · obtain rfl := Option.some.inj (hrange.symm.trans hrange')
      rw [hprepare, hprepare', ← horacle]
      -- both plans are for one script, so only the comments have to be compared
      refine congrArg (Plan.finish (planOf grammar options.oracle settings range none) code) ?_
      refine List.ext_getElem (by simp [planOf, Plan.length_deal]) fun i hi hi' => ?_
      simp only [Bool.false_eq_true, if_false, Option.isSome_none, List.getElem_zipWith]
      exact planOf_answered hsame grammar options.oracle range _ _ _

end NoService

/-- The switch leaves nothing to request, whatever else is configured. -/
theorem requestsOf_switched_off (grammar : Grammar) (oracle : OracleSource) (file : FileState)
    (inline : Json.Fields) (environment : Config.Environment) (client : Client)
    (id code : Text) :
    requestsOf grammar ⟨⟨file, inline, true, environment⟩, oracle, client⟩ id code = [] := by
  rcases (Config.resolve_disabled file inline environment environment).2 with
    ⟨e, he, -⟩ | ⟨settings, _, hsettings, -, hsame⟩
  · rw [requestsOf, callsOf, prepare_refused he]
    rfl
  · exact requestsOf_of_no_service hsettings
      (Describe.describer_eq_none client (.inl hsame.disabled)) grammar id code

/-- With descriptions switched off a run makes no request, and neither the environment nor the
    client nor the answers in store change how it ends. Without a key it makes no request either. -/
theorem annotate_switched_off (grammar : Grammar) (oracle : OracleSource) (file : FileState)
    (inline : Json.Fields) (environment environment' : Config.Environment)
    (client client' : Client) (id code : Text) (session session' : Session) :
    ((annotate grammar ⟨⟨file, inline, true, environment⟩, oracle, client⟩ id code session).1 =
        (annotate grammar ⟨⟨file, inline, true, environment'⟩, oracle, client'⟩ id code
          session').1 ∧
      (annotate grammar ⟨⟨file, inline, true, environment⟩, oracle, client⟩ id code
        session).2.requests = session.requests ∧
      (annotate grammar ⟨⟨file, inline, true, environment'⟩, oracle, client'⟩ id code
        session').2.requests = session'.requests) ∧
    ∀ (options : Options) (settings : Settings),
      (Config.resolve options.sources).1 = .ok settings → settings.ai.apiKey = none →
      (annotate grammar options id code session).2.requests = session.requests := by
  refine ⟨⟨?_, ?_, ?_⟩, ?_⟩
  · rcases (Config.resolve_disabled file inline environment environment').2 with
      ⟨e, he, he'⟩ | ⟨settings, settings', hsettings, hsettings', hsame⟩
    · rw [annotate_of_refused he, annotate_of_refused he']
    · apply annotate_of_sameLines _ hsettings hsettings' hsame
      rfl
  · rw [annotate_requests, requestsOf_switched_off, List.append_nil]
  · rw [annotate_requests, requestsOf_switched_off, List.append_nil]
  · intro options settings hsettings hkey
    have hservice := Describe.describer_eq_none options.client (.inr hkey)
    rw [annotate_requests, requestsOf_of_no_service hsettings hservice, List.append_nil]

/-- A configuration that enables descriptions and gives a key for them. -/
def keyedFields : Json.Fields :=
  [("ai".toList, .obj [("enabled".toList, .bool true), ("apiKey".toList, .str "k".toList)])]

/-- Options that leave descriptions enabled and give no key. -/
def keylessOptions : Options := ⟨⟨.absent, [], false, []⟩, .none, .sending⟩

/-- The component with descriptions switched off, in two environments and with two stores of
    answers, and without a key. -/
theorem annotate_switched_off_component :
    (annotate componentGrammar ⟨⟨.absent, keyedFields, true, []⟩, .none, .sending⟩
        "a.vue".toList component ⟨[], [], []⟩).1 =
      (annotate componentGrammar
        ⟨⟨.absent, keyedFields, true, [("OPENAI_API_KEY".toList, "s".toList)]⟩, .none, .sending⟩
        "a.vue".toList component ⟨[.silent, .refused], [], []⟩).1 ∧
    (annotate componentGrammar
      ⟨⟨.absent, keyedFields, true, [("OPENAI_API_KEY".toList, "s".toList)]⟩, .none, .sending⟩
      "a.vue".toList component ⟨[.silent, .refused], [], []⟩).2.requests = [] ∧
    ∃ settings, (Config.resolve keylessOptions.sources).1 = .ok settings ∧
      settings.ai.apiKey = none ∧
      (annotate componentGrammar keylessOptions "a.vue".toList component
        ⟨[], [], []⟩).2.requests = [] := by
  obtain ⟨⟨hsame, -, hsilent⟩, hkeyless⟩ := annotate_switched_off componentGrammar .none .absent
    keyedFields [] [("OPENAI_API_KEY".toList, "s".toList)] .sending .sending "a.vue".toList
    component ⟨[], [], []⟩ ⟨[.silent, .refused], [], []⟩
  exact ⟨hsame, hsilent, _, rfl, rfl, hkeyless keylessOptions _ rfl rfl⟩

/-! ### Runs with different answers -/

/-- What a run writes about one target: the lines for it, with the names and types that it found. -/
@[ext]
structure Written where
  target : Target
  lines : List RawText

/-- The comment that is written down, laid out at the anchor of its target. -/
def Written.insertion (source : Bytes) (w : Written) : Insertion :=
  ⟨Comment.layoutRaw w.lines source w.target.anchorOffset, w.target.anchorOffset⟩

/-- What is written about a target, with an answer. -/
def Plan.written (plan : Plan) (target : Target) (answer : Answer) : Written :=
  let target := target.infer plan.strategies
  ⟨target, Comment.lines plan.settings.templates plan.settings.includeReturnsWhenVoid target
    (Describe.told plan.describer target answer)⟩

/-- What a run writes about its targets. A run that its client stops writes nothing. -/
def writtenOf (grammar : Grammar) (options : Options) (id code : Text) (session : Session) :
    List Written :=
  match (prepare grammar options id code).1 with
  | .ok (some plan) =>
    if (stopOf grammar options id code).isSome then []
    else List.zipWith plan.written plan.targets (plan.deal session.answers plan.targets)
  | _ => []

/-- The script of a unit in bytes. -/
def scriptBytes (id code : Text) : Bytes :=
  ((ScriptRange.extract? code (Identifier.dialect id)).map (Utf8.encode ·.script)).getD []

/-- What is written fills the outline of its target. -/
structure Written.Fills (settings : Settings) (w : Written) : Prop where
  /-- One line for the description, one for each parameter, and maybe one for the result. -/
  length : w.lines.length = 1 + w.target.parameters.length +
    (Comment.hasReturns settings.includeReturnsWhenVoid w.target).toNat
  filled : ∃ description, w.lines =
    (Comment.outline settings.templates settings.includeReturnsWhenVoid w.target).lines description

/-- Two comments that differ in the description at most: they are about one target, with the same
    names and types, and both fill its outline. -/
structure Written.SameOutline (settings : Settings) (w other : Written) : Prop where
  target : w.target = other.target
  fills : w.Fills settings
  fills' : other.Fills settings

/-- A target fills its outline with whatever answer it gets. -/
theorem Plan.fills_written (plan : Plan) (target : Target) (answer : Answer) :
    (plan.written target answer).Fills plan.settings := by
  refine ⟨?_, _, Comment.lines_eq _ _ _ _⟩
  change (Comment.lines _ _ _ _).length = _
  rw [Comment.lines_eq, Comment.length_outline]
  rfl

/-- Runs of one plan with different answers fill the same outlines. -/
theorem Plan.written_sameOutline (plan : Plan) {targets : List Target} {answers others : List Answer}
    (hlength : answers.length = targets.length) (hlength' : others.length = targets.length) :
    List.Forall₂ (Written.SameOutline plan.settings) (List.zipWith plan.written targets answers)
      (List.zipWith plan.written targets others) := by
  refine List.forall₂_iff_get.2 ⟨by simp [hlength, hlength'], fun i hi hi' => ?_⟩
  simp only [List.get_eq_getElem, List.getElem_zipWith]
  exact ⟨rfl, plan.fills_written _ _, plan.fills_written _ _⟩

/-- Where no template mentions the description, there is one way to fill an outline. -/
theorem Written.SameOutline.eq {settings : Settings} {w other : Written}
    (h : w.SameOutline settings other)
    (hmentions : ¬ settings.templates.Mentions Comment.descriptionName) : w = other := by
  obtain ⟨description, hlines⟩ := h.fills.filled
  obtain ⟨description', hlines'⟩ := h.fills'.filled
  have hclosed := Comment.outline_closed hmentions settings.includeReturnsWhenVoid w.target
  refine Written.ext h.target ?_
  rw [hlines, hlines', ← h.target, Comment.Outline.lines_of_closed hclosed description description']

section Answers

variable {grammar : Grammar} {options : Options} {id code : Text} {settings : Settings}

theorem source_eq_scriptBytes {plan : Plan}
    (h : (prepare grammar options id code).1 = .ok (some plan)) :
    plan.source = scriptBytes id code := by
  have hfor := prepare_some h
  rw [hfor.source, scriptBytes, hfor.range]
  rfl

/-- The insertions of a run are what it writes, laid out. -/
theorem insertionsOf_eq_written (grammar : Grammar) (options : Options) (id code : Text)
    (session : Session) :
    insertionsOf grammar options id code session =
      (writtenOf grammar options id code session).map (Written.insertion (scriptBytes id code)) := by
  rw [insertionsOf_eq, writtenOf]
  cases hprepare : (prepare grammar options id code).1 with
  | error e => rfl
  | ok plan? =>
    cases plan? with
    | none => rfl
    | some plan =>
      cases (stopOf grammar options id code).isSome with
      | true => rfl
      | false =>
        rw [← source_eq_scriptBytes hprepare]
        simp only [Bool.false_eq_true, if_false, List.map_zipWith]
        rfl

theorem writtenOf_sameOutline (hsettings : (Config.resolve options.sources).1 = .ok settings)
    (grammar : Grammar) (id code : Text) (session session' : Session) :
    List.Forall₂ (Written.SameOutline settings) (writtenOf grammar options id code session)
      (writtenOf grammar options id code session') := by
  unfold writtenOf
  split
  next plan hprepare =>
    obtain rfl := Except.ok.inj (hsettings.symm.trans (prepare_some hprepare).settings)
    split
    · exact .nil
    · exact plan.written_sameOutline (plan.length_deal _ _) (plan.length_deal _ _)
  next => exact .nil

/-- Where no template mentions the description, a run writes the same with any answers. -/
theorem writtenOf_of_not_mentions (hsettings : (Config.resolve options.sources).1 = .ok settings)
    (hmentions : ¬ settings.templates.Mentions Comment.descriptionName) (grammar : Grammar)
    (id code : Text) (session session' : Session) :
    writtenOf grammar options id code session = writtenOf grammar options id code session' := by
  have hsame := writtenOf_sameOutline hsettings grammar id code session session'
  rw [← List.forall₂_eq_eq_eq]
  exact hsame.imp fun _ _ h => h.eq hmentions

end Answers

/-- An answer reaches the result only in the places that the line templates have for a description.
    Where none has one, the answers change nothing. In general every run writes about the same
    targets, with the same names and types, and fills the same outlines. -/
theorem annotate_description_only (grammar : Grammar) (options : Options) (id code : Text)
    (session session' : Session) :
    ((∀ settings, (Config.resolve options.sources).1 = .ok settings →
        ¬ settings.templates.Mentions Comment.descriptionName) →
      (annotate grammar options id code session).1 =
        (annotate grammar options id code session').1) ∧
    (∀ settings, (Config.resolve options.sources).1 = .ok settings →
      List.Forall₂ (Written.SameOutline settings) (writtenOf grammar options id code session)
        (writtenOf grammar options id code session')) ∧
    ∀ session, insertionsOf grammar options id code session =
      (writtenOf grammar options id code session).map
        (Written.insertion (scriptBytes id code)) := by
  refine ⟨fun hmentions => ?_, fun settings hsettings =>
    writtenOf_sameOutline hsettings grammar id code session session',
    insertionsOf_eq_written grammar options id code⟩
  cases hsettings : (Config.resolve options.sources).1 with
  | error e => rw [annotate_of_refused hsettings, annotate_of_refused hsettings]
  | ok settings =>
    have hwritten := writtenOf_of_not_mentions hsettings (hmentions settings hsettings) grammar id
      code session session'
    rw [annotate_text, annotate_text, insertionsOf_eq_written, insertionsOf_eq_written, hwritten]

/-- Line templates without a place for a description. -/
def summaryTemplates : LineTemplates :=
  { Config.defaultTemplates with description := "@summary $\x7bname\x7d".toList }

/-- Options that ask a service and have no place for its answers. -/
def summaryOptions : Options :=
  ⟨⟨.absent, [("ai".toList, .obj [("apiKey".toList, .str "k".toList)]),
    ("template".toList, .obj [("descriptionLine".toList, .str summaryTemplates.description)])],
    false, []⟩, .none, .sending⟩

theorem not_mentions_summaryTemplates : ¬ summaryTemplates.Mentions Comment.descriptionName := by
  rintro ⟨template, htemplate, hmentions⟩
  have habsent : ∀ template ∈ [summaryTemplates.description, summaryTemplates.parameter,
      summaryTemplates.returns], ¬ Comment.descriptionName <:+: template.text := by decide +kernel
  exact habsent template htemplate hmentions.infix

/-- A reply with a description. -/
def describingReply : Answer :=
  .reply 200 (Utf8.encode
    "\x7b\"choices\": [\x7b\"message\": \x7b\"content\": \"Does f.\"\x7d\x7d]\x7d".toList)

/-- The component is asked about, and ends alike with a description and without one. -/
theorem annotate_description_only_component :
    ∃ settings, (Config.resolve summaryOptions.sources).1 = .ok settings ∧
      settings.ai.enabled = true ∧ ¬ settings.templates.Mentions Comment.descriptionName ∧
      (annotate componentGrammar summaryOptions "a.vue".toList component
          ⟨[describingReply], [], []⟩).1 =
        (annotate componentGrammar summaryOptions "a.vue".toList component
          ⟨[.silent], [], []⟩).1 := by
  obtain ⟨settings, hsettings, henabled, htemplates⟩ : ∃ settings,
      (Config.resolve summaryOptions.sources).1 = .ok settings ∧ settings.ai.enabled = true ∧
        settings.templates = summaryTemplates := ⟨_, rfl, rfl, rfl⟩
  have hmentions : ¬ settings.templates.Mentions Comment.descriptionName := by
    rw [htemplates]
    exact not_mentions_summaryTemplates
  refine ⟨settings, hsettings, henabled, hmentions, ?_⟩
  refine (annotate_description_only componentGrammar summaryOptions "a.vue".toList component _
    _).1 fun other hother => ?_
  rw [← Except.ok.inj (hsettings.symm.trans hother)]
  exact hmentions

end DocAnnotator
