import DocAnnotator.Proofs.Config.Normal
import DocAnnotator.Proofs.Requests

/-! ## Runs return

    Once the configuration is accepted, a run over anchors at code point boundaries can be stopped
    in three ways: by a timeout that is too large for a number of seconds, by a call that stops its
    client, and by a comment that has no UTF-8 form. Its dialect has a grammar, its service is known,
    an oracle that cannot be made costs a warning, and the comments never fall inside a character.

    - `Session.after`: the warnings that a session starts with.
    - `Plan.insertions_after`: a run goes on as it does, whatever was warned about before.
    - `annotate_unavailable`: what becomes of a run whose oracle cannot be made.
    - `Stops`: the three ways, with the error of each.
    - `annotate_error_iff`: a run fails exactly if it is stopped in one of them.
    - `insertionsOf_whole_of_answers`: when all comments have a UTF-8 form.
    - `annotate_total`: the whole statement.
-/

namespace DocAnnotator

/-! ### Earlier warnings -/

namespace Session

/-- The session, with warnings that were given before it. -/
def after (session : Session) (earlier : List Warning) : Session :=
  { session with warnings := earlier ++ session.warnings }

@[simp]
theorem after_warnings (session : Session) (earlier : List Warning) :
    (session.after earlier).warnings = earlier ++ session.warnings := rfl

theorem warn_after (session : Session) (earlier warnings : List Warning) :
    (session.after earlier).warn warnings = (session.warn warnings).after earlier := by
  simp [after, warn]

/-- A session that has warned is a session without warnings, after all of them. -/
theorem warn_eq_after (session : Session) (warnings : List Warning) :
    session.warn warnings =
      ({ session with warnings := [] } : Session).after (session.warnings ++ warnings) := by
  simp [after, warn]

end Session

namespace Describe

theorem ask_after (d : Describer) (prompt : RawText) (session : Session) (earlier : List Warning) :
    ask d prompt (session.after earlier) =
      ((ask d prompt session).1, (ask d prompt session).2.after earlier) := by
  unfold ask
  by_cases htime : d.timeoutMs ≤ 0
  · rw [if_pos htime, if_pos htime]
  · rw [if_neg htime, if_neg htime]
    cases d.client (request d prompt) <;> rfl

/-- A description does not depend on earlier warnings, and keeps them. -/
theorem describe_after (describer : Option Describer) (target : Target) (session : Session)
    (earlier : List Warning) :
    describe describer target (session.after earlier) =
      ((describe describer target session).1,
        (describe describer target session).2.after earlier) := by
  cases describer with
  | none => rfl
  | some d =>
    rw [describe_eq, describe_eq, ask_after]
    exact congrArg (Prod.mk _) (Session.warn_after _ _ _)

end Describe

namespace Plan

theorem comment_after (plan : Plan) (target : Target) (session : Session)
    (earlier : List Warning) :
    plan.comment target (session.after earlier) =
      ((plan.comment target session).1, (plan.comment target session).2.after earlier) := by
  simp only [comment, Describe.describe_after]

/-- A run goes on as it does, whatever was warned about before. -/
theorem insertions_after (plan : Plan) (session : Session) (earlier : List Warning)
    (targets : List Target) :
    plan.insertions (session.after earlier) targets =
      ((plan.insertions session targets).1, (plan.insertions session targets).2.after earlier) := by
  induction targets generalizing session with
  | nil => rfl
  | cons target rest ih =>
    have hanswers : (session.after earlier).answers = session.answers := rfl
    cases hstop : plan.stop? target with
    | some e => rw [insertions_cons_stopped hstop, insertions_cons_stopped hstop, comment_after]
    | none =>
      rw [insertions_cons hstop, insertions_cons hstop, comment_after, hanswers]
      simp only [ih]

end Plan

section Run

variable {grammar : Grammar} {options : Options} {id code : Text} {settings : Settings}

/-! ### An oracle that cannot be made -/

/-- The warning about an oracle that cannot be made; it is only tried for a script. -/
def oracleNote (id code : Text) : List Warning :=
  if (ScriptRange.extract? code (Identifier.dialect id)).isSome then [.oracleUnavailable] else []

theorem planScript_unavailable {range : ScriptRange} (h : range.dialect.isSupported = true)
    (grammar : Grammar) (client : Client) (settings : Settings) :
    planScript grammar .unavailable client settings range =
        ((planScript grammar .none client settings range).1, [.oracleUnavailable]) ∧
      (planScript grammar .none client settings range).2 = [] := by
  simp only [planScript, syntaxTree, h, if_true]
  cases collect (Utf8.encode range.script) (grammar range.dialect range.script) with
  | nil => exact ⟨rfl, rfl⟩
  | cons target rest => cases Describe.describer client settings.ai <;> exact ⟨rfl, rfl⟩

/-- The plan without the oracle is the plan of a run that has none. -/
theorem prepare_unavailable (hsettings : (Config.resolve options.sources).1 = .ok settings)
    (grammar : Grammar) (id code : Text) :
    prepare grammar { options with oracle := .unavailable } id code =
      ((prepare grammar { options with oracle := .none } id code).1,
        (prepare grammar { options with oracle := .none } id code).2 ++ oracleNote id code) := by
  unfold prepare oracleNote
  cases hresolve : Config.resolve options.sources with
  | mk resolved warnings =>
    rw [hresolve] at hsettings
    obtain rfl : resolved = .ok settings := hsettings
    cases hrange : ScriptRange.extract? code (Identifier.dialect id) with
    | none => simp
    | some range =>
      obtain ⟨hfails, hquiet⟩ :=
        planScript_unavailable (ScriptRange.isSupported_of_extract? hrange) grammar options.client
          settings
      simp [hfails, hquiet]

/-- An oracle that cannot be made adds its warning to the run without an oracle and changes nothing
    else: not the text or error, nor a request or an answer. -/
theorem annotate_unavailable (hsettings : (Config.resolve options.sources).1 = .ok settings)
    (grammar : Grammar) (id code : Text) (session : Session) :
    ∃ before later,
      (annotate grammar { options with oracle := .none } id code session).2.warnings =
        before ++ later ∧
      annotate grammar { options with oracle := .unavailable } id code session =
        ((annotate grammar { options with oracle := .none } id code session).1,
          { (annotate grammar { options with oracle := .none } id code session).2 with
            warnings := before ++ oracleNote id code ++ later }) := by
  unfold annotate
  rw [prepare_unavailable hsettings]
  cases prepare grammar { options with oracle := .none } id code with
  | mk prepared warnings =>
    refine ⟨session.warnings ++ warnings, ?_⟩
    cases prepared with
    | error e => exact ⟨[], by simp [Session.warn], by simp [Session.warn]⟩
    | ok plan =>
      cases plan with
      | none => exact ⟨[], by simp [Session.warn], by simp [Session.warn]⟩
      | some plan =>
        -- the two runs go through the targets from one session, after different warnings
        refine ⟨(plan.insertions { session with warnings := [] } plan.targets).2.warnings, ?_, ?_⟩
        · simp only [Session.warn_eq_after, Plan.insertions_after, Session.after_warnings]
        · simp only [Session.warn_eq_after, Plan.insertions_after]
          simp only [Session.after, List.append_assoc]

/-! ### What can stop a run -/

/-- What stops a run with accepted settings, and the error that it ends with. -/
inductive Stops (grammar : Grammar) (options : Options) (id code : Text) (session : Session)
    (settings : Settings) : Error → Prop
  /-- A service has to be asked, and the timeout is too large for a number of seconds. -/
  | timeout (henabled : settings.ai.enabled = true)
      (hlarge : Describe.isTimeoutTooLarge settings.ai.timeoutMs = true)
      (hsome : inferredOf grammar options id code ≠ []) :
      Stops grammar options id code session settings .timeoutTooLarge
  /-- A call stops the client, and none before it does. -/
  | client {before after : List Request} {call : Request} {message : Text}
      (hcalls : callsOf grammar options id code = before ++ call :: after)
      (hbefore : ∀ earlier ∈ before, options.client.stop? earlier = none)
      (hstopped : options.client call = .stopped message) :
      Stops grammar options id code session settings (.clientStopped message)
  /-- A comment holds half of a surrogate pair. -/
  | torn (htorn : ¬ Insertion.Whole (insertionsOf grammar options id code session)) :
      Stops grammar options id code session settings .unencodableText

theorem stopOf_eq_some_iff {e : Error} :
    stopOf grammar options id code = some e ↔ ∃ before call after message,
      callsOf grammar options id code = before ++ call :: after ∧
        (∀ earlier ∈ before, options.client.stop? earlier = none) ∧
        options.client call = .stopped message ∧ e = .clientStopped message := by
  rw [stopOf, List.findSome?_eq_some_iff]
  constructor
  · rintro ⟨before, call, after, hcalls, hstop, hbefore⟩
    obtain ⟨message, hstopped, rfl⟩ := Client.stop?_eq_some_iff.1 hstop
    exact ⟨before, call, after, message, hcalls, hbefore, hstopped, rfl⟩
  · rintro ⟨before, call, after, message, hcalls, hbefore, hstopped, rfl⟩
    exact ⟨before, call, after, hcalls, Client.stop?_eq_some_iff.2 ⟨message, hstopped, rfl⟩,
      hbefore⟩

/-- Over anchors at boundaries, a planned run that its client does not stop returns with whole
    comments. -/
theorem annotate_of_goes (hanchors : BoundaryAnchors grammar id code) {plan : Option Plan}
    (hplan : (prepare grammar options id code).1 = .ok plan)
    (hgoes : stopOf grammar options id code = none) {session : Session}
    (hwhole : Insertion.Whole (insertionsOf grammar options id code session)) :
    ∃ result, (annotate grammar options id code session).1 = .ok result := by
  refine annotate_of_boundaries hanchors hplan ?_ hwhole
  rintro p rfl
  rwa [← stopOf_of_plan hplan]

/-- Over anchors at boundaries, a run with accepted settings fails exactly if it is stopped in one
    of the three ways. -/
theorem annotate_error_iff (hsettings : (Config.resolve options.sources).1 = .ok settings)
    (hanchors : BoundaryAnchors grammar id code) (session : Session) (e : Error) :
    (annotate grammar options id code session).1 = .error e ↔
      Stops grammar options id code session settings e := by
  constructor
  · intro hfails
    -- a run that is planned is stopped by its client or by a comment
    have hplanned : ∀ plan, (prepare grammar options id code).1 = .ok plan →
        Stops grammar options id code session settings e := by
      intro plan hplan
      cases hstop : stopOf grammar options id code with
      | some e' =>
        rw [annotate_of_stop hstop] at hfails
        obtain rfl := Except.error.inj hfails
        obtain ⟨before, call, after, message, hcalls, hbefore, hstopped, rfl⟩ :=
          stopOf_eq_some_iff.1 hstop
        exact .client hcalls hbefore hstopped
      | none =>
        by_cases hwhole : Insertion.Whole (insertionsOf grammar options id code session)
        · obtain ⟨result, hresult⟩ := annotate_of_goes hanchors hplan hstop hwhole
          rw [hresult] at hfails
          cases hfails
        · rw [annotate_of_torn hwhole] at hfails
          obtain rfl := Except.error.inj hfails
          exact .torn hwhole
    rcases prepare_cases hsettings grammar id code with ⟨-, hprepare⟩ | ⟨range, -, hne, hprepare⟩
    · exact hplanned none hprepare
    -- one that is not lacks its service
    obtain ⟨provider, hnormal, -⟩ := Config.exists_normal hsettings
    rcases Config.describer_of_normal options.client hnormal with
      ⟨-, hnone⟩ | ⟨key, henabled, -, hservice⟩
    · rw [hnone] at hprepare
      exact hplanned _ hprepare
    · cases hlarge : Describe.isTimeoutTooLarge settings.ai.timeoutMs with
      | false =>
        rw [hservice, hlarge] at hprepare
        exact hplanned _ hprepare
      | true =>
        obtain ⟨-, hstops⟩ := callsOf_too_large hsettings henabled hlarge grammar id code
        rw [hstops hne session] at hfails
        obtain rfl := Except.error.inj hfails
        exact .timeout henabled hlarge hne
  · intro hstops
    cases hstops with
    | timeout henabled hlarge hne =>
      exact (callsOf_too_large hsettings henabled hlarge grammar id code).2 hne session
    | client hcalls hbefore hstopped =>
      exact annotate_of_stop (stopOf_eq_some_iff.2 ⟨_, _, _, _, hcalls, hbefore, hstopped, rfl⟩)
        session
    | torn htorn => exact annotate_of_torn htorn

/-! ### Comments without a UTF-8 form -/

/-- A description is whole where no answer tells a text with half of a surrogate pair. -/
theorem Describe.told_whole {describer : Option Describer} {target : Target} {answer : Answer}
    (h : ∀ provider said, outcome provider answer = .described said → said.torn = false) :
    (told describer target answer).torn = false := by
  cases describer with
  | none => rfl
  | some d =>
    change ((attempt d target answer).text target.name).torn = false
    unfold attempt
    by_cases htime : d.timeoutMs ≤ 0
    · rw [if_pos htime]
      rfl
    · rw [if_neg htime]
      cases d.client (request d (prompt d.promptTemplate target)) with
      | refused => rfl
      | stopped message => rfl
      | sent =>
        cases houtcome : outcome d.provider answer with
        | described said =>
          change (if _ then (fallback target.name : RawText) else cleanRaw said).torn = false
          split
          · rfl
          · -- cleaning drops nothing but blanks
            exact h d.provider said houtcome
        | timedOut => rfl
        | failed fault => rfl
        | stopped message => rfl

/-- All comments have a UTF-8 form where the line templates do, and every description does or has
    no place in them. -/
theorem insertionsOf_whole_of_answers
    (hsettings : (Config.resolve options.sources).1 = .ok settings)
    (htemplates : settings.templates.Whole) {session : Session}
    (hanswers : settings.templates.Mentions Comment.descriptionName →
      ∀ answer ∈ session.answers, ∀ provider said,
        Describe.outcome provider answer = .described said → said.torn = false)
    (grammar : Grammar) (id code : Text) :
    Insertion.Whole (insertionsOf grammar options id code session) := by
  intro i hi
  obtain ⟨plan, target, answer, hplan, -, hanswer, rfl⟩ := exists_answered_of_mem hi
  obtain rfl := Except.ok.inj (hsettings.symm.trans (prepare_some hplan).settings)
  refine Plan.insertion_whole htemplates fun htorn hmentions => ?_
  have hwhole : (Describe.told plan.describer (target.infer plan.strategies) answer).torn =
      false := by
    refine Describe.told_whole fun provider said hsaid => ?_
    rcases hanswer with rfl | hmem
    · cases hsaid
    · exact hanswers hmentions answer hmem provider said hsaid
  rw [hwhole] at htorn
  cases htorn

/-! ### The whole statement -/

/-- With accepted settings and anchors at code point boundaries, a run returns a text unless it is
    stopped: by a timeout that is too large for a number of seconds, by a call that stops its client,
    or by a comment without a UTF-8 form. Nothing else stops it, and comments are without a UTF-8
    form only where a line template or a description is. The dialect of the script has a grammar,
    the service that the settings name exists, comments are never put inside a character, and an
    oracle that cannot be made only adds a warning. -/
theorem annotate_total (hsettings : (Config.resolve options.sources).1 = .ok settings)
    (hanchors : BoundaryAnchors grammar id code) (session : Session) :
    ((∃ result, (annotate grammar options id code session).1 = .ok result) ↔
      ∀ e, ¬ Stops grammar options id code session settings e) ∧
    (∀ e, (annotate grammar options id code session).1 = .error e ↔
      Stops grammar options id code session settings e) ∧
    (settings.templates.Whole →
      (settings.templates.Mentions Comment.descriptionName →
        ∀ answer ∈ session.answers, ∀ provider said,
          Describe.outcome provider answer = .described said → said.torn = false) →
      Insertion.Whole (insertionsOf grammar options id code session)) ∧
    (∀ range, ScriptRange.extract? code (Identifier.dialect id) = some range →
      syntaxTree grammar range.dialect range.script = .ok (grammar range.dialect range.script) ∧
      (∀ fault, Insertion.splice (Utf8.encode range.script)
        (insertionsOf grammar options id code session) ≠ .error (.malformedText fault)) ∧
      (Insertion.Whole (insertionsOf grammar options id code session) →
        ∃ script, Insertion.splice (Utf8.encode range.script)
          (insertionsOf grammar options id code session) = .ok script)) ∧
    (∃ provider, Provider.ofName? settings.ai.provider = some provider) ∧
    (∃ before later,
      (annotate grammar { options with oracle := .none } id code session).2.warnings =
        before ++ later ∧
      annotate grammar { options with oracle := .unavailable } id code session =
        ((annotate grammar { options with oracle := .none } id code session).1,
          { (annotate grammar { options with oracle := .none } id code session).2 with
            warnings := before ++ oracleNote id code ++ later })) := by
  have herrors := annotate_error_iff hsettings hanchors session
  refine ⟨?_, herrors, fun htemplates hanswers =>
    insertionsOf_whole_of_answers hsettings htemplates hanswers grammar id code, ?_, ?_,
    annotate_unavailable hsettings _ _ _ _⟩
  · constructor
    · rintro ⟨result, hresult⟩ e hstops
      have hfails := (herrors e).2 hstops
      rw [hresult] at hfails
      cases hfails
    · intro hgoes
      cases hrun : (annotate grammar options id code session).1 with
      | ok result => exact ⟨result, rfl⟩
      | error e => exact absurd ((herrors e).1 hrun) (hgoes e)
  · intro range hrange
    have hboundary := insertionsOf_boundary hanchors hrange options session
    refine ⟨by rw [syntaxTree, if_pos (ScriptRange.isSupported_of_extract? hrange)], ?_, ?_⟩
    · intro fault hfails
      obtain ⟨-, fault', hdecode⟩ := Insertion.exists_splice_malformed_iff.1 ⟨fault, hfails⟩
      obtain ⟨script, -, hscript, -⟩ := Insertion.exists_woven hboundary
      rw [hscript] at hdecode
      cases hdecode
    · intro hwhole
      obtain ⟨script, -, hsplice, -⟩ := Insertion.exists_splice hboundary hwhole
      exact ⟨script, hsplice⟩
  · obtain ⟨provider, hnormal, -⟩ := Config.exists_normal hsettings
    exact ⟨provider, by rw [hnormal.named]; exact Describe.ofName?_name provider⟩

end Run

theorem boundaryAnchors_component : BoundaryAnchors componentGrammar "a.vue".toList component :=
  (TokenAnchors.of_anchors extract?_component startsToken_component).boundaryAnchors

/-- With fifteen seconds for each answer, the component is annotated whatever is answered, as long
    as no answer tells a text without a UTF-8 form. -/
theorem annotate_total_component :
    ∃ settings, (Config.resolve (askingOptions 15000).sources).1 = .ok settings ∧
      BoundaryAnchors componentGrammar "a.vue".toList component ∧
      ∀ answers : List Answer, (∀ answer ∈ answers, ∀ provider said,
          Describe.outcome provider answer = .described said → said.torn = false) →
        ∃ result, (annotate componentGrammar (askingOptions 15000) "a.vue".toList component
          ⟨answers, [], []⟩).1 = .ok result := by
  obtain ⟨settings, hsettings, -, htimeout, htemplates⟩ := resolve_askingOptions 15000 (by decide)
  refine ⟨settings, hsettings, boundaryAnchors_component, fun answers hanswers => ?_⟩
  have hfits : Describe.isTimeoutTooLarge settings.ai.timeoutMs = false := by
    rw [htimeout]
    decide +kernel
  obtain ⟨hreturns, -, hwhole, -⟩ :=
    annotate_total hsettings boundaryAnchors_component ⟨answers, [], []⟩
  refine hreturns.2 fun e hstops => ?_
  cases hstops with
  | timeout _ hlarge _ =>
    rw [hfits] at hlarge
    cases hlarge
  | client _ _ hstopped => cases hstopped
  | torn htorn => exact htorn (hwhole (by rw [htemplates]; decide) fun _ => hanswers)

/-- With a timeout that is too large for a number of seconds, the component is not annotated,
    although its settings are accepted, its anchor is a boundary and its client sends everything. -/
theorem annotate_total_refused :
    ∃ settings, (Config.resolve (askingOptions hugeTimeoutMs).sources).1 = .ok settings ∧
      BoundaryAnchors componentGrammar "a.vue".toList component ∧
      (∀ call, (askingOptions hugeTimeoutMs).client.sends call = true) ∧
      ∀ answers, ¬ ∃ result, (annotate componentGrammar (askingOptions hugeTimeoutMs)
        "a.vue".toList component ⟨answers, [], []⟩).1 = .ok result := by
  obtain ⟨settings, hsettings, henabled, htimeout, -⟩ :=
    resolve_askingOptions hugeTimeoutMs (by decide +kernel)
  have hlarge : Describe.isTimeoutTooLarge settings.ai.timeoutMs = true := by
    rw [htimeout]
    decide +kernel
  have hne : inferredOf componentGrammar (askingOptions hugeTimeoutMs) "a.vue".toList
      component ≠ [] :=
    List.ne_nil_of_length_pos (by rw [length_inferredOf_component]; decide)
  refine ⟨settings, hsettings, boundaryAnchors_component, fun _ => rfl, ?_⟩
  rintro answers ⟨result, hresult⟩
  have hfails := (annotate_error_iff hsettings boundaryAnchors_component ⟨answers, [], []⟩
    .timeoutTooLarge).2 (.timeout henabled hlarge hne)
  rw [hresult] at hfails
  cases hfails

end DocAnnotator
