import DocAnnotator.Proofs.Annotate
import DocAnnotator.Proofs.Config.Service
import DocAnnotator.Proofs.Conservation
import DocAnnotator.Proofs.Describe.Session
import DocAnnotator.Proofs.Target.Complete

/-! ## The requests of a run

    A run that asks a service calls its client about each target, in their order. What the client
    sends of these calls are the requests, and each answer goes to the target that it was asked for.

    - `inferredOf`, `callsOf`, `requestsOf`: the targets of a run with their types, its calls, and
      its requests.
    - `prepare_cases`: the plan of a run whose settings are accepted.
    - `annotate_requests`, `insertionsOf_eq`, `annotate_text`: the requests, the insertions and the
      text of a run, by its plan.
    - `insertionsOf_isolated`: another answer at one position changes at most one comment.
    - `callsOf_asks`, `callsOf_too_large`: what is asked, and when nothing is.
    - `requestsOf_asks_iff`: when there is one request for each target.
    - `commentUnder`: the comments, written down under the anchors of their targets.
    - `annotate_asks`: the whole statement.
-/

namespace DocAnnotator

/-- The functions that a run documents, with the types that it finds for them. -/
def inferredOf (grammar : Grammar) (options : Options) (id code : Text) : List Target :=
  match ScriptRange.extract? code (Identifier.dialect id) with
  | none => []
  | some range => (targetsOf grammar range).map
      (Target.infer (Strategy.forSource options.oracle.oracle? (Utf8.encode range.script)))

/-- The calls that a run has to make of its client. -/
def callsOf (grammar : Grammar) (options : Options) (id code : Text) : List Request :=
  match (prepare grammar options id code).1 with
  | .ok (some plan) => plan.calls
  | _ => []

/-- The requests that a run makes, whatever is answered: what the client sends of the calls. -/
def requestsOf (grammar : Grammar) (options : Options) (id code : Text) : List Request :=
  options.client.requests (callsOf grammar options id code)

/-- The error with which the client stops a run, if it does. -/
def stopOf (grammar : Grammar) (options : Options) (id code : Text) : Option Error :=
  (callsOf grammar options id code).findSome? options.client.stop?

section Run

variable {grammar : Grammar} {options : Options} {id code : Text} {settings : Settings}

/-! ### The plan of a run -/

/-- The plan for a script, once the service is known. -/
def planOf (grammar : Grammar) (oracle : OracleSource) (settings : Settings) (range : ScriptRange)
    (describer : Option Describer) : Plan :=
  ⟨settings, describer, range, Utf8.encode range.script,
    Strategy.forSource oracle.oracle? (Utf8.encode range.script), targetsOf grammar range⟩

theorem inferredOf_eq {range : ScriptRange}
    (hrange : ScriptRange.extract? code (Identifier.dialect id) = some range) (settings : Settings)
    (describer : Option Describer) :
    inferredOf grammar options id code =
      (planOf grammar options.oracle settings range describer).targets.map
        (Target.infer (planOf grammar options.oracle settings range describer).strategies) := by
  rw [inferredOf, hrange]
  rfl

/-- With accepted settings a run has nothing to document, or needs the service of the settings and
    is stopped by nothing else. -/
theorem prepare_cases (hsettings : (Config.resolve options.sources).1 = .ok settings)
    (grammar : Grammar) (id code : Text) :
    (inferredOf grammar options id code = [] ∧
      (prepare grammar options id code).1 = .ok none) ∨
    ∃ range, ScriptRange.extract? code (Identifier.dialect id) = some range ∧
      inferredOf grammar options id code ≠ [] ∧
      (prepare grammar options id code).1 =
        (Describe.describer options.client settings.ai).map fun describer =>
          some (planOf grammar options.oracle settings range describer) := by
  unfold prepare inferredOf
  cases hresolve : Config.resolve options.sources with
  | mk resolved warnings =>
    rw [hresolve] at hsettings
    obtain rfl : resolved = .ok settings := hsettings
    cases hrange : ScriptRange.extract? code (Identifier.dialect id) with
    | none => exact .inl ⟨rfl, rfl⟩
    | some range =>
      -- the script has a tree, since its dialect has a grammar
      simp only [planScript, syntaxTree, ScriptRange.isSupported_of_extract? hrange, if_true]
      split
      next hnone => exact .inl ⟨by rw [targetsOf, hnone, List.map_nil], rfl⟩
      next hsome =>
        refine .inr ⟨range, rfl, fun hnil => hsome (List.map_eq_nil_iff.1 hnil), ?_⟩
        cases Describe.describer options.client settings.ai <;> rfl

theorem prepare_refused {e : Error} (h : (Config.resolve options.sources).1 = .error e)
    (grammar : Grammar) (id code : Text) : (prepare grammar options id code).1 = .error e := by
  unfold prepare
  cases hresolve : Config.resolve options.sources with
  | mk resolved warnings =>
    rw [hresolve] at h
    obtain rfl : resolved = .error e := h
    rfl

/-! ### The client of a run -/

/-- A service is asked through the client that it is made for. -/
theorem Describe.client_of_describer {client : Client} {ai : AiSettings} {d : Describer}
    (h : describer client ai = .ok (some d)) : d.client = client := by
  unfold describer at h
  split at h
  · split at h
    · split at h
      · cases h
      · obtain rfl := Option.some.inj (Except.ok.inj h)
        rfl
    · cases h
  · cases h

/-- A plan calls the client of the run, or none. -/
theorem Plan.client_or_silent {plan : Plan} {client : Client} {ai : AiSettings}
    (h : Describe.describer client ai = .ok plan.describer) :
    plan.client = client ∨ ∀ target, plan.call? target = none := by
  unfold Plan.client Plan.call?
  cases hservice : plan.describer with
  | none => exact .inr fun _ => rfl
  | some d =>
    rw [hservice] at h
    exact .inl (Describe.client_of_describer h)

/-- The requests and the end of a plan are told by its calls. -/
theorem Plan.requests_and_stop {plan : Plan} {client : Client} {ai : AiSettings}
    (h : Describe.describer client ai = .ok plan.describer) :
    plan.client.requests plan.calls = client.requests plan.calls ∧
      plan.targets.findSome? plan.stop? = plan.calls.findSome? client.stop? := by
  have hstop : plan.stop? = fun target => (plan.call? target).bind plan.client.stop? := rfl
  rw [calls, ← List.head?_filterMap, ← List.head?_filterMap, List.filterMap_filterMap, hstop]
  rcases plan.client_or_silent h with rfl | hsilent
  · exact ⟨rfl, rfl⟩
  · have hnone : plan.targets.filterMap plan.call? = [] :=
      List.filterMap_eq_nil_iff.2 fun target _ => hsilent target
    refine ⟨by rw [hnone]; rfl, ?_⟩
    simp only [hsilent, Option.bind_none]

/-- A run stops at the first target of its plan whose call stops the client. -/
theorem stopOf_of_plan {plan : Plan} (h : (prepare grammar options id code).1 = .ok (some plan)) :
    stopOf grammar options id code = plan.targets.findSome? plan.stop? := by
  rw [stopOf, callsOf, h, (Plan.requests_and_stop (prepare_some h).describer).2]

/-! ### A run by its plan -/

theorem annotate_requests (grammar : Grammar) (options : Options) (id code : Text)
    (session : Session) :
    (annotate grammar options id code session).2.requests =
      session.requests ++ requestsOf grammar options id code := by
  unfold annotate requestsOf callsOf
  cases hprepare : prepare grammar options id code with
  | mk plan warnings =>
    cases plan with
    | error e => simp
    | ok plan =>
      cases plan with
      | none => simp
      | some plan =>
        have hservice := (prepare_some (congrArg Prod.fst hprepare)).describer
        simp only [Plan.insertions_requests, Session.warn_requests]
        exact congrArg _ (Plan.requests_and_stop hservice).1

/-- The comments of a run that is not stopped are made of the answers that are dealt to the
    targets. -/
theorem insertionsOf_eq (grammar : Grammar) (options : Options) (id code : Text)
    (session : Session) :
    insertionsOf grammar options id code session =
      match (prepare grammar options id code).1 with
      | .ok (some plan) =>
        if (stopOf grammar options id code).isSome then []
        else List.zipWith plan.answered plan.targets (plan.deal session.answers plan.targets)
      | _ => [] := by
  unfold insertionsOf stopOf callsOf
  cases hprepare : prepare grammar options id code with
  | mk plan warnings =>
    cases plan with
    | error e => rfl
    | ok plan =>
      cases plan with
      | none => rfl
      | some plan =>
        have hservice := (prepare_some (congrArg Prod.fst hprepare)).describer
        simp only [Plan.insertions_eq, (Plan.requests_and_stop hservice).2, Session.warn_answers]
        cases plan.calls.findSome? options.client.stop? <;> rfl

/-- A run that is planned ends as its client does, or finishes its plan. -/
theorem annotate_text (grammar : Grammar) (options : Options) (id code : Text)
    (session : Session) :
    (annotate grammar options id code session).1 =
      match (prepare grammar options id code).1 with
      | .error e => .error e
      | .ok none => .ok code
      | .ok (some plan) =>
        (unlessStopped (stopOf grammar options id code)
          (insertionsOf grammar options id code session)).bind (plan.finish code) := by
  unfold annotate insertionsOf stopOf callsOf
  cases hprepare : prepare grammar options id code with
  | mk plan warnings =>
    cases plan with
    | error e => rfl
    | ok plan =>
      cases plan with
      | none => rfl
      | some plan =>
        have hservice := (prepare_some (congrArg Prod.fst hprepare)).describer
        simp only [Plan.insertions_eq, (Plan.requests_and_stop hservice).2]
        cases plan.calls.findSome? options.client.stop? <;> rfl

/-- A call that stops the client stops the run. -/
theorem annotate_of_stop {e : Error} (h : stopOf grammar options id code = some e)
    (session : Session) : (annotate grammar options id code session).1 = .error e := by
  rw [annotate_text, h]
  unfold stopOf callsOf at h
  split at h
  next plan hplan =>
    rw [hplan]
    rfl
  next => cases h

/-- A comment without a UTF-8 form stops the run. -/
theorem annotate_of_torn {session : Session}
    (h : ¬ Insertion.Whole (insertionsOf grammar options id code session)) :
    (annotate grammar options id code session).1 = .error .unencodableText := by
  have heq := insertionsOf_eq grammar options id code session
  rw [annotate_text]
  split at heq
  next plan hplan =>
    rw [hplan]
    cases hstop : stopOf grammar options id code with
    | some e =>
      rw [hstop] at heq
      exact absurd (heq ▸ nofun) h
    | none =>
      change (Insertion.splice plan.source _).map _ = _
      rw [Insertion.splice_eq_unencodable_iff.2 h]
      rfl
  next => exact absurd (heq ▸ nofun) h

/-- Answers that differ at one position only change at most one comment; where every target has a
    request, it is the one at that position. -/
theorem insertionsOf_isolated (grammar : Grammar) (options : Options) (id code : Text)
    {session other : Session} {k : Nat}
    (h : ∀ i, i ≠ k → session.answers[i]? = other.answers[i]?) :
    (insertionsOf grammar options id code session).length =
        (insertionsOf grammar options id code other).length ∧
      ∃ j, ((∀ plan, (prepare grammar options id code).1 = .ok (some plan) →
          ∀ target ∈ plan.targets, (plan.request? target).isSome = true) → j = k) ∧
        ∀ i, i ≠ j → (insertionsOf grammar options id code session)[i]? =
          (insertionsOf grammar options id code other)[i]? := by
  rw [insertionsOf_eq, insertionsOf_eq]
  split
  next plan hplan =>
    split
    · exact ⟨rfl, k, fun _ => rfl, fun _ _ => rfl⟩
    · obtain ⟨j, hj, hsame⟩ := plan.deal_isolated h plan.targets
      refine ⟨by simp [Plan.length_deal], j, fun hall => hj (hall plan hplan), hsame⟩
  next => exact ⟨rfl, k, fun _ => rfl, fun _ _ => rfl⟩

/-! ### What is asked -/

/-- The prompt that a request carries: the second message of a chat, or the part of a content. -/
def Request.prompt? (request : Request) : Option RawText :=
  match request.body.field? "messages".toList, request.body.field? "contents".toList with
  | some (.arr [_, message]), _ => (message.field? "content".toList).bind Json.raw?
  | _, some (.arr [content]) =>
    match content.field? "parts".toList with
    | some (.arr [part]) => (part.field? "text".toList).bind Json.raw?
    | _ => none
  | _, _ => none

/-- A request asks about a target: it carries the prompt for it. -/
def AsksAbout (ai : AiSettings) (target : Target) (request : Request) : Prop :=
  request.prompt? = some (Describe.prompt ai.promptTemplate target)

theorem Describe.prompt?_request (d : Describer) (prompt : RawText) :
    (request d prompt).prompt? = some prompt := by
  unfold request
  split <;> rfl

/-- The service of enabled settings; there is none if their timeout is too large. -/
theorem exists_describer (hsettings : (Config.resolve options.sources).1 = .ok settings)
    (henabled : settings.ai.enabled = true) :
    ∃ d : Describer, settings.ai.provider = d.provider.name ∧ settings.ai.apiKey = some d.key ∧
      d.timeoutMs = settings.ai.timeoutMs ∧ d.promptTemplate = settings.ai.promptTemplate ∧
      d.client = options.client ∧
      (Describe.isTimeoutTooLarge settings.ai.timeoutMs = false →
        Describe.describer options.client settings.ai = .ok (some d)) ∧
      (Describe.isTimeoutTooLarge settings.ai.timeoutMs = true →
        Describe.describer options.client settings.ai = .error .timeoutTooLarge) := by
  obtain ⟨provider, hprovider, hkeyed⟩ := Config.resolve_enabled hsettings
  obtain ⟨key, hkey, hne⟩ := hkeyed henabled
  have hdescriber := Describe.describer_eq options.client henabled hprovider hkey hne
  refine ⟨⟨provider, key, settings.ai.model, settings.ai.baseUrl, settings.ai.timeoutMs,
    settings.ai.promptTemplate, options.client⟩, hprovider, hkey, rfl, rfl, rfl, fun hfits => ?_,
    fun hlarge => ?_⟩
  · rw [hdescriber, hfits]
    rfl
  · rw [hdescriber, hlarge]
    rfl

/-- A service that has time calls its client about every target. -/
theorem Describe.call?_eq {d : Describer} (htime : 0 < d.timeoutMs) (target : Target) :
    call? (some d) target = some (request d (prompt d.promptTemplate target)) :=
  if_neg (Int.not_le.2 htime)

/-- What a run calls its client about: with a timeout that is a number of seconds each of its
    targets, in their order. -/
theorem callsOf_asks (hsettings : (Config.resolve options.sources).1 = .ok settings)
    (henabled : settings.ai.enabled = true) (htime : 0 < settings.ai.timeoutMs)
    (hfits : Describe.isTimeoutTooLarge settings.ai.timeoutMs = false) (grammar : Grammar)
    (id code : Text) :
    List.Forall₂ (AsksAbout settings.ai) (inferredOf grammar options id code)
        (callsOf grammar options id code) ∧
      ((∀ call ∈ callsOf grammar options id code, options.client.sends call = true) →
        ∀ plan, (prepare grammar options id code).1 = .ok (some plan) →
          ∀ target ∈ plan.targets, (plan.request? target).isSome = true) := by
  obtain ⟨d, -, -, htimeout, htemplate, hclient, hdescriber, -⟩ :=
    exists_describer hsettings henabled
  rcases prepare_cases hsettings grammar id code with
    ⟨hnil, hprepare⟩ | ⟨range, hrange, -, hprepare⟩
  · rw [hnil, callsOf, hprepare]
    refine ⟨.nil, fun _ plan hplan => ?_⟩
    cases Except.ok.inj hplan
  · rw [hdescriber hfits] at hprepare
    replace hprepare : (prepare grammar options id code).1 =
      .ok (some (planOf grammar options.oracle settings range (some d))) := hprepare
    rw [inferredOf_eq hrange settings (some d), callsOf, hprepare]
    have hcall (target : Target) :
        (planOf grammar options.oracle settings range (some d)).call? target =
          some (Describe.request d (Describe.prompt d.promptTemplate (target.infer
            (planOf grammar options.oracle settings range (some d)).strategies))) :=
      Describe.call?_eq (htimeout ▸ htime) _
    refine ⟨?_, fun hsends plan hplan target htarget => ?_⟩
    · simp only [Plan.calls, funext hcall, List.filterMap_eq_map']
      refine List.forall₂_map_left_iff.2 (List.forall₂_map_right_iff.2 ?_)
      refine List.forall₂_same.2 fun target _ => ?_
      rw [AsksAbout, Describe.prompt?_request, htemplate]
    · obtain rfl := Option.some.inj (Except.ok.inj hplan)
      have hsent := hsends _ (List.mem_filterMap.2 ⟨target, htarget, hcall target⟩)
      rw [← hclient] at hsent
      change ((Plan.call? _ target).filter d.client.sends).isSome = true
      rw [hcall target, Option.filter_some, if_pos hsent]
      rfl

/-- With a larger timeout nothing is asked, and the run fails if there is something to ask. -/
theorem callsOf_too_large (hsettings : (Config.resolve options.sources).1 = .ok settings)
    (henabled : settings.ai.enabled = true)
    (hlarge : Describe.isTimeoutTooLarge settings.ai.timeoutMs = true) (grammar : Grammar)
    (id code : Text) :
    callsOf grammar options id code = [] ∧ (inferredOf grammar options id code ≠ [] →
      ∀ session, (annotate grammar options id code session).1 = .error .timeoutTooLarge) := by
  obtain ⟨d, -, -, -, -, -, -, hdescriber⟩ := exists_describer hsettings henabled
  rcases prepare_cases hsettings grammar id code with ⟨hnil, hprepare⟩ | ⟨range, -, -, hprepare⟩
  · exact ⟨by rw [callsOf, hprepare], fun hne => absurd hnil hne⟩
  · rw [hdescriber hlarge] at hprepare
    refine ⟨by rw [callsOf, hprepare]; rfl, fun _ session => ?_⟩
    rw [annotate_text, hprepare]
    rfl

/-- Nor is anything inserted then. -/
theorem insertionsOf_of_too_large (hsettings : (Config.resolve options.sources).1 = .ok settings)
    (henabled : settings.ai.enabled = true)
    (hlarge : Describe.isTimeoutTooLarge settings.ai.timeoutMs = true) (grammar : Grammar)
    (id code : Text) (session : Session) : insertionsOf grammar options id code session = [] := by
  obtain ⟨d, -, -, -, -, -, -, hdescriber⟩ := exists_describer hsettings henabled
  rw [insertionsOf_eq]
  rcases prepare_cases hsettings grammar id code with ⟨-, hprepare⟩ | ⟨range, -, -, hprepare⟩
  · rw [hprepare]
  · rw [hprepare, hdescriber hlarge]
    rfl

/-- There is one request for each target exactly if the timeout is no larger and the client sends
    all calls, or if there is nothing to document. -/
theorem requestsOf_asks_iff (hsettings : (Config.resolve options.sources).1 = .ok settings)
    (henabled : settings.ai.enabled = true) (htime : 0 < settings.ai.timeoutMs)
    (grammar : Grammar) (id code : Text) :
    List.Forall₂ (AsksAbout settings.ai) (inferredOf grammar options id code)
        (requestsOf grammar options id code) ↔
      inferredOf grammar options id code = [] ∨
        Describe.isTimeoutTooLarge settings.ai.timeoutMs = false ∧
          ∀ call ∈ callsOf grammar options id code, options.client.sends call = true := by
  cases hsize : Describe.isTimeoutTooLarge settings.ai.timeoutMs with
  | true =>
    -- no call is made, so there must be no target either
    rw [requestsOf, (callsOf_too_large hsettings henabled hsize grammar id code).1,
      Client.requests_nil, List.forall₂_nil_right_iff]
    simp
  | false =>
    have hcalls := (callsOf_asks hsettings henabled htime hsize grammar id code).1
    constructor
    · intro hasks
      -- as many requests as calls: all of the calls are made
      have hlength := hasks.length_eq.symm.trans hcalls.length_eq
      have hall := (Client.requests_sublist _ _).eq_of_length hlength
      refine .inr ⟨rfl, fun call hcall => ?_⟩
      rw [← hall] at hcall
      exact Client.sends_of_mem_requests hcall
    · rintro (hnil | ⟨-, hsends⟩)
      · rw [hnil] at hcalls ⊢
        rw [requestsOf, List.forall₂_nil_left_iff.1 hcalls]
        exact .nil
      · rw [requestsOf, Client.requests_eq_self hsends]
        exact hcalls

/-- Another answer at one position changes at most one comment, and where the client sends all calls
    it is the one at that position. -/
theorem insertionsOf_isolated_of_sends
    (hsettings : (Config.resolve options.sources).1 = .ok settings)
    (henabled : settings.ai.enabled = true) (htime : 0 < settings.ai.timeoutMs)
    (grammar : Grammar) (id code : Text) {session other : Session} {k : Nat}
    (h : ∀ i, i ≠ k → session.answers[i]? = other.answers[i]?) :
    (insertionsOf grammar options id code session).length =
        (insertionsOf grammar options id code other).length ∧
      ∃ j, ((∀ call ∈ callsOf grammar options id code, options.client.sends call = true) →
          j = k) ∧
        ∀ i, i ≠ j → (insertionsOf grammar options id code session)[i]? =
          (insertionsOf grammar options id code other)[i]? := by
  obtain ⟨hlength, j, hj, hsame⟩ := insertionsOf_isolated grammar options id code h
  refine ⟨hlength, ?_⟩
  cases hsize : Describe.isTimeoutTooLarge settings.ai.timeoutMs with
  | false =>
    have hasked := (callsOf_asks hsettings henabled htime hsize grammar id code).2
    exact ⟨j, fun hsends => hj (hasked hsends), hsame⟩
  | true =>
    -- nothing is planned, so nothing is inserted
    refine ⟨k, fun _ => rfl, fun i _ => ?_⟩
    rw [insertionsOf_of_too_large hsettings henabled hsize,
      insertionsOf_of_too_large hsettings henabled hsize]

/-! ### Comments under the anchors of their targets -/

/-- The comment that was written down last under an anchor. -/
def commentUnder (targets : List Target) (insertions : List Insertion) (key : AnchorKey) :
    Option RawText :=
  ((targets.zip insertions).reverse.find? fun entry => entry.1.key == key).map (·.2.toRawText)

/-- Where no two targets share an anchor, each finds its own comment. -/
theorem commentUnder_eq {targets : List Target} {insertions : List Insertion}
    (hnodup : (targets.map Target.key).Nodup) (hlength : targets.length ≤ insertions.length)
    {entry : Target × Insertion} (hentry : entry ∈ targets.zip insertions) :
    commentUnder targets insertions entry.1.key = some entry.2.toRawText := by
  have hkeys : ((targets.zip insertions).map fun entry => entry.1.key).Nodup := by
    rw [← List.map_fst_zip hlength, List.map_map] at hnodup
    exact hnodup
  have hsome : ((targets.zip insertions).reverse.find? fun other =>
      other.1.key == entry.1.key).isSome = true :=
    List.find?_isSome.2 ⟨entry, List.mem_reverse.2 hentry, by simp⟩
  obtain ⟨found, hfound⟩ := Option.isSome_iff_exists.1 hsome
  -- what is found has the same key, so it is the same entry
  have hmem : found ∈ targets.zip insertions := List.mem_reverse.1 (List.mem_of_find?_eq_some hfound)
  have hkey : found.1.key = entry.1.key := by simpa using List.find?_some hfound
  obtain rfl := List.inj_on_of_nodup_map hkeys hmem hentry hkey
  rw [commentUnder, hfound, Option.map_some]

/-- Looking all comments up under the anchors gives the insertions back. -/
theorem map_commentUnder {targets : List Target} {insertions : List Insertion}
    (hnodup : (targets.map Target.key).Nodup)
    (hoffsets : List.Forall₂ (fun t i => i.offset = t.anchorOffset) targets insertions) :
    (targets.map fun t =>
      (⟨(commentUnder targets insertions t.key).getD .empty, t.anchorOffset⟩ : Insertion)) =
      insertions := by
  have hlength := hoffsets.length_eq
  refine List.ext_getElem (by simpa using hlength) fun i hi hi' => ?_
  rw [List.length_map] at hi
  have hentry : (targets[i], insertions[i]) ∈ targets.zip insertions :=
    List.mem_iff_getElem.2 ⟨i, by rw [List.length_zip]; omega, List.getElem_zip⟩
  have hoffset := hoffsets.get hi hi'
  rw [List.getElem_map, commentUnder_eq hnodup hlength.le hentry, Option.getD_some]
  exact congrArg (Insertion.mk _) hoffset.symm

theorem inferredOf_keys_nodup (grammar : Grammar) (options : Options) (id code : Text) :
    ((inferredOf grammar options id code).map Target.key).Nodup := by
  unfold inferredOf
  split
  · exact List.nodup_nil
  next range _ =>
    rw [List.map_map]
    exact List.pairwise_map.2 (collect_keys_nodup _ _)

/-- A run that is not stopped makes one insertion for each target. -/
theorem insertionsOf_offsets {describer : Option Describer}
    (hsettings : (Config.resolve options.sources).1 = .ok settings)
    (hdescriber : Describe.describer options.client settings.ai = .ok describer)
    (hgoes : stopOf grammar options id code = none) (session : Session) :
    List.Forall₂ (fun t i => i.offset = t.anchorOffset) (inferredOf grammar options id code)
      (insertionsOf grammar options id code session) := by
  rw [insertionsOf_eq, hgoes]
  rcases prepare_cases hsettings grammar id code with
    ⟨hnil, hprepare⟩ | ⟨range, hrange, -, hprepare⟩
  · rw [hnil, hprepare]
    exact .nil
  · rw [hdescriber] at hprepare
    replace hprepare : (prepare grammar options id code).1 =
      .ok (some (planOf grammar options.oracle settings range describer)) := hprepare
    rw [inferredOf_eq hrange settings describer, hprepare]
    refine List.forall₂_map_left_iff.2 (List.forall₂_iff_get.2 ?_)
    refine ⟨by simp [Plan.length_deal], fun i hi hi' => ?_⟩
    exact congrArg Insertion.offset List.getElem_zipWith

/-! ### The whole statement -/

/-- A run that asks a service calls its client about each of its targets, in their order and with
    the prompt for the target, if the timeout can be taken as a number of seconds. Its requests are
    what the client sends of these calls, whatever is answered. So there is one request for each
    target exactly if the timeout is no larger and the client sends them all, or if there is nothing
    to document.

    Another answer at one position changes at most one comment, and where the client sends all calls
    it is the one at that position; every target finds its own comment under its anchor. What can
    still stop the run is a call that stops its client, or a comment without a UTF-8 form. -/
theorem annotate_asks (hsettings : (Config.resolve options.sources).1 = .ok settings)
    (henabled : settings.ai.enabled = true) (htime : 0 < settings.ai.timeoutMs)
    (grammar : Grammar) (id code : Text) :
    (Describe.isTimeoutTooLarge settings.ai.timeoutMs = false →
      List.Forall₂ (AsksAbout settings.ai) (inferredOf grammar options id code)
        (callsOf grammar options id code)) ∧
    (∀ session, (annotate grammar options id code session).2.requests =
      session.requests ++ requestsOf grammar options id code) ∧
    (List.Forall₂ (AsksAbout settings.ai) (inferredOf grammar options id code)
        (requestsOf grammar options id code) ↔
      inferredOf grammar options id code = [] ∨
        Describe.isTimeoutTooLarge settings.ai.timeoutMs = false ∧
          ∀ call ∈ callsOf grammar options id code, options.client.sends call = true) ∧
    (∀ (session other : Session) (k : Nat),
      (∀ i, i ≠ k → session.answers[i]? = other.answers[i]?) →
      (insertionsOf grammar options id code session).length =
          (insertionsOf grammar options id code other).length ∧
        ∃ j, ((∀ call ∈ callsOf grammar options id code, options.client.sends call = true) →
            j = k) ∧
          ∀ i, i ≠ j → (insertionsOf grammar options id code session)[i]? =
            (insertionsOf grammar options id code other)[i]?) ∧
    (Describe.isTimeoutTooLarge settings.ai.timeoutMs = false →
      stopOf grammar options id code = none → ∀ session,
        insertionsOf grammar options id code session =
          (inferredOf grammar options id code).map fun t =>
            ⟨(commentUnder (inferredOf grammar options id code)
              (insertionsOf grammar options id code session) t.key).getD .empty,
              t.anchorOffset⟩) ∧
    ∀ session,
      (∀ e, stopOf grammar options id code = some e →
        (annotate grammar options id code session).1 = .error e) ∧
      (¬ Insertion.Whole (insertionsOf grammar options id code session) →
        (annotate grammar options id code session).1 = .error .unencodableText) := by
  refine ⟨fun hfits => ?_, annotate_requests grammar options id code,
    requestsOf_asks_iff hsettings henabled htime grammar id code, fun session other k h => ?_,
    fun hfits hgoes session => ?_, fun session => ⟨fun e he => ?_, annotate_of_torn⟩⟩
  · exact (callsOf_asks hsettings henabled htime hfits grammar id code).1
  · exact insertionsOf_isolated_of_sends hsettings henabled htime grammar id code h
  · obtain ⟨d, -, -, -, -, -, hdescriber, -⟩ := exists_describer hsettings henabled
    exact (map_commentUnder (inferredOf_keys_nodup grammar options id code)
      (insertionsOf_offsets hsettings (hdescriber hfits) hgoes session)).symm
  · exact annotate_of_stop he session

end Run

/-! ### The component, described by a service -/

/-- Options that ask a service through a client that sends everything. -/
def askingOptions (timeoutMs : Int) : Options :=
  ⟨⟨.absent, [("ai".toList, .obj [("apiKey".toList, .str "k".toList),
    ("timeoutMs".toList, .num (.int timeoutMs))])], false, []⟩, .none, .sending⟩

theorem resolve_askingOptions (timeoutMs : Int) (h : 0 < timeoutMs) :
    ∃ settings, (Config.resolve (askingOptions timeoutMs).sources).1 = .ok settings ∧
      settings.ai.enabled = true ∧ settings.ai.timeoutMs = timeoutMs ∧
      settings.templates = Config.defaultTemplates :=
  ⟨_, rfl, rfl, if_pos h, rfl⟩

theorem length_inferredOf_component (options : Options) :
    (inferredOf componentGrammar options "a.vue".toList component).length = 1 := by
  have hlength : (targetsOf componentGrammar componentRange).length = 1 := by decide +kernel
  rw [inferredOf, extract?_component]
  simpa using hlength

/-- With fifteen seconds for each answer, one request is made about the only function of the
    component, and it carries the prompt for that function. -/
theorem annotate_asks_component :
    ∃ settings, (Config.resolve (askingOptions 15000).sources).1 = .ok settings ∧
      settings.ai.enabled = true ∧ 0 < settings.ai.timeoutMs ∧
      ∃ target request,
        inferredOf componentGrammar (askingOptions 15000) "a.vue".toList component = [target] ∧
        AsksAbout settings.ai target request ∧
        ∀ answers, (annotate componentGrammar (askingOptions 15000) "a.vue".toList component
          ⟨answers, [], []⟩).2.requests = [request] := by
  obtain ⟨settings, hsettings, henabled, htimeout, -⟩ := resolve_askingOptions 15000 (by decide)
  have htime : 0 < settings.ai.timeoutMs := by rw [htimeout]; decide
  refine ⟨settings, hsettings, henabled, htime, ?_⟩
  obtain ⟨-, hrequests, hasks, -⟩ :=
    annotate_asks hsettings henabled htime componentGrammar "a.vue".toList component
  have hfits : Describe.isTimeoutTooLarge settings.ai.timeoutMs = false := by
    rw [htimeout]
    decide +kernel
  have hall := hasks.2 (.inr ⟨hfits, fun _ _ => rfl⟩)
  obtain ⟨target, htarget⟩ :=
    List.length_eq_one_iff.1 (length_inferredOf_component (askingOptions 15000))
  rw [htarget] at hall
  obtain ⟨request, rest, hask, hrest, hmade⟩ := List.forall₂_cons_left_iff.1 hall
  obtain rfl := List.forall₂_nil_left_iff.1 hrest
  rw [hmade] at hrequests
  exact ⟨target, request, htarget, hask, fun answers => hrequests ⟨answers, [], []⟩⟩

/-- A timeout of `10 ^ 500` milliseconds. -/
def hugeTimeoutMs : Int := 10 ^ 250 * 10 ^ 250

/-- With a timeout that is too large for a number of seconds, no request is made about the function
    of the component: the run fails instead. -/
theorem annotate_asks_nothing :
    ∃ settings, (Config.resolve (askingOptions hugeTimeoutMs).sources).1 = .ok settings ∧
      settings.ai.enabled = true ∧ 0 < settings.ai.timeoutMs ∧
      (∀ call, (askingOptions hugeTimeoutMs).client.sends call = true) ∧
      (annotate componentGrammar (askingOptions hugeTimeoutMs) "a.vue".toList component
        ⟨[], [], []⟩).2.requests = [] ∧
      (annotate componentGrammar (askingOptions hugeTimeoutMs) "a.vue".toList component
        ⟨[], [], []⟩).1 = .error .timeoutTooLarge ∧
      ¬ List.Forall₂ (AsksAbout settings.ai)
        (inferredOf componentGrammar (askingOptions hugeTimeoutMs) "a.vue".toList component) [] := by
  have hpositive : 0 < hugeTimeoutMs := by decide +kernel
  obtain ⟨settings, hsettings, henabled, htimeout, -⟩ :=
    resolve_askingOptions hugeTimeoutMs hpositive
  have hlarge : Describe.isTimeoutTooLarge settings.ai.timeoutMs = true := by
    rw [htimeout]
    decide +kernel
  obtain ⟨hnone, hfails⟩ := callsOf_too_large hsettings henabled hlarge componentGrammar
    "a.vue".toList component
  have hne : inferredOf componentGrammar (askingOptions hugeTimeoutMs) "a.vue".toList component ≠ [] :=
    List.ne_nil_of_length_pos (by rw [length_inferredOf_component]; decide)
  refine ⟨settings, hsettings, henabled, by rw [htimeout]; exact hpositive, fun _ => rfl, ?_,
    hfails hne _, fun hasks => hne (List.forall₂_nil_right_iff.1 hasks)⟩
  rw [annotate_requests, requestsOf, hnone]
  rfl

end DocAnnotator
