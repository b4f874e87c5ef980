import Mathlib.Data.List.TakeWhile
import DocAnnotator.Annotate

/-! ## What a run asks, and what it makes of the answers

    A service calls its client about every target, or about none. The client sends a call, or it
    does not; the first call that stops the client stops the run. The comment for a target is made
    of the target and of the answer to its own request.

    - `Client.requests`: the requests that are made of some calls.
    - `Describe.call?`: what a service asks of its client about a target.
    - `Describe.describe_text`, `Describe.describe_session`: a description, and what it does to the
      session.
    - `Plan.answered`, `Plan.deal`: the comment that an answer leads to, and the answer that each
      target gets.
    - `Plan.insertions_requests`: a run makes the requests of its targets, in their order.
    - `Plan.insertions_eq`: a run that no call stops makes each comment of the answer dealt to it.
    - `Plan.deal_isolated`: another answer in store reaches one target at most.
    - `Plan.deal_spent`: any answers to the targets can be in store.
-/

namespace DocAnnotator

/-- A result, unless something stops it. -/
def unlessStopped {α : Type} (stop : Option Error) (a : α) : Except Error α :=
  match stop with
  | some e => .error e
  | none => .ok a

@[simp]
theorem unlessStopped_none {α : Type} (a : α) : unlessStopped none a = .ok a := rfl

@[simp]
theorem unlessStopped_some {α : Type} (e : Error) (a : α) : unlessStopped (some e) a = .error e :=
  rfl

@[simp]
theorem unlessStopped_map {α β : Type} (stop : Option Error) (a : α) (f : α → β) :
    (unlessStopped stop a).map f = unlessStopped stop (f a) := by
  cases stop <;> rfl

namespace Session

@[simp]
theorem warn_answers (session : Session) (warnings : List Warning) :
    (session.warn warnings).answers = session.answers := rfl

@[simp]
theorem warn_requests (session : Session) (warnings : List Warning) :
    (session.warn warnings).requests = session.requests := rfl

@[simp]
theorem warn_nil (session : Session) : session.warn [] = session := by
  simp [warn]

end Session

/-! ### Calls -/

namespace Client

variable {client : Client} {call : Request} {calls : List Request}

/-- Does a client send a call? -/
def sends (client : Client) (call : Request) : Bool := client call = .sent

/-- The error with which a call stops a client, if it does. -/
def stop? (client : Client) (call : Request) : Option Error :=
  match client call with
  | .stopped message => some (.clientStopped message)
  | _ => none

/-- The requests that are made of some calls: those that are sent, up to the first that stops the
    client. -/
def requests (client : Client) (calls : List Request) : List Request :=
  (calls.takeWhile fun call => (client.stop? call).isNone).filter client.sends

theorem stop?_eq_none_of_sends (h : client.sends call = true) : client.stop? call = none := by
  have hsent : client call = .sent := by simpa [sends] using h
  rw [stop?, hsent]

theorem stop?_eq_some_iff {e : Error} :
    client.stop? call = some e ↔ ∃ message, client call = .stopped message ∧
      e = .clientStopped message := by
  unfold stop?
  split
  next message hstopped => simp [hstopped, eq_comm]
  next hgoes =>
    refine ⟨nofun, ?_⟩
    rintro ⟨message, hstopped, -⟩
    exact absurd hstopped (hgoes message)

theorem requests_sublist (client : Client) (calls : List Request) :
    (client.requests calls).Sublist calls :=
  List.filter_sublist.trans (List.takeWhile_sublist _)

theorem sends_of_mem_requests (h : call ∈ client.requests calls) : client.sends call = true :=
  (List.mem_filter.1 h).2

/-- A client that sends every call makes them all. -/
theorem requests_eq_self (h : ∀ call ∈ calls, client.sends call = true) :
    client.requests calls = calls := by
  have hgoes : calls.takeWhile (fun call => (client.stop? call).isNone) = calls :=
    List.takeWhile_eq_self_iff.2 fun call hcall => by simp [stop?_eq_none_of_sends (h call hcall)]
  rw [requests, hgoes]
  exact List.filter_eq_self.2 h

@[simp]
theorem requests_nil (client : Client) : client.requests [] = [] := rfl

/-- A call that does not stop the client is made, or it is not, and the others follow. -/
theorem requests_cons (h : client.stop? call = none) (calls : List Request) :
    client.requests (call :: calls) =
      ((some call).filter client.sends).toList ++ client.requests calls := by
  unfold requests
  rw [List.takeWhile_cons_of_pos (by simp [h]), List.filter_cons, Option.filter_some]
  split <;> rfl

/-- A call that stops the client is the last one, and it is not made. -/
theorem requests_cons_stopped {e : Error} (h : client.stop? call = some e) (calls : List Request) :
    client.requests (call :: calls) = [] := by
  unfold requests
  rw [List.takeWhile_cons_of_neg (by simp [h]), List.filter_nil]

end Client

namespace Describe

/-! ### One attempt -/

/-- The client of a service. -/
def client (describer : Option Describer) : Client :=
  (describer.map Describer.client).getD .sending

/-- What a service asks of its client about a target. Nothing is asked without time. -/
def call? (describer : Option Describer) (target : Target) : Option Request :=
  describer.bind fun d =>
    if d.timeoutMs ≤ 0 then none else some (request d (prompt d.promptTemplate target))

/-- The request that is made about a target. -/
def requestFor? (describer : Option Describer) (target : Target) : Option Request :=
  (call? describer target).filter (client describer).sends

/-- The error with which the call about a target stops the run, if it does. -/
def stopFor? (describer : Option Describer) (target : Target) : Option Error :=
  (call? describer target).bind (client describer).stop?

/-- The description that an attempt leads to, if it does not stop the run. -/
def Outcome.text (name : Text) : Outcome → RawText
  | .described said => if (cleanRaw said).isEmpty then fallback name else cleanRaw said
  | _ => fallback name

/-- The error with which an attempt stops the run, if it does. -/
def Outcome.stop? : Outcome → Option Error
  | .stopped message => some (.clientStopped message)
  | _ => none

/-- What is reported about an attempt. -/
def Outcome.warnings (name : Text) (timeoutMs : Int) : Outcome → List Warning
  | .timedOut => [.descriptionTimedOut name timeoutMs]
  | .failed fault => [.descriptionFailed name fault]
  | _ => []

/-- How an attempt ends with an answer, in case it makes a request at all. -/
def attempt (d : Describer) (target : Target) (answer : Answer) : Outcome :=
  if d.timeoutMs ≤ 0 then .timedOut
  else match d.client (request d (prompt d.promptTemplate target)) with
    | .refused => .failed none
    | .stopped message => .stopped message
    | .sent => outcome d.provider answer

/-- An attempt makes at most one request, and looks at the next answer only if it makes one. -/
theorem ask_eq (d : Describer) (target : Target) (session : Session) :
    ask d (prompt d.promptTemplate target) session =
      (attempt d target (session.answers.headD .refused),
        ⟨session.answers.drop (requestFor? (some d) target).toList.length,
          session.requests ++ (requestFor? (some d) target).toList, session.warnings⟩) := by
  unfold ask attempt requestFor? call? client
  by_cases htime : d.timeoutMs ≤ 0
  · simp [htime]
  · cases hclient : d.client (request d (prompt d.promptTemplate target)) <;>
      simp [htime, hclient, Client.sends, Option.filter, Session.send]

/-- A description is settled by one attempt. -/
theorem describe_eq (d : Describer) (target : Target) (session : Session) :
    describe (some d) target session =
      let ended := ask d (prompt d.promptTemplate target) session
      (unlessStopped ended.1.stop? (ended.1.text target.name),
        ended.2.warn (ended.1.warnings target.name d.timeoutMs)) := by
  simp only [describe]
  generalize ask d (prompt d.promptTemplate target) session = ended
  obtain ⟨ending, later⟩ := ended
  cases ending <;> simp [Outcome.stop?, Outcome.text, Outcome.warnings]

/-- No answer stops a run. -/
theorem stop?_outcome (provider : Provider) (answer : Answer) :
    (outcome provider answer).stop? = none := by
  fun_cases outcome provider answer <;> rfl

/-- An attempt stops the run if its call does. -/
theorem stop?_attempt (d : Describer) (target : Target) (answer : Answer) :
    (attempt d target answer).stop? = stopFor? (some d) target := by
  unfold attempt stopFor? call? client
  by_cases htime : d.timeoutMs ≤ 0
  · simp [htime, Outcome.stop?]
  · cases hclient : d.client (request d (prompt d.promptTemplate target)) with
    | sent => simp [htime, hclient, Client.stop?, stop?_outcome]
    | refused => simp [htime, hclient, Client.stop?, Outcome.stop?]
    | stopped message => simp [htime, hclient, Client.stop?, Outcome.stop?]

/-- The description that an answer leads to. -/
def told (describer : Option Describer) (target : Target) (answer : Answer) : RawText :=
  match describer with
  | none => fallback target.name
  | some d => (attempt d target answer).text target.name

/-- A description is made of the target and the next answer. -/
theorem describe_text (describer : Option Describer) (target : Target) (session : Session) :
    (describe describer target session).1 =
      unlessStopped (stopFor? describer target)
        (told describer target (session.answers.headD .refused)) := by
  cases describer with
  | none => rfl
  | some d =>
    rw [describe_eq, ask_eq]
    simp only [stop?_attempt]
    rfl

/-- The session after a description: its request is made, and one answer is used up by it. -/
theorem describe_session (describer : Option Describer) (target : Target) (session : Session) :
    (describe describer target session).2.requests =
        session.requests ++ (requestFor? describer target).toList ∧
      (describe describer target session).2.answers =
        session.answers.drop (requestFor? describer target).toList.length := by
  cases describer with
  | none => simp [describe, requestFor?, call?]
  | some d => rw [describe_eq, ask_eq]; simp

/-- Without a request the answer does not matter. -/
theorem told_of_no_request {describer : Option Describer} {target : Target}
    (h : requestFor? describer target = none) (a b : Answer) :
    told describer target a = told describer target b := by
  cases describer with
  | none => rfl
  | some d =>
    unfold requestFor? call? client at h
    unfold told attempt
    by_cases htime : d.timeoutMs ≤ 0
    · simp [htime]
    · cases hclient : d.client (request d (prompt d.promptTemplate target)) with
      | sent => simp [htime, hclient, Client.sends] at h
      | refused => simp [htime, hclient]
      | stopped message => simp [htime, hclient]

end Describe

/-! ### All targets -/

namespace Plan

/-- The client of a plan's service. -/
def client (plan : Plan) : Client := Describe.client plan.describer

/-- The call about a target, once its types are inferred. -/
def call? (plan : Plan) (target : Target) : Option Request :=
  Describe.call? plan.describer (target.infer plan.strategies)

/-- The request about a target. -/
def request? (plan : Plan) (target : Target) : Option Request :=
  Describe.requestFor? plan.describer (target.infer plan.strategies)

/-- The error with which the call about a target stops the run, if it does. -/
def stop? (plan : Plan) (target : Target) : Option Error :=
  Describe.stopFor? plan.describer (target.infer plan.strategies)

/-- The calls about all targets of a plan. -/
def calls (plan : Plan) : List Request := plan.targets.filterMap plan.call?

/-- The comment for a target that an answer leads to. -/
def answered (plan : Plan) (target : Target) (answer : Answer) : Insertion :=
  plan.insertion (target.infer plan.strategies)
    (Describe.told plan.describer (target.infer plan.strategies) answer)

/-- The answer that each target gets of those in store. It is used up where the target has a
    request; where it has none, the answer does not matter. -/
def deal (plan : Plan) (answers : List Answer) : List Target → List Answer
  | [] => []
  | target :: rest =>
    answers.headD .refused ::
      plan.deal (answers.drop (plan.request? target).toList.length) rest

theorem length_deal (plan : Plan) (answers : List Answer) (targets : List Target) :
    (plan.deal answers targets).length = targets.length := by
  induction targets generalizing answers with
  | nil => rfl
  | cons target rest ih => simp [deal, ih]

/-- Every answer that is dealt was in store, or stands for an answer that is not. -/
theorem mem_deal {plan : Plan} {answers : List Answer} {targets : List Target} {answer : Answer}
    (h : answer ∈ plan.deal answers targets) : answer = .refused ∨ answer ∈ answers := by
  induction targets generalizing answers with
  | nil => cases h
  | cons target rest ih =>
    rcases List.mem_cons.1 h with rfl | hrest
    · cases answers with
      | nil => exact .inl rfl
      | cons first others => exact .inr List.mem_cons_self
    · exact (ih hrest).imp_right (List.drop_subset _ _ ·)

/-- A comment is made of the target and the next answer. -/
theorem comment_text (plan : Plan) (target : Target) (session : Session) :
    (plan.comment target session).1 =
      unlessStopped (plan.stop? target)
        (plan.answered target (session.answers.headD .refused)) := by
  change (Describe.describe plan.describer (target.infer plan.strategies) session).1.map _ = _
  rw [Describe.describe_text, unlessStopped_map]
  rfl

theorem comment_session (plan : Plan) (target : Target) (session : Session) :
    (plan.comment target session).2.requests = session.requests ++ (plan.request? target).toList ∧
      (plan.comment target session).2.answers =
        session.answers.drop (plan.request? target).toList.length :=
  Describe.describe_session plan.describer (target.infer plan.strategies) session

theorem answered_of_no_request {plan : Plan} {target : Target} (h : plan.request? target = none)
    (a b : Answer) : plan.answered target a = plan.answered target b := by
  rw [answered, answered, Describe.told_of_no_request h a b]

/-- A target whose call stops the run ends it. -/
theorem insertions_cons_stopped {plan : Plan} {target : Target} {e : Error}
    (h : plan.stop? target = some e) (session : Session) (rest : List Target) :
    plan.insertions session (target :: rest) = (.error e, (plan.comment target session).2) := by
  have htext := plan.comment_text target session
  rw [h, unlessStopped_some] at htext
  rw [insertions]
  generalize plan.comment target session = commented at htext ⊢
  obtain ⟨comment, later⟩ := commented
  obtain rfl : comment = .error e := htext
  rfl

/-- Any other target gets its comment, and the run goes on. -/
theorem insertions_cons {plan : Plan} {target : Target} (h : plan.stop? target = none)
    (session : Session) (rest : List Target) :
    plan.insertions session (target :: rest) =
      ((plan.insertions (plan.comment target session).2 rest).1.map
          (plan.answered target (session.answers.headD .refused) :: ·),
        (plan.insertions (plan.comment target session).2 rest).2) := by
  have htext := plan.comment_text target session
  rw [h, unlessStopped_none] at htext
  rw [insertions]
  generalize plan.comment target session = commented at htext ⊢
  obtain ⟨comment, later⟩ := commented
  obtain rfl : comment = .ok _ := htext
  rfl

/-- A run makes the requests of its targets, one after the other. -/
theorem insertions_requests (plan : Plan) (session : Session) (targets : List Target) :
    (plan.insertions session targets).2.requests =
      session.requests ++ plan.client.requests (targets.filterMap plan.call?) := by
  induction targets generalizing session with
  | nil => simp [insertions]
  | cons target rest ih =>
    have hrequest : plan.request? target = (plan.call? target).filter plan.client.sends := rfl
    have hstop : plan.stop? target = (plan.call? target).bind plan.client.stop? := rfl
    have hmade := (plan.comment_session target session).1
    cases hcall : plan.call? target with
    | none =>
      -- nothing is asked about this target
      rw [hcall] at hrequest hstop
      rw [hrequest] at hmade
      rw [insertions_cons hstop, List.filterMap_cons_none hcall, ih, hmade]
      simp
    | some call =>
      rw [hcall] at hrequest hstop
      rw [hrequest] at hmade
      rw [List.filterMap_cons_some hcall]
      cases hgoes : plan.client.stop? call with
      | none =>
        rw [insertions_cons (hstop.trans hgoes), ih, hmade, Client.requests_cons hgoes,
          List.append_assoc]
      | some e =>
        -- the call stops the client, so it is not sent
        have hkept : (some call).filter plan.client.sends = none := by
          rw [Option.filter_some, if_neg]
          intro hsends
          rw [Client.stop?_eq_none_of_sends hsends] at hgoes
          cases hgoes
        rw [insertions_cons_stopped (hstop.trans hgoes), Client.requests_cons_stopped hgoes, hmade,
          hkept]
        rfl

/-- A run that no call stops makes every comment of the target and the answer dealt to it. -/
theorem insertions_eq (plan : Plan) (session : Session) (targets : List Target) :
    (plan.insertions session targets).1 =
      unlessStopped (targets.findSome? plan.stop?)
        (List.zipWith plan.answered targets (plan.deal session.answers targets)) := by
  induction targets generalizing session with
  | nil => rfl
  | cons target rest ih =>
    cases hstop : plan.stop? target with
    | some e => rw [insertions_cons_stopped hstop, List.findSome?_cons, hstop, unlessStopped_some]
    | none =>
      rw [insertions_cons hstop, List.findSome?_cons, hstop, ih,
        (plan.comment_session target session).2, unlessStopped_map]
      rfl

theorem insertions_ok {plan : Plan} {session : Session} {targets : List Target}
    {insertions : List Insertion} (h : (plan.insertions session targets).1 = .ok insertions) :
    targets.findSome? plan.stop? = none ∧
      insertions = List.zipWith plan.answered targets (plan.deal session.answers targets) := by
  rw [insertions_eq] at h
  cases hstop : targets.findSome? plan.stop? with
  | some e => rw [hstop] at h; cases h
  | none =>
    rw [hstop] at h
    exact ⟨rfl, (Except.ok.inj h).symm⟩

/-- Answers that differ at one position only reach the same targets but one, and where every target
    has a request that is the target at the position. -/
theorem deal_isolated (plan : Plan) {answers others : List Answer} {k : Nat}
    (h : ∀ i, i ≠ k → answers[i]? = others[i]?) (targets : List Target) :
    ∃ j, ((∀ target ∈ targets, (plan.request? target).isSome = true) → j = k) ∧
      ∀ i, i ≠ j → (List.zipWith plan.answered targets (plan.deal answers targets))[i]? =
        (List.zipWith plan.answered targets (plan.deal others targets))[i]? := by
  induction targets generalizing answers others k with
  | nil => exact ⟨k, fun _ => rfl, fun _ _ => rfl⟩
  | cons target rest ih =>
    cases hrequest : plan.request? target with
    | none =>
      -- the answers are all left to the targets behind this one
      obtain ⟨j, -, hsame⟩ := ih h
      refine ⟨j + 1, fun hall => ?_, fun i hi => ?_⟩
      · have hsome := hall target List.mem_cons_self
        rw [hrequest] at hsome
        cases hsome
      · simp only [deal, hrequest, List.zipWith_cons_cons, Option.toList_none, List.length_nil,
          List.drop_zero]
        rw [answered_of_no_request hrequest (answers.headD .refused) (others.headD .refused)]
        cases i with
        | zero => rfl
        | succ i => simpa using hsame i (by omega)
    | some request =>
      have htail : ∀ i, i + 1 ≠ k → (answers.drop 1)[i]? = (others.drop 1)[i]? := by
        intro i hi
        rw [List.getElem?_drop, List.getElem?_drop, Nat.add_comm, h (i + 1) hi]
      simp only [deal, hrequest, List.zipWith_cons_cons, Option.toList_some, List.length_singleton]
      cases k with
      | zero =>
        -- the others differ nowhere
        have hrest : answers.drop 1 = others.drop 1 :=
          List.ext_getElem? fun i => htail i (Nat.succ_ne_zero i)
        refine ⟨0, fun _ => rfl, fun i hi => ?_⟩
        rw [hrest]
        cases i with
        | zero => exact absurd rfl hi
        | succ i => rfl
      | succ k =>
        have hhead : answers.headD .refused = others.headD .refused := by
          rw [List.headD_eq_head?_getD, List.headD_eq_head?_getD, List.head?_eq_getElem?,
            List.head?_eq_getElem?, h 0 (Nat.succ_ne_zero k).symm]
        obtain ⟨j, hj, hsame⟩ := ih (k := k) fun i hi => htail i (by omega)
        refine ⟨j + 1, fun hall => ?_, fun i hi => ?_⟩
        · rw [hj fun target htarget => hall target (List.mem_cons_of_mem _ htarget)]
        · rw [hhead]
          cases i with
          | zero => rfl
          | succ i => simpa using hsame i (by omega)

end Plan

end DocAnnotator
