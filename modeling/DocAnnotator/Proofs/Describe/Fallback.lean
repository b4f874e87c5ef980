import DocAnnotator.Proofs.Json.Nearest
import DocAnnotator.Proofs.Requests
import DocAnnotator.Proofs.Text.Blank

/-! ## When a target gets the fallback description

    A description is that of the service or the fallback. It is the service's exactly where the
    service is reached and its answer says something in the service's own shape; every other attempt
    is reported once.

    - `Response.Says`: what a JSON value says in the shape of a service.
    - `Describe.readText_ok_iff`: the readers find what a value says, unless it is blank.
    - `Describe.clean_ne_nil`: a text that is not blank stays so on one line.
    - `Describe.isTimeoutTooLarge_iff`: the timeouts that are too large, as rational numbers.
    - `Describe.Asked`, `Describe.Calls`, `Describe.Arrives`: when a service is wanted, called and
      heard. What becomes of a call is the client's affair.
    - `Describe.describeUnder_falls_back`: the whole statement.
-/

namespace DocAnnotator

/-! ### What an answer says -/

namespace Response

/-- The texts of content parts, put together. A part of another shape has no text. -/
inductive Spells : List Json → RawText → Prop where
  | nil : Spells [] .empty
  | text {fields : Json.Fields} {s : RawText} {parts : List Json} {rest : RawText} :
    fields.get? "text".toList = some (.str s) → Spells parts rest →
      Spells (.obj fields :: parts) (s ++ rest)
  | other {part : Json} {parts : List Json} {rest : RawText} :
    (∀ (fields : Json.Fields) (s : RawText), part = .obj fields →
      fields.get? "text".toList ≠ some (.str s)) → Spells parts rest → Spells (part :: parts) rest

/-- What a JSON value says in the shape of a service: the content of the first choice's message, or
    the texts of the first candidate's parts. -/
inductive Says : Provider → Json → RawText → Prop where
  | chat {fields choice message : Json.Fields} {choices : List Json} {content : RawText} :
    fields.get? "choices".toList = some (.arr (.obj choice :: choices)) →
    choice.get? "message".toList = some (.obj message) →
    message.get? "content".toList = some (.str content) →
      Says .openai (.obj fields) content
  | content {fields candidate content : Json.Fields} {candidates parts : List Json}
      {said : RawText} :
    fields.get? "candidates".toList = some (.arr (.obj candidate :: candidates)) →
    candidate.get? "content".toList = some (.obj content) →
    content.get? "parts".toList = some (.arr parts) → Spells parts said →
      Says .gemini (.obj fields) said

/-- There is something to hear in a text that is not all blank. -/
theorem isSpoken_iff (s : Text) : isSpoken s = true ↔ ∃ c ∈ s, Text.isBlank c = false := by
  constructor
  · intro hspoken
    have hne : Text.trim s ≠ [] := by simpa [isSpoken] using hspoken
    obtain ⟨c, t, htrim⟩ := List.exists_cons_of_ne_nil hne
    obtain ⟨a, b, hs, -, -⟩ := Text.exists_trim s
    refine ⟨c, by rw [hs, htrim]; simp, ?_⟩
    apply Text.not_blank_of_trim (s := t)
    rw [← htrim, Text.trim_trim]
  · rintro ⟨c, hmem, hc⟩
    simp [isSpoken, List.ne_nil_of_mem (Text.mem_trim hmem hc)]

theorem field?_eq_some_iff {key : Text} {value item : Json} :
    value.field? key = some item ↔ ∃ fields : Json.Fields, value = .obj fields ∧
      fields.get? key = some item := by
  cases value <;> simp [Json.field?, Json.fields?]

theorem firstItem?_eq_some_iff {key : Text} {fields : Json.Fields} {item : Json} :
    firstItem? key fields = some item ↔ ∃ rest, fields.get? key = some (.arr (item :: rest)) := by
  unfold firstItem?
  split
  next first rest h => simp [h]
  next h =>
    constructor
    · intro hnone
      cases hnone
    · rintro ⟨rest, hrest⟩
      exact absurd hrest (h item rest)

theorem spells_iff (parts : List Json) (said : RawText) :
    Spells parts said ↔ RawText.join (parts.map partText) = said := by
  constructor
  · intro h
    induction h with
    | nil => rfl
    | text htext _ ih =>
      have hfield := field?_eq_some_iff.2 ⟨_, rfl, htext⟩
      rw [List.map_cons, RawText.join_cons, ih]
      simp only [partText, hfield]
    | @other part parts rest hother _ ih =>
      have hnone : partText part = .empty := by
        unfold partText
        split
        next s hs =>
          obtain ⟨fields, hpart, htext⟩ := field?_eq_some_iff.1 hs
          exact absurd htext (hother fields s hpart)
        next => rfl
      rw [List.map_cons, RawText.join_cons, hnone, ih, RawText.empty_append]
  · rintro rfl
    induction parts with
    | nil => exact .nil
    | cons part parts ih =>
      rw [List.map_cons, RawText.join_cons]
      unfold partText
      split
      next s hs =>
        obtain ⟨fields, rfl, htext⟩ := field?_eq_some_iff.1 hs
        exact .text htext ih
      next h =>
        rw [RawText.empty_append]
        refine .other (fun fields s hpart htext => h s ?_) ih
        exact field?_eq_some_iff.2 ⟨fields, hpart, htext⟩

theorem chatText_ok_iff (answer : Json) (said : RawText) :
    chatText answer = .ok said ↔ Says .openai answer said ∧ isSpoken said.text = true := by
  constructor
  · fun_cases chatText answer with
    | case2 fields choice hchoice message hmessage content hcontent hspoken =>
      -- the only branch that is no fault
      intro h
      obtain rfl := Except.ok.inj h
      obtain ⟨choices, hchoices⟩ := firstItem?_eq_some_iff.1 hchoice
      obtain ⟨fields', rfl, hfield⟩ := field?_eq_some_iff.1 hmessage
      exact ⟨.chat hchoices hfield hcontent, hspoken⟩
    | _ => exact nofun
  · rintro ⟨hshape, hspoken⟩
    cases hshape with
    | chat hchoices hmessage hcontent =>
      have hchoice := firstItem?_eq_some_iff.2 ⟨_, hchoices⟩
      have hfield := field?_eq_some_iff.2 ⟨_, rfl, hmessage⟩
      simp only [chatText, hchoice, hfield, hcontent, hspoken, if_true]

theorem contentText_ok_iff (answer : Json) (said : RawText) :
    contentText answer = .ok said ↔ Says .gemini answer said ∧ isSpoken said.text = true := by
  constructor
  · fun_cases contentText answer with
    | case2 fields candidate hcandidate parts hparts text hspoken =>
      intro h
      obtain rfl := Except.ok.inj h
      obtain ⟨candidates, hcandidates⟩ := firstItem?_eq_some_iff.1 hcandidate
      obtain ⟨content, hcontent, hfield⟩ := Option.bind_eq_some_iff.1 hparts
      obtain ⟨fields', rfl, hcontent'⟩ := field?_eq_some_iff.1 hcontent
      obtain ⟨fields'', rfl, hparts'⟩ := field?_eq_some_iff.1 hfield
      exact ⟨.content hcandidates hcontent' hparts' ((spells_iff _ _).2 rfl), hspoken⟩
    | _ => exact nofun
  · rintro ⟨hshape, hspoken⟩
    cases hshape with
    | content hcandidates hcontent hparts hspells =>
      have hcandidate := firstItem?_eq_some_iff.2 ⟨_, hcandidates⟩
      have hfield := field?_eq_some_iff.2 ⟨_, rfl, hcontent⟩
      have hfield' := field?_eq_some_iff.2 ⟨_, rfl, hparts⟩
      rw [← (spells_iff _ _).1 hspells] at hspoken ⊢
      simp only [contentText, hcandidate, hfield, Option.bind_some, hfield', hspoken, if_true]

end Response

namespace Describe

open Response

/-- The readers find what an answer says in the shape of the service, unless it is blank. -/
theorem readText_ok_iff (provider : Provider) (answer : Json) (said : RawText) :
    readText provider answer = .ok said ↔
      Says provider answer said ∧ ∃ c ∈ said.text, Text.isBlank c = false := by
  rw [← isSpoken_iff]
  cases provider with
  | openai => exact chatText_ok_iff answer said
  | gemini => exact contentText_ok_iff answer said

/-! ### What is heard -/

/-- A reply of success says something in the shape of the service. -/
def Arrives (provider : Provider) (answer : Answer) (said : RawText) : Prop :=
  ∃ status body json, answer = .reply status body ∧ 200 ≤ status ∧ status ≤ 299 ∧
    Json.readBytes? body = some json ∧ Says provider json said ∧
    ∃ c ∈ said.text, Text.isBlank c = false

theorem Arrives.spoken {provider : Provider} {answer : Answer} {said : RawText}
    (h : Arrives provider answer said) : ∃ c ∈ said.text, Text.isBlank c = false := by
  obtain ⟨-, -, -, -, -, -, -, -, hspoken⟩ := h
  exact hspoken

theorem outcome_eq_described_iff (provider : Provider) (answer : Answer) (said : RawText) :
    outcome provider answer = .described said ↔ Arrives provider answer said := by
  constructor
  · fun_cases outcome provider answer with
    | case4 status body hstatus json hjson text htext =>
      intro h
      obtain rfl := Outcome.described.inj h
      simp only [Bool.and_eq_true, decide_eq_true_eq] at hstatus
      exact ⟨status, body, json, rfl, hstatus.1, hstatus.2, hjson,
        (readText_ok_iff _ _ _).1 htext⟩
    | _ =>
      intro h
      cases h
  · rintro ⟨status, body, json, rfl, hlow, hhigh, hjson, hshape⟩
    have htext := (readText_ok_iff _ _ _).2 hshape
    simp only [outcome, hlow, hhigh, decide_true, Bool.and_self, if_true, hjson, htext]

/-- Putting a text on one line keeps what is not blank. -/
theorem mem_collapse {run s : Text} {c : Char} (hmem : c ∈ s) (hc : Text.isBlank c = false) :
    c ∈ collapse run s := by
  induction s generalizing run with
  | nil => cases hmem
  | cons d s ih =>
    rw [collapse]
    rcases List.mem_cons.1 hmem with rfl | htail
    · simp [hc]
    · by_cases hd : Text.isBlank d = true
      · rw [if_pos hd]
        exact ih htail
      · rw [if_neg hd]
        simp [ih htail]

/-- A text that is not all blank stays so on one line. -/
theorem clean_ne_nil {said : Text} (h : ∃ c ∈ said, Text.isBlank c = false) : clean said ≠ [] := by
  obtain ⟨c, hmem, hc⟩ := h
  exact List.ne_nil_of_mem (mem_collapse (Text.mem_trim hmem hc) hc)

/-! ### When a service is called -/

/-- The settings want descriptions: they are enabled and have a key. -/
def Asked (ai : AiSettings) : Prop :=
  ai.enabled = true ∧ ∃ key, ai.apiKey = some key ∧ key.text ≠ []

theorem isEnabled_iff (ai : AiSettings) : isEnabled ai = true ↔ Asked ai := by
  unfold isEnabled Asked
  cases ai.apiKey <;> simp [RawText.isEmpty]

/-- The service that settings with a key ask. -/
def serviceOf (client : Client) (ai : AiSettings) (provider : Provider) (key : RawText) :
    Describer :=
  ⟨provider, key, ai.model, ai.baseUrl, ai.timeoutMs, ai.promptTemplate, client⟩

/-- What settings call their client with about a target: descriptions are enabled, there is a key,
    and there is time. -/
inductive Calls (client : Client) (ai : AiSettings) (provider : Provider) (target : Target) :
    Request → Prop where
  | intro {key : RawText} :
    ai.enabled = true → ai.apiKey = some key → key.text ≠ [] → 0 < ai.timeoutMs →
      Calls client ai provider target
        (request (serviceOf client ai provider key) (prompt ai.promptTemplate target))

/-- A service is asked: the client sends the call about the target. -/
def Reaches (client : Client) (ai : AiSettings) (provider : Provider) (target : Target) : Prop :=
  ∃ call, Calls client ai provider target call ∧ client call = .sent

/-- The client stops a run at the call about the target. -/
def Stops (client : Client) (ai : AiSettings) (provider : Provider) (target : Target)
    (message : Text) : Prop :=
  ∃ call, Calls client ai provider target call ∧ client call = .stopped message

section Calls

variable {client : Client} {ai : AiSettings} {provider : Provider} {target : Target}

theorem Calls.asked {call : Request} (h : Calls client ai provider target call) : Asked ai := by
  cases h with
  | intro henabled hkey hne _ => exact ⟨henabled, _, hkey, hne⟩

theorem Reaches.asked (h : Reaches client ai provider target) : Asked ai := by
  obtain ⟨call, hcalls, -⟩ := h
  exact hcalls.asked

/-- The service of settings that want descriptions makes their call. -/
theorem calls_iff {key : RawText} (hasked : Asked ai) (hkey : ai.apiKey = some key)
    (call : Request) :
    Calls client ai provider target call ↔
      call? (some (serviceOf client ai provider key)) target = some call := by
  obtain ⟨henabled, key', hkey', hne⟩ := hasked
  obtain rfl := Option.some.inj (hkey.symm.trans hkey')
  constructor
  · intro h
    cases h with
    | intro _ hother _ htime =>
      obtain rfl := Option.some.inj (hkey.symm.trans hother)
      exact call?_eq (d := serviceOf client ai provider key) htime target
  · intro h
    by_cases htime : 0 < ai.timeoutMs
    · rw [call?_eq (d := serviceOf client ai provider key) htime] at h
      obtain rfl := Option.some.inj h
      exact .intro henabled hkey hne htime
    · cases (if_pos (Int.not_lt.1 htime)).symm.trans h

theorem reaches_iff {key : RawText} (hasked : Asked ai) (hkey : ai.apiKey = some key) :
    Reaches client ai provider target ↔
      (requestFor? (some (serviceOf client ai provider key)) target).isSome = true := by
  simp only [Reaches, calls_iff hasked hkey, requestFor?, Option.isSome_iff_exists,
    Option.filter_eq_some_iff]
  exact exists_congr fun call => and_congr_right fun _ => (decide_eq_true_iff).symm

theorem stops_iff {key message : _} (hasked : Asked ai) (hkey : ai.apiKey = some key) :
    Stops client ai provider target message ↔
      stopFor? (some (serviceOf client ai provider key)) target = some (.clientStopped message) := by
  simp only [Stops, calls_iff hasked hkey, stopFor?, Option.bind_eq_some_iff]
  refine exists_congr fun call => and_congr_right fun _ => ?_
  refine Iff.trans ?_ Client.stop?_eq_some_iff.symm
  constructor
  · exact fun h => ⟨message, h, rfl⟩
  · rintro ⟨other, hother, heq⟩
    rwa [Error.clientStopped.inj heq]

end Calls

/-- A timeout is too large where its number of seconds is beyond the largest binary fraction. -/
theorem isTimeoutTooLarge_iff (timeoutMs : Int) :
    isTimeoutTooLarge timeoutMs = true ↔ Number.beyond ≤ |(timeoutMs : ℚ)| / 1000 := by
  have hvalue : Number.decimalValue timeoutMs.natAbs (-3) = |(timeoutMs : ℚ)| / 1000 := by
    rw [Number.decimalValue, Int.natCast_natAbs, Int.cast_abs]
    norm_num
    ring
  have hvanishing := Number.vanishing_lt_beyond
  unfold isTimeoutTooLarge
  rcases Number.roundDecimal_cases timeoutMs.natAbs (-3) with
    ⟨hround, hle⟩ | ⟨hround, hle⟩ | ⟨b, hround, -, hlt, -⟩
  · rw [hround, ← hvalue]
    simpa using hle.trans_lt hvanishing
  · rw [hround, ← hvalue]
    simpa using hle
  · rw [hround, ← hvalue]
    simpa using hlt

/-- The service of settings with a known one. -/
theorem describer_cases {ai : AiSettings} {provider : Provider} (client : Client)
    (hprovider : Provider.ofName? ai.provider = some provider) :
    (¬ Asked ai ∧ describer client ai = .ok none) ∨
    (Asked ai ∧ Number.beyond ≤ |(ai.timeoutMs : ℚ)| / 1000 ∧
      describer client ai = .error .timeoutTooLarge) ∨
    ∃ key, Asked ai ∧ ai.apiKey = some key ∧ ¬ Number.beyond ≤ |(ai.timeoutMs : ℚ)| / 1000 ∧
      describer client ai = .ok (some (serviceOf client ai provider key)) := by
  by_cases hasked : Asked ai
  · have ⟨henabled, key, hkey, hne⟩ := hasked
    have hdescriber := describer_eq client henabled (name_of_ofName? hprovider) hkey hne
    by_cases hlarge : isTimeoutTooLarge ai.timeoutMs = true
    · rw [if_pos hlarge] at hdescriber
      exact .inr (.inl ⟨hasked, (isTimeoutTooLarge_iff _).1 hlarge, hdescriber⟩)
    · rw [if_neg hlarge] at hdescriber
      rw [isTimeoutTooLarge_iff] at hlarge
      exact .inr (.inr ⟨key, hasked, hkey, hlarge, hdescriber⟩)
  · refine .inl ⟨hasked, ?_⟩
    rw [← isEnabled_iff] at hasked
    rw [describer, if_neg hasked]

/-! ### One description -/

/-- A warning says that a target has no description. -/
def TellsOf (target : Target) (timeoutMs : Int) (warning : Warning) : Prop :=
  warning = .descriptionTimedOut target.name timeoutMs ∨
    ∃ fault, warning = .descriptionFailed target.name fault

/-- An attempt succeeds if its request is made and something arrives. -/
theorem attempt_eq_described_iff (d : Describer) (target : Target) (answer : Answer)
    (said : RawText) :
    attempt d target answer = .described said ↔
      (requestFor? (some d) target).isSome = true ∧ Arrives d.provider answer said := by
  rw [← outcome_eq_described_iff]
  unfold attempt requestFor? call? client
  by_cases htime : d.timeoutMs ≤ 0
  · simp [htime]
  · cases hclient : d.client (request d (prompt d.promptTemplate target)) <;>
      simp [htime, hclient, Client.sends, Option.filter]

/-- The text and the warnings of a description that is not stopped are those of its one attempt. -/
theorem describe_attempt {d : Describer} {target : Target} (hgoes : stopFor? (some d) target = none)
    (session : Session) :
    (describe (some d) target session).1 =
        .ok ((attempt d target (session.answers.headD .refused)).text target.name) ∧
      (describe (some d) target session).2.warnings = session.warnings ++
        (attempt d target (session.answers.headD .refused)).warnings target.name d.timeoutMs := by
  rw [describe_eq, ask_eq]
  simp only [stop?_attempt, hgoes]
  exact ⟨rfl, rfl⟩

section Attempt

variable {d : Describer} {target : Target} {session : Session}

/-- A text that arrives is described, on one line; it is not empty, so it needs no fallback. -/
theorem describe_of_described {said : RawText} (hgoes : stopFor? (some d) target = none)
    (h : attempt d target (session.answers.headD .refused) = .described said)
    (hspoken : ∃ c ∈ said.text, Text.isBlank c = false) :
    (describe (some d) target session).1 = .ok (cleanRaw said) ∧ (cleanRaw said).text ≠ [] ∧
      (describe (some d) target session).2.warnings = session.warnings := by
  obtain ⟨htext, hwarnings⟩ := describe_attempt hgoes session
  rw [h] at htext hwarnings
  have hne : (cleanRaw said).text ≠ [] := clean_ne_nil hspoken
  refine ⟨?_, hne, hwarnings.trans (List.append_nil _)⟩
  rw [htext, Outcome.text, if_neg]
  simpa [RawText.isEmpty] using hne

/-- Any other attempt leaves the fallback and one warning. -/
theorem describe_of_not_described (hgoes : stopFor? (some d) target = none)
    (h : ∀ said, attempt d target (session.answers.headD .refused) ≠ .described said) :
    (describe (some d) target session).1 = .ok (fallback target.name) ∧
      ∃ warning, TellsOf target d.timeoutMs warning ∧
        (describe (some d) target session).2.warnings = session.warnings ++ [warning] := by
  obtain ⟨htext, hwarnings⟩ := describe_attempt hgoes session
  rw [htext, hwarnings]
  cases hending : attempt d target (session.answers.headD .refused) with
  | described said => exact absurd hending (h said)
  | timedOut => exact ⟨rfl, _, .inl rfl, rfl⟩
  | failed fault => exact ⟨rfl, _, .inr ⟨fault, rfl⟩, rfl⟩
  | stopped message =>
    have hstop := stop?_attempt d target (session.answers.headD .refused)
    rw [hending, hgoes] at hstop
    cases hstop

end Attempt

theorem fallback_ne_nil (name : Text) : fallback name ≠ [] := by
  simp [fallback]

/-! ### The whole statement -/

/-- A description under settings: their service is made, and asked once. -/
def describeUnder (client : Client) (ai : AiSettings) (target : Target) (session : Session) :
    Except Error (RawText × Session) :=
  (describer client ai).bind fun service =>
    let ended := describe service target session
    ended.1.map (·, ended.2)

section Settled

variable (client : Client) (ai : AiSettings) (provider : Provider) (target : Target)
  (session : Session)

/-- A service is asked and its next answer says something. -/
def Delivers (said : RawText) : Prop :=
  Reaches client ai provider target ∧
    Arrives provider (session.answers.headD .refused) said

/-- What a description is, and what is left of the session, by what the service delivers. -/
structure Settled (text : RawText) (later : Session) : Prop where
  nonempty : text.text ≠ []
  /-- A service that is reached is asked once about the target. -/
  asked : Reaches client ai provider target → ∃ request, AsksAbout ai target request ∧
    later.requests = session.requests ++ [request]
  unreached : ¬ Reaches client ai provider target → later.requests = session.requests
  /-- The text itself is not empty, so no second look at it is needed. -/
  delivered : ∀ said, Delivers client ai provider target session said →
    text = cleanRaw said ∧ (cleanRaw said).text ≠ [] ∧ later.warnings = session.warnings
  missed : (∀ said, ¬ Delivers client ai provider target session said) →
    text = fallback target.name
  reported : Asked ai → (∀ said, ¬ Delivers client ai provider target session said) →
    ∃ warning, TellsOf target ai.timeoutMs warning ∧
      later.warnings = session.warnings ++ [warning]
  unasked : ¬ Asked ai → later = session

variable {ai}

/-- Without a service a description is the fallback, and the session stays as it is. -/
theorem settled_none (hasked : ¬ Asked ai) :
    Settled client ai provider target session (fallback target.name) session where
  nonempty := fallback_ne_nil _
  asked := fun hreaches => absurd hreaches.asked hasked
  unreached := fun _ => rfl
  delivered := fun _ hdelivers => absurd hdelivers.1.asked hasked
  missed := fun _ => rfl
  reported := fun hasked' => absurd hasked' hasked
  unasked := fun _ => rfl

/-- With a service a description that is not stopped is settled by its one attempt. -/
theorem settled_some {key : RawText} (hasked : Asked ai) (hkey : ai.apiKey = some key)
    (hgoes : stopFor? (some (serviceOf client ai provider key)) target = none) :
    ∃ text, (describe (some (serviceOf client ai provider key)) target session).1 = .ok text ∧
      Settled client ai provider target session text
        (describe (some (serviceOf client ai provider key)) target session).2 := by
  have hreaches : Reaches client ai provider target ↔
      (requestFor? (some (serviceOf client ai provider key)) target).isSome = true :=
    reaches_iff hasked hkey
  have hdelivers (said : RawText) : Delivers client ai provider target session said ↔
      attempt (serviceOf client ai provider key) target (session.answers.headD .refused) =
        .described said := by
    rw [Delivers, hreaches, attempt_eq_described_iff]
    rfl
  have hdelivered (said : RawText) (hsaid : Delivers client ai provider target session said) :=
    describe_of_described hgoes ((hdelivers said).1 hsaid) hsaid.2.spoken
  have hmissed (hnone : ∀ said, ¬ Delivers client ai provider target session said) :=
    describe_of_not_described hgoes fun said hsaid => hnone said ((hdelivers said).2 hsaid)
  obtain ⟨htext, -⟩ := describe_attempt hgoes session
  have hrequests :=
    (describe_session (some (serviceOf client ai provider key)) target session).1
  refine ⟨_, htext, ?_, fun hreached => ?_, fun hunreached => ?_, fun said hsaid => ?_,
    fun hnone => ?_, fun _ hnone => (hmissed hnone).2, fun hnot => absurd hasked hnot⟩
  · -- neither the text that is delivered nor the fallback is empty
    by_cases hsome : ∃ said, Delivers client ai provider target session said
    · obtain ⟨said, hsaid⟩ := hsome
      obtain ⟨hclean, hne, -⟩ := hdelivered said hsaid
      rwa [Except.ok.inj (htext.symm.trans hclean)]
    · rw [Except.ok.inj (htext.symm.trans (hmissed (not_exists.1 hsome)).1)]
      exact fallback_ne_nil _
  · obtain ⟨request, hrequest⟩ := Option.isSome_iff_exists.1 (hreaches.1 hreached)
    refine ⟨request, ?_, by rw [hrequests, hrequest]; rfl⟩
    obtain ⟨hcall, -⟩ := Option.filter_eq_some_iff.1 hrequest
    obtain ⟨henabled, -, -, htime⟩ := (calls_iff hasked hkey request).2 hcall
    exact prompt?_request _ _
  · rw [hreaches, Option.not_isSome_iff_eq_none] at hunreached
    rw [hrequests, hunreached]
    exact List.append_nil _
  · obtain ⟨hclean, hne, hwarnings⟩ := hdelivered said hsaid
    exact ⟨Except.ok.inj (htext.symm.trans hclean), hne, hwarnings⟩
  · exact Except.ok.inj (htext.symm.trans (hmissed hnone).1)

end Settled

/-- The settings want descriptions, and their timeout is no number of seconds. -/
def TooLong (ai : AiSettings) : Prop :=
  Asked ai ∧ Number.beyond ≤ |(ai.timeoutMs : ℚ)| / 1000

/-- Under settings that name a known service, a target gets the text that the service delivers, on
    one line, or the fallback, which is reported once if descriptions are wanted. Only a timeout
    that is no number of seconds stops it, and a client that stops at the call. -/
theorem describeUnder_falls_back {ai : AiSettings} {provider : Provider}
    (hprovider : Provider.ofName? ai.provider = some provider) (client : Client) (target : Target)
    (session : Session) :
    (¬ TooLong ai → (∀ message, ¬ Stops client ai provider target message) →
      ∃ text later, describeUnder client ai target session = .ok (text, later) ∧
        Settled client ai provider target session text later) ∧
    (TooLong ai → describeUnder client ai target session = .error .timeoutTooLarge) ∧
    (¬ TooLong ai → ∀ message, Stops client ai provider target message →
      describeUnder client ai target session = .error (.clientStopped message)) := by
  unfold describeUnder TooLong
  rcases describer_cases client hprovider with
    ⟨hasked, hdescriber⟩ | ⟨hasked, hlarge, hdescriber⟩ |
    ⟨key, hasked, hkey, hfits, hdescriber⟩
  · rw [hdescriber]
    refine ⟨fun _ _ => ⟨_, _, rfl, settled_none client provider target session hasked⟩,
      fun hlong => absurd hlong.1 hasked, ?_⟩
    rintro - message ⟨call, hcalls, -⟩
    exact absurd hcalls.asked hasked
  · rw [hdescriber]
    exact ⟨fun hshort => absurd ⟨hasked, hlarge⟩ hshort, fun _ => rfl,
      fun hshort => absurd ⟨hasked, hlarge⟩ hshort⟩
  · rw [hdescriber]
    have htext := describe_text (some (serviceOf client ai provider key)) target session
    refine ⟨fun _ hgoes => ?_, fun hlong => absurd hlong.2 hfits, fun _ message hstops => ?_⟩
    · have hnone : stopFor? (some (serviceOf client ai provider key)) target = none := by
        refine Option.eq_none_iff_forall_ne_some.2 fun e he => ?_
        obtain ⟨call, -, hstop⟩ := Option.bind_eq_some_iff.1 he
        obtain ⟨message, -, rfl⟩ := Client.stop?_eq_some_iff.1 hstop
        exact hgoes message ((stops_iff hasked hkey).2 he)
      obtain ⟨text, hdescribed, hsettled⟩ :=
        settled_some client provider target session hasked hkey hnone
      refine ⟨text, _, ?_, hsettled⟩
      change (describe _ target session).1.map _ = _
      rw [hdescribed]
      rfl
    · change (describe _ target session).1.map _ = _
      rw [htext, (stops_iff hasked hkey).1 hstops]
      rfl

/-! ### One answer under two timeouts -/

/-- Settings that ask a chat service. -/
def chatSettings (timeoutMs : Int) : AiSettings :=
  ⟨"openai".toList, true, "m".toList, "https://h/x".toList, timeoutMs, "p".toList,
    some "k".toList⟩

/-- A reply of the chat service, with a description on two lines. -/
def chatReply : Bytes :=
  Utf8.encode ("\x7b\"choices\": [\x7b\"message\": \x7b\"content\": " ++
    "\" Does\\n f.\\n\"\x7d\x7d]\x7d").toList

/-- A session in which the service replies once. -/
def chatSession : Session := ⟨[.reply 200 chatReply], [], []⟩

/-- A function without parameters. -/
def bareTarget : Target :=
  ⟨⟨"function_declaration", 0, 15⟩, "f".toList, [], none, "function f() \x7b\x7d".toList, 0,
    false, false, none⟩

theorem reaches_chatSettings {timeoutMs : Int} (h : 0 < timeoutMs) :
    Reaches .sending (chatSettings timeoutMs) .openai bareTarget :=
  ⟨_, .intro rfl rfl (by decide) h, rfl⟩

theorem delivers_chatSession {timeoutMs : Int} (h : 0 < timeoutMs) :
    Delivers .sending (chatSettings timeoutMs) .openai bareTarget chatSession
      (.ofText " Does\n f.\n".toList) := by
  have hread : ((Json.readBytes? chatReply).bind fun json => (readText .openai json).toOption) =
      some (.ofText " Does\n f.\n".toList) := by decide +kernel
  obtain ⟨json, hjson, htext⟩ := Option.bind_eq_some_iff.1 hread
  have hshape : readText .openai json = .ok (.ofText " Does\n f.\n".toList) := by
    cases hok : readText .openai json with
    | error fault =>
      rw [hok] at htext
      cases htext
    | ok said =>
      rw [hok] at htext
      rw [Option.some.inj htext]
  exact ⟨reaches_chatSettings h, 200, chatReply, json, rfl, by decide, by decide, hjson,
    (readText_ok_iff _ _ _).1 hshape⟩

/-- With fifteen seconds for it, the reply becomes the description, without a warning. -/
theorem describeUnder_falls_back_chat :
    Provider.ofName? (chatSettings 15000).provider = some .openai ∧
    ∃ later, describeUnder .sending (chatSettings 15000) bareTarget chatSession =
        .ok ("Does f.".toList, later) ∧
      later.warnings = [] ∧
      ∃ request, AsksAbout (chatSettings 15000) bareTarget request ∧
        later.requests = [request] := by
  have hknown : Provider.ofName? (chatSettings 15000).provider = some .openai := by decide
  refine ⟨hknown, ?_⟩
  have hshort : ¬ TooLong (chatSettings 15000) := by
    rintro ⟨-, hlarge⟩
    rw [← isTimeoutTooLarge_iff] at hlarge
    exact absurd hlarge (by decide +kernel)
  obtain ⟨text, later, hreturns, hsettled⟩ :=
    (describeUnder_falls_back hknown .sending bareTarget chatSession).1 hshort
      fun message ⟨_, _, hstopped⟩ => Admission.noConfusion hstopped
  obtain ⟨htext, -, hwarnings⟩ := hsettled.delivered _ (delivers_chatSession (by decide))
  have hclean : cleanRaw (.ofText " Does\n f.\n".toList) = .ofText "Does f.".toList := by
    decide +kernel
  rw [htext, hclean] at hreturns
  exact ⟨later, hreturns, hwarnings, hsettled.asked (reaches_chatSettings (by decide))⟩

/-- With a timeout of `10 ^ 500` milliseconds the same reply gives no description at all. -/
theorem describeUnder_refuses_timeout :
    Provider.ofName? (chatSettings hugeTimeoutMs).provider = some .openai ∧
      (∀ message, ¬ Stops .sending (chatSettings hugeTimeoutMs) .openai bareTarget message) ∧
      Delivers .sending (chatSettings hugeTimeoutMs) .openai bareTarget chatSession
        (.ofText " Does\n f.\n".toList) ∧
      describeUnder .sending (chatSettings hugeTimeoutMs) bareTarget chatSession =
        .error .timeoutTooLarge := by
  refine ⟨by decide, fun message ⟨_, _, hstopped⟩ => Admission.noConfusion hstopped,
    delivers_chatSession (by decide +kernel), ?_⟩
  have hlarge : isTimeoutTooLarge (chatSettings hugeTimeoutMs).timeoutMs = true := by
    decide +kernel
  have hprovider : (chatSettings hugeTimeoutMs).provider = Provider.openai.name := rfl
  rw [describeUnder, describer_eq .sending rfl hprovider rfl (by decide), if_pos hlarge]
  rfl

end Describe

end DocAnnotator
