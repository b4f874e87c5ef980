import DocAnnotator.Config.Settings
import DocAnnotator.Describe.Prompt
import DocAnnotator.Error
import DocAnnotator.Json.Encoding
import DocAnnotator.Json.Nearest
import DocAnnotator.Warning

/-! ## Description services

    A session holds the answers that the outside world has in store, one for each request, and
    records the requests and warnings of a run. `describe` asks the service about one target; a
    target that no service describes gets the fallback description.

    Requests are handed to a client, which is a parameter: which of them it can send, and which of
    them stop the run, is its own affair.
-/

namespace DocAnnotator

/-- A request to a description service, as a client is handed it. -/
structure Request where
  url : RawText
  /-- The key, where it goes into the query. -/
  key : Option RawText
  /-- The authorization header, where the key goes into it. -/
  authorization : Option RawText
  body : Json

/-- What a client does with a request. -/
inductive Admission where
  | sent
  /-- It cannot be sent, which is a failed attempt like any other. -/
  | refused
  /-- It cannot be sent, and the error that says so ends the run. -/
  | stopped (message : Text)
  deriving DecidableEq

/-- A client, by what it does with each request. -/
abbrev Client := Request → Admission

/-- The client that can send everything. -/
def Client.sending : Client := fun _ => .sent

/-- What happens to a request. -/
inductive Answer where
  /-- A reply with a status and a body. -/
  | reply (status : Nat) (body : Bytes)
  /-- The connection fails. -/
  | refused
  /-- No reply ever comes. -/
  | silent

/-- The outside world during a run: the answers still in store, and what the run has said so far. -/
structure Session where
  answers : List Answer
  requests : List Request := []
  warnings : List Warning := []

namespace Session

/-- Reports warnings. -/
def warn (session : Session) (warnings : List Warning) : Session :=
  { session with warnings := session.warnings ++ warnings }

/-- Makes a request and takes the next answer. When no answer is left the connection fails. -/
def send (session : Session) (request : Request) : Answer × Session :=
  (session.answers.headD .refused,
    { session with answers := session.answers.tail, requests := session.requests ++ [request] })

end Session

/-- A service that can be asked: it is known, enabled and has a key. -/
structure Describer where
  provider : Provider
  key : RawText
  model : RawText
  baseUrl : RawText
  timeoutMs : Int
  promptTemplate : RawText
  client : Client

namespace Describe

/-- Are descriptions asked for? It takes a key. -/
def isEnabled (ai : AiSettings) : Bool := ai.enabled && (ai.apiKey.map (!·.isEmpty)).getD false

/-- Is a timeout in milliseconds, as a number of seconds, too large for a binary fraction? -/
def isTimeoutTooLarge (timeoutMs : Int) : Bool :=
  match Number.roundDecimal timeoutMs.natAbs (-3) with
  | .tooLarge => true
  | _ => false

/-- The service of the settings, which is asked through a client; none where descriptions are not
    asked for. -/
def describer (client : Client) (ai : AiSettings) : Except Error (Option Describer) :=
  if isEnabled ai then
    match Provider.ofName? ai.provider with
    | some provider =>
      if isTimeoutTooLarge ai.timeoutMs then .error .timeoutTooLarge
      else .ok (some ⟨provider, ai.apiKey.getD .empty, ai.model, ai.baseUrl, ai.timeoutMs,
        ai.promptTemplate, client⟩)
    | none => .error (.unknownProvider ai.provider)
  else .ok none

/-- What the service is told to be. -/
def systemPrompt : Text :=
  ("You are a helpful assistant that generates concise JSDoc descriptions for functions. " ++
    "Provide only the description text without any markdown formatting, code blocks, " ++
    "or JSDoc syntax. Keep it brief and professional.").toList

/-- The temperature that is asked for: two tenths. -/
def temperature : Json := .num (.decimal 2 (-1))

/-- The body of a chat request. -/
def chatBody (model prompt : RawText) : Json :=
  let message (role : Text) (content : RawText) : Json :=
    .obj [("role".toList, .str role), ("content".toList, .str content)]
  .obj [("model".toList, .str model),
    ("messages".toList,
      .arr [message "system".toList systemPrompt, message "user".toList prompt]),
    ("temperature".toList, temperature)]

/-- The body of a content request. -/
def contentBody (prompt : RawText) : Json :=
  let parts (text : RawText) : Text × Json :=
    ("parts".toList, .arr [.obj [("text".toList, .str text)]])
  .obj [("systemInstruction".toList, .obj [parts systemPrompt]),
    ("contents".toList, .arr [.obj [("role".toList, .str "user".toList), parts prompt]]),
    ("generationConfig".toList, .obj [("temperature".toList, temperature)])]

/-- The address of a content request: base address, model and method. -/
def contentUrl (baseUrl model : RawText) : RawText :=
  let base := (baseUrl.text.reverse.dropWhile (· == '/')).reverse
  ⟨base, baseUrl.torn⟩ ++ .ofText "/models/".toList ++ model ++ .ofText ":generateContent".toList

/-- The request with a prompt. -/
def request (d : Describer) (prompt : RawText) : Request :=
  match d.provider with
  | .openai =>
    ⟨d.baseUrl, none, some (.ofText "Bearer ".toList ++ d.key), chatBody d.model prompt⟩
  | .gemini => ⟨contentUrl d.baseUrl d.model, some d.key, none, contentBody prompt⟩

/-- How an attempt at a description ends. -/
inductive Outcome where
  | described (said : RawText)
  | timedOut
  | failed (fault : Option Response.Fault)
  /-- The client stops the run. -/
  | stopped (message : Text)

/-- Reads the description out of a reply's JSON. -/
def readText (provider : Provider) (answer : Json) : Except Response.Fault RawText :=
  match provider with
  | .openai => Response.chatText answer
  | .gemini => Response.contentText answer

/-- What an answer amounts to. Only a status from 200 to 299 is success. -/
def outcome (provider : Provider) : Answer → Outcome
  | .silent => .timedOut
  | .refused => .failed none
  | .reply status body =>
    if 200 ≤ status && status ≤ 299 then
      match Json.readBytes? body with
      | none => .failed none
      | some json =>
        match readText provider json with
        | .ok said => .described said
        | .error fault => .failed (some fault)
    else .failed none

/-- One attempt at a description. Without time there is no request. -/
def ask (d : Describer) (prompt : RawText) (session : Session) : Outcome × Session :=
  if d.timeoutMs ≤ 0 then (.timedOut, session)
  else match d.client (request d prompt) with
    | .refused => (.failed none, session)
    | .stopped message => (.stopped message, session)
    | .sent =>
      let (answer, session) := session.send (request d prompt)
      (outcome d.provider answer, session)

/-- The description of a target. Every failed attempt is reported, and only a client can stop the
    run. -/
def describe (describer : Option Describer) (target : Target) (session : Session) :
    Except Error RawText × Session :=
  match describer with
  | none => (.ok (fallback target.name), session)
  | some d =>
    match ask d (prompt d.promptTemplate target) session with
    | (.described said, session) =>
      let description := cleanRaw said
      (.ok (if description.isEmpty then fallback target.name else description), session)
    | (.timedOut, session) =>
      (.ok (fallback target.name), session.warn [.descriptionTimedOut target.name d.timeoutMs])
    | (.failed fault, session) =>
      (.ok (fallback target.name), session.warn [.descriptionFailed target.name fault])
    | (.stopped message, session) => (.error (.clientStopped message), session)

end Describe

end DocAnnotator
