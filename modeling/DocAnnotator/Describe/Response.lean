import DocAnnotator.Json.Basic
import DocAnnotator.Text.Blank

/-! ## Answers of the description services

    Two services answer with a description, each in a JSON shape of its own. `chatText` and
    `contentText` read the description out of an answer, or say what the answer lacks.
-/

namespace DocAnnotator.Response

/-- What an answer lacks. -/
inductive Fault where
  | notObject
  | noChoices
  | noMessage
  | emptyMessage
  | noCandidates
  | noParts
  | emptyText
  deriving DecidableEq

/-- The text of a fault. -/
def Fault.message : Fault → Text
  | .notObject => "Response is not a JSON object.".toList
  | .noChoices => "Response has no choices.".toList
  | .noMessage => "Response has no message in the first choice.".toList
  | .emptyMessage => "Response message is empty.".toList
  | .noCandidates => "Response has no candidates.".toList
  | .noParts => "Response candidate has no content parts.".toList
  | .emptyText => "Response candidate text is empty.".toList

/-- The first item of a non-empty array in a field. -/
def firstItem? (key : Text) (fields : Json.Fields) : Option Json :=
  match fields.get? key with
  | some (.arr (item :: _)) => some item
  | _ => none

/-- Is there anything but blanks in a text? -/
def isSpoken (s : Text) : Bool := !(Text.trim s).isEmpty

/-- The description in an answer of the chat kind: the content of the first choice's message. -/
def chatText (answer : Json) : Except Fault RawText :=
  match answer with
  | .obj fields =>
    match firstItem? "choices".toList fields with
    | none => .error .noChoices
    | some choice =>
      match choice.field? "message".toList with
      | some (.obj message) =>
        match Json.Fields.get? "content".toList message with
        | some (.str content) =>
          if isSpoken content.text then .ok content else .error .emptyMessage
        | _ => .error .emptyMessage
      | _ => .error .noMessage
  | _ => .error .notObject

/-- The text of a content part; parts of another shape have none. -/
def partText (part : Json) : RawText :=
  match part.field? "text".toList with
  | some (.str s) => s
  | _ => .empty

/-- The description in an answer of the content kind: the texts of the first candidate's parts,
    put together. -/
def contentText (answer : Json) : Except Fault RawText :=
  match answer with
  | .obj fields =>
    match firstItem? "candidates".toList fields with
    | none => .error .noCandidates
    | some candidate =>
      match (candidate.field? "content".toList).bind (Json.field? "parts".toList) with
      | some (.arr parts) =>
        let said := RawText.join (parts.map partText)
        if isSpoken said.text then .ok said else .error .emptyText
      | _ => .error .noParts
  | _ => .error .notObject

end DocAnnotator.Response
