import DocAnnotator.Describe.Response
import DocAnnotator.Text.Quoted
import DocAnnotator.Text.Utf8

/-! ## Errors

    Everything that can stop a run, by cause, and the text of each.
-/

namespace DocAnnotator

/-- Why a run stops. -/
inductive Error where
  /-- There is no grammar for the dialect. -/
  | unsupportedDialect (name : Text)
  /-- The configured timeout is not a number. -/
  | timeoutNotANumber
  /-- The configured timeout is infinite. -/
  | timeoutInfinite
  /-- The configured timeout is too large for a number of seconds. -/
  | timeoutTooLarge
  /-- The configuration holds an integer of more digits than are read. -/
  | integerTooLong (digits : Nat)
  /-- No description service has this name. -/
  | unknownProvider (name : Text)
  /-- No build phase has this name. -/
  | unknownPhase (name : Text)
  /-- An answer holds no description. -/
  | unusableResponse (fault : Response.Fault)
  /-- Bytes that should be text are not UTF-8. -/
  | malformedText (fault : Utf8.Malformed)
  /-- A text has no UTF-8 form, since it holds half of a surrogate pair. -/
  | unencodableText
  /-- The client that sends requests fails in a way of its own. -/
  | clientStopped (message : Text)
  /-- The disk does not let a file be read or written. -/
  | diskFault (message : Text)
  /-- There is nothing at the path. -/
  | noSuchFile (path : Text)
  /-- There is a directory at the path. -/
  | isDirectory (path : Text)
  /-- The path goes through something that is no directory. -/
  | notDirectory (path : Text)
  deriving DecidableEq

namespace Error

/-- Why bytes are not UTF-8, in words. -/
def reason : Utf8.Fault → Text
  | .start => "invalid start byte".toList
  | .continuation => "invalid continuation byte".toList
  | .truncated => "unexpected end of data".toList

/-- An ill-formed part of a byte string, in words: its only byte, or its first and last position. -/
def describeMalformed (m : Utf8.Malformed) : Text :=
  let place :=
    if m.length = 1 then
      "byte 0x".toList ++ Text.hex 2 m.byte ++ " in position ".toList ++ Text.ofNat m.position
    else
      "bytes in position ".toList ++ Text.ofNat m.position ++ "-".toList ++
        Text.ofNat (m.position + m.length - 1)
  "\x27utf-8\x27 codec can\x27t decode ".toList ++ place ++ ": ".toList ++ reason m.fault

/-- The text of an error. -/
def message : Error → Text
  | .unsupportedDialect name => "Unsupported dialect: ".toList ++ name
  | .timeoutNotANumber => "cannot convert float NaN to integer".toList
  | .timeoutInfinite => "cannot convert float infinity to integer".toList
  | .timeoutTooLarge => "integer division result too large for a float".toList
  | .integerTooLong digits =>
    "Exceeds the limit (4300 digits) for integer string conversion: value has ".toList ++
      Text.ofNat digits ++
      " digits; use sys.set_int_max_str_digits() to increase the limit".toList
  | .unknownProvider name => Text.quoted name
  | .unknownPhase name =>
    "apply must be one of (\x27serve\x27, \x27build\x27, \x27both\x27), got ".toList ++
      Text.quoted name
  | .unusableResponse fault => fault.message
  | .malformedText fault => describeMalformed fault
  | .unencodableText => "\x27utf-8\x27 codec can\x27t encode: surrogates not allowed".toList
  | .clientStopped message | .diskFault message => message
  | .noSuchFile path => "[Errno 2] No such file or directory: ".toList ++ Text.quoted path
  | .isDirectory path => "[Errno 21] Is a directory: ".toList ++ Text.quoted path
  | .notDirectory path => "[Errno 20] Not a directory: ".toList ++ Text.quoted path

end Error

end DocAnnotator
