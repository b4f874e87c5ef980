import DocAnnotator.Describe.Response

/-! ## Warnings

    What a run reports without failing. Details of foreign faults (a syntax error in a file, a
    transport error) are not part of a warning's text.
-/

namespace DocAnnotator

/-- A warning. -/
inductive Warning where
  /-- The configuration file cannot be read as JSON. -/
  | unreadableConfig
  /-- The configuration file holds something other than an object. -/
  | configNotObject
  /-- The type oracle could not be made. -/
  | oracleUnavailable
  /-- No description arrived in time. -/
  | descriptionTimedOut (name : Text) (timeoutMs : Int)
  /-- No description could be had; the fault is that of the answer, if it was an answer. -/
  | descriptionFailed (name : Text) (fault : Option Response.Fault)
  deriving DecidableEq

namespace Warning

/-- The text of a warning. -/
def message : Warning → Text
  | .unreadableConfig => "Ignoring config file: <error>".toList
  | .configNotObject => "Ignoring config file: root is not an object".toList
  | .oracleUnavailable =>
    "Type oracle unavailable, using syntax-only inference: oracle failed".toList
  | .descriptionTimedOut name ms =>
    "AI description for ".toList ++ name ++ " timed out after ".toList ++ Text.ofInt ms ++
      "ms".toList
  | .descriptionFailed name fault =>
    "Failed to generate AI description for ".toList ++ name ++ ": ".toList ++
      ((fault.map Response.Fault.message).getD "<error>".toList)

end Warning

end DocAnnotator
