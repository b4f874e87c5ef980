import DocAnnotator.Comment.Lines

/-! ## Settings

    The configuration of a run after all its sources are merged and every field has a usable value.
-/

namespace DocAnnotator

/-- A service that writes descriptions. -/
inductive Provider where
  | openai
  | gemini
  deriving DecidableEq

namespace Provider

/-- The name of a service. -/
def name : Provider → Text
  | .openai => "openai".toList
  | .gemini => "gemini".toList

/-- The service of a name. -/
def ofName? (name : Text) : Option Provider :=
  if name = Provider.openai.name then some .openai
  else if name = Provider.gemini.name then some .gemini
  else none

/-- The other service. -/
def other : Provider → Provider
  | .openai => .gemini
  | .gemini => .openai

/-- The model that a service is asked for by default. -/
def defaultModel : Provider → Text
  | .openai => "gpt-4o-mini".toList
  | .gemini => "gemini-2.0-flash".toList

/-- The address of a service by default. -/
def defaultUrl : Provider → Text
  | .openai => "https://api.openai.com/v1/chat/completions".toList
  | .gemini => "https://generativelanguage.googleapis.com/v1beta".toList

/-- The environment variables that may hold a service's key, in the order they are tried. -/
def keyVariables : Provider → List Text
  | .openai => ["OPENAI_API_KEY".toList]
  | .gemini => ["GEMINI_API_KEY".toList, "GOOGLE_API_KEY".toList]

end Provider

/-- How descriptions are asked for. -/
structure AiSettings where
  provider : Text
  enabled : Bool
  model : RawText
  baseUrl : RawText
  timeoutMs : Int
  promptTemplate : RawText
  apiKey : Option RawText
  deriving DecidableEq

/-- The settings of a run. -/
structure Settings where
  templates : LineTemplates
  includeReturnsWhenVoid : Bool
  ai : AiSettings
  deriving DecidableEq

end DocAnnotator
