import DocAnnotator.Config.Settings
import DocAnnotator.Error
import DocAnnotator.Json.Merge
import DocAnnotator.Json.Nearest
import DocAnnotator.Json.Read
import DocAnnotator.Warning

/-! ## Resolving the configuration

    Sources are merged in increasing precedence: built-in defaults, the configuration file, the
    inline configuration, and the switch that turns descriptions off. A section or field of the
    wrong type counts as missing.

    - `loadFile`: the fields of a configuration file; a bad file gives a warning.
    - `resolve`: the settings that the sources make.
-/

namespace DocAnnotator

/-- What is found at a path. -/
inductive FileState where
  | absent
  | directory
  | regular (content : Bytes)
  deriving DecidableEq

namespace Config

/-- The values of the environment variables. -/
abbrev Environment := List (Text × RawText)

/-- The value of a variable, if it is set and not empty. -/
def Environment.nonEmpty? (environment : Environment) (name : Text) : Option RawText :=
  (environment.lookup name).filter (!·.isEmpty)

/-- The prompt that a description is asked for with by default. -/
def defaultPrompt : Text :=
  ("Write a concise one-sentence JSDoc description for the following function.\n" ++
    "Function name: \x7b\x7bfunctionName\x7d\x7d\n" ++
    "Parameters (\x7b\x7bparamsCount\x7d\x7d): \x7b\x7bparameters\x7d\x7d\n" ++
    "Return type: \x7b\x7breturnType\x7d\x7d\n" ++
    "\n" ++
    "Code:\n" ++
    "\x7b\x7bcode\x7d\x7d\n" ++
    "\n" ++
    "Reply with the description text only, without markdown or JSDoc tags.").toList

/-- The line templates by default. -/
def defaultTemplates : LineTemplates :=
  { description := "@description $\x7bdescription\x7d".toList
    parameter := "@param \x7b$\x7btype\x7d\x7d $\x7bname\x7d".toList
    returns := "@returns \x7b$\x7breturnType\x7d\x7d".toList }

/-- The timeout by default, in milliseconds. -/
def defaultTimeoutMs : Int := 15000

/-- The default `template` section. -/
def defaultTemplateSection : Json.Fields :=
  [("descriptionLine".toList, .str defaultTemplates.description),
    ("paramLine".toList, .str defaultTemplates.parameter),
    ("returnsLine".toList, .str defaultTemplates.returns)]

/-- The default `ai` section. -/
def defaultAiSection : Json.Fields :=
  [("enabled".toList, .bool true),
    ("provider".toList, .str Provider.openai.name),
    ("model".toList, .str Provider.openai.defaultModel),
    ("baseUrl".toList, .str Provider.openai.defaultUrl),
    ("timeoutMs".toList, .num (.int defaultTimeoutMs)),
    ("promptTemplate".toList, .str defaultPrompt)]

/-- The built-in configuration. -/
def defaults : Json.Fields :=
  [("template".toList, .obj defaultTemplateSection),
    ("includeReturnsWhenVoid".toList, .bool true),
    ("ai".toList, .obj defaultAiSection)]

/-- The fields of a configuration file. A missing file has none; one that is not UTF-8, not JSON or
    not an object has none either, and is reported. Only an integer that is too long is an error. -/
def loadFile : FileState → Except Error Json.Fields × List Warning
  | .absent => (.ok [], [])
  | .directory => (.ok [], [.unreadableConfig])
  | .regular content =>
    match Utf8.decode content with
    | .error _ => (.ok [], [.unreadableConfig])
    | .ok text =>
      match Json.read text with
      | .ok (.obj fields) => (.ok fields, [])
      | .ok _ => (.ok [], [.configNotObject])
      | .error .malformed => (.ok [], [.unreadableConfig])
      | .error (.integerTooLong digits) => (.error (.integerTooLong digits), [])

/-- A section of the merged configuration; its default where it is no object. -/
def sectionOf (merged : Json.Fields) (key : Text) (fallback : Json.Fields) : Json.Fields :=
  match merged.get? key with
  | some (.obj fields) => fields
  | _ => fallback

/-- A text field, or a fallback where it is not text. -/
def textField (fields : Json.Fields) (key : Text) (fallback : RawText) : RawText :=
  ((fields.get? key).bind Json.raw?).getD fallback

/-- A boolean field, or a fallback where it is not boolean. -/
def boolField (fields : Json.Fields) (key : Text) (fallback : Bool) : Bool :=
  ((fields.get? key).bind Json.bool?).getD fallback

/-- The service that a value names, without regard to case and blanks around it. -/
def coerceProvider (value : Option Json) : Provider :=
  (((value.bind Json.text?).bind fun s => Provider.ofName? (Text.lower (Text.trim s)))).getD .openai

/-- A setting of the service: the given one, unless it is empty or the other service's default. -/
def providerSetting (provider : Provider) (default : Provider → Text) (given : RawText) : RawText :=
  if given.isEmpty || given = default provider.other then default provider else given

/-- The key: the configured one, or the first variable of the service that is set. -/
def resolveKey (provider : Provider) (environment : Environment) (given : RawText) :
    Option RawText :=
  if given.isEmpty then provider.keyVariables.findSome? environment.nonEmpty? else some given

/-- The timeout: a positive number, cut to an integer. Anything else gives the default, save the
    two numbers that cannot be cut. -/
def resolveTimeout (value : Option Json) : Except Error Int :=
  match value with
  | some (.num (.int n)) => .ok (if 0 < n then n else defaultTimeoutMs)
  | some (.num (.decimal m e)) =>
    if 0 < m then
      match Number.roundDecimal m.toNat e with
      | .zero => .ok defaultTimeoutMs
      | .finite b => .ok b.floor
      | .tooLarge => .error .timeoutInfinite
    else .ok defaultTimeoutMs
  | some (.num (.infinite negative)) =>
    if negative then .ok defaultTimeoutMs else .error .timeoutInfinite
  | some (.num .nan) => .error .timeoutNotANumber
  | _ => .ok defaultTimeoutMs

/-- The switch that turns descriptions off, as a configuration. -/
def disableAiFields : Json.Fields :=
  [("ai".toList, .obj [("enabled".toList, .bool false)])]

/-- All sources merged, the last one first in precedence. -/
def mergeSources (file inline : Json.Fields) (disableAi : Bool) : Json.Fields :=
  let merged := Json.merge (Json.merge defaults file) inline
  if disableAi then Json.merge merged disableAiFields else merged

/-- The `ai` settings of a merged section. -/
def resolveAi (fields : Json.Fields) (environment : Environment) : Except Error AiSettings :=
  let provider := coerceProvider (fields.get? "provider".toList)
  let key := resolveKey provider environment (textField fields "apiKey".toList .empty)
  let prompt := textField fields "promptTemplate".toList .empty
  (resolveTimeout (fields.get? "timeoutMs".toList)).map fun timeout =>
    { provider := provider.name
      enabled := boolField fields "enabled".toList true && key.isSome
      model := providerSetting provider Provider.defaultModel
        (textField fields "model".toList .empty)
      baseUrl := providerSetting provider Provider.defaultUrl
        (textField fields "baseUrl".toList .empty)
      timeoutMs := timeout
      promptTemplate := if prompt.isEmpty then defaultPrompt else prompt
      apiKey := key }

/-- The settings of a merged configuration. -/
def resolveMerged (merged : Json.Fields) (environment : Environment) : Except Error Settings :=
  let template := sectionOf merged "template".toList defaultTemplateSection
  let ai := sectionOf merged "ai".toList defaultAiSection
  (resolveAi ai environment).map fun ai =>
    { templates :=
        { description := textField template "descriptionLine".toList defaultTemplates.description
          parameter := textField template "paramLine".toList defaultTemplates.parameter
          returns := textField template "returnsLine".toList defaultTemplates.returns }
      includeReturnsWhenVoid := boolField merged "includeReturnsWhenVoid".toList true
      ai := ai }

/-- Where the configuration of a run comes from. -/
structure Sources where
  file : FileState
  inline : Json.Fields
  disableAi : Bool
  environment : Environment

/-- The settings that the sources make, and the warnings about the file. -/
def resolve (sources : Sources) : Except Error Settings × List Warning :=
  let (file, warnings) := loadFile sources.file
  (file.bind fun file =>
    resolveMerged (mergeSources file sources.inline sources.disableAi) sources.environment, warnings)

end Config

end DocAnnotator
