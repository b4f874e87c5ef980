import DocAnnotator.Comment.Layout
import DocAnnotator.Config.Resolve
import DocAnnotator.Describe.Service
import DocAnnotator.Infer.Engine
import DocAnnotator.Script.Block
import DocAnnotator.Script.Splice
import DocAnnotator.Target.Collect

/-! ## Annotating a source unit

    The unit's script is parsed, its undocumented functions are collected, each gets a comment, and
    the comments are spliced into the script.

    `prepare` finds what there is to do, `Plan.comment` writes one comment, `Plan.finish` puts all
    of them in place, and `annotate` does the whole. The grammar is a parameter: everything here
    holds of any syntax tree. So is the client that sends requests.
-/

namespace DocAnnotator

/-- What becomes of making a type oracle for a script. -/
inductive OracleSource where
  /-- There is none. -/
  | none
  /-- Making it fails. -/
  | unavailable
  /-- It is made. -/
  | given (oracle : Oracle)

namespace OracleSource

/-- The oracle, if one was made. -/
def oracle? : OracleSource → Option Oracle
  | .given oracle => some oracle
  | _ => Option.none

/-- The warning that goes with it. -/
def warnings : OracleSource → List Warning
  | .unavailable => [.oracleUnavailable]
  | _ => []

end OracleSource

/-- A grammar: the syntax tree of a script in a dialect. -/
abbrev Grammar := Dialect → Text → Node

/-- Options of a run. -/
structure Options where
  sources : Config.Sources
  oracle : OracleSource
  client : Client

/-- What there is to do for a unit. -/
structure Plan where
  settings : Settings
  describer : Option Describer
  range : ScriptRange
  source : Bytes
  strategies : List Strategy
  targets : List Target

/-- The syntax tree of a script, where its dialect has a grammar. -/
def syntaxTree (grammar : Grammar) (dialect : Dialect) (script : Text) : Except Error Node :=
  if dialect.isSupported then .ok (grammar dialect script)
  else .error (.unsupportedDialect dialect.name)

/-- The plan for a unit whose script is known; none where there is nothing to document. -/
def planScript (grammar : Grammar) (oracle : OracleSource) (client : Client) (settings : Settings)
    (range : ScriptRange) : Except Error (Option Plan) × List Warning :=
  match syntaxTree grammar range.dialect range.script with
  | .error e => (.error e, [])
  | .ok root =>
    let source := Utf8.encode range.script
    match collect source root with
    | [] => (.ok none, oracle.warnings)
    | targets =>
      match Describe.describer client settings.ai with
      | .error e => (.error e, oracle.warnings)
      | .ok describer =>
        let strategies := Strategy.forSource oracle.oracle? source
        (.ok (some ⟨settings, describer, range, source, strategies, targets⟩), oracle.warnings)

/-- The plan for a unit; none where it stays as it is. The configuration comes first, so that a
    fault in it shows even where there is nothing to document. -/
def prepare (grammar : Grammar) (options : Options) (id code : Text) :
    Except Error (Option Plan) × List Warning :=
  match Config.resolve options.sources with
  | (.error e, warnings) => (.error e, warnings)
  | (.ok settings, warnings) =>
    match ScriptRange.extract? code (Identifier.dialect id) with
    | none => (.ok none, warnings)
    | some range =>
      let (plan, more) := planScript grammar options.oracle options.client settings range
      (plan, warnings ++ more)

namespace Plan

/-- The comment for a target with inferred types and a description: its lines, laid out at its
    anchor. -/
def insertion (plan : Plan) (target : Target) (description : RawText) : Insertion :=
  let lines := Comment.lines plan.settings.templates plan.settings.includeReturnsWhenVoid target
    description
  ⟨Comment.layoutRaw lines plan.source target.anchorOffset, target.anchorOffset⟩

/-- The comment for one target: its types are inferred, and a description is found. -/
def comment (plan : Plan) (target : Target) (session : Session) :
    Except Error Insertion × Session :=
  let target := target.infer plan.strategies
  let (description, session) := Describe.describe plan.describer target session
  (description.map (plan.insertion target), session)

/-- The comments for some targets, one after the other, up to the first that fails. -/
def insertions (plan : Plan) (session : Session) :
    List Target → Except Error (List Insertion) × Session
  | [] => (.ok [], session)
  | target :: rest =>
    match plan.comment target session with
    | (.error e, session) => (.error e, session)
    | (.ok insertion, session) =>
      let (more, session) := plan.insertions session rest
      (more.map (insertion :: ·), session)

/-- The unit with the comments in place. -/
def finish (plan : Plan) (code : Text) (insertions : List Insertion) : Except Error Text :=
  (Insertion.splice plan.source insertions).map (plan.range.reassemble code)

end Plan

/-- The unit with a comment in front of each of its undocumented functions. -/
def annotate (grammar : Grammar) (options : Options) (id code : Text) (session : Session) :
    Except Error Text × Session :=
  let (plan, warnings) := prepare grammar options id code
  let session := session.warn warnings
  match plan with
  | .error e => (.error e, session)
  | .ok none => (.ok code, session)
  | .ok (some plan) =>
    let (insertions, session) := plan.insertions session plan.targets
    (insertions.bind (plan.finish code), session)

end DocAnnotator
