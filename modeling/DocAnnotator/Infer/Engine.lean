import DocAnnotator.Infer.Returns
import DocAnnotator.Target.Basic

/-! ## Inference

    Declared types stay as they are. Every other type is asked of a list of strategies, and the
    first answer counts: a type oracle where there is one, then the shape of the code.
-/

namespace DocAnnotator

/-- An outside source of types: the printed type of a parameter node and of a function's result. -/
structure Oracle where
  parameterType : Node → Option Text
  returnType : Node → Option Text

namespace Oracle

/-- An answer that carries information: trimmed, and neither empty nor the empty shape. -/
def usable (printed : Option Text) : Option Text :=
  printed.bind fun text =>
    let type := Text.trim text
    if type.isEmpty || type = ['\x7b', '\x7d'] then none else some type

end Oracle

/-- A way to find types. -/
inductive Strategy where
  /-- Ask an oracle. -/
  | oracle (oracle : Oracle)
  /-- Read the shape of the code in a source. -/
  | shape (source : Bytes)

namespace Strategy

/-- The type of a parameter without annotation, given the types of those before it. -/
def parameterType? (env : TypeEnv) (parameter : Parameter) : Strategy → Option Text
  | .oracle source => parameter.node.bind fun node => Oracle.usable (source.parameterType node)
  | .shape source =>
    match parameter.default with
    | some value => some (value.typeIn source env)
    | none => some (if parameter.rest then "any[]".toList else TypeUnion.any)

/-- The type that a function without annotation returns, given the types of its parameters. -/
def returnType? (env : TypeEnv) (target : Target) : Strategy → Option Text
  | .oracle source => target.function.bind fun node => Oracle.usable (source.returnType node)
  | .shape source =>
    match target.function with
    | some function => some (function.returnTypeIn source env)
    | none => some TypeUnion.void

/-- The first answer of several strategies; `any` where none answers. -/
def first (strategies : List Strategy) (ask : Strategy → Option Text) : Text :=
  (strategies.findSome? ask).getD TypeUnion.any

/-- The strategies for a source: the oracle, if there is one, comes first. -/
def forSource (types : Option Oracle) (source : Bytes) : List Strategy :=
  match types with
  | some types => [.oracle types, .shape source]
  | none => [.shape source]

end Strategy

namespace Target

/-- Parameters with their types, and the environment that they make. -/
def inferParameters (strategies : List Strategy) (env : TypeEnv) :
    List Parameter → List Parameter × TypeEnv
  | [] => ([], env)
  | parameter :: rest =>
    let type := parameter.type.getD
      (Strategy.first strategies (Strategy.parameterType? env parameter))
    let (others, env) := inferParameters strategies (env.bind parameter.name type) rest
    ({ parameter with type := some type } :: others, env)

/-- The target with every missing type filled in. A result that is awaited is a promise. -/
def infer (strategies : List Strategy) (target : Target) : Target :=
  let (parameters, env) := inferParameters strategies [] target.parameters
  let returnType :=
    if target.returnDeclared then target.returnType
    else
      let type := Strategy.first strategies (Strategy.returnType? env target)
      some (if target.isAsync then TypeUnion.promised type else type)
  { target with parameters := parameters, returnType := returnType }

end Target

end DocAnnotator
