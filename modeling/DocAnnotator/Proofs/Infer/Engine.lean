import DocAnnotator.Infer.Engine
import DocAnnotator.Proofs.Target.Collect

/-! ## Every type is filled in

    Inference keeps what is declared and fills in the rest, parameter by parameter and then the
    result.

    - `Guess`: what an oracle says counts, and the shape of the code only where it says nothing.
    - `TypeEnv.ofParameters`: the environment that some parameters make.
    - `Parameter.Filled`, `Target.Filled`: what inference may do to a parameter and to a target.
    - `inferParameters_getElem?`: a parameter is typed under the types of those before it.
    - `infer_fills`: what is collected is filled in, and a second inference changes nothing.
-/

namespace DocAnnotator

/-! ### Where a guess comes from -/

/-- The type that a printed answer gives: the trimmed text, if it is neither empty nor the empty
    shape. -/
def Oracle.Says (printed : Option Text) (type : Text) : Prop :=
  ∃ text, printed = some text ∧ type = Text.trim text ∧ type ≠ [] ∧ type ≠ "\x7b\x7d".toList

theorem Oracle.usable_eq_some_iff {printed : Option Text} {type : Text} :
    usable printed = some type ↔ Says printed type := by
  unfold usable Says
  rw [Option.bind_eq_some_iff]
  refine exists_congr fun text => and_congr_right fun _ => ?_
  simp only [Option.ite_none_left_eq_some, Bool.or_eq_true, List.isEmpty_iff, decide_eq_true_eq,
    not_or, Option.some.injEq]
  constructor
  · rintro ⟨hinformative, rfl⟩
    exact ⟨rfl, hinformative⟩
  · rintro ⟨rfl, hinformative⟩
    exact ⟨hinformative, rfl⟩

/-- A guess at a type: what the oracle says, or the type by shape if there is no oracle or it
    says nothing. -/
inductive Guess (types : Option Oracle) (ask : Oracle → Option Text) (Shape : Text → Prop)
    (type : Text) : Prop
  | said {oracle : Oracle} (horacle : types = some oracle) (h : Oracle.Says (ask oracle) type)
  | shape (hsilent : ∀ oracle, types = some oracle → ∀ other, ¬ Oracle.Says (ask oracle) other)
      (h : Shape type)

/-- The strategies for a source make a guess, whatever they are asked. -/
theorem guess_first {types : Option Oracle} {source : Bytes} {question : Strategy → Option Text}
    {ask : Oracle → Option Text} {Shape : Text → Prop} {type : Text}
    (horacle : ∀ oracle, question (.oracle oracle) = Oracle.usable (ask oracle))
    (hshape : question (.shape source) = some type) (htype : Shape type) :
    Guess types ask Shape (Strategy.first (Strategy.forSource types source) question) := by
  unfold Strategy.first Strategy.forSource
  cases types with
  | none =>
    simp only [List.findSome?_cons, hshape, Option.getD_some]
    exact .shape (fun oracle hnone => nomatch hnone) htype
  | some oracle =>
    cases hanswer : Oracle.usable (ask oracle) with
    | some answer =>
      simp only [List.findSome?_cons, horacle, hanswer, Option.getD_some]
      exact .said rfl (Oracle.usable_eq_some_iff.1 hanswer)
    | none =>
      simp only [List.findSome?_cons, horacle, hanswer, hshape, Option.getD_some]
      refine .shape (fun other hother answer hsays => ?_) htype
      obtain rfl := Option.some.inj hother
      rw [Oracle.usable_eq_some_iff.2 hsays] at hanswer
      cases hanswer

/-- The type of a parameter by shape: that of its default value, or else a list if it takes all
    the arguments that are left. -/
inductive Parameter.ShapeType (source : Bytes) (env : TypeEnv) (p : Parameter) : Text → Prop
  | value {value : Node} (h : p.default = some value) :
      ShapeType source env p (value.typeIn source env)
  | rest (hvalue : p.default = none) (h : p.rest = true) : ShapeType source env p "any[]".toList
  | unknown (hvalue : p.default = none) (h : p.rest = false) : ShapeType source env p TypeUnion.any

theorem guess_parameterType {types : Option Oracle} {source : Bytes} {env : TypeEnv}
    {p : Parameter} {node : Node} (hnode : p.node = some node) :
    Guess types (·.parameterType node) (p.ShapeType source env)
      (Strategy.first (Strategy.forSource types source) (Strategy.parameterType? env p)) := by
  have horacle : ∀ oracle, Strategy.parameterType? env p (.oracle oracle) =
      Oracle.usable (oracle.parameterType node) := by
    intro oracle
    simp [Strategy.parameterType?, hnode]
  cases hvalue : p.default with
  | some value =>
    exact guess_first horacle (by simp [Strategy.parameterType?, hvalue]) (.value hvalue)
  | none =>
    cases hrest : p.rest with
    | true =>
      exact guess_first horacle (by simp [Strategy.parameterType?, hvalue, hrest])
        (.rest hvalue hrest)
    | false =>
      exact guess_first horacle (by simp [Strategy.parameterType?, hvalue, hrest])
        (.unknown hvalue hrest)

theorem guess_returnType {types : Option Oracle} {source : Bytes} {env : TypeEnv} {t : Target}
    {function : Node} (hfunction : t.function = some function) :
    Guess types (·.returnType function) (· = function.returnTypeIn source env)
      (Strategy.first (Strategy.forSource types source) (Strategy.returnType? env t)) :=
  guess_first (fun oracle => by simp [Strategy.returnType?, hfunction])
    (by simp [Strategy.returnType?, hfunction]) rfl

/-! ### Parameter by parameter -/

/-- The types of some parameters by name; of two with one name the later counts. -/
def TypeEnv.ofParameters (parameters : List Parameter) : TypeEnv :=
  (parameters.map fun p => (p.name, p.type.getD TypeUnion.any)).reverse

@[simp] theorem TypeEnv.ofParameters_nil : ofParameters [] = [] := rfl

theorem TypeEnv.ofParameters_cons (p : Parameter) (more : List Parameter) (env : TypeEnv) :
    ofParameters (p :: more) ++ env =
      ofParameters more ++ env.bind p.name (p.type.getD TypeUnion.any) := by
  simp [ofParameters, bind]

/-- Of the parameters with one name, the last one gives the type. -/
theorem TypeEnv.typeOf_ofParameters {before after : List Parameter} {p : Parameter}
    (h : ∀ q ∈ after, q.name ≠ p.name) :
    (ofParameters (before ++ p :: after)).typeOf p.name = p.type.getD TypeUnion.any := by
  have hlater : ((after.map fun q => (q.name, q.type.getD TypeUnion.any)).reverse).lookup p.name =
      none := by
    rw [List.lookup_eq_none_iff]
    intro entry hentry
    obtain ⟨q, hq, rfl⟩ := List.mem_map.1 (List.mem_reverse.1 hentry)
    simpa using (h q hq).symm
  simp [typeOf, ofParameters, List.lookup_append, hlater]

/-- The parameter with a type, under the types of those before it. -/
def Parameter.filled (strategies : List Strategy) (env : TypeEnv) (p : Parameter) : Parameter :=
  { p with type := some (p.type.getD (Strategy.first strategies (Strategy.parameterType? env p))) }

namespace Target

section Parameters

variable (strategies : List Strategy)

theorem inferParameters_cons (env : TypeEnv) (p : Parameter) (more : List Parameter) :
    inferParameters strategies env (p :: more) =
      let p' := p.filled strategies env
      let result := inferParameters strategies (env.bind p'.name (p'.type.getD TypeUnion.any)) more
      (p' :: result.1, result.2) :=
  rfl

theorem length_inferParameters (env : TypeEnv) (parameters : List Parameter) :
    (inferParameters strategies env parameters).1.length = parameters.length := by
  induction parameters generalizing env with
  | nil => rfl
  | cons p more ih => simp [inferParameters_cons, ih]

/-- Each parameter is bound, in turn, to the type that it has in the end. -/
theorem inferParameters_env (env : TypeEnv) (parameters : List Parameter) :
    (inferParameters strategies env parameters).2 =
      TypeEnv.ofParameters (inferParameters strategies env parameters).1 ++ env := by
  induction parameters generalizing env with
  | nil => rfl
  | cons p more ih =>
    simp only [inferParameters_cons, TypeEnv.ofParameters_cons]
    exact ih _

/-- Parameters that come later are inferred under the types of those before them. -/
theorem inferParameters_append (env : TypeEnv) (before after : List Parameter) :
    inferParameters strategies env (before ++ after) =
      let first := inferParameters strategies env before
      let second := inferParameters strategies first.2 after
      (first.1 ++ second.1, second.2) := by
  induction before generalizing env with
  | nil => rfl
  | cons p more ih => simp [inferParameters_cons, ih]

/-- Inference keeps the names. -/
theorem map_name_inferParameters (env : TypeEnv) (parameters : List Parameter) :
    (inferParameters strategies env parameters).1.map (·.name) = parameters.map (·.name) := by
  induction parameters generalizing env with
  | nil => rfl
  | cons p more ih => simp [inferParameters_cons, ih, Parameter.filled]

/-- A parameter gets its type under the types of those before it. -/
theorem inferParameters_getElem? {parameters : List Parameter} {i : Nat} {p : Parameter}
    (h : parameters[i]? = some p) (env : TypeEnv) :
    (inferParameters strategies env parameters).1[i]? =
      some (p.filled strategies (TypeEnv.ofParameters
        ((inferParameters strategies env parameters).1.take i) ++ env)) := by
  induction parameters generalizing env i with
  | nil => simp at h
  | cons first more ih =>
    simp only [inferParameters_cons]
    cases i with
    | zero =>
      obtain rfl : first = p := by simpa using h
      rfl
    | succ i =>
      rw [List.take_succ_cons, TypeEnv.ofParameters_cons]
      exact ih (by simpa using h) _

/-- Parameters that have their types keep them, and make the same environment. -/
theorem inferParameters_again (env : TypeEnv) (parameters : List Parameter) :
    inferParameters strategies env (inferParameters strategies env parameters).1 =
      inferParameters strategies env parameters := by
  induction parameters generalizing env with
  | nil => rfl
  | cons p more ih =>
    have hfilled : (p.filled strategies env).filled strategies env = p.filled strategies env := rfl
    simp only [inferParameters_cons, hfilled, ih]

end Parameters

/-! ### The target as a whole -/

theorem infer_parameters (strategies : List Strategy) (t : Target) :
    (t.infer strategies).parameters = (inferParameters strategies [] t.parameters).1 := rfl

/-- A result without annotation is typed under the types of all parameters. -/
theorem infer_returnType {strategies : List Strategy} {t : Target} (h : t.returnDeclared = false) :
    (t.infer strategies).returnType =
      let type := Strategy.first strategies
        (Strategy.returnType? (TypeEnv.ofParameters (t.infer strategies).parameters) t)
      some (if t.isAsync then TypeUnion.promised type else type) := by
  have henv := inferParameters_env strategies [] t.parameters
  rw [List.append_nil] at henv
  simp only [infer_parameters, ← henv]
  simp [infer, h]

/-- A second inference changes nothing. -/
theorem infer_infer (strategies : List Strategy) (t : Target) :
    (t.infer strategies).infer strategies = t.infer strategies := by
  have hagain := inferParameters_again strategies [] t.parameters
  unfold infer
  simp only [hagain]
  split <;> rfl

/-- What the collector makes sure of: the declared return type is the one at hand, and the nodes
    that an oracle is asked about are known. -/
structure Collected (t : Target) : Prop where
  declared : t.returnDeclared = t.returnType.isSome
  function : ∃ function, t.function = some function
  node : ∀ p ∈ t.parameters, ∃ node, p.node = some node

end Target

theorem Node.node_of_mem_parametersFrom {source : Bytes} {position : Nat} {children : List Node}
    {p : Parameter} (h : p ∈ parametersFrom source position children) :
    ∃ node, p.node = some node := by
  induction children generalizing position with
  | nil => simp [parametersFrom] at h
  | cons child rest ih =>
    rw [parametersFrom] at h
    split at h
    next first hfirst =>
      rcases List.mem_cons.1 h with rfl | h
      · obtain ⟨pattern, -, rfl⟩ := Option.map_eq_some_iff.1 hfirst
        exact ⟨child, rfl⟩
      · exact ih h
    next => exact ih h

theorem Node.node_of_mem_parameters {source : Bytes} {function : Node} {p : Parameter}
    (h : p ∈ function.parameters source) : ∃ node, p.node = some node := by
  unfold parameters at h
  split at h
  next single _ =>
    obtain rfl := List.mem_singleton.1 h
    exact ⟨single, rfl⟩
  next =>
    split at h
    · exact node_of_mem_parametersFrom h
    · simp at h

theorem collected_of_mem_collect {source : Bytes} {root : Node} {t : Target}
    (h : t ∈ collect source root) : t.Collected := by
  obtain ⟨place, -, hsome⟩ := List.mem_filterMap.1 (mem_of_mem_distinctAnchors h).1
  obtain ⟨d, -, -, rfl⟩ := target?_eq_some.1 hsome
  exact ⟨rfl, ⟨d.function, rfl⟩, fun p hp => Node.node_of_mem_parameters hp⟩

/-- A parameter before and after inference, under the types of the parameters before it. -/
structure Parameter.Filled (types : Option Oracle) (source : Bytes) (env : TypeEnv)
    (p p' : Parameter) : Prop where
  others : p' = { p with type := p'.type }
  declared : ∀ type, p.type = some type → p'.type = some type
  guessed : p.type = none → ∃ node type, p.node = some node ∧ p'.type = some type ∧
    Guess types (·.parameterType node) (p.ShapeType source env) type

/-- A target before and after inference. -/
structure Target.Filled (types : Option Oracle) (source : Bytes) (t t' : Target) : Prop where
  others : t' = { t with parameters := t'.parameters, returnType := t'.returnType }
  length : t'.parameters.length = t.parameters.length
  parameter : ∀ (i : Nat) (p p' : Parameter),
    t.parameters[i]? = some p → t'.parameters[i]? = some p' →
      p.Filled types source (TypeEnv.ofParameters (t'.parameters.take i)) p'
  declared : ∀ type, t.returnType = some type → t'.returnType = some type
  guessed : t.returnType = none → ∃ function type, t.function = some function ∧
    Guess types (·.returnType function)
      (· = function.returnTypeIn source (TypeEnv.ofParameters t'.parameters)) type ∧
    t'.returnType = some (if t.isAsync then TypeUnion.promised type else type)
  complete : (∀ p ∈ t'.parameters, p.type ≠ none) ∧ t'.returnType ≠ none

theorem Parameter.filled_fills (types : Option Oracle) (source : Bytes) (env : TypeEnv)
    {p : Parameter} (hnode : ∃ node, p.node = some node) :
    p.Filled types source env (p.filled (Strategy.forSource types source) env) where
  others := rfl
  declared := by
    intro type htype
    simp [filled, htype]
  guessed := by
    intro hnone
    obtain ⟨node, hnode⟩ := hnode
    exact ⟨node, _, hnode, by simp [filled, hnone], guess_parameterType hnode⟩

namespace Target

theorem infer_parameter {strategies : List Strategy} {t : Target} {i : Nat} {p p' : Parameter}
    (h : t.parameters[i]? = some p) (h' : (t.infer strategies).parameters[i]? = some p') :
    p' = p.filled strategies (TypeEnv.ofParameters ((t.infer strategies).parameters.take i)) := by
  rw [infer_parameters, inferParameters_getElem? strategies h, List.append_nil] at h'
  exact (Option.some.inj h').symm

theorem infer_declared {strategies : List Strategy} {t : Target} (h : t.Collected) {type : Text}
    (htype : t.returnType = some type) : (t.infer strategies).returnType = some type := by
  have hdeclared : t.returnDeclared = true := by rw [h.declared, htype]; rfl
  simp [infer, hdeclared, htype]

theorem infer_guessed (types : Option Oracle) (source : Bytes) {t : Target} (h : t.Collected)
    (hnone : t.returnType = none) :
    let t' := t.infer (Strategy.forSource types source)
    ∃ function type, t.function = some function ∧
      Guess types (·.returnType function)
        (· = function.returnTypeIn source (TypeEnv.ofParameters t'.parameters)) type ∧
      t'.returnType = some (if t.isAsync then TypeUnion.promised type else type) := by
  have hdeclared : t.returnDeclared = false := by rw [h.declared, hnone]; rfl
  obtain ⟨function, hfunction⟩ := h.function
  exact ⟨function, _, hfunction, guess_returnType hfunction, infer_returnType hdeclared⟩

theorem infer_complete (types : Option Oracle) (source : Bytes) {t : Target} (h : t.Collected) :
    let t' := t.infer (Strategy.forSource types source)
    (∀ p ∈ t'.parameters, p.type ≠ none) ∧ t'.returnType ≠ none := by
  refine ⟨fun p' hp' => ?_, ?_⟩
  · obtain ⟨i, hi⟩ := List.mem_iff_getElem?.1 hp'
    -- there is a parameter at every position of the result
    have hlt : i < t.parameters.length := by
      rw [← length_inferParameters (Strategy.forSource types source) []]
      exact (List.getElem?_eq_some_iff.1 hi).1
    rw [infer_parameter (List.getElem?_eq_getElem hlt) hi]
    exact Option.some_ne_none _
  · cases htype : t.returnType with
    | some type => rw [infer_declared h htype]; exact Option.some_ne_none _
    | none =>
      obtain ⟨function, type, -, -, hreturn⟩ := infer_guessed types source h htype
      rw [hreturn]
      exact Option.some_ne_none _

/-- With or without an oracle, inference keeps the declared types of what is collected and all else
    that it does not have to fill in. Every type that is missing is guessed: by the oracle where it
    says something, else by shape, for a parameter under the types of those before it. After that
    no type is missing, and a second inference changes nothing. -/
theorem infer_fills (types : Option Oracle) {source : Bytes} {root : Node} {t : Target}
    (h : t ∈ collect source root) :
    let strategies := Strategy.forSource types source
    t.Filled types source (t.infer strategies) ∧
      (t.infer strategies).infer strategies = t.infer strategies := by
  have hcollected := collected_of_mem_collect h
  refine ⟨⟨rfl, length_inferParameters _ _ _, ?_, ?_, ?_, ?_⟩, infer_infer _ t⟩
  · intro i p p' hp hp'
    rw [infer_parameter hp hp']
    exact Parameter.filled_fills types source _ (hcollected.node p (List.mem_of_getElem? hp))
  · exact fun type htype => infer_declared hcollected htype
  · exact infer_guessed types source hcollected
  · exact infer_complete types source hcollected

/-- A parameter of each sort: with a type, with a default value that mentions it, with one that an
    oracle knows better, and one for all that is left. -/
def sortsSource : Bytes :=
  Utf8.encode "async function f(a: string, b = a, c = 1, ...d) \x7b return b; \x7d".toList

/-- The tree of `sortsSource`. -/
def sortsTree : Node :=
  let name (start : Nat) (field : Option String) : Node :=
    ⟨"identifier", start, start + 1, true, field, []⟩
  let parameter (start stop : Nat) (parts : List Node) : Node :=
    ⟨"required_parameter", start, stop, true, none, parts⟩
  ⟨"program", 0, 61, true, none,
    [⟨"function_declaration", 0, 61, true, none,
      [⟨"async", 0, 5, false, none, []⟩, name 15 (some "name"),
        ⟨"formal_parameters", 16, 47, true, some "parameters",
          [parameter 17 26 [name 17 (some "pattern"),
              ⟨"type_annotation", 18, 26, true, some "type", []⟩],
            parameter 28 33 [name 28 (some "pattern"), name 32 (some "value")],
            parameter 35 40 [name 35 (some "pattern"),
              ⟨"number", 39, 40, true, some "value", []⟩],
            parameter 42 46 [⟨"rest_pattern", 42, 46, true, some "pattern", [name 45 none]⟩]]⟩,
        ⟨"statement_block", 48, 61, true, some "body",
          [⟨"return_statement", 50, 59, true, none, [name 57 none]⟩]⟩]⟩]⟩

/-- An oracle that knows the third parameter of `sortsSource`, and of the others only that they
    have some shape. -/
def sortsOracle : Oracle where
  parameterType node := some (if node.start = 35 then " bigint ".toList else "\x7b\x7d".toList)
  returnType _ := none

/-- All four sorts of parameters get their types, and the result is a promise of the second. -/
theorem infer_fills_sorts :
    let strategies := Strategy.forSource (some sortsOracle) sortsSource
    ∃ t ∈ collect sortsSource sortsTree,
      t.parameters.map (·.type) = [some "string".toList, none, none, none] ∧
      (t.infer strategies).parameters.map (·.type) = [some "string".toList, some "string".toList,
        some "bigint".toList, some "any[]".toList] ∧
      (t.infer strategies).returnType = some "Promise<string>".toList ∧
      t.Filled (some sortsOracle) sortsSource (t.infer strategies) ∧
      (t.infer strategies).infer strategies = t.infer strategies := by
  have hlength : (collect sortsSource sortsTree).length = 1 := by decide +kernel
  obtain ⟨t, ht⟩ := List.length_pos_iff_exists_mem.1 (by rw [hlength]; decide)
  have hbefore : ∀ t ∈ collect sortsSource sortsTree,
      t.parameters.map (·.type) = [some "string".toList, none, none, none] := by
    decide +kernel
  have hafter : ∀ t ∈ collect sortsSource sortsTree,
      let t' := t.infer (Strategy.forSource (some sortsOracle) sortsSource)
      t'.parameters.map (·.type) = [some "string".toList, some "string".toList,
        some "bigint".toList, some "any[]".toList] ∧
      t'.returnType = some "Promise<string>".toList := by
    decide +kernel
  obtain ⟨hparameters, hreturn⟩ := hafter t ht
  exact ⟨t, ht, hbefore t ht, hparameters, hreturn, infer_fills (some sortsOracle) ht⟩

end Target

end DocAnnotator
