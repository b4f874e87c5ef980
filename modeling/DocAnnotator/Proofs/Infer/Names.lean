import DocAnnotator.Proofs.Infer.Engine
import DocAnnotator.Proofs.Infer.Leaves

/-! ## What an identifier stands for

    A parameter binds an identifier or a pattern. A pattern has no name of its own and is called by
    its position, and types are looked up by name. So an identifier has the type of the parameter
    that binds it, unless the position of a pattern spells the same name.

    - `Node.bindings`: what the parameters of a function bind.
    - `map_name_parameters`: the names that the parameters get.
    - `Parameter.Last`: the last parameter of a name, which is the one that is looked up.
    - `Denotes`: the type that an identifier should have.
    - `Captures`: a pattern whose position spells an identifier.
    - `infer_sees`: an identifier has the type that it should have, unless a pattern captures it.
-/

namespace DocAnnotator

/-! ### The names of the parameters -/

namespace Node

/-- The name of the pattern at an index. -/
def positionalName (i : Nat) : Text := "param".toList ++ Text.ofNat (i + 1)

theorem positionalName_injective : Function.Injective positionalName := by
  intro i j h
  have hdigits : Nat.toDigits 10 (i + 1) = Nat.toDigits 10 (j + 1) := List.append_cancel_left h
  have hnumber := congrArg (Nat.ofDigitChars 10 · 0) hdigits
  simp only [Nat.ofDigitChars_ten_toDigits] at hnumber
  omega

/-- What a child of a parameter list binds: an identifier, or a pattern, which has no name. A child
    that has neither is no parameter. -/
def binding? (source : Bytes) (child : Node) : Option (Option Text) :=
  (parameterParts source child).pattern.map fun pattern =>
    let bound := if pattern.kind == "rest_pattern" then pattern.contents.headD pattern else pattern
    if bound.kind == "identifier" then some (bound.text source) else none

/-- What the parameters of a function bind, one after the other. The single bare parameter of an
    arrow function is an identifier. -/
def bindings (source : Bytes) (function : Node) : List (Option Text) :=
  match function.child? "parameter" with
  | some single => [some (single.text source)]
  | none =>
    match function.child? "parameters" with
    | some list => list.contents.filterMap (binding? source)
    | none => []

theorem name_parameterAt (source : Bytes) (i : Nat) (child : Node) :
    (parameterAt source (i + 1) child).map (·.name) =
      (binding? source child).map (·.getD (positionalName i)) := by
  simp only [parameterAt, binding?, Option.map_map]
  refine Option.map_congr fun pattern _ => ?_
  simp only [Function.comp_apply]
  generalize (if pattern.kind == "rest_pattern" then pattern.contents.headD pattern
    else pattern) = bound
  split <;> rfl

theorem map_name_parametersFrom (source : Bytes) (i : Nat) (children : List Node) :
    (parametersFrom source (i + 1) children).map (·.name) =
      (children.filterMap (binding? source)).mapIdx
        fun j binding => binding.getD (positionalName (i + j)) := by
  induction children generalizing i with
  | nil => rfl
  | cons child rest ih =>
    have hname := name_parameterAt source i child
    rw [parametersFrom]
    cases hbinding : binding? source child with
    | none =>
      rw [hbinding, Option.map_none, Option.map_eq_none_iff] at hname
      rw [hname, List.filterMap_cons_none hbinding]
      exact ih i
    | some binding =>
      rw [hbinding, Option.map_some] at hname
      obtain ⟨p, hp, hpname⟩ := Option.map_eq_some_iff.1 hname
      rw [hp, List.filterMap_cons_some hbinding, List.map_cons, List.mapIdx_cons, ih, hpname]
      simp only [Nat.add_zero, Nat.add_assoc, Nat.add_comm 1]

/-- A parameter is called by the identifier that it binds, and a pattern by its position. -/
theorem map_name_parameters (source : Bytes) (function : Node) :
    (function.parameters source).map (·.name) =
      (function.bindings source).mapIdx fun i binding => binding.getD (positionalName i) := by
  unfold parameters bindings
  cases function.child? "parameter" with
  | some single => rfl
  | none =>
    cases function.child? "parameters" with
    | none => rfl
    | some list =>
      have hnames := map_name_parametersFrom source 0 list.contents
      simpa only [Nat.zero_add] using hnames

/-- No two parameters of the function bind one identifier. -/
def BindsOnce (source : Bytes) (function : Node) : Prop :=
  ((function.bindings source).filterMap id).Nodup

theorem BindsOnce.index_eq {source : Bytes} {function : Node} (h : function.BindsOnce source)
    {i j : Nat} {x : Text} (hi : (function.bindings source)[i]? = some (some x))
    (hj : (function.bindings source)[j]? = some (some x)) : i = j := by
  have hne := List.pairwise_iff_getElem.1 (List.pairwise_filterMap.1 h)
  obtain ⟨hilength, hix⟩ := List.getElem?_eq_some_iff.1 hi
  obtain ⟨hjlength, hjx⟩ := List.getElem?_eq_some_iff.1 hj
  rcases Nat.lt_trichotomy i j with hlt | heq | hlt
  · exact absurd rfl (hne i j hilength hjlength hlt x hix x hjx)
  · exact heq
  · exact absurd rfl (hne j i hjlength hilength hlt x hjx x hix)

end Node

/-! ### The last parameter of a name -/

/-- The last one of the first `k` parameters that has the name. -/
structure Parameter.Last (parameters : List Parameter) (k : Nat) (x : Text) (i : Nat)
    (p : Parameter) : Prop where
  before : i < k
  parameter : parameters[i]? = some p
  name : p.name = x
  last : ∀ j q, i < j → j < k → parameters[j]? = some q → q.name ≠ x

/-- Either one of the first `k` parameters is the last one of the name, or none has it. -/
theorem Parameter.exists_last (parameters : List Parameter) (k : Nat) (x : Text) :
    (∃ i p, Last parameters k x i p) ∨
      ∀ j q, j < k → parameters[j]? = some q → q.name ≠ x := by
  induction k with
  | zero => exact .inr fun j q hj => absurd hj (Nat.not_lt_zero j)
  | succ k ih =>
    by_cases hk : ∃ p, parameters[k]? = some p ∧ p.name = x
    · obtain ⟨p, hp, hname⟩ := hk
      exact .inl ⟨k, p, Nat.lt_succ_self k, hp, hname, fun j q hkj hj => by omega⟩
    · -- the parameter at `k` has another name
      have hother {j : Nat} {q : Parameter} (hkj : k ≤ j) (hj : j < k + 1)
          (hq : parameters[j]? = some q) : q.name ≠ x := by
        obtain rfl : j = k := by omega
        exact fun hname => hk ⟨q, hq, hname⟩
      rcases ih with ⟨i, p, h⟩ | hnone
      · refine .inl ⟨i, p, Nat.lt_succ_of_lt h.before, h.parameter, h.name, ?_⟩
        intro j q hij hj hq
        by_cases hjk : j < k
        · exact h.last j q hij hjk hq
        · exact hother (Nat.not_lt.1 hjk) hj hq
      · refine .inr fun j q hj hq => ?_
        by_cases hjk : j < k
        · exact hnone j q hjk hq
        · exact hother (Nat.not_lt.1 hjk) hj hq

namespace TypeEnv

/-- The first `k` parameters give a name the type of the last one that has it. -/
theorem typeOf_of_last {parameters : List Parameter} {k : Nat} {x : Text} {i : Nat}
    {p : Parameter} (h : Parameter.Last parameters k x i p) :
    (ofParameters (parameters.take k)).typeOf x = p.type.getD TypeUnion.any := by
  obtain ⟨hi, hp, rfl, hlast⟩ := h
  have htake : (parameters.take k)[i]? = some p := by
    rw [List.getElem?_take_of_lt hi, hp]
  obtain ⟨hlength, hget⟩ := List.getElem?_eq_some_iff.1 htake
  have hsplit : parameters.take k =
      (parameters.take k).take i ++ p :: (parameters.take k).drop (i + 1) := by
    rw [← hget, List.getElem_cons_drop, List.take_append_drop]
  rw [hsplit]
  refine typeOf_ofParameters fun q hq => ?_
  obtain ⟨j, hj⟩ := List.mem_iff_getElem?.1 hq
  rw [List.getElem?_drop] at hj
  have hbefore : i + 1 + j < k := by
    have := (List.getElem?_eq_some_iff.1 hj).1
    rw [List.length_take] at this
    omega
  rw [List.getElem?_take_of_lt hbefore] at hj
  exact hlast (i + 1 + j) q (by omega) hbefore hj

/-- A name that none of the first `k` parameters has gets no type from them. -/
theorem typeOf_of_no_name {parameters : List Parameter} {k : Nat} {x : Text}
    (h : ∀ j q, j < k → parameters[j]? = some q → q.name ≠ x) :
    (ofParameters (parameters.take k)).typeOf x = TypeUnion.any := by
  have hnone : (ofParameters (parameters.take k)).lookup x = none := by
    rw [List.lookup_eq_none_iff]
    intro entry hentry
    obtain ⟨q, hq, rfl⟩ := List.mem_map.1 (List.mem_reverse.1 hentry)
    obtain ⟨j, hj⟩ := List.mem_iff_getElem?.1 hq
    have hbefore : j < k := by
      have := (List.getElem?_eq_some_iff.1 hj).1
      rw [List.length_take] at this
      omega
    rw [List.getElem?_take_of_lt hbefore] at hj
    simpa using (h j q hbefore hj).symm
  rw [typeOf, hnone, Option.getD_none]

end TypeEnv

/-! ### What an identifier denotes, and what it sees -/

section Identifiers

variable (source : Bytes) (function : Node) (parameters : List Parameter) (k : Nat) (x : Text)

/-- The type that an identifier should have behind the first `k` parameters of a function: that of
    the parameter that binds it, and `any` if none of them does. -/
structure Denotes (type : Text) : Prop where
  bound : ∀ i p, i < k → (function.bindings source)[i]? = some (some x) →
    parameters[i]? = some p → p.type = some type
  free : (∀ i < k, (function.bindings source)[i]? ≠ some (some x)) → type = TypeUnion.any

/-- One of the first `k` parameters is a pattern whose position spells the identifier, and none
    behind it binds the identifier. -/
structure Captures (i : Nat) : Prop where
  before : i < k
  pattern : (function.bindings source)[i]? = some none
  spelled : Node.positionalName i = x
  last : ∀ j, i < j → j < k → (function.bindings source)[j]? ≠ some (some x)

/-- The type that an identifier is seen to have behind the first `k` parameters: the one that it
    denotes, or that of the pattern that captures it. -/
structure Sees (type : Text) : Prop where
  denotes : (∀ i, ¬ Captures source function k x i) → Denotes source function parameters k x type
  captured : ∀ i p, Captures source function k x i → parameters[i]? = some p → p.type = some type

end Identifiers

section Parameters

variable {source : Bytes} {function : Node} {parameters : List Parameter}
  (hnames : parameters.map (·.name) =
    (function.bindings source).mapIdx fun i binding => binding.getD (Node.positionalName i))
include hnames

/-- What a parameter binds tells its name. -/
theorem name_of_binding {i : Nat} {p : Parameter} (hp : parameters[i]? = some p) :
    ∃ binding, (function.bindings source)[i]? = some binding ∧
      p.name = binding.getD (Node.positionalName i) := by
  have hi := congrArg (·[i]?) hnames
  simp only [List.getElem?_map, List.getElem?_mapIdx, hp, Option.map_some] at hi
  obtain ⟨binding, hbinding, hname⟩ := Option.map_eq_some_iff.1 hi.symm
  exact ⟨binding, hbinding, hname.symm⟩

/-- There is a parameter for everything that is bound. -/
theorem exists_parameter_of_binding {i : Nat} {binding : Option Text}
    (h : (function.bindings source)[i]? = some binding) : ∃ p, parameters[i]? = some p := by
  have hlength := congrArg List.length hnames
  rw [List.length_map, List.length_mapIdx] at hlength
  have hi : i < parameters.length := hlength ▸ (List.getElem?_eq_some_iff.1 h).1
  exact ⟨_, List.getElem?_eq_getElem hi⟩

variable {k i : Nat} {x : Text} {p : Parameter}

/-- A pattern that captures an identifier is the last parameter of that name. -/
theorem last_of_captures (h : Captures source function k x i) (hp : parameters[i]? = some p) :
    Parameter.Last parameters k x i p := by
  obtain ⟨hi, hpattern, hspelled, hlast⟩ := h
  obtain ⟨binding, hbinding, hname⟩ := name_of_binding hnames hp
  obtain rfl := Option.some.inj (hpattern.symm.trans hbinding)
  refine ⟨hi, hp, hname.trans hspelled, ?_⟩
  intro j q hij hj hq hqname
  obtain ⟨other, hother, hq'⟩ := name_of_binding hnames hq
  cases other with
  | some y =>
    obtain rfl : y = x := hq'.symm.trans hqname
    exact hlast j hij hj hother
  | none =>
    -- two patterns have different positions
    have hsame : Node.positionalName j = Node.positionalName i :=
      (hq'.symm.trans hqname).trans hspelled.symm
    exact Nat.ne_of_gt hij (Node.positionalName_injective hsame)

/-- Where no pattern captures an identifier, the last parameter of that name binds it. -/
theorem binds_of_last (hfree : ∀ i, ¬ Captures source function k x i)
    (h : Parameter.Last parameters k x i p) :
    (function.bindings source)[i]? = some (some x) := by
  obtain ⟨binding, hbinding, hname⟩ := name_of_binding hnames h.parameter
  cases binding with
  | some y =>
    obtain rfl : y = x := hname.symm.trans h.name
    exact hbinding
  | none =>
    refine absurd ⟨h.before, hbinding, hname.symm.trans h.name, ?_⟩ (hfree i)
    intro j hij hj hbound
    obtain ⟨q, hq⟩ := exists_parameter_of_binding hnames hbound
    obtain ⟨other, hother, hqname⟩ := name_of_binding hnames hq
    obtain rfl := Option.some.inj (hbound.symm.trans hother)
    exact h.last j q hij hj hq hqname

/-- Looking a name up among the first parameters gives the type that the identifier is seen to
    have. -/
theorem sees_typeOf (htypes : ∀ p ∈ parameters, p.type ≠ none) (honce : function.BindsOnce source)
    (k : Nat) (x : Text) :
    Sees source function parameters k x ((TypeEnv.ofParameters (parameters.take k)).typeOf x) := by
  have htype {i : Nat} {p : Parameter} (h : Parameter.Last parameters k x i p) :
      p.type = some ((TypeEnv.ofParameters (parameters.take k)).typeOf x) := by
    obtain ⟨type, htype⟩ := Option.ne_none_iff_exists'.1
      (htypes p (List.mem_of_getElem? h.parameter))
    rw [TypeEnv.typeOf_of_last h, htype, Option.getD_some]
  refine ⟨fun hfree => ⟨?_, ?_⟩, ?_⟩
  · intro i p hi hbound hp
    rcases Parameter.exists_last parameters k x with ⟨j, q, hlast⟩ | hnone
    · -- the last parameter of the name binds it too, so it is the same one
      obtain rfl := honce.index_eq hbound (binds_of_last hnames hfree hlast)
      obtain rfl := Option.some.inj (hp.symm.trans hlast.parameter)
      exact htype hlast
    · obtain ⟨binding, hbinding, hname⟩ := name_of_binding hnames hp
      obtain rfl := Option.some.inj (hbound.symm.trans hbinding)
      exact absurd hname (hnone i p hi hp)
  · intro hunbound
    rcases Parameter.exists_last parameters k x with ⟨j, q, hlast⟩ | hnone
    · exact absurd (binds_of_last hnames hfree hlast) (hunbound j hlast.before)
    · exact TypeEnv.typeOf_of_no_name hnone
  · intro i p hcaptures hp
    exact htype (last_of_captures hnames hcaptures hp)

end Parameters

/-! ### Inference -/

theorem Guess.imp {types : Option Oracle} {ask : Oracle → Option Text} {Shape Shape' : Text → Prop}
    {type : Text} (h : Guess types ask Shape type) (himp : Shape type → Shape' type) :
    Guess types ask Shape' type := by
  cases h with
  | said horacle h => exact .said horacle h
  | shape hsilent h => exact .shape hsilent (himp h)

theorem Parameter.ShapeType.eq_of_default {source : Bytes} {env : TypeEnv} {p : Parameter}
    {type : Text} (h : p.ShapeType source env type) {value : Node} (hvalue : p.default = some value) :
    type = value.typeIn source env := by
  cases h with
  | value h => rw [Option.some.inj (hvalue.symm.trans h)]
  | rest hnone _ => exact absurd (hvalue.symm.trans hnone) (Option.some_ne_none _)
  | unknown hnone _ => exact absurd (hvalue.symm.trans hnone) (Option.some_ne_none _)

namespace Target

theorem type_of_mem_inferParameters (strategies : List Strategy) {env : TypeEnv}
    {parameters : List Parameter} {p : Parameter}
    (h : p ∈ (inferParameters strategies env parameters).1) : p.type ≠ none := by
  induction parameters generalizing env with
  | nil => cases h
  | cons first more ih =>
    rcases List.mem_cons.1 h with rfl | hmore
    · exact Option.some_ne_none _
    · exact ih hmore

/-- For a function whose parameters bind distinct identifiers, with or without an oracle: an
    identifier anywhere sees, behind the first parameters, the type that it denotes there, or that
    of a pattern that captures it. A default value is read behind the parameters before it, and
    the returned values are read behind all parameters. -/
theorem infer_sees (types : Option Oracle) {source : Bytes} {function : Node} {t : Target}
    (hfunction : t.function = some function)
    (hparameters : t.parameters = function.parameters source)
    (honce : function.BindsOnce source) :
    let t' := t.infer (Strategy.forSource types source)
    let env (k : Nat) := TypeEnv.ofParameters (t'.parameters.take k)
    (∀ (k : Nat) (node : Node), node.kind = "identifier" →
      Sees source function t'.parameters k (node.text source) (node.typeIn source (env k))) ∧
    (∀ (i : Nat) (p p' : Parameter) (value : Node), t.parameters[i]? = some p →
      t'.parameters[i]? = some p' → p.type = none → p.default = some value →
      value.kind = "identifier" →
      ∃ node type, p.node = some node ∧ p'.type = some type ∧
        Guess types (·.parameterType node)
          (Sees source function t'.parameters i (value.text source)) type) ∧
    (t.returnDeclared = false → ∃ type,
      Guess types (·.returnType function)
        (· = function.returnTypeIn source (env t'.parameters.length)) type ∧
      t'.returnType = some (if t.isAsync then TypeUnion.promised type else type)) := by
  intro t' env
  have hnames : t'.parameters.map (·.name) =
      (function.bindings source).mapIdx fun i binding => binding.getD (Node.positionalName i) := by
    rw [infer_parameters, map_name_inferParameters, hparameters, Node.map_name_parameters]
  have hsees (k : Nat) (node : Node) (hkind : node.kind = "identifier") :
      Sees source function t'.parameters k (node.text source) (node.typeIn source (env k)) := by
    rw [Node.typeIn_identifier hkind]
    exact sees_typeOf hnames (fun p hp => type_of_mem_inferParameters _ hp) honce k _
  refine ⟨hsees, ?_, ?_⟩
  · intro i p p' value hp hp' hnone hvalue hkind
    obtain ⟨node, hnode⟩ := Node.node_of_mem_parameters (hparameters ▸ List.mem_of_getElem? hp)
    have hguess : Guess types (·.parameterType node) (p.ShapeType source (env i))
        (Strategy.first (Strategy.forSource types source) (Strategy.parameterType? (env i) p)) :=
      guess_parameterType hnode
    refine ⟨node, _, hnode, ?_, hguess.imp fun hshape => ?_⟩
    · rw [infer_parameter hp hp', Parameter.filled, hnone, Option.getD_none]
    · rw [hshape.eq_of_default hvalue]
      exact hsees i value hkind
  · intro hopen
    rw [infer_returnType hopen]
    refine ⟨_, guess_returnType hfunction, ?_⟩
    simp only [env, List.take_length]
    rfl

/-- A function with two patterns among its parameters, and with two names to choose. The first is
    that of a parameter, and is read by a default value and by the result. -/
def namedSource (bound free : Text) : Bytes :=
  Utf8.encode ("function f(".toList ++ bound ++ ": string, \x7ba\x7d = \x7b\x7d, [b] = [], c = ".toList ++
    bound ++ ", d = ".toList ++ free ++ ") \x7b return ".toList ++ bound ++ "; \x7d".toList)

/-- The function of `namedSource`, for names of six characters. -/
def namedFunction : Node :=
  let name (start : Nat) (field : Option String) : Node :=
    ⟨"identifier", start, start + 6, true, field, []⟩
  let parameter (start stop : Nat) (parts : List Node) : Node :=
    ⟨"required_parameter", start, stop, true, none, parts⟩
  ⟨"function_declaration", 0, 89, true, none,
    [⟨"identifier", 9, 10, true, some "name", []⟩,
      ⟨"formal_parameters", 10, 70, true, some "parameters",
        [parameter 11 25 [name 11 (some "pattern"),
            ⟨"type_annotation", 17, 25, true, some "type", []⟩],
          parameter 27 35 [⟨"object_pattern", 27, 30, true, some "pattern", []⟩,
            ⟨"object", 33, 35, true, some "value", []⟩],
          parameter 37 45 [⟨"array_pattern", 37, 40, true, some "pattern", []⟩,
            ⟨"array", 43, 45, true, some "value", []⟩],
          parameter 47 57 [⟨"identifier", 47, 48, true, some "pattern", []⟩,
            name 51 (some "value")],
          parameter 59 69 [⟨"identifier", 59, 60, true, some "pattern", []⟩,
            name 63 (some "value")]]⟩,
      ⟨"statement_block", 71, 89, true, some "body",
        [⟨"return_statement", 73, 87, true, none, [name 80 none]⟩]⟩]⟩

/-- The tree of `namedSource`. -/
def namedTree : Node := ⟨"program", 0, 89, true, none, [namedFunction]⟩

/-- The function of `namedTree` as the collector sees it. -/
def namedDocumentable : Documentable :=
  ⟨⟨"identifier", 9, 10, true, some "name", []⟩, namedFunction,
    ⟨namedFunction, [⟨[], namedTree⟩]⟩⟩

/-- The default value at an offset of `namedFunction`. -/
def namedValue (start : Nat) : Node :=
  ⟨"identifier", start, start + 6, true, some "value", []⟩

/-- Names that no pattern is called by are read as the parameters that bind them. -/
theorem infer_sees_named :
    let source := namedSource "source".toList "target".toList
    ∃ t ∈ collect source namedTree, t.function = some namedFunction ∧
      t.parameters = namedFunction.parameters source ∧ namedFunction.BindsOnce source ∧
      let t' := t.infer (Strategy.forSource none source)
      Denotes source namedFunction t'.parameters 3 "source".toList "string".toList ∧
      Denotes source namedFunction t'.parameters 4 "target".toList TypeUnion.any ∧
      t'.parameters.map (·.type) = [some "string".toList, some "object".toList,
        some "any[]".toList, some "string".toList, some TypeUnion.any] ∧
      t'.returnType = some "string".toList := by
  intro source
  have hlength : (collect source namedTree).length = 1 := by decide +kernel
  obtain ⟨t, ht⟩ := List.length_pos_iff_exists_mem.1 (by rw [hlength]; decide)
  obtain rfl := eq_of_mem_collect (d := namedDocumentable) rfl ht
  have honce : namedFunction.BindsOnce source := by
    unfold Node.BindsOnce
    decide +kernel
  obtain ⟨hsees, -⟩ := infer_sees none (t := namedDocumentable.target source) rfl rfl honce
  have hfree {k : Nat} {c : Char} {rest : Text} (hc : c ≠ 'p') :
      ∀ i, ¬ Captures source namedFunction k (c :: rest) i :=
    fun i h => hc (List.cons.inj h.spelled).1.symm
  let t' := (namedDocumentable.target source).infer (Strategy.forSource none source)
  refine ⟨_, ht, rfl, rfl, honce, ?_, ?_, by decide +kernel, by decide +kernel⟩
  · have htext : (namedValue 51).text source = "source".toList := by decide +kernel
    have htype : (namedValue 51).typeIn source (TypeEnv.ofParameters (t'.parameters.take 3)) =
        "string".toList := by
      decide +kernel
    have hvalue := (hsees 3 (namedValue 51) rfl).denotes
    rw [htext, htype] at hvalue
    exact hvalue (hfree (by decide))
  · have htext : (namedValue 63).text source = "target".toList := by decide +kernel
    have htype : (namedValue 63).typeIn source (TypeEnv.ofParameters (t'.parameters.take 4)) =
        TypeUnion.any := by
      decide +kernel
    have hvalue := (hsees 4 (namedValue 63) rfl).denotes
    rw [htext, htype] at hvalue
    exact hvalue (hfree (by decide))

/-- A pattern captures the identifier that its position spells: a parameter is not read by its own
    name, and a name that no parameter binds is read as a pattern. -/
theorem infer_captured :
    let source := namedSource "param2".toList "param3".toList
    ∃ t ∈ collect source namedTree, t.function = some namedFunction ∧
      t.parameters = namedFunction.parameters source ∧ namedFunction.BindsOnce source ∧
      let t' := t.infer (Strategy.forSource none source)
      t'.parameters.map (fun p => (p.name, p.type)) =
        [("param2".toList, some "string".toList), ("param2".toList, some "object".toList),
          ("param3".toList, some "any[]".toList), ("c".toList, some "object".toList),
          ("d".toList, some "any[]".toList)] ∧
      t'.returnType = some "object".toList ∧
      ¬ Denotes source namedFunction t'.parameters 3 "param2".toList "object".toList ∧
      ¬ Denotes source namedFunction t'.parameters 4 "param3".toList "any[]".toList ∧
      ¬ Denotes source namedFunction t'.parameters 5 "param2".toList "object".toList := by
  intro source
  have hlength : (collect source namedTree).length = 1 := by decide +kernel
  obtain ⟨t, ht⟩ := List.length_pos_iff_exists_mem.1 (by rw [hlength]; decide)
  obtain rfl := eq_of_mem_collect (d := namedDocumentable) rfl ht
  have honce : namedFunction.BindsOnce source := by
    unfold Node.BindsOnce
    decide +kernel
  have hbindings : namedFunction.bindings source =
      [some "param2".toList, none, none, some "c".toList, some "d".toList] := by
    decide +kernel
  refine ⟨_, ht, rfl, rfl, honce, by decide +kernel, by decide +kernel, ?_, ?_, ?_⟩
  · intro h
    have htype := h.bound 0 _ (by decide) (by rw [hbindings]; rfl) rfl
    exact absurd htype (by decide +kernel)
  · intro h
    refine absurd (h.free fun i hi => ?_) (by decide)
    rw [hbindings]
    interval_cases i <;> decide
  · intro h
    have htype := h.bound 0 _ (by decide) (by rw [hbindings]; rfl) rfl
    exact absurd htype (by decide +kernel)

end Target

end DocAnnotator
