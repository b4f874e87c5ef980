import DocAnnotator.Infer.Engine
import DocAnnotator.Infer.Returns
import DocAnnotator.Proofs.Infer.Leaves
import DocAnnotator.Target.Signature

/-! ## The union that a function returns

    A function with a block for its body returns the union of the types of its returned values,
    without those that are `void`.

    - `valuesOf`, `returnLeaves`: the returned values that count, and their leaves.
    - `returnTypeIn_block`: the return type is the join of the types of the values.
    - `returnLeaves_sublist`: the leaves come in document order.
    - `returnTypeIn_leaf_union`: the return type has the members of the types of the leaves.
-/

namespace DocAnnotator.Node

open TypeUnion

/-- The values that the return statements of a body give back, without those of type `void`. -/
def valuesOf (source : Bytes) (env : TypeEnv) (body : Node) : List Node :=
  ((returnsOf body.children).filterMap id).filter fun value => value.typeIn source env != void

/-- The leaves of the values that a body returns. -/
def returnLeaves (source : Bytes) (env : TypeEnv) (body : Node) : List Node :=
  (body.valuesOf source env).flatMap leaves

/-! ### Document order -/

mutual
/-- The leaves of the returned values at or below a node come in document order. -/
theorem returnsAt_sublist : (node : Node) → (∀ n ∈ node.preorder, n.InOrder) →
    (((returnsAt node).filterMap id).flatMap leaves).Sublist node.preorder
  | ⟨kind, start, stop, named, field, children⟩, h => by
    rw [returnsAt]
    split
    · exact List.nil_sublist _
    · split
      · -- the value is a child of the statement
        cases hvalue : returnedValue ⟨kind, start, stop, named, field, children⟩ with
        | none => exact List.nil_sublist _
        | some value =>
          have hsub := preorder_sublist_of_mem (mem_of_head?_contents hvalue)
          have hleaves := leaves_sublist fun n hn => h n (hsub.subset hn)
          simpa using hleaves.trans hsub
      · rw [preorder_eq] at h ⊢
        exact (returnsOf_sublist children fun n hn => h n (List.mem_cons_of_mem _ hn)).cons _

theorem returnsOf_sublist : (children : List Node) →
    (∀ n ∈ children.flatMap preorder, n.InOrder) →
    (((returnsOf children).filterMap id).flatMap leaves).Sublist (children.flatMap preorder)
  | [], _ => List.nil_sublist _
  | child :: rest, h => by
    rw [returnsOf, List.filterMap_append, List.flatMap_append, List.flatMap_cons]
    rw [List.flatMap_cons] at h
    exact (returnsAt_sublist child fun n hn => h n (List.mem_append_left _ hn)).append
      (returnsOf_sublist rest fun n hn => h n (List.mem_append_right _ hn))
end

theorem returnLeaves_sublist (source : Bytes) (env : TypeEnv) {body : Node}
    (h : ∀ n ∈ body.preorder, n.InOrder) :
    (body.returnLeaves source env).Sublist body.preorder := by
  rw [preorder_eq] at h ⊢
  have hall := returnsOf_sublist body.children fun n hn => h n (List.mem_cons_of_mem _ hn)
  exact ((List.filter_sublist.flatMap leaves).trans hall).cons _

/-! ### The return type -/

section Types

variable {source : Bytes} {env : TypeEnv} {function body : Node}

/-- A bare return has type `void`, and so is left out with the values of that type. -/
theorem filter_returned (source : Bytes) (env : TypeEnv) (returned : List (Option Node)) :
    (returned.map fun value => (value.map (typeIn source env)).getD void).filter (· != void) =
      ((returned.filterMap id).filter fun value => value.typeIn source env != void).map
        (typeIn source env) := by
  induction returned with
  | nil => rfl
  | cons value rest ih =>
    cases value with
    | none => simpa using ih
    | some value =>
      by_cases hvoid : value.typeIn source env = void
      · simp [hvoid, ih]
      · simp [hvoid, ih]

theorem returnTypeIn_block (hbody : function.child? "body" = some body)
    (hblock : body.kind = "statement_block") :
    function.returnTypeIn source env = match (body.valuesOf source env).map (typeIn source env) with
      | [] => void
      | types => join types := by
  unfold returnTypeIn
  simp only [hbody, hblock, bne_self_eq_false, Bool.false_eq_true, if_false, filter_returned]
  rfl

theorem returnTypeIn_of_no_values (hbody : function.child? "body" = some body)
    (hblock : body.kind = "statement_block") (hnone : body.valuesOf source env = []) :
    function.returnTypeIn source env = void := by
  rw [returnTypeIn_block hbody hblock, hnone]
  rfl

theorem returnTypeIn_of_values (hbody : function.child? "body" = some body)
    (hblock : body.kind = "statement_block") (hsome : body.valuesOf source env ≠ []) :
    function.returnTypeIn source env =
      join ((body.valuesOf source env).map (typeIn source env)) := by
  obtain ⟨value, more, hvalues⟩ := List.exists_cons_of_ne_nil hsome
  rw [returnTypeIn_block hbody hblock, hvalues]
  rfl

theorem castsAre_of_mem {P : Text → Prop} (hcast : CastsAre P source (body.returnLeaves source env))
    {value : Node} (h : value ∈ body.valuesOf source env) : CastsAre P source value.leaves :=
  hcast.mono fun _ hleaf => List.mem_flatMap.2 ⟨value, h, hleaf⟩

theorem isUnion_of_mem_values (henv : env.All IsUnion)
    (hcast : CastsAre IsUnion source (body.returnLeaves source env)) :
    ∀ type ∈ (body.valuesOf source env).map (typeIn source env), IsUnion type := by
  intro type htype
  obtain ⟨value, hvalue, rfl⟩ := List.mem_map.1 htype
  exact isUnion_typeIn henv (castsAre_of_mem hcast hvalue)

/-- The distinct members of the types of the values are those of the types of the leaves. -/
theorem distinctMembers_values (henv : env.All IsUnion)
    (hcast : CastsAre IsUnion source (body.returnLeaves source env)) :
    distinctMembers ((body.valuesOf source env).map (typeIn source env)) =
      distinctMembers ((body.returnLeaves source env).map (typeIn source env)) := by
  unfold distinctMembers returnLeaves
  rw [List.map_flatMap, List.flatMap_assoc, List.flatMap_map]
  refine eraseDups_flatMap_congr fun value hvalue => ?_
  exact members_typeIn henv (castsAre_of_mem hcast hvalue)

/-- The members of the return type are those of the types of the leaves. -/
theorem members_returnTypeIn (hbody : function.child? "body" = some body)
    (hblock : body.kind = "statement_block") (henv : env.All IsUnion)
    (hcast : CastsAre IsUnion source (body.returnLeaves source env))
    (hsome : body.valuesOf source env ≠ []) :
    members (function.returnTypeIn source env) =
      distinctMembers ((body.returnLeaves source env).map (typeIn source env)) := by
  have hunion := isUnion_of_mem_values henv hcast
  have hne : (body.valuesOf source env).map (typeIn source env) ≠ [] := by
    rwa [Ne, List.map_eq_nil_iff]
  rw [returnTypeIn_of_values hbody hblock hsome,
    members_join (fun type htype => (hunion type htype).closed) (distinctMembers_ne_nil hne hunion),
    distinctMembers_values henv hcast]

/-- A function returns `void` if it returns no other value, or values whose types all spell it. -/
theorem returnTypeIn_eq_void_iff (hbody : function.child? "body" = some body)
    (hblock : body.kind = "statement_block") (henv : env.All IsUnion)
    (hcast : CastsAre IsUnion source (body.returnLeaves source env)) :
    function.returnTypeIn source env = void ↔ body.valuesOf source env = [] ∨
      distinctMembers ((body.returnLeaves source env).map (typeIn source env)) = [void] := by
  by_cases hnone : body.valuesOf source env = []
  · exact iff_of_true (returnTypeIn_of_no_values hbody hblock hnone) (.inl hnone)
  · have hmembers := members_returnTypeIn hbody hblock henv hcast hnone
    constructor
    · intro hvoid
      have hself : members void = [void] := by decide
      rw [hvoid, hself] at hmembers
      exact .inr hmembers.symm
    · rintro (hnil | hvoid)
      · exact absurd hnil hnone
      · rw [← distinctMembers_values henv hcast] at hvoid
        rw [returnTypeIn_of_values hbody hblock hnone, join_of_members hvoid]
        rfl

end Types

/-- Where all brackets come out even and every type names a member, the type of an expression has
    the distinct members of the types of its leaves. So has the return type of a function with a
    block for its body, taken over the returned values that are not `void`, in the order in which
    they are first seen; it is `void` if there is none, or if every member is. -/
theorem returnTypeIn_leaf_union (source : Bytes) {env : TypeEnv} (henv : env.All IsUnion) :
    (∀ e : Node, CastsAre IsUnion source e.leaves →
      (members (e.typeIn source env)).eraseDups =
        distinctMembers (e.leaves.map (typeIn source env)) ∧
      ((∀ n ∈ e.preorder, n.InOrder) → e.leaves.Sublist e.preorder)) ∧
    ∀ function body : Node, function.child? "body" = some body → body.kind = "statement_block" →
      CastsAre IsUnion source (body.returnLeaves source env) →
      (function.returnTypeIn source env = void ↔ body.valuesOf source env = [] ∨
        distinctMembers ((body.returnLeaves source env).map (typeIn source env)) = [void]) ∧
      (body.valuesOf source env ≠ [] → members (function.returnTypeIn source env) =
        distinctMembers ((body.returnLeaves source env).map (typeIn source env))) ∧
      ((∀ n ∈ body.preorder, n.InOrder) →
        (body.returnLeaves source env).Sublist body.preorder) := by
  refine ⟨fun e hcast => ⟨members_typeIn henv hcast, leaves_sublist⟩,
    fun function body hbody hblock hcast => ⟨?_, ?_, returnLeaves_sublist source env⟩⟩
  · exact returnTypeIn_eq_void_iff hbody hblock henv hcast
  · exact members_returnTypeIn hbody hblock henv hcast

/-- Three return statements: a bare one, one with two alternatives, and one with a cast inside. -/
def mixedSource : Bytes :=
  Utf8.encode ("function f(c, u: string | number) \x7b if (c) return; " ++
    "if (u) return c ? (u) : 1; return u || (c as null); \x7d").toList

/-- The types of the two parameters of `mixedSource`. -/
def mixedEnv : TypeEnv := [("u".toList, "string | number".toList), ("c".toList, TypeUnion.any)]

/-- The body of the function of `mixedSource`. -/
def mixedBody : Node :=
  let name (start : Nat) (field : Option String) : Node :=
    ⟨"identifier", start, start + 1, true, field, []⟩
  let conditional : Node := ⟨"ternary_expression", 65, 76, true, none,
    [name 65 (some "condition"),
      ⟨"parenthesized_expression", 69, 72, true, some "consequence", [name 70 none]⟩,
      ⟨"number", 75, 76, true, some "alternative", []⟩]⟩
  let cast : Node := ⟨"as_expression", 91, 100, true, none,
    [name 91 none, ⟨"literal_type", 96, 100, true, none, []⟩]⟩
  let logical : Node := ⟨"binary_expression", 85, 101, true, none,
    [name 85 (some "left"), ⟨"||", 87, 89, false, some "operator", []⟩,
      ⟨"parenthesized_expression", 90, 101, true, some "right", [cast]⟩]⟩
  ⟨"statement_block", 34, 104, true, some "body",
    [⟨"if_statement", 36, 50, true, none,
        [⟨"return_statement", 43, 50, true, some "consequence", []⟩]⟩,
      ⟨"if_statement", 51, 77, true, none,
        [⟨"return_statement", 58, 77, true, some "consequence", [conditional]⟩]⟩,
      ⟨"return_statement", 78, 102, true, none, [logical]⟩]⟩

/-- The function of `mixedSource`. -/
def mixedFunction : Node :=
  ⟨"function_declaration", 0, 104, true, none,
    [⟨"identifier", 9, 10, true, some "name", []⟩, mixedBody]⟩

/-- The four leaves of the two values have three members between them. -/
theorem returnTypeIn_leaf_union_mixed :
    mixedEnv.All IsUnion ∧
    CastsAre IsUnion mixedSource (mixedBody.returnLeaves mixedSource mixedEnv) ∧
    (mixedBody.returnLeaves mixedSource mixedEnv).map (·.start) = [70, 75, 85, 91] ∧
    members (mixedFunction.returnTypeIn mixedSource mixedEnv) =
      ["string".toList, "number".toList, "null".toList] := by
  have henv : mixedEnv.All IsUnion := TypeEnv.all_of_forall (by decide)
  have hcast : CastsAre IsUnion mixedSource (mixedBody.returnLeaves mixedSource mixedEnv) := by
    decide +kernel
  obtain ⟨-, hfunction⟩ := returnTypeIn_leaf_union mixedSource henv
  obtain ⟨-, hmembers, -⟩ := hfunction mixedFunction mixedBody rfl rfl hcast
  have hvalues : mixedBody.valuesOf mixedSource mixedEnv ≠ [] := by
    intro hnil
    have hlength : (mixedBody.valuesOf mixedSource mixedEnv).length = 2 := by decide +kernel
    rw [hnil] at hlength
    cases hlength
  refine ⟨henv, hcast, by decide +kernel, ?_⟩
  rw [hmembers hvalues]
  decide +kernel

/-- A parameter whose type spells `void` with a bar in front of it. -/
def barSource : Bytes := Utf8.encode "function f(x: | void) \x7b return x; \x7d".toList

/-- The type of the parameter of `barSource`. -/
def barEnv : TypeEnv := [("x".toList, "| void".toList)]

/-- The body of the function of `barSource`. -/
def barBody : Node :=
  ⟨"statement_block", 22, 35, true, some "body",
    [⟨"return_statement", 24, 33, true, none, [⟨"identifier", 31, 32, true, none, []⟩]⟩]⟩

/-- The function of `barSource`. -/
def barFunction : Node :=
  ⟨"function_declaration", 0, 35, true, none,
    [⟨"identifier", 9, 10, true, some "name", []⟩,
      ⟨"formal_parameters", 10, 21, true, some "parameters",
        [⟨"required_parameter", 11, 20, true, none,
          [⟨"identifier", 11, 12, true, some "pattern", []⟩,
            ⟨"type_annotation", 12, 20, true, some "type", []⟩]⟩]⟩,
      barBody]⟩

/-- A function can return `void` although it returns a value whose type is not written so. -/
theorem returnTypeIn_void_spelled :
    (Target.inferParameters [.shape barSource] [] (barFunction.parameters barSource)).2 = barEnv ∧
    barEnv.All IsUnion ∧ barFunction.child? "body" = some barBody ∧
    barBody.kind = "statement_block" ∧
    CastsAre IsUnion barSource (barBody.returnLeaves barSource barEnv) ∧
    ¬ (barFunction.returnTypeIn barSource barEnv = void ↔
      barBody.valuesOf barSource barEnv = []) := by
  refine ⟨by decide +kernel, TypeEnv.all_of_forall (by decide), rfl, rfl, by decide +kernel, ?_⟩
  have hvoid : barFunction.returnTypeIn barSource barEnv = void := by decide +kernel
  have hlength : (barBody.valuesOf barSource barEnv).length = 1 := by decide +kernel
  intro h
  rw [h.1 hvoid] at hlength
  cases hlength

end DocAnnotator.Node
