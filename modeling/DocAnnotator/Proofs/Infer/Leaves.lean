import Mathlib.Data.List.Flatten
import DocAnnotator.Infer.Expression
import DocAnnotator.Proofs.Tree.Places
import DocAnnotator.Proofs.TypeUnion

/-! ## The leaves of an expression

    The type of an expression is put together from the types of a few of its parts. Parentheses,
    assignments and casts to a constant take over the type of one part, and conditional and logical
    expressions the types of either of two. What is left are the leaves.

    - `Form`, `leaves`: the parts that count, and the expressions at the end of them.
    - `leaves_sublist`: they come in document order.
    - `typeIn_part`, `typeIn_either`, `typeIn_whole`: the type by form.
    - `typeIn_of_leaves`: what joins keep is passed on from the leaves to the expression.
    - `members_typeIn`: the type has the members of the types of the leaves.
-/

namespace DocAnnotator

open TypeUnion

/-- Every type in the environment is one of these. -/
def TypeEnv.All (P : Text → Prop) (env : TypeEnv) : Prop :=
  ∀ name type, env.lookup name = some type → P type

theorem TypeEnv.all_of_forall {P : Text → Prop} {env : TypeEnv} (h : ∀ entry ∈ env, P entry.2) :
    env.All P := by
  intro name type htype
  induction env with
  | nil => cases htype
  | cons entry rest ih =>
    rw [List.lookup_cons] at htype
    split at htype
    · obtain rfl := Option.some.inj htype
      exact h entry List.mem_cons_self
    · exact ih (fun other hother => h other (List.mem_cons_of_mem _ hother)) htype

namespace Node

/-- How an expression comes by its type: as a whole, from one part, or from either of two. -/
inductive Form where
  | whole
  | part (inner : Node)
  | either (first second : Node)

namespace Form

/-- The form of an expression that stands for a part of it. -/
def ofPart : Option Node → Form
  | some inner => .part inner
  | none => .whole

/-- The form of an expression with two alternatives. -/
def ofEither : Option Node → Option Node → Form
  | some first, some second => .either first second
  | _, _ => .whole

end Form

/-- The form of an expression. A cast without a type of its own is one to a constant. -/
def form (node : Node) : Form :=
  match node.kind with
  | "parenthesized_expression" => .ofPart node.contents.head?
  | "as_expression" =>
    match node.contents with
    | [inner] => .part inner
    | _ => .whole
  | "binary_expression" =>
    match operation node.operator? with
    | .logical => .ofEither (node.child? "left") (node.child? "right")
    | _ => .whole
  | "assignment_expression" | "augmented_assignment_expression" => .ofPart (node.child? "right")
  | "ternary_expression" => .ofEither (node.child? "consequence") (node.child? "alternative")
  | _ => .whole

theorem mem_of_head?_contents {node inner : Node} (h : node.contents.head? = some inner) :
    inner ∈ node.children :=
  (List.mem_filter.1 (List.mem_of_head? h)).1

theorem mem_of_child? {node inner : Node} {field : String} (h : node.child? field = some inner) :
    inner ∈ node.children :=
  List.mem_of_find?_eq_some h

theorem ofPart_eq_part {given : Option Node} {inner : Node} (h : Form.ofPart given = .part inner) :
    given = some inner := by
  cases given with
  | none => cases h
  | some node => exact congrArg some (Form.part.inj h)

theorem ofEither_eq_either {a b : Option Node} {first second : Node}
    (h : Form.ofEither a b = .either first second) : a = some first ∧ b = some second := by
  cases a with
  | none => cases h
  | some a =>
    cases b with
    | none => cases h
    | some b =>
      obtain ⟨rfl, rfl⟩ := Form.either.inj h
      exact ⟨rfl, rfl⟩

theorem ofPart_ne_either {given : Option Node} {first second : Node} :
    Form.ofPart given ≠ .either first second := by
  cases given <;> simp [Form.ofPart]

theorem ofEither_ne_part {a b : Option Node} {inner : Node} :
    Form.ofEither a b ≠ .part inner := by
  cases a <;> cases b <;> simp [Form.ofEither]

/-- The part is a child. -/
theorem mem_of_form_part {node inner : Node} (h : node.form = .part inner) :
    inner ∈ node.children := by
  unfold form at h
  split at h
  · exact mem_of_head?_contents (ofPart_eq_part h)
  · split at h
    next single hcontents =>
      obtain rfl := Form.part.inj h
      exact mem_of_head?_contents (by rw [hcontents]; rfl)
    next => cases h
  · split at h
    · exact absurd h ofEither_ne_part
    · cases h
  · exact mem_of_child? (ofPart_eq_part h)
  · exact mem_of_child? (ofPart_eq_part h)
  · exact absurd h ofEither_ne_part
  · cases h

/-- The two alternatives are children. -/
theorem mem_of_form_either {node first second : Node} (h : node.form = .either first second) :
    first ∈ node.children ∧ second ∈ node.children := by
  unfold form at h
  split at h
  · exact absurd h ofPart_ne_either
  · split at h <;> cases h
  · split at h
    · obtain ⟨hleft, hright⟩ := ofEither_eq_either h
      exact ⟨mem_of_child? hleft, mem_of_child? hright⟩
    · cases h
  · exact absurd h ofPart_ne_either
  · exact absurd h ofPart_ne_either
  · obtain ⟨hthen, helse⟩ := ofEither_eq_either h
    exact ⟨mem_of_child? hthen, mem_of_child? helse⟩
  · cases h

theorem sizeOf_lt_of_mem {node child : Node} (h : child ∈ node.children) :
    sizeOf child < sizeOf node := by
  obtain ⟨kind, start, stop, named, field, children⟩ := node
  have hchildren := List.sizeOf_lt_of_mem h
  simp only [Node.mk.sizeOf_spec] at hchildren ⊢
  omega

/-- The leaf expressions of an expression, in order. -/
def leaves (node : Node) : List Node :=
  match _hform : node.form with
  | .whole => [node]
  | .part inner => inner.leaves
  | .either first second => first.leaves ++ second.leaves
  termination_by sizeOf node
  decreasing_by
  · exact sizeOf_lt_of_mem (mem_of_form_part _hform)
  · exact sizeOf_lt_of_mem (mem_of_form_either _hform).1
  · exact sizeOf_lt_of_mem (mem_of_form_either _hform).2

theorem leaves_whole {node : Node} (h : node.form = .whole) : node.leaves = [node] := by
  rw [leaves]
  split <;> simp_all

theorem leaves_part {node inner : Node} (h : node.form = .part inner) :
    node.leaves = inner.leaves := by
  rw [leaves]
  split <;> simp_all

theorem leaves_either {node first second : Node} (h : node.form = .either first second) :
    node.leaves = first.leaves ++ second.leaves := by
  rw [leaves]
  split <;> simp_all

/-- Induction along the forms of an expression and of its parts. -/
theorem form_induction {motive : Node → Prop}
    (whole : ∀ node, node.form = .whole → motive node)
    (part : ∀ node inner, node.form = .part inner → motive inner → motive node)
    (either : ∀ node first second, node.form = .either first second → motive first →
      motive second → motive node) (node : Node) : motive node := by
  fun_induction leaves node with
  | case1 node h => exact whole node h
  | case2 node inner h ih => exact part node inner h ih
  | case3 node first second h ih₁ ih₂ => exact either node first second h ih₁ ih₂

/-! ### Document order -/

/-- The nodes of a tree, in document order. -/
def preorder (node : Node) : List Node := node.places.map Place.node

mutual
theorem map_placesAt (above other : List Level) : (node : Node) →
    (node.placesAt above).map Place.node = (node.placesAt other).map Place.node
  | ⟨kind, start, stop, named, field, children⟩ => by
    rw [placesAt_eq, placesAt_eq, List.map_cons, List.map_cons]
    exact congrArg _ (map_placesOf _ _ above other [] [] children)

theorem map_placesOf (parent parent' : Node) (above above' : List Level)
    (before before' : List Node) :
    (children : List Node) → (placesOf parent above before children).map Place.node =
      (placesOf parent' above' before' children).map Place.node
  | [] => rfl
  | child :: rest => by
    rw [placesOf, placesOf, List.map_append, List.map_append,
      map_placesAt (⟨before, parent⟩ :: above) (⟨before', parent'⟩ :: above') child,
      map_placesOf parent parent' above above' (child :: before) (child :: before') rest]
end

theorem map_placesOf_eq (parent : Node) (above : List Level) (before children : List Node) :
    (placesOf parent above before children).map Place.node = children.flatMap preorder := by
  induction children generalizing before with
  | nil => rfl
  | cons child rest ih =>
    rw [placesOf, List.map_append, ih, List.flatMap_cons]
    exact congrArg (· ++ _) (map_placesAt _ [] child)

/-- A node comes before what is below its children, child by child. -/
theorem preorder_eq (node : Node) : node.preorder = node :: node.children.flatMap preorder := by
  rw [preorder, places, placesAt_eq, List.map_cons, map_placesOf_eq]

/-- The first alternative of an expression stands before the second one. -/
def InOrder (node : Node) : Prop :=
  ∀ first second, node.form = .either first second → [first, second].Sublist node.children

theorem preorder_sublist_of_mem {node child : Node} (h : child ∈ node.children) :
    child.preorder.Sublist node.preorder := by
  rw [preorder_eq node]
  have hsingle : ([child].flatMap preorder).Sublist (node.children.flatMap preorder) :=
    (List.singleton_sublist.2 h).flatMap _
  rw [List.flatMap_singleton] at hsingle
  exact hsingle.cons node

/-- Leaves come in document order. -/
theorem leaves_sublist {node : Node} (h : ∀ n ∈ node.preorder, n.InOrder) :
    node.leaves.Sublist node.preorder := by
  induction node using form_induction with
  | whole node hform =>
    rw [leaves_whole hform, preorder_eq]
    exact List.singleton_sublist.2 List.mem_cons_self
  | part node inner hform ih =>
    have hsub := preorder_sublist_of_mem (mem_of_form_part hform)
    rw [leaves_part hform]
    exact (ih fun n hn => h n (hsub.subset hn)).trans hsub
  | either node first second hform ih₁ ih₂ =>
    have hfirst := preorder_sublist_of_mem (mem_of_form_either hform).1
    have hsecond := preorder_sublist_of_mem (mem_of_form_either hform).2
    have hself : node ∈ node.preorder := by rw [preorder_eq]; exact List.mem_cons_self
    have hboth : (first.preorder ++ second.preorder).Sublist (node.children.flatMap preorder) := by
      have hpair := (h node hself first second hform).flatMap preorder
      rwa [List.flatMap_cons, List.flatMap_singleton] at hpair
    rw [leaves_either hform, preorder_eq node]
    refine ((List.Sublist.append ?_ ?_).trans hboth).cons node
    · exact ih₁ fun n hn => h n (hfirst.subset hn)
    · exact ih₂ fun n hn => h n (hsecond.subset hn)

/-! ### Types by form -/

theorem firstTypeIn_eq (source : Bytes) (env : TypeEnv) (chosen : Node → Bool) (nodes : List Node) :
    firstTypeIn source env chosen nodes = (nodes.find? chosen).map (typeIn source env) := by
  induction nodes with
  | nil => rfl
  | cons node rest ih =>
    rw [firstTypeIn, List.find?_cons, ih]
    cases chosen node <;> rfl

section Types

variable {source : Bytes} {env : TypeEnv} {node : Node}

/-- Types that inference writes down itself. -/
def plainTypes : List Text :=
  ["number".toList, "string".toList, "boolean".toList, "null".toList, "any[]".toList,
    "object".toList, "Function".toList, "Promise<any>".toList, TypeUnion.any]

/-- The type that a cast names: behind `as`, or between angle brackets. -/
def castText? (source : Bytes) (node : Node) : Option Text :=
  match node.kind with
  | "as_expression" =>
    match node.contents with
    | _ :: second :: more => some (((second :: more).getLastD second).text source)
    | _ => none
  | "type_assertion" => some (castType source node)
  | _ => none

theorem typeIn_parenthesized (hkind : node.kind = "parenthesized_expression") :
    node.typeIn source env =
      ((node.contents.head?).map (typeIn source env)).getD TypeUnion.any := by
  obtain ⟨kind, start, stop, named, field, children⟩ := node
  obtain rfl : kind = "parenthesized_expression" := hkind
  simp only [typeIn, firstTypeIn_eq, contents, List.head?_filter]
  rfl

theorem typeIn_identifier (hkind : node.kind = "identifier") :
    node.typeIn source env = env.typeOf (node.text source) := by
  obtain ⟨kind, start, stop, named, field, children⟩ := node
  obtain rfl : kind = "identifier" := hkind
  simp only [typeIn]
  rfl

theorem typeIn_as (hkind : node.kind = "as_expression") :
    node.typeIn source env = match node.contents with
      | _ :: second :: more => ((second :: more).getLastD second).text source
      | _ => ((node.contents.head?).map (typeIn source env)).getD TypeUnion.any := by
  obtain ⟨kind, start, stop, named, field, children⟩ := node
  obtain rfl : kind = "as_expression" := hkind
  simp only [typeIn, firstTypeIn_eq, contents, List.head?_filter]
  rfl

theorem typeIn_binary (hkind : node.kind = "binary_expression") :
    node.typeIn source env =
      match (node.child? "left").map (typeIn source env),
        (node.child? "right").map (typeIn source env) with
      | some left, some right => binaryType node.operator? left right
      | _, _ => TypeUnion.any := by
  obtain ⟨kind, start, stop, named, field, children⟩ := node
  obtain rfl : kind = "binary_expression" := hkind
  simp only [typeIn, firstTypeIn_eq]
  rfl

theorem typeIn_assignment (hkind : node.kind = "assignment_expression" ∨
      node.kind = "augmented_assignment_expression") :
    node.typeIn source env =
      ((node.child? "right").map (typeIn source env)).getD TypeUnion.any := by
  obtain ⟨kind, start, stop, named, field, children⟩ := node
  obtain rfl | rfl : kind = "assignment_expression" ∨ kind = "augmented_assignment_expression" :=
    hkind
  · simp only [typeIn, firstTypeIn_eq]
    rfl
  · simp only [typeIn, firstTypeIn_eq]
    rfl

theorem typeIn_ternary (hkind : node.kind = "ternary_expression") :
    node.typeIn source env =
      match (node.child? "consequence").map (typeIn source env),
        (node.child? "alternative").map (typeIn source env) with
      | some first, some second => commonType first second
      | _, _ => TypeUnion.any := by
  obtain ⟨kind, start, stop, named, field, children⟩ := node
  obtain rfl : kind = "ternary_expression" := hkind
  simp only [typeIn, firstTypeIn_eq]
  rfl

/-- An expression that stands for a part of it has the type of that part. -/
theorem typeIn_part {inner : Node} (h : node.form = .part inner) :
    node.typeIn source env = inner.typeIn source env := by
  unfold form at h
  split at h
  next hkind => rw [typeIn_parenthesized hkind, ofPart_eq_part h]; rfl
  next hkind =>
    split at h
    next single hcontents =>
      obtain rfl := Form.part.inj h
      rw [typeIn_as hkind, hcontents]
      rfl
    next => cases h
  next =>
    split at h
    · exact absurd h ofEither_ne_part
    · cases h
  next hkind => rw [typeIn_assignment (.inl hkind), ofPart_eq_part h]; rfl
  next hkind => rw [typeIn_assignment (.inr hkind), ofPart_eq_part h]; rfl
  next => exact absurd h ofEither_ne_part
  next => cases h

/-- An expression with two alternatives has their common type. -/
theorem typeIn_either {first second : Node} (h : node.form = .either first second) :
    node.typeIn source env = commonType (first.typeIn source env) (second.typeIn source env) := by
  unfold form at h
  split at h
  next => exact absurd h ofPart_ne_either
  next => split at h <;> cases h
  next hkind =>
    split at h
    next hlogical =>
      obtain ⟨hleft, hright⟩ := ofEither_eq_either h
      rw [typeIn_binary hkind, hleft, hright]
      show binaryType node.operator? _ _ = _
      unfold binaryType
      rw [hlogical]
    next => cases h
  next => exact absurd h ofPart_ne_either
  next => exact absurd h ofPart_ne_either
  next hkind =>
    obtain ⟨hthen, helse⟩ := ofEither_eq_either h
    rw [typeIn_ternary hkind, hthen, helse]
    rfl
  next => cases h

theorem literalType?_mem {kind : String} {type : Text} (h : literalType? kind = some type) :
    type ∈ plainTypes := by
  unfold literalType? at h
  split at h <;> cases h <;> decide

theorem unaryType_mem (operator : Option String) : unaryType operator ∈ plainTypes := by
  unfold unaryType
  split <;> decide

theorem sumType_mem (left right : Text) : sumType left right ∈ plainTypes := by
  unfold sumType
  simp only []
  split
  · decide
  · split <;> decide

/-- An operation that does not choose between its operands has a type of its own. -/
theorem binaryType_mem {operator : Option String} (h : operation operator ≠ .logical)
    (left right : Text) : binaryType operator left right ∈ plainTypes := by
  unfold binaryType
  split
  next => exact sumType_mem left right
  next => decide
  next => decide
  next hlogical => exact absurd hlogical h
  next => decide

/-- The type of a leaf: written down by inference, or that of a parameter, or the type of a cast. -/
inductive LeafType (source : Bytes) (env : TypeEnv) (node : Node) (type : Text) : Prop
  | plain (h : type ∈ plainTypes)
  | bound {name : Text} (h : env.lookup name = some type)
  | cast (h : node.castText? source = some type)

theorem LeafType.any : LeafType source env node TypeUnion.any := .plain (by decide)

theorem typeIn_as_whole (hkind : node.kind = "as_expression") (h : node.form = .whole) :
    LeafType source env node (node.typeIn source env) := by
  unfold form at h
  rw [hkind] at h
  rw [typeIn_as hkind]
  cases hcontents : node.contents with
  | nil => exact .any
  | cons first more =>
    cases more with
    | nil => simp [hcontents] at h
    | cons second more => exact .cast (by simp [castText?, hkind, hcontents])

theorem typeIn_binary_whole (hkind : node.kind = "binary_expression") (h : node.form = .whole) :
    LeafType source env node (node.typeIn source env) := by
  rw [typeIn_binary hkind]
  cases hleft : node.child? "left" with
  | none => exact .any
  | some left =>
    cases hright : node.child? "right" with
    | none => exact .any
    | some right =>
      refine .plain (binaryType_mem (fun hlogical => ?_) _ _)
      unfold form at h
      rw [hkind] at h
      simp [hlogical, hleft, hright, Form.ofEither] at h

theorem typeIn_ternary_whole (hkind : node.kind = "ternary_expression") (h : node.form = .whole) :
    LeafType source env node (node.typeIn source env) := by
  unfold form at h
  rw [hkind] at h
  rw [typeIn_ternary hkind]
  cases hthen : node.child? "consequence" with
  | none => exact .any
  | some first =>
    cases helse : node.child? "alternative" with
    | none => exact .any
    | some second => simp [hthen, helse, Form.ofEither] at h

theorem ofPart_eq_whole {given : Option Node} (h : Form.ofPart given = .whole) : given = none := by
  cases given with
  | none => rfl
  | some node => cases h

/-- The type of a leaf. -/
theorem typeIn_whole (h : node.form = .whole) :
    LeafType source env node (node.typeIn source env) := by
  by_cases hparen : node.kind = "parenthesized_expression"
  · have hnone : node.contents.head? = none := ofPart_eq_whole (by simpa [form, hparen] using h)
    rw [typeIn_parenthesized hparen, hnone]
    exact .any
  by_cases has : node.kind = "as_expression"
  · exact typeIn_as_whole has h
  by_cases hbinary : node.kind = "binary_expression"
  · exact typeIn_binary_whole hbinary h
  by_cases hassign : node.kind = "assignment_expression" ∨
      node.kind = "augmented_assignment_expression"
  · have hnone : node.child? "right" = none := by
      rcases hassign with hkind | hkind <;> exact ofPart_eq_whole (by simpa [form, hkind] using h)
    rw [typeIn_assignment hassign, hnone]
    exact .any
  by_cases hternary : node.kind = "ternary_expression"
  · exact typeIn_ternary_whole hternary h
  -- none of the kinds that have parts: the type is read off the node itself
  obtain ⟨kind, start, stop, named, field, children⟩ := node
  cases hliteral : literalType? kind with
  | some type =>
    have htype : typeIn source env ⟨kind, start, stop, named, field, children⟩ = type := by
      simp only [typeIn, hliteral]
    rw [htype]
    exact .plain (literalType?_mem hliteral)
  | none =>
    simp only [typeIn, hliteral]
    split
    next => exact absurd rfl hparen
    next =>
      unfold TypeEnv.typeOf
      cases hlookup : env.lookup
        (text source ⟨"identifier", start, stop, named, field, children⟩) with
      | none => exact .any
      | some type => exact .bound hlookup
    next => exact absurd rfl has
    next => exact .cast rfl
    next => exact .plain (unaryType_mem _)
    next => exact absurd rfl hbinary
    next => exact absurd (.inl rfl) hassign
    next => exact absurd (.inr rfl) hassign
    next => exact .plain (by decide)
    next => exact absurd rfl hternary
    next => exact .any

/-! ### From the leaves to the expression -/

/-- Every cast among some leaves names one of these types. -/
def CastsAre (P : Text → Prop) (source : Bytes) (leaves : List Node) : Prop :=
  ∀ leaf ∈ leaves, ∀ type, leaf.castText? source = some type → P type

instance (P : Text → Prop) [DecidablePred P] (source : Bytes) (leaves : List Node) :
    Decidable (CastsAre P source leaves) :=
  decidable_of_iff (∀ leaf ∈ leaves, ∀ type ∈ (leaf.castText? source).toList, P type)
    (by simp [CastsAre, Option.mem_toList])

theorem CastsAre.mono {P : Text → Prop} {some all : List Node} (h : CastsAre P source all)
    (hsub : some ⊆ all) : CastsAre P source some :=
  fun leaf hleaf => h leaf (hsub hleaf)

/-- What joins keep is passed on from the leaves to the expression. -/
theorem typeIn_of_leaves {P : Text → Prop} (hplain : ∀ type ∈ plainTypes, P type)
    (hjoin : ∀ types : List Text, (∀ type ∈ types, P type) → P (join types))
    (henv : env.All P) (hcast : CastsAre P source node.leaves) : P (node.typeIn source env) := by
  induction node using form_induction with
  | whole node hform =>
    rw [leaves_whole hform] at hcast
    have hleaf : LeafType source env node (node.typeIn source env) := typeIn_whole hform
    cases hleaf with
    | plain h => exact hplain _ h
    | bound h => exact henv _ _ h
    | cast h => exact hcast node List.mem_cons_self _ h
  | part node inner hform ih =>
    rw [leaves_part hform] at hcast
    rw [typeIn_part hform]
    exact ih hcast
  | either node first second hform ih₁ ih₂ =>
    rw [leaves_either hform] at hcast
    have hfirst := ih₁ (hcast.mono (List.subset_append_left _ _))
    have hsecond := ih₂ (hcast.mono (List.subset_append_right _ _))
    rw [typeIn_either hform]
    unfold commonType
    split
    · exact hfirst
    · refine hjoin _ fun type htype => ?_
      rcases List.mem_pair.1 htype with rfl | rfl
      · exact hfirst
      · exact hsecond

theorem isUnion_of_mem_plainTypes : ∀ type ∈ plainTypes, IsUnion type := by decide

theorem balanced_of_mem_plainTypes : ∀ type ∈ plainTypes, Balanced type := by decide

theorem isUnion_typeIn (henv : env.All IsUnion) (hcast : CastsAre IsUnion source node.leaves) :
    IsUnion (node.typeIn source env) :=
  typeIn_of_leaves isUnion_of_mem_plainTypes (fun _ => IsUnion.join) henv hcast

theorem balanced_typeIn (henv : env.All Balanced) (hcast : CastsAre Balanced source node.leaves) :
    Balanced (node.typeIn source env) :=
  typeIn_of_leaves balanced_of_mem_plainTypes (fun _ => Balanced.join) henv hcast

/-- The common type of two alternatives has the members of both. -/
theorem members_commonType {first second : Text} (hfirst : IsUnion first)
    (hsecond : IsUnion second) :
    (members (commonType first second)).eraseDups =
      (members first ++ members second).eraseDups := by
  unfold commonType
  split
  next h =>
    subst h
    exact (eraseDups_append_of_eq rfl).symm
  next =>
    have hunion : ∀ type ∈ [first, second], IsUnion type := by
      intro type htype
      rcases List.mem_pair.1 htype with rfl | rfl
      · exact hfirst
      · exact hsecond
    rw [members_join (fun type htype => (hunion type htype).closed)
      (distinctMembers_ne_nil (List.cons_ne_nil _ _) hunion)]
    unfold distinctMembers
    rw [eraseDups_eraseDups]
    simp

/-- Without repeats, the type of an expression has the members of the types of its leaves. -/
theorem members_typeIn (henv : env.All IsUnion) (hcast : CastsAre IsUnion source node.leaves) :
    (members (node.typeIn source env)).eraseDups =
      distinctMembers (node.leaves.map (typeIn source env)) := by
  induction node using form_induction with
  | whole node hform =>
    rw [leaves_whole hform]
    simp [distinctMembers]
  | part node inner hform ih =>
    rw [leaves_part hform] at hcast ⊢
    rw [typeIn_part hform]
    exact ih hcast
  | either node first second hform ih₁ ih₂ =>
    rw [leaves_either hform] at hcast ⊢
    have hcast₁ := hcast.mono (List.subset_append_left _ _)
    have hcast₂ := hcast.mono (List.subset_append_right _ _)
    rw [typeIn_either hform,
      members_commonType (isUnion_typeIn henv hcast₁) (isUnion_typeIn henv hcast₂)]
    unfold distinctMembers
    rw [List.map_append, List.flatMap_append]
    exact eraseDups_append_congr (ih₁ hcast₁) (ih₂ hcast₂)

end Types

end Node

end DocAnnotator
