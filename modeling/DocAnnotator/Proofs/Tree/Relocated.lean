import DocAnnotator.Proofs.Infer.Leaves
import DocAnnotator.Target.Signature

/-! ## The same node elsewhere

    A node can stand further on in a longer text, with the same text below it. What is read off it
    does not change.

    - `Node.offsetBy`: a node some bytes further on, with all below it.
    - `Excerpt`: a text that stands in a longer one.
    - `Node.Relocated`: one node stands for another one, but for the field that it fills.
    - `Node.Relocated.parameters`, `Node.Relocated.declaredReturn`: the signature is the same.
-/

namespace DocAnnotator

namespace Node

mutual
/-- The node `distance` bytes further on, with all below it. -/
def offsetBy (distance : Nat) : Node → Node
  | ⟨kind, start, stop, named, field, children⟩ =>
    ⟨kind, start + distance, stop + distance, named, field, offsetAll distance children⟩

/-- Some nodes `distance` bytes further on. -/
def offsetAll (distance : Nat) : List Node → List Node
  | [] => []
  | node :: rest => offsetBy distance node :: offsetAll distance rest
end

theorem offsetAll_eq (distance : Nat) (nodes : List Node) :
    offsetAll distance nodes = nodes.map (offsetBy distance) := by
  induction nodes with
  | nil => rfl
  | cons node rest ih => rw [offsetAll, ih, List.map_cons]

/-- All spans at and below the node end inside a text of this length. -/
def Inside (length : Nat) (node : Node) : Prop :=
  ∀ n ∈ node.preorder, n.start ≤ length ∧ n.stop ≤ length

instance (length : Nat) (node : Node) : Decidable (node.Inside length) :=
  inferInstanceAs (Decidable (∀ n ∈ node.preorder, n.start ≤ length ∧ n.stop ≤ length))

theorem Inside.self {length : Nat} {node : Node} (h : node.Inside length) :
    node.start ≤ length ∧ node.stop ≤ length := by
  refine h node ?_
  rw [preorder_eq]
  exact List.mem_cons_self

theorem Inside.child {length : Nat} {node child : Node} (h : node.Inside length)
    (hchild : child ∈ node.children) : child.Inside length :=
  fun n hn => h n ((preorder_sublist_of_mem hchild).subset hn)

/-- `Relocated distance node node'`: the second node is the first one `distance` bytes further on,
    and may fill another field. -/
structure Relocated (distance : Nat) (node node' : Node) : Prop where
  kind : node'.kind = node.kind
  start : node'.start = node.start + distance
  stop : node'.stop = node.stop + distance
  named : node'.named = node.named
  children : node'.children = node.children.map (offsetBy distance)

theorem relocated_offsetBy (distance : Nat) (node : Node) :
    Relocated distance node (node.offsetBy distance) := by
  cases node
  exact ⟨rfl, rfl, rfl, rfl, offsetAll_eq _ _⟩

@[simp] theorem offsetBy_kind (distance : Nat) (node : Node) :
    (node.offsetBy distance).kind = node.kind := (relocated_offsetBy distance node).kind

@[simp] theorem offsetBy_named (distance : Nat) (node : Node) :
    (node.offsetBy distance).named = node.named := (relocated_offsetBy distance node).named

@[simp] theorem offsetBy_field (distance : Nat) (node : Node) :
    (node.offsetBy distance).field = node.field := by
  cases node
  rfl

end Node

/-- The part stands in the source, after `distance` bytes. -/
def Excerpt (source part : Bytes) (distance : Nat) : Prop :=
  ∃ front back, source = front ++ part ++ back ∧ front.length = distance

/-- A stretch of the part is found further on in the source. -/
theorem Excerpt.slice {source part : Bytes} {distance : Nat} (h : Excerpt source part distance)
    {stop : Nat} (hstop : stop ≤ part.length) (start : Nat) :
    (source.take (stop + distance)).drop (start + distance) = (part.take stop).drop start := by
  obtain ⟨front, back, rfl, rfl⟩ := h
  have htake : (front ++ part ++ back).take (stop + front.length) = front ++ part.take stop := by
    rw [List.append_assoc, Nat.add_comm, List.take_length_add_append,
      List.take_append_of_le_length hstop]
  rw [htake, Nat.add_comm, List.drop_length_add_append]

namespace Node.Relocated

variable {source part : Bytes} {distance : Nat} {node node' : Node}

theorem isContent (h : Relocated distance node node') : node'.isContent = node.isContent := by
  rw [Node.isContent, Node.isContent, isComment, isComment, h.named, h.kind]

theorem child? (h : Relocated distance node node') (field : String) :
    node'.child? field = (node.child? field).map (offsetBy distance) := by
  rw [Node.child?, Node.child?, h.children, List.find?_map]
  refine congrArg (Option.map _) (congrArg (List.find? · _) (funext fun child => ?_))
  simp

theorem contents (h : Relocated distance node node') :
    node'.contents = node.contents.map (offsetBy distance) := by
  rw [Node.contents, Node.contents, h.children, List.filter_map]
  refine congrArg (List.map _) (congrArg (List.filter · _) (funext fun child => ?_))
  exact (relocated_offsetBy distance child).isContent

theorem isAsync (h : Relocated distance node node') : node'.isAsync = node.isAsync := by
  rw [Node.isAsync, Node.isAsync, h.children, List.any_map]
  refine congrArg (List.any _) (funext fun child => ?_)
  simp

theorem isFunctionDeclaration (h : Relocated distance node node') :
    node'.isFunctionDeclaration = node.isFunctionDeclaration := by
  rw [Node.isFunctionDeclaration, Node.isFunctionDeclaration, h.kind]

theorem isFunctionValue (h : Relocated distance node node') :
    node'.isFunctionValue = node.isFunctionValue := by
  rw [Node.isFunctionValue, Node.isFunctionValue, h.kind]

/-! ### Signatures -/

theorem text (h : Relocated distance node node') (hexcerpt : Excerpt source part distance)
    (hinside : node.Inside part.length) : node'.text source = node.text part := by
  rw [Node.text, Node.text, Utf8.textOf, Utf8.textOf, h.start, h.stop,
    hexcerpt.slice hinside.self.2]

/-- An annotation in a field says the same. -/
theorem annotation (h : Relocated distance node node') (hexcerpt : Excerpt source part distance)
    (hinside : node.Inside part.length) (field : String) :
    (node'.child? field).bind (annotationText source) =
      (node.child? field).bind (annotationText part) := by
  rw [h.child?]
  cases hchild : node.child? field with
  | none => rfl
  | some child =>
    have htext := (relocated_offsetBy distance child).text hexcerpt
      (hinside.child (mem_of_child? hchild))
    rw [Option.map_some, Option.bind_some, Option.bind_some, annotationText, annotationText, htext]

theorem declaredReturn (h : Relocated distance node node') (hexcerpt : Excerpt source part distance)
    (hinside : node.Inside part.length) : node'.declaredReturn source = node.declaredReturn part :=
  h.annotation hexcerpt hinside "return_type"

end Node.Relocated

/-- A parameter whose nodes stand `distance` bytes further on. -/
def Parameter.offsetBy (distance : Nat) (parameter : Parameter) : Parameter :=
  { parameter with
    node := parameter.node.map (Node.offsetBy distance)
    default := parameter.default.map (Node.offsetBy distance) }

namespace Node

/-- The pattern of a parameter is the parameter or a child of it. -/
theorem Inside.pattern {source : Bytes} {length : Nat} {child pattern : Node}
    (hinside : child.Inside length)
    (hpattern : (child.parameterParts source).pattern = some pattern) : pattern.Inside length := by
  unfold parameterParts at hpattern
  split at hpattern
  · exact hinside.child (mem_of_child? hpattern)
  · split at hpattern
    · exact hinside.child (mem_of_child? hpattern)
    · exact Option.some.inj hpattern ▸ hinside

section Parameters

variable {source part : Bytes} {distance : Nat} (hexcerpt : Excerpt source part distance)

include hexcerpt

theorem parameterParts_offsetBy {child : Node} (hinside : child.Inside part.length) :
    (child.offsetBy distance).parameterParts source =
      ⟨(child.parameterParts part).pattern.map (offsetBy distance),
        (child.parameterParts part).type,
        (child.parameterParts part).default.map (offsetBy distance)⟩ := by
  have h := relocated_offsetBy distance child
  simp only [parameterParts, offsetBy_kind]
  split
  · rw [h.annotation hexcerpt hinside, h.child?, h.child?]
  · split
    · rw [h.child?, h.child?]
    · rfl

theorem parameterAt_offsetBy (position : Nat) {child : Node} (hinside : child.Inside part.length) :
    (child.offsetBy distance).parameterAt source position =
      (child.parameterAt part position).map (Parameter.offsetBy distance) := by
  simp only [parameterAt, parameterParts_offsetBy hexcerpt hinside]
  cases hpattern : (child.parameterParts part).pattern with
  | none => rfl
  | some pattern =>
    have hpatternInside := hinside.pattern hpattern
    -- what is bound is the pattern, or its first content
    have hbound : ∃ bound, bound.Inside part.length ∧
        (if pattern.kind == "rest_pattern" then pattern.contents.headD pattern else pattern) =
          bound ∧
        (if pattern.kind == "rest_pattern" then
          (pattern.offsetBy distance).contents.headD (pattern.offsetBy distance)
          else pattern.offsetBy distance) = bound.offsetBy distance := by
      split
      · rw [(relocated_offsetBy distance pattern).contents]
        cases hcontents : pattern.contents with
        | nil => exact ⟨pattern, hpatternInside, rfl, rfl⟩
        | cons first more =>
          have hmem : first ∈ pattern.children := mem_of_head?_contents (by rw [hcontents]; rfl)
          exact ⟨first, hpatternInside.child hmem, rfl, rfl⟩
      · exact ⟨pattern, hpatternInside, rfl, rfl⟩
    obtain ⟨bound, hboundInside, hsame, hsame'⟩ := hbound
    have htext := (relocated_offsetBy distance bound).text hexcerpt hboundInside
    simp only [Option.map_some, offsetBy_kind, hsame, hsame', htext]
    rfl

theorem parametersFrom_offsetBy (position : Nat) {children : List Node}
    (hinside : ∀ child ∈ children, child.Inside part.length) :
    parametersFrom source position (children.map (offsetBy distance)) =
      (parametersFrom part position children).map (Parameter.offsetBy distance) := by
  induction children generalizing position with
  | nil => rfl
  | cons child rest ih =>
    have hrest : ∀ c ∈ rest, c.Inside part.length :=
      fun c hc => hinside c (List.mem_cons_of_mem _ hc)
    rw [List.map_cons, parametersFrom, parametersFrom,
      parameterAt_offsetBy hexcerpt position (hinside child List.mem_cons_self)]
    cases child.parameterAt part position with
    | none => exact ih position hrest
    | some parameter => exact congrArg (_ :: ·) (ih (position + 1) hrest)

/-- The parameters of a function elsewhere. -/
theorem Relocated.parameters {node node' : Node} (h : Relocated distance node node')
    (hinside : node.Inside part.length) :
    node'.parameters source = (node.parameters part).map (Parameter.offsetBy distance) := by
  rw [Node.parameters, Node.parameters, h.child?, h.child?]
  cases hsingle : node.child? "parameter" with
  | some single =>
    have htext := (relocated_offsetBy distance single).text hexcerpt
      (hinside.child (mem_of_child? hsingle))
    simp only [Option.map_some, htext]
    rfl
  | none =>
    cases hlist : node.child? "parameters" with
    | none => rfl
    | some list =>
      have hlistInside := hinside.child (mem_of_child? hlist)
      simp only [Option.map_none, Option.map_some, (relocated_offsetBy distance list).contents]
      exact parametersFrom_offsetBy hexcerpt 1 fun child hchild =>
        hlistInside.child (List.mem_filter.1 hchild).1

end Parameters

end Node

end DocAnnotator
