import DocAnnotator.Proofs.Infer.Engine
import DocAnnotator.Proofs.Infer.Returns

/-! ## What an asynchronous function returns

    A result that is awaited is written as a promise, unless its type already starts like one.

    - `IsPromise`: a single promise, whose bracket closes at the last character.
    - `members_promise`: a promise is one member, whatever is inside it.
    - `promise_isPrefix_join_iff`: a union starts like a promise if its first member does.
    - `infer_promised`: when the inferred type of an asynchronous function is a single promise.
-/

namespace DocAnnotator

namespace TypeUnion

open Position

/-! ### Reading inside a bracket -/

/-- The same position, inside one more bracket. -/
def Position.raise (p : Position) : Position := ⟨p.depth + 1, p.previous⟩

theorem Position.next_raise (p : Position) (c : Char) : p.raise.next c = (p.next c).raise := by
  have hdepth : depthAfter (p.depth + 1) p.previous c = depthAfter p.depth p.previous c + 1 := by
    unfold depthAfter
    repeat' split
    all_goals omega
  unfold next raise
  rw [hdepth]

theorem Position.after_raise (p : Position) (s : Text) : p.raise.after s = (p.after s).raise := by
  induction s generalizing p with
  | nil => rfl
  | cons c s ih =>
    show (p.raise.next c).after s = ((p.next c).after s).raise
    rw [next_raise, ih]

theorem Position.along_raise {holds : Position → Prop} {p : Position} {s : Text} :
    Along holds p.raise s ↔ Along (fun q => holds q.raise) p s := by
  induction s generalizing p with
  | nil => exact Iff.rfl
  | cons c s ih =>
    unfold Along
    rw [next_raise, ih]

/-! ### Promises -/

/-- What a promise starts with. -/
def promiseHead : Text := "Promise<".toList

/-- The text of a promise. -/
def promise (inner : Text) : Text := promiseHead ++ inner ++ ['>']

/-- The bracket behind the name of a promise is open all along the text inside. -/
def StaysOpen (inner : Text) : Prop :=
  Along (fun p => 1 ≤ p.depth) (start.after promiseHead) inner

/-- A single promise: the bracket behind its name is closed by the last character. -/
def IsPromise (type : Text) : Prop :=
  ∃ inner, type = promise inner ∧ StaysOpen inner ∧ Closed type

theorem after_promise : start.after promiseHead = (⟨0, some '<'⟩ : Position).raise := rfl

theorem free_promise : Free ⟨0, some '<'⟩ := ⟨rfl, by decide⟩

theorem Balanced.staysOpen {inner : Text} (h : Balanced inner) : StaysOpen inner := by
  unfold StaysOpen
  rw [after_promise, along_raise, free_promise.along_iff]
  refine h.up.imp fun q hq => ?_
  show 1 ≤ q.depth + 1
  omega

theorem Balanced.depth_after_promise {inner : Text} (h : Balanced inner) :
    ((start.after promiseHead).after inner).depth = 1 := by
  have hdepth : ((⟨0, some '<'⟩ : Position).after inner).depth = 0 :=
    (free_promise.after_depth inner).trans h.closed
  rw [after_promise, after_raise]
  show _ + 1 = (1 : Int)
  rw [hdepth]
  rfl

/-- The last bracket closes, unless it makes an arrow with the character before it. -/
theorem closed_promise_iff {inner : Text} (h : Balanced inner) :
    Closed (promise inner) ↔ inner.getLast? ≠ some '=' := by
  have hdepth := h.depth_after_promise
  have hprevious : ((start.after promiseHead).after inner).previous =
      some (inner.getLast?.getD '<') := by
    rcases List.eq_nil_or_concat inner with rfl | ⟨before, last, rfl⟩
    · rfl
    · rw [List.concat_eq_append, after_append, List.getLast?_append]
      rfl
  unfold Closed promise
  rw [after_append, after_append]
  show depthAfter _ _ '>' = 0 ↔ _
  rw [hdepth, hprevious]
  cases hlast : inner.getLast? with
  | none => simp [depthAfter]
  | some last =>
    by_cases harrow : last = '='
    · simp [depthAfter, harrow]
    · simp [depthAfter, harrow]

theorem trim_promise (inner : Text) : Text.trim (promise inner) = promise inner := by
  have hstart : Text.trimStart (promise inner) = promise inner := by
    unfold Text.trimStart promise
    rw [List.append_assoc]
    exact List.dropWhile_cons_of_neg (by decide)
  unfold Text.trim
  rw [hstart]
  exact Text.trimEnd_append_cons (by decide)

/-- No bar inside a promise cuts it. -/
theorem members_promise {inner : Text} (h : StaysOpen inner) :
    members (promise inner) = [promise inner] := by
  have hinside : Along (fun q => ¬ IsCut q) (start.after promiseHead) inner :=
    Along.imp (fun q hq hcut => by have := hcut.2; omega) h
  have hwhole : Along (fun q => ¬ IsCut q) start (promise inner) := by
    unfold promise
    rw [along_append, along_append]
    exact ⟨⟨by decide, hinside⟩, by simp [IsCut, next], trivial⟩
  have hne : promise inner ≠ [] := by simp [promise]
  show ((piecesAt start (promise inner)).map Text.trim).filter (!·.isEmpty) = _
  simp [piecesAt_whole hwhole, trim_promise, hne]

theorem members_of_isPromise {type : Text} (h : IsPromise type) : members type = [type] := by
  obtain ⟨inner, rfl, hopen, -⟩ := h
  exact members_promise hopen

theorem isPromise_promise_iff {inner : Text} (h : Balanced inner) :
    IsPromise (promise inner) ↔ inner.getLast? ≠ some '=' := by
  rw [← closed_promise_iff h]
  constructor
  · rintro ⟨_, -, -, hclosed⟩
    exact hclosed
  · exact fun hclosed => ⟨inner, rfl, h.staysOpen, hclosed⟩

theorem IsPromise.isPrefix {type : Text} (h : IsPromise type) : promiseHead <+: type := by
  obtain ⟨inner, rfl, -⟩ := h
  exact ⟨inner ++ ['>'], (List.append_assoc _ _ _).symm⟩

theorem promised_of_isPrefix {type : Text} (h : promiseHead <+: type) : promised type = type := by
  unfold promised
  exact if_pos (List.isPrefixOf_iff_prefix.2 h)

theorem promised_of_not_isPrefix {type : Text} (h : ¬ promiseHead <+: type) :
    promised type = promise type := by
  unfold promised
  exact if_neg fun hhead => h (List.isPrefixOf_iff_prefix.1 hhead)

theorem promised_isPrefix (type : Text) : promiseHead <+: promised type := by
  by_cases h : promiseHead <+: type
  · rw [promised_of_isPrefix h]
    exact h
  · rw [promised_of_not_isPrefix h]
    exact ⟨type ++ ['>'], (List.append_assoc _ _ _).symm⟩

/-- A promise is made of a type that is none, and a type that starts like one is left as it is. -/
theorem isPromise_promised_iff {type : Text} (h : Balanced type) :
    IsPromise (promised type) ↔
      IsPromise type ∨ ¬ promiseHead <+: type ∧ type.getLast? ≠ some '=' := by
  by_cases hhead : promiseHead <+: type
  · rw [promised_of_isPrefix hhead]
    simp [hhead]
  · rw [promised_of_not_isPrefix hhead, isPromise_promise_iff h]
    have hnot : ¬ IsPromise type := fun hpromise => hhead hpromise.isPrefix
    simp [hhead, hnot]

/-- A text without blanks starts a union if it starts the first member. -/
theorem isPrefix_union_iff {lead m : Text} {more : List Text} (hlead : ' ' ∉ lead) :
    lead <+: List.intercalate " | ".toList (m :: more) ↔ lead <+: m := by
  rw [Comment.intercalate_cons]
  constructor
  · intro h
    rcases List.prefix_or_prefix_of_prefix h (List.prefix_append m _) with hm | ⟨rest, rfl⟩
    · exact hm
    · -- what goes on behind the member would start with a blank
      rw [List.prefix_append_right_inj] at h
      cases rest with
      | nil => simp
      | cons c rest =>
        cases more with
        | nil => simp at h
        | cons second more =>
          obtain ⟨rfl, -⟩ := List.cons_prefix_cons.1 h
          exact absurd (List.mem_append_right m List.mem_cons_self) hlead
  · exact fun h => h.trans (List.prefix_append m _)

/-- A join starts like a promise if the member that is seen first does. -/
theorem promise_isPrefix_join_iff {types : List Text} :
    promiseHead <+: join types ↔
      ∃ m, (distinctMembers types).head? = some m ∧ promiseHead <+: m := by
  cases hmembers : distinctMembers types with
  | nil =>
    rw [join_of_no_members hmembers]
    exact iff_of_false (by decide) (by simp)
  | cons m more =>
    rw [join_of_members hmembers, isPrefix_union_iff (by decide)]
    simp

end TypeUnion

open TypeUnion

/-! ### Results by shape -/

namespace Node

/-- The leaves of what a function gives back: of its body, or of the values that it returns. -/
def resultLeaves (source : Bytes) (env : TypeEnv) (function : Node) : List Node :=
  match function.child? "body" with
  | none => []
  | some body =>
    if body.kind = "statement_block" then body.returnLeaves source env else body.leaves

theorem balanced_returnTypeIn {source : Bytes} {env : TypeEnv} {function : Node}
    (henv : env.All Balanced)
    (hcast : CastsAre Balanced source (function.resultLeaves source env)) :
    Balanced (function.returnTypeIn source env) := by
  unfold resultLeaves at hcast
  cases hbody : function.child? "body" with
  | none =>
    unfold returnTypeIn
    rw [hbody]
    show Balanced void
    decide
  | some body =>
    simp only [hbody] at hcast
    by_cases hblock : body.kind = "statement_block"
    · rw [if_pos hblock] at hcast
      by_cases hnone : body.valuesOf source env = []
      · rw [returnTypeIn_of_no_values hbody hblock hnone]
        decide
      · rw [returnTypeIn_of_values hbody hblock hnone]
        refine Balanced.join fun type htype => ?_
        obtain ⟨value, hvalue, rfl⟩ := List.mem_map.1 htype
        exact balanced_typeIn henv (castsAre_of_mem hcast hvalue)
    · rw [if_neg hblock] at hcast
      have htype : function.returnTypeIn source env = body.typeIn source env := by
        unfold returnTypeIn
        simp [hbody, hblock]
      rw [htype]
      exact balanced_typeIn henv hcast

/-- In a block, the first member among the returned values decides. -/
theorem promise_isPrefix_returnTypeIn_iff {source : Bytes} {env : TypeEnv} {function body : Node}
    (hbody : function.child? "body" = some body) (hblock : body.kind = "statement_block") :
    promiseHead <+: function.returnTypeIn source env ↔
      ∃ m, (distinctMembers ((body.valuesOf source env).map (typeIn source env))).head? = some m ∧
        promiseHead <+: m := by
  by_cases hnone : body.valuesOf source env = []
  · rw [returnTypeIn_of_no_values hbody hblock hnone, hnone]
    exact iff_of_false (by decide) (by simp [distinctMembers])
  · rw [returnTypeIn_of_values hbody hblock hnone]
    exact promise_isPrefix_join_iff

end Node

namespace Target

/-- The types of the parameters, inferred without an oracle. -/
def shapeEnv (source : Bytes) (t : Target) : TypeEnv :=
  TypeEnv.ofParameters (t.infer (Strategy.forSource none source)).parameters

/-- The type of the result by the shape of the function, before it is made a promise. -/
def shapeResult (source : Bytes) (t : Target) : Text :=
  (t.function.map (Node.returnTypeIn source (t.shapeEnv source))).getD void

/-- The leaves of what the function gives back. -/
def resultLeaves (source : Bytes) (t : Target) : List Node :=
  (t.function.map (Node.resultLeaves source (t.shapeEnv source))).getD []

variable {source : Bytes} {t : Target}

theorem balanced_shapeResult (henv : (t.shapeEnv source).All Balanced)
    (hcast : Node.CastsAre Balanced source (t.resultLeaves source)) :
    Balanced (t.shapeResult source) := by
  unfold resultLeaves at hcast
  unfold shapeResult
  cases hfunction : t.function with
  | none => exact (by decide : Balanced void)
  | some function =>
    rw [hfunction] at hcast
    exact Node.balanced_returnTypeIn henv hcast

/-- Without an oracle, a result without annotation is typed by its shape. -/
theorem infer_returnType_shape (hopen : t.returnDeclared = false) :
    (t.infer (Strategy.forSource none source)).returnType =
      some (if t.isAsync then promised (t.shapeResult source) else t.shapeResult source) := by
  have hfirst : Strategy.first (Strategy.forSource none source)
      (Strategy.returnType? (t.shapeEnv source) t) = t.shapeResult source := by
    unfold shapeResult
    cases hfunction : t.function <;>
      simp [Strategy.first, Strategy.forSource, Strategy.returnType?, hfunction]
  rw [infer_returnType hopen, ← hfirst]
  rfl

/-- Without an oracle, the result of an asynchronous function is made a promise by its shape. -/
theorem infer_returnType_async (hasync : t.isAsync = true) (hopen : t.returnDeclared = false) :
    (t.infer (Strategy.forSource none source)).returnType =
      some (promised (t.shapeResult source)) := by
  rw [infer_returnType_shape hopen, if_pos hasync]

/-- Where all brackets match, the type of an asynchronous function without annotation starts like
    a promise. It is a promise of the type by shape, and so one member, unless that type starts
    like a promise itself and is taken as it is; in a block, the member that is returned first
    decides. It is a single promise just if the type by shape is one, or is made one and does not
    turn its last bracket into an arrow. -/
theorem infer_promised (hasync : t.isAsync = true) (hopen : t.returnDeclared = false)
    (henv : (t.shapeEnv source).All Balanced)
    (hcast : Node.CastsAre Balanced source (t.resultLeaves source)) :
    ∃ type, (t.infer (Strategy.forSource none source)).returnType = some type ∧
      promiseHead <+: type ∧
      (¬ promiseHead <+: t.shapeResult source →
        type = promise (t.shapeResult source) ∧ members type = [type]) ∧
      (promiseHead <+: t.shapeResult source → type = t.shapeResult source) ∧
      (IsPromise type ↔ IsPromise (t.shapeResult source) ∨
        ¬ promiseHead <+: t.shapeResult source ∧ (t.shapeResult source).getLast? ≠ some '=') ∧
      (IsPromise type → members type = [type]) ∧
      ∀ function body, t.function = some function → function.child? "body" = some body →
        body.kind = "statement_block" →
        (promiseHead <+: t.shapeResult source ↔
          ∃ m, (distinctMembers ((body.valuesOf source (t.shapeEnv source)).map
            (Node.typeIn source (t.shapeEnv source)))).head? = some m ∧ promiseHead <+: m) := by
  have hbalanced := balanced_shapeResult henv hcast
  refine ⟨_, infer_returnType_async hasync hopen, promised_isPrefix _, ?_, promised_of_isPrefix,
    isPromise_promised_iff hbalanced, members_of_isPromise, ?_⟩
  · intro hhead
    rw [promised_of_not_isPrefix hhead]
    exact ⟨rfl, members_promise hbalanced.staysOpen⟩
  · intro function body hfunction hbody hblock
    unfold shapeResult
    rw [hfunction]
    exact Node.promise_isPrefix_returnTypeIn_iff hbody hblock

/-- An asynchronous function with a value that is returned under a condition and ends at `cut`, and
    another one behind it. -/
def twoReturns (cut : Nat) (first second : Node) : Node :=
  let name (start : Nat) (field : Option String) : Node :=
    ⟨"identifier", start, start + 1, true, field, []⟩
  ⟨"program", 0, 58, true, none,
    [⟨"function_declaration", 0, 58, true, none,
      [⟨"async", 0, 5, false, none, []⟩, name 15 (some "name"),
        ⟨"formal_parameters", 16, 19, true, some "parameters", [name 17 none]⟩,
        ⟨"statement_block", 20, 58, true, some "body",
          [⟨"if_statement", 22, cut, true, none,
              [⟨"parenthesized_expression", 25, 28, true, some "condition", [name 26 none]⟩,
                ⟨"return_statement", 29, cut, true, some "consequence", [first]⟩]⟩,
            ⟨"return_statement", cut + 1, 56, true, none, [second]⟩]⟩]⟩]⟩

/-- A function that returns a number, or else a result that it awaits. -/
def numberFirst : Bytes :=
  Utf8.encode "async function f(c) \x7b if (c) return 1; return await g(); \x7d".toList

/-- The tree of `numberFirst`, down to the values. -/
def numberFirstTree : Node :=
  twoReturns 38 ⟨"number", 36, 37, true, none, []⟩ ⟨"await_expression", 46, 55, true, none, []⟩

/-- The same values, the other way round. -/
def awaitFirst : Bytes :=
  Utf8.encode "async function f(c) \x7b if (c) return await g(); return 1; \x7d".toList

/-- The tree of `awaitFirst`, down to the values. -/
def awaitFirstTree : Node :=
  twoReturns 46 ⟨"await_expression", 36, 45, true, none, []⟩ ⟨"number", 54, 55, true, none, []⟩

/-- With the number first, the union is made a promise as a whole. -/
theorem infer_promised_number_first :
    ∃ t ∈ collect numberFirst numberFirstTree, t.isAsync = true ∧ t.returnDeclared = false ∧
      (t.shapeEnv numberFirst).All Balanced ∧
      Node.CastsAre Balanced numberFirst (t.resultLeaves numberFirst) ∧
      ∃ type, (t.infer (Strategy.forSource none numberFirst)).returnType = some type ∧
        type = "Promise<number | Promise<any>>".toList ∧ IsPromise type := by
  have hlength : (collect numberFirst numberFirstTree).length = 1 := by decide +kernel
  obtain ⟨t, ht⟩ := List.length_pos_iff_exists_mem.1 (by rw [hlength]; decide)
  have hfacts : ∀ t ∈ collect numberFirst numberFirstTree,
      t.isAsync = true ∧ t.returnDeclared = false ∧
      (∀ entry ∈ t.shapeEnv numberFirst, Balanced entry.2) ∧
      Node.CastsAre Balanced numberFirst (t.resultLeaves numberFirst) ∧
      t.shapeResult numberFirst = "number | Promise<any>".toList := by
    decide +kernel
  obtain ⟨hasync, hopen, henv, hcast, hresult⟩ := hfacts t ht
  obtain ⟨type, htype, -, hwrapped, -, hpromise, -⟩ :=
    infer_promised hasync hopen (TypeEnv.all_of_forall henv) hcast
  rw [hresult] at hwrapped hpromise
  refine ⟨t, ht, hasync, hopen, TypeEnv.all_of_forall henv, hcast, type, htype, ?_, ?_⟩
  · exact (hwrapped (by decide)).1
  · exact hpromise.2 (.inr (by decide))

/-- With the awaited result first, the union starts like a promise and is left as it is. -/
theorem infer_not_promise_await_first :
    ∃ t ∈ collect awaitFirst awaitFirstTree, t.isAsync = true ∧ t.returnDeclared = false ∧
      (t.shapeEnv awaitFirst).All Balanced ∧
      Node.CastsAre Balanced awaitFirst (t.resultLeaves awaitFirst) ∧
      ∃ type, (t.infer (Strategy.forSource none awaitFirst)).returnType = some type ∧
        members type = ["Promise<any>".toList, "number".toList] ∧ ¬ IsPromise type := by
  have hlength : (collect awaitFirst awaitFirstTree).length = 1 := by decide +kernel
  obtain ⟨t, ht⟩ := List.length_pos_iff_exists_mem.1 (by rw [hlength]; decide)
  have hfacts : ∀ t ∈ collect awaitFirst awaitFirstTree,
      t.isAsync = true ∧ t.returnDeclared = false ∧
      (∀ entry ∈ t.shapeEnv awaitFirst, Balanced entry.2) ∧
      Node.CastsAre Balanced awaitFirst (t.resultLeaves awaitFirst) ∧
      t.shapeResult awaitFirst = "Promise<any> | number".toList := by
    decide +kernel
  obtain ⟨hasync, hopen, henv, hcast, hresult⟩ := hfacts t ht
  have htype : (t.infer (Strategy.forSource none awaitFirst)).returnType =
      some (promised (t.shapeResult awaitFirst)) := infer_returnType_async hasync hopen
  have hmembers : members (promised (t.shapeResult awaitFirst)) =
      ["Promise<any>".toList, "number".toList] := by
    rw [hresult]
    decide
  refine ⟨t, ht, hasync, hopen, TypeEnv.all_of_forall henv, hcast, _, htype, hmembers, ?_⟩
  intro hpromise
  have hone := members_of_isPromise hpromise
  rw [hmembers] at hone
  simp at hone

end Target

end DocAnnotator
