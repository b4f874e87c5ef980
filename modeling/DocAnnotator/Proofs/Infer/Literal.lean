import DocAnnotator.Proofs.Infer.Promise
import DocAnnotator.Proofs.TypeUnion.Join

/-! ## String literals as types

    A parameter can be declared with string literals for its type, and a literal may hold bars and
    brackets of its own. Whoever cuts the type at its bars does not know of quotes, so a literal
    comes through only if it reads as one member without them.

    - `Literal`, `Part`, `WrittenUnion`: unions of names and of string literals, as they are written.
    - `WrittenUnion.Legible`: what a union must be like to be cut where it was put together.
    - `WrittenUnion.members_text_iff`: just these unions are cut into their own parts.
    - `Target.GivesBack`: a function whose only value is a parameter with a declared type.
    - `join_keeps_literals`: which literals survive a join, and the inference of a result.
-/

namespace DocAnnotator

namespace TypeUnion

open Position

/-! ### Names and literals -/

/-- The characters of a plain name: no blank, bar, bracket or quote. -/
def isNameChar (c : Char) : Bool :=
  !Text.isBlank c &&
    !(['|', '<', '(', '[', '\x7b', '>', ')', ']', '\x7d', '"', '\x27'].contains c)

/-- A plain name. -/
structure IsName (word : Text) : Prop where
  ne_nil : word ≠ []
  plain : ∀ c ∈ word, isNameChar c = true

/-- A string literal in quotes of either sort. It holds neither its own quote nor a backslash or a
    line feed, and may hold anything else. -/
structure Literal where
  quote : Char
  content : Text
  isQuote : quote = '"' ∨ quote = '\x27'
  plain : ∀ c ∈ content, c ≠ quote ∧ c ≠ '\x5c' ∧ c ≠ '\n'

/-- The literal as it is written. -/
def Literal.text (l : Literal) : Text := l.quote :: (l.content ++ [l.quote])

/-- A part of a union: a plain name, or a string literal. -/
inductive Part where
  | name (word : Text) (isName : IsName word)
  | literal (l : Literal)

/-- The part as it is written. -/
def Part.text : Part → Text
  | .name word _ => word
  | .literal l => l.text

/-- A union as it is written: at least one part, with a bar between each two. -/
structure WrittenUnion where
  front : List Part
  last : Part

namespace WrittenUnion

/-- All parts, in their order. -/
def parts (u : WrittenUnion) : List Part := u.front ++ [u.last]

/-- The texts of the parts. -/
def texts (u : WrittenUnion) : List Text := u.parts.map Part.text

/-- The union as it is written. -/
def text (u : WrittenUnion) : Text := List.intercalate " | ".toList u.texts

/-- No part is cut by a bar of its own, and the brackets of each come out even in front of the
    next. -/
structure Legible (u : WrittenUnion) : Prop where
  front : ∀ part ∈ u.front, Uncut part.text ∧ Closed part.text
  last : Uncut u.last.text

instance (u : WrittenUnion) : Decidable u.Legible :=
  decidable_of_iff ((∀ part ∈ u.front, Uncut part.text ∧ Closed part.text) ∧ Uncut u.last.text)
    ⟨fun h => ⟨h.1, h.2⟩, fun h => ⟨h.1, h.2⟩⟩

end WrittenUnion

theorem not_blank_of_isNameChar {c : Char} (h : isNameChar c = true) : Text.isBlank c = false := by
  unfold isNameChar at h
  rw [Bool.and_eq_true] at h
  simpa using h.1

/-- A character of a name neither counts as a bracket nor cuts. -/
theorem Position.next_isNameChar {c : Char} (h : isNameChar c = true) (p : Position) :
    p.next c = ⟨p.depth, some c⟩ ∧ ¬ IsCut (p.next c) := by
  have hne : ∀ d ∈ ['|', '<', '(', '[', '\x7b', '>', ')', ']', '\x7d', '"', '\x27'], c ≠ d := by
    rintro d hd rfl
    unfold isNameChar at h
    rw [Bool.and_eq_true, Bool.not_eq_true', List.contains_eq_mem] at h
    simp [hd] at h
  have hnext : p.next c = ⟨p.depth, some c⟩ := by
    unfold next depthAfter
    simp [hne '<' (by decide), hne '(' (by decide), hne '[' (by decide), hne '\x7b' (by decide),
      hne '>' (by decide), hne ')' (by decide), hne ']' (by decide), hne '\x7d' (by decide)]
  refine ⟨hnext, ?_⟩
  rintro ⟨hbar, -⟩
  exact hne '|' (by decide) (Option.some.inj hbar)

/-- A name is read without a cut, and the depth stays as it is. -/
theorem Position.through_name {word : Text} (h : ∀ c ∈ word, isNameChar c = true) (p : Position) :
    (p.after word).depth = p.depth ∧ Along (fun q => ¬ IsCut q) p word := by
  induction word generalizing p with
  | nil => exact ⟨rfl, trivial⟩
  | cons c word ih =>
    obtain ⟨hnext, hcut⟩ := next_isNameChar (h c List.mem_cons_self) p
    obtain ⟨hdepth, hrest⟩ := ih (fun d hd => h d (List.mem_cons_of_mem _ hd)) (p.next c)
    refine ⟨?_, hcut, hrest⟩
    show ((p.next c).after word).depth = p.depth
    rw [hdepth, hnext]

theorem IsName.uncut {word : Text} (h : IsName word) : Uncut word :=
  (through_name h.plain start).2

theorem IsName.closed {word : Text} (h : IsName word) : Closed word :=
  (through_name h.plain start).1

theorem IsName.isPart {word : Text} (h : IsName word) : IsPart word := by
  refine h.uncut.isPart ?_ h.ne_nil
  apply Text.trim_of_not_blank
  exact fun c hc => not_blank_of_isNameChar (h.plain c hc)

namespace Literal

theorem quote_ne (l : Literal) {c : Char} (hdouble : c ≠ '"') (hsingle : c ≠ '\x27') :
    l.quote ≠ c := by
  rintro rfl
  exact l.isQuote.elim hdouble hsingle

theorem not_blank_quote (l : Literal) : Text.isBlank l.quote = false := by
  rcases l.isQuote with h | h
  · rw [h]
    decide
  · rw [h]
    decide

theorem quote_ne_bar (l : Literal) : l.quote ≠ '|' := l.quote_ne (by decide) (by decide)

theorem isPart (l : Literal) : IsPart l.text := by
  refine ⟨?_, List.cons_ne_nil _ _, ?_⟩
  · unfold text
    rw [Text.trim_cons l.not_blank_quote, Text.trimEnd_append_cons l.not_blank_quote]
    rfl
  · intro hhead
    exact l.quote_ne_bar (Option.some.inj hhead)

end Literal

theorem Part.isPart (part : Part) : IsPart part.text :=
  match part with
  | .name _ h => h.isPart
  | .literal l => l.isPart

namespace WrittenUnion

/-- A union is cut into its own parts just if it is legible. -/
theorem members_text_iff (u : WrittenUnion) : members u.text = u.texts ↔ u.Legible := by
  have htexts : u.texts = u.front.map Part.text ++ [u.last.text] := by
    rw [texts, parts, List.map_append]
    rfl
  have hfront : ∀ m ∈ u.front.map Part.text, IsPart m := by
    intro m hm
    obtain ⟨part, -, rfl⟩ := List.mem_map.1 hm
    exact part.isPart
  rw [text, htexts]
  refine (membersAt_union_iff Free.start hfront u.last.isPart).trans ?_
  rw [List.forall_mem_map]
  exact ⟨fun h => ⟨h.1, h.2⟩, fun h => ⟨h.1, h.2⟩⟩

/-- It is enough to look at the literals, each on its own. -/
theorem legible_of_literals {u : WrittenUnion}
    (h : ∀ l, Part.literal l ∈ u.parts → Uncut l.text ∧ Closed l.text) : u.Legible := by
  have hall : ∀ part ∈ u.parts, Uncut part.text ∧ Closed part.text := by
    intro part hpart
    cases part with
    | name word hname => exact ⟨hname.uncut, hname.closed⟩
    | literal l => exact h l hpart
  refine ⟨fun part hpart => hall part (List.mem_append_left _ hpart), ?_⟩
  exact (hall u.last (List.mem_append_right _ List.mem_cons_self)).1

/-- A join of legible unions has their distinct parts, first seen first. -/
theorem distinctMembers_text {unions : List WrittenUnion} (h : ∀ u ∈ unions, u.Legible) :
    distinctMembers (unions.map text) = (unions.flatMap texts).eraseDups := by
  unfold distinctMembers
  rw [List.flatMap_map]
  congr 1
  exact List.flatMap_congr fun u hu => u.members_text_iff.2 (h u hu)

theorem join_text {unions : List WrittenUnion} (h : ∀ u ∈ unions, u.Legible) :
    join (unions.map text) = if unions = [] then any
      else List.intercalate " | ".toList (unions.flatMap texts).eraseDups := by
  unfold join
  rw [distinctMembers_text h]
  by_cases hnil : unions = []
  · subst hnil
    rfl
  · rw [if_neg hnil]
    -- every union has a part
    obtain ⟨u, hu⟩ := List.exists_mem_of_ne_nil unions hnil
    have hmem : u.last.text ∈ (unions.flatMap texts).eraseDups := by
      rw [List.mem_eraseDups, List.mem_flatMap]
      exact ⟨u, hu, List.mem_map_of_mem (List.mem_append_right _ List.mem_cons_self)⟩
    split
    next hnone =>
      rw [hnone] at hmem
      exact absurd hmem List.not_mem_nil
    next => rfl

end WrittenUnion

/-! ### A literal on its own -/

/-- A text with a character in front that is no blank and no bar has a first member, and that
    starts with it. -/
theorem exists_members_cons {c : Char} {s : Text} (hblank : Text.isBlank c = false)
    (hbar : c ≠ '|') : ∃ m more, members (c :: s) = (c :: m) :: more := by
  have hcut : ¬ IsCut (start.next c) := fun h => hbar (Option.some.inj h.1)
  obtain ⟨piece, more, hpieces⟩ := List.exists_cons_of_ne_nil (piecesAt_ne_nil (start.next c) s)
  have hall : piecesAt start (c :: s) = (c :: piece) :: more := by
    rw [piecesAt_keep hcut, hpieces, List.modifyHead_cons]
  refine ⟨Text.trimEnd piece, (more.map Text.trim).filter (!·.isEmpty), ?_⟩
  show ((piecesAt start (c :: s)).map Text.trim).filter (!·.isEmpty) = _
  rw [hall, List.map_cons, Text.trim_cons hblank, List.filter_cons_of_pos (by simp)]

namespace Literal

theorem exists_members (l : Literal) : ∃ m more, members l.text = (l.quote :: m) :: more :=
  exists_members_cons l.not_blank_quote l.quote_ne_bar

theorem members_ne_nil (l : Literal) : members l.text ≠ [] := by
  obtain ⟨m, more, hmembers⟩ := l.exists_members
  rw [hmembers]
  exact List.cons_ne_nil _ _

/-- Whatever becomes of a literal, its quote stays in front. -/
theorem head_join (l : Literal) : (join [l.text]).head? = some l.quote := by
  obtain ⟨m, more, hmembers⟩ := l.exists_members
  have hdistinct : distinctMembers [l.text] =
      (l.quote :: m) :: (more.filter fun b => !b == l.quote :: m).eraseDups := by
    rw [distinctMembers, List.flatMap_singleton, hmembers, List.eraseDups_cons]
  rw [join_of_members hdistinct, Comment.intercalate_cons]
  rfl

/-- What starts with a quote does not start like a promise. -/
theorem not_promise_isPrefix (l : Literal) {type : Text} (h : type.head? = some l.quote) :
    ¬ promiseHead <+: type := by
  rintro ⟨rest, rfl⟩
  have hquote : 'P' = l.quote := Option.some.inj h
  exact l.quote_ne (by decide) (by decide) hquote.symm

theorem promised_join_eq_iff (l : Literal) :
    promised (join [l.text]) = promised l.text ↔ join [l.text] = l.text := by
  constructor
  · intro h
    rw [promised_of_not_isPrefix (l.not_promise_isPrefix l.head_join),
      promised_of_not_isPrefix (l.not_promise_isPrefix rfl)] at h
    exact List.append_cancel_left (List.append_cancel_right h)
  · exact congrArg promised

end Literal

end TypeUnion

open TypeUnion

/-- The annotation of a parameter gives the literal as it is written. -/
theorem Node.annotationText_literal {source : Bytes} {node : Node} {gap : Text} (l : Literal)
    (hgap : ∀ c ∈ gap, Text.isBlank c = true) (h : node.text source = ':' :: (gap ++ l.text)) :
    node.annotationText source = some l.text := by
  have hlast : Text.trimEnd (gap ++ l.text) = gap ++ l.text := by
    have hend := Text.trimEnd_append_cons (s := gap ++ l.quote :: l.content) (t := [])
      l.not_blank_quote
    simpa [Literal.text, Text.trimEnd] using hend
  have hgap : Text.trim (gap ++ l.text) = l.text := by
    rw [Text.trim_blank_append hgap, l.isPart.trimmed]
  unfold annotationText
  rw [h, Text.trim_cons (by decide), hlast]
  simp only [hgap]
  rfl

namespace Target

/-- The one value that the function gives back is a parameter that is declared with the type.
    Bare return statements may stand beside it. -/
inductive GivesBack (source : Bytes) (t : Target) (type : Text) : Prop where
  | parameter {function body value : Node} {before after : List Parameter} {p : Parameter}
      (hfunction : t.function = some function) (hbody : function.child? "body" = some body)
      (hblock : body.kind = "statement_block")
      (hvalue : (Node.returnsOf body.children).filterMap id = [value])
      (hname : value.kind = "identifier") (hparameters : t.parameters = before ++ p :: after)
      (hlast : ∀ q ∈ after, q.name ≠ p.name) (hsame : value.text source = p.name)
      (htype : p.type = some type)

section Result

variable {source : Bytes} {t : Target}

/-- A declared parameter has its type in the body, if no later one has its name. -/
theorem typeOf_shapeEnv {before after : List Parameter} {p : Parameter} {type : Text}
    (hparameters : t.parameters = before ++ p :: after) (hlast : ∀ q ∈ after, q.name ≠ p.name)
    (htype : p.type = some type) : (t.shapeEnv source).typeOf p.name = type := by
  let strategies := Strategy.forSource none source
  let first := inferParameters strategies [] before
  let p' := p.filled strategies first.2
  let rest := inferParameters strategies (first.2.bind p'.name (p'.type.getD any)) after
  have hinferred : (t.infer strategies).parameters = first.1 ++ p' :: rest.1 := by
    rw [infer_parameters, hparameters, inferParameters_append]
    rfl
  have hnames : ∀ q ∈ rest.1, q.name ≠ p'.name := by
    intro q hq
    have hmem : q.name ∈ rest.1.map (·.name) := List.mem_map_of_mem hq
    rw [map_name_inferParameters] at hmem
    obtain ⟨q', hq', hname⟩ := List.mem_map.1 hmem
    rw [← hname]
    exact hlast q' hq'
  have htypeOf := @TypeEnv.typeOf_ofParameters first.1 rest.1 p' hnames
  rw [← hinferred] at htypeOf
  have hfilled : p'.type.getD any = type := by
    show p.type.getD _ = type
    rw [htype]
    rfl
  rw [hfilled] at htypeOf
  exact htypeOf

/-- What is given back is joined on its own. -/
theorem shapeResult_of_givesBack {type : Text} (h : t.GivesBack source type) (hvoid : type ≠ void) :
    t.shapeResult source = join [type] := by
  obtain @⟨function, body, value, before, after, p, hfunction, hbody, hblock, hvalue, hname,
    hparameters, hlast, hsame, htype⟩ := h
  have hvalueType : value.typeIn source (t.shapeEnv source) = type := by
    rw [Node.typeIn_identifier hname, hsame]
    exact typeOf_shapeEnv hparameters hlast htype
  have hvalues : body.valuesOf source (t.shapeEnv source) = [value] := by
    unfold Node.valuesOf
    rw [hvalue, List.filter_cons_of_pos (by simpa [hvalueType] using hvoid)]
    rfl
  unfold shapeResult
  rw [hfunction, Option.map_some, Option.getD_some,
    Node.returnTypeIn_of_values hbody hblock (by rw [hvalues]; exact List.cons_ne_nil _ _), hvalues,
    List.map_singleton, hvalueType]

theorem infer_literal_iff (l : Literal) (h : t.GivesBack source l.text)
    (hopen : t.returnDeclared = false) :
    (t.infer (Strategy.forSource none source)).returnType =
        some (if t.isAsync then promised l.text else l.text) ↔ Rejoins l.text := by
  have hvoid : l.text ≠ void := by
    intro hvoid
    have hquote : l.quote = 'v' := (List.cons.inj hvoid).1
    exact l.quote_ne (by decide) (by decide) hquote
  rw [infer_returnType_shape hopen, shapeResult_of_givesBack h hvoid, Option.some_inj,
    ← join_single_eq_iff l.members_ne_nil]
  cases t.isAsync with
  | true => exact l.promised_join_eq_iff
  | false => exact Iff.rfl

end Result

end Target

/-! ### The whole statement -/

/-- Unions of names and string literals are cut into their own parts just if they are legible,
    which they are if each literal has even brackets and no bar outside of them. A join of such
    unions has their distinct parts, first seen first and as they are written. A function that
    gives back a parameter with a literal for its annotated type has that type for its result just
    if the literal is written as it would be joined; one without a bar outside of brackets is. -/
theorem join_keeps_literals (unions : List WrittenUnion) (l : Literal) (source : Bytes) :
    (∀ u ∈ unions, (members u.text = u.texts ↔ u.Legible) ∧
      ((∀ l, Part.literal l ∈ u.parts → Uncut l.text ∧ Closed l.text) → u.Legible)) ∧
    ((∀ u ∈ unions, u.Legible) →
      ∃ distinct, FirstSeen (unions.flatMap WrittenUnion.texts) distinct ∧
        join (unions.map WrittenUnion.text) =
          if unions = [] then any else List.intercalate " | ".toList distinct) ∧
    (Uncut l.text → Rejoins l.text) ∧
    (∀ (node : Node) (gap : Text), (∀ c ∈ gap, Text.isBlank c = true) →
      node.text source = ':' :: (gap ++ l.text) → node.annotationText source = some l.text) ∧
    ∀ t : Target, t.GivesBack source l.text → t.returnDeclared = false →
      ((t.infer (Strategy.forSource none source)).returnType =
        some (if t.isAsync then promised l.text else l.text) ↔ Rejoins l.text) := by
  refine ⟨?_, ?_, fun hcut => hcut.rejoins l.isPart, ?_, ?_⟩
  · exact fun u _ => ⟨u.members_text_iff, WrittenUnion.legible_of_literals⟩
  · intro h
    exact ⟨_, firstSeen_eraseDups _, WrittenUnion.join_text h⟩
  · intro node gap hgap htext
    exact Node.annotationText_literal l hgap htext
  · intro t hback hopen
    exact Target.infer_literal_iff l hback hopen

/-- A function whose parameter is declared with a literal, and given back. -/
def literalSource (l : Literal) : Bytes :=
  Utf8.encode ("function f(x: ".toList ++ l.text ++ ") \x7b return x; \x7d".toList)

/-- The name of the parameter of `literalSource`, for a literal with three characters in it. -/
def literalPattern : Node := ⟨"identifier", 11, 12, true, some "pattern", []⟩

/-- The annotation of the parameter. -/
def literalAnnotation : Node := ⟨"type_annotation", 12, 19, true, some "type", []⟩

/-- The parameter with its annotation. -/
def literalParameter : Node :=
  ⟨"required_parameter", 11, 19, true, none, [literalPattern, literalAnnotation]⟩

/-- The value that is given back. -/
def literalValue : Node := ⟨"identifier", 30, 31, true, none, []⟩

/-- The function of `literalSource`. -/
def literalFunction : Node :=
  ⟨"function_declaration", 0, 34, true, none,
    [⟨"identifier", 9, 10, true, some "name", []⟩,
      ⟨"formal_parameters", 10, 20, true, some "parameters", [literalParameter]⟩,
      ⟨"statement_block", 21, 34, true, some "body",
        [⟨"return_statement", 23, 32, true, none, [literalValue]⟩]⟩]⟩

/-- The tree of `literalSource`. -/
def literalTree : Node := ⟨"program", 0, 34, true, none, [literalFunction]⟩

/-- The function of `literalTree` as the collector sees it. -/
def literalDocumentable : Documentable :=
  ⟨⟨"identifier", 9, 10, true, some "name", []⟩, literalFunction,
    ⟨literalFunction, [⟨[], literalTree⟩]⟩⟩

theorem eq_of_mem_collect_literalTree {source : Bytes} {t : Target}
    (h : t ∈ collect source literalTree) : t = literalDocumentable.target source :=
  eq_of_mem_collect rfl h

theorem givesBack_literalDocumentable (source : Bytes) (type : Text)
    (hname : literalValue.text source = literalPattern.text source)
    (htype : literalAnnotation.annotationText source = some type) :
    (literalDocumentable.target source).GivesBack source type := by
  have hparameters : (literalDocumentable.target source).parameters =
      [] ++ [⟨literalPattern.text source, literalAnnotation.annotationText source, false,
        some literalParameter, none⟩] := rfl
  have hlast : ∀ q ∈ ([] : List Parameter), q.name ≠ literalPattern.text source :=
    fun q hq => absurd hq List.not_mem_nil
  exact .parameter rfl rfl rfl rfl rfl hparameters hlast hname htype

/-- A literal with a bracket that stays open. -/
def openLiteral : Literal := ⟨'"', "a<b".toList, .inl rfl, by simp⟩

/-- Literals with a bar inside brackets and with a bracket that stays open, and a name twice. -/
def legibleUnions : List WrittenUnion :=
  [⟨[.literal ⟨'\x27', "<a|b>".toList, .inr rfl, by simp⟩,
      .name "number".toList ⟨by decide, List.all_eq_true.1 (by decide)⟩], .literal openLiteral⟩,
    ⟨[], .name "number".toList ⟨by decide, List.all_eq_true.1 (by decide)⟩⟩]

/-- None of these literals is changed, and the name stands once. -/
theorem join_keeps_literals_open :
    (∀ u ∈ legibleUnions, u.Legible) ∧
    (∃ distinct, FirstSeen (legibleUnions.flatMap WrittenUnion.texts) distinct ∧
      List.intercalate " | ".toList distinct =
        "\x27<a|b>\x27 | number | \"a<b\"".toList) ∧
    ∃ t ∈ collect (literalSource openLiteral) literalTree,
      t.GivesBack (literalSource openLiteral) openLiteral.text ∧ t.returnDeclared = false ∧
      (t.infer (Strategy.forSource none (literalSource openLiteral))).returnType =
        some openLiteral.text := by
  have hlegible : ∀ u ∈ legibleUnions, u.Legible := by decide
  obtain ⟨-, hjoin, hrejoins, -, hresult⟩ :=
    join_keeps_literals legibleUnions openLiteral (literalSource openLiteral)
  obtain ⟨distinct, hseen, hunions⟩ := hjoin hlegible
  refine ⟨hlegible, ⟨distinct, hseen, ?_⟩, ?_⟩
  · have hne : legibleUnions ≠ [] := List.cons_ne_nil _ _
    rw [if_neg hne] at hunions
    rw [← hunions]
    decide
  · have hlength : (collect (literalSource openLiteral) literalTree).length = 1 := by
      decide +kernel
    obtain ⟨t, ht⟩ := List.length_pos_iff_exists_mem.1 (by rw [hlength]; decide)
    obtain rfl := eq_of_mem_collect_literalTree ht
    have hback := givesBack_literalDocumentable (literalSource openLiteral) openLiteral.text
      (by decide +kernel) (by decide +kernel)
    exact ⟨_, ht, hback, rfl, (hresult _ hback rfl).2 (hrejoins (by decide))⟩

/-- A literal with a bar outside of brackets. -/
def barredLiteral : Literal := ⟨'"', "a|b".toList, .inl rfl, by simp⟩

/-- The union of one literal with a bar outside of brackets. -/
def barredUnion : WrittenUnion := ⟨[], .literal barredLiteral⟩

/-- A literal with an open bracket in front of another one, and that one on its own. -/
def bracketUnions : List WrittenUnion :=
  [⟨[.literal ⟨'"', "(".toList, .inl rfl, by simp⟩], .literal openLiteral⟩,
    ⟨[], .literal openLiteral⟩]

/-- The bar inside a literal is taken for one between two members, and comes back with spaces
    around it, in a join and in the result of a function that gives the literal back. A bracket
    inside a literal hides the bar behind it, so a literal that follows is not known again. -/
theorem join_splits_literal :
    join [barredUnion.text] = "\"a | b\"".toList ∧
    join [barredUnion.text] ≠ List.intercalate " | ".toList barredUnion.texts.eraseDups ∧
    join (bracketUnions.map WrittenUnion.text) ≠
      List.intercalate " | ".toList (bracketUnions.flatMap WrittenUnion.texts).eraseDups ∧
    ∃ t ∈ collect (literalSource barredLiteral) literalTree,
      t.GivesBack (literalSource barredLiteral) barredLiteral.text ∧ t.returnDeclared = false ∧
      t.isAsync = false ∧
      (t.infer (Strategy.forSource none (literalSource barredLiteral))).returnType =
        some "\"a | b\"".toList ∧
      "\"a | b\"".toList ≠ barredLiteral.text := by
  have hlength : (collect (literalSource barredLiteral) literalTree).length = 1 := by
    decide +kernel
  have hresult : ∀ t ∈ collect (literalSource barredLiteral) literalTree,
      (t.infer (Strategy.forSource none (literalSource barredLiteral))).returnType =
        some "\"a | b\"".toList := by
    decide +kernel
  obtain ⟨t, ht⟩ := List.length_pos_iff_exists_mem.1 (by rw [hlength]; decide)
  have htype := hresult t ht
  obtain rfl := eq_of_mem_collect_literalTree ht
  have hback := givesBack_literalDocumentable (literalSource barredLiteral) barredLiteral.text
    (by decide +kernel) (by decide +kernel)
  exact ⟨by decide, by decide, by decide, _, ht, hback, rfl, rfl, htype, by decide⟩

end DocAnnotator
