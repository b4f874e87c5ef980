import Mathlib.Algebra.Order.BigOperators.Group.List
import DocAnnotator.Proofs.Annotate
import DocAnnotator.Proofs.Comment.Layout
import DocAnnotator.Proofs.Comment.Outline
import DocAnnotator.Proofs.Script.Block
import DocAnnotator.Proofs.Target.Collect

/-! ## A run only adds comments

    Where anchors start at tokens, a run weaves its comments into the script and leaves every other
    character of the unit where it was.

    - `StartsToken`, `TokenAnchors`: what a grammar promises about the anchors of a unit.
    - `BoundaryAnchors`: the weaker promise that is enough for a run to return.
    - `Woven.keepsLineEnds`: weaving at tokens never loses the line feeds at the ends of a block.
    - `annotate_woven`, `annotate_returns`: a run weaves, and fails only where it cannot be planned.
    - `annotate_conservative`: the whole statement, with the case in which nothing changes.
-/

namespace DocAnnotator

/-- A character other than a line feed starts at the byte offset. -/
def StartsToken (s : Text) (offset : Nat) : Prop :=
  ∃ a c b, s = a ++ c :: b ∧ c ≠ '\n' ∧ (Utf8.encode a).length = offset

/-- Every anchor in the script of a unit is a code point boundary of the script. -/
def BoundaryAnchors (grammar : Grammar) (id code : Text) : Prop :=
  ∀ range, ScriptRange.extract? code (Identifier.dialect id) = some range →
    ∀ target ∈ targetsOf grammar range, Boundary range.script target.anchorOffset

/-- Every anchor in the script of a unit starts at a token. -/
def TokenAnchors (grammar : Grammar) (id code : Text) : Prop :=
  ∀ range, ScriptRange.extract? code (Identifier.dialect id) = some range →
    ∀ target ∈ targetsOf grammar range, StartsToken range.script target.anchorOffset

theorem StartsToken.boundary {s : Text} {offset : Nat} (h : StartsToken s offset) :
    Boundary s offset := by
  obtain ⟨a, c, b, hs, -, hoff⟩ := h
  exact ⟨a, c :: b, hs, hoff⟩

theorem TokenAnchors.boundaryAnchors {grammar : Grammar} {id code : Text}
    (h : TokenAnchors grammar id code) : BoundaryAnchors grammar id code := by
  intro range hrange target htarget
  exact (h range hrange target htarget).boundary

/-! ### The ends of a block -/

/-- Weaving at tokens neither opens nor closes a block with an added text where a line feed did. -/
theorem Woven.keepsLineEnds {range : ScriptRange} {insertions : List Insertion} {script : Text}
    {pieces : List Piece} (h : Woven range.script insertions script pieces)
    (htokens : ∀ i ∈ insertions, StartsToken range.script i.offset) :
    range.KeepsLineEnds script := by
  -- an insertion stands right before the token at its offset
  have hcut : ∀ before i after, pieces = before ++ .added i :: after →
      ∃ c b, c ≠ '\n' ∧ range.script = DocAnnotator.original before ++ c :: b ∧
        DocAnnotator.original after = c :: b := by
    intro before i after hsplit
    have hmem : i ∈ DocAnnotator.additions pieces := by simp [hsplit]
    obtain ⟨a, c, b, hscript, hc, hoff⟩ := htokens i (h.additions.subset hmem)
    obtain ⟨hbefore, hafter⟩ := h.cut hsplit hscript hoff
    exact ⟨c, b, hc, by rw [hbefore, hscript], hafter⟩
  constructor
  · intro hhead
    rw [← h.written, head?_written, h.original, hhead]
    intro before i after hsplit hnil
    -- an insertion in front of everything would stand at the line feed
    obtain ⟨c, b, hc, hscript, -⟩ := hcut before i after hsplit
    rw [hscript, hnil] at hhead
    exact hc (Option.some.inj hhead)
  · intro hlast
    rw [← h.written, getLast?_written, h.original, hlast]
    intro before i after hsplit
    -- and behind every insertion stands at least its token
    obtain ⟨c, b, -, -, hafter⟩ := hcut before i after hsplit
    simp [hafter]

/-! ### A run weaves -/

/-- Whole line templates make a whole comment of a description that is whole, or has no place. -/
theorem Plan.insertion_whole {plan : Plan} (h : plan.settings.templates.Whole) {target : Target}
    {description : RawText}
    (hdescription : description.torn = true →
      ¬ plan.settings.templates.Mentions Comment.descriptionName) :
    (plan.insertion target description).torn = false := by
  have hlines := Comment.lines_whole h hdescription plan.settings.includeReturnsWhenVoid target
  simpa [Plan.insertion, Comment.layoutRaw] using hlines

section Run

variable {grammar : Grammar} {options : Options} {id code result : Text} {session : Session}
  {range : ScriptRange}

theorem insertionsOf_startsToken (htokens : TokenAnchors grammar id code)
    (hrange : ScriptRange.extract? code (Identifier.dialect id) = some range) :
    ∀ i ∈ insertionsOf grammar options id code session, StartsToken range.script i.offset := by
  intro i hi
  obtain ⟨target, htarget, hoff⟩ := exists_target_of_mem hrange hi
  rw [hoff]
  exact htokens range hrange target htarget

/-- A run weaves its comments into the script, and nothing else happens to the unit. -/
theorem annotate_woven (htokens : TokenAnchors grammar id code)
    (h : (annotate grammar options id code session).1 = .ok result)
    (hrange : ScriptRange.extract? code (Identifier.dialect id) = some range) :
    ∃ script pieces,
      Insertion.splice (Utf8.encode range.script)
        (insertionsOf grammar options id code session) = .ok script ∧
      Woven range.script (insertionsOf grammar options id code session) script pieces ∧
      range.KeepsLineEnds script ∧
      result = range.before ++ script ++ range.after := by
  have hstarts : ∀ i ∈ insertionsOf grammar options id code session,
      StartsToken range.script i.offset := insertionsOf_startsToken htokens hrange
  obtain ⟨script, pieces, hdecode, hwoven⟩ :=
    Insertion.exists_woven fun i hi => (hstarts i hi).boundary
  have hends := hwoven.keepsLineEnds hstarts
  have hresult := annotate_ok h
  rw [hrange] at hresult
  obtain ⟨other, hsplice, rfl⟩ := hresult
  -- the run splices the same insertions, so it gets the woven script
  obtain rfl : script = other :=
    Except.ok.inj (hdecode.symm.trans (Insertion.splice_eq_ok_iff.1 hsplice).2)
  exact ⟨script, pieces, hsplice, hwoven, hends,
    ScriptRange.reassemble_eq (ScriptRange.extract?_splits hrange) hends⟩

/-- What a run inserts goes to the boundaries that the anchors are. -/
theorem insertionsOf_boundary (hanchors : BoundaryAnchors grammar id code)
    (hrange : ScriptRange.extract? code (Identifier.dialect id) = some range) (options : Options)
    (session : Session) :
    ∀ i ∈ insertionsOf grammar options id code session, Boundary range.script i.offset := by
  intro i hi
  obtain ⟨target, htarget, hoff⟩ := exists_target_of_mem hrange hi
  rw [hoff]
  exact hanchors range hrange target htarget

/-- A unit that can be planned for is annotated where no call stops the run and all comments are
    whole: splicing them in at boundaries does not fail. -/
theorem annotate_of_boundaries (hanchors : BoundaryAnchors grammar id code) {plan : Option Plan}
    (hplan : (prepare grammar options id code).1 = .ok plan)
    (hgoes : ∀ p, plan = some p → p.targets.findSome? p.stop? = none)
    (hwhole : Insertion.Whole (insertionsOf grammar options id code session)) :
    ∃ result, (annotate grammar options id code session).1 = .ok result := by
  rcases annotate_of_prepare hplan session with ⟨-, hcode, -⟩ | ⟨p, later, rfl, hfinish, hmade⟩
  · exact ⟨code, hcode⟩
  have hfor := prepare_some hplan
  obtain ⟨script, -, hsplice, -⟩ :=
    Insertion.exists_splice (insertionsOf_boundary hanchors hfor.range options session) hwhole
  rw [Plan.insertions_eq, hgoes p rfl] at hfinish hmade
  rw [hmade] at hsplice
  refine ⟨p.range.reassemble code script, hfinish.trans ?_⟩
  change (Insertion.splice p.source _).map _ = _
  rw [hfor.source]
  exact congrArg (Except.map _) hsplice

/-- Without a service, whole line templates make whole comments. -/
theorem insertionsOf_whole {settings : Settings}
    (hsettings : (Config.resolve options.sources).1 = .ok settings)
    (hservice : Describe.describer options.client settings.ai = .ok none)
    (htemplates : settings.templates.Whole) (grammar : Grammar) (id code : Text)
    (session : Session) : Insertion.Whole (insertionsOf grammar options id code session) := by
  intro i hi
  obtain ⟨plan, target, answer, hplan, -, -, rfl⟩ := exists_answered_of_mem hi
  have hfor := prepare_some hplan
  obtain rfl := Except.ok.inj (hsettings.symm.trans hfor.settings)
  have hnone : plan.describer = none := Except.ok.inj (hfor.describer.symm.trans hservice)
  refine Plan.insertion_whole htemplates fun htorn => ?_
  rw [hnone] at htorn
  cases htorn

/-- A run that asks no service returns. -/
theorem annotate_returns {settings : Settings} (htokens : TokenAnchors grammar id code)
    (hsettings : (Config.resolve options.sources).1 = .ok settings)
    (hservice : Describe.describer options.client settings.ai = .ok none)
    (htemplates : settings.templates.Whole) (session : Session) :
    ∃ result, (annotate grammar options id code session).1 = .ok result := by
  obtain ⟨plan, hplan⟩ := exists_plan hsettings hservice grammar id code
  refine annotate_of_boundaries htokens.boundaryAnchors hplan ?_
    (insertionsOf_whole hsettings hservice htemplates grammar id code session)
  rintro p rfl
  have hfor := prepare_some hplan
  obtain rfl := Except.ok.inj (hsettings.symm.trans hfor.settings)
  have hnone : p.describer = none := Except.ok.inj (hfor.describer.symm.trans hservice)
  refine List.findSome?_eq_none_iff.2 fun target _ => ?_
  rw [Plan.stop?, hnone]
  rfl

/-- A comment is never empty. -/
theorem insertionsOf_text_ne_nil (h : (annotate grammar options id code session).1 = .ok result)
    (hrange : ScriptRange.extract? code (Identifier.dialect id) = some range) :
    ∀ i ∈ insertionsOf grammar options id code session, i.text ≠ [] := by
  intro i hi
  obtain ⟨target, -, -, lines, htext⟩ := exists_of_forall₂ (insertionsOf_forall₂ h hrange) hi
  rw [htext, Comment.layout_eq, Comment.blockAt_eq]
  simp

/-- A run returns its input exactly where there is nothing to document. -/
theorem annotate_eq_self_iff (htokens : TokenAnchors grammar id code)
    (h : (annotate grammar options id code session).1 = .ok result)
    (hrange : ScriptRange.extract? code (Identifier.dialect id) = some range) :
    result = code ↔ targetsOf grammar range = [] := by
  obtain ⟨script, pieces, -, hwoven, -, rfl⟩ := annotate_woven htokens h hrange
  have hparts := (ScriptRange.extract?_splits hrange).parts
  have hforall := insertionsOf_forall₂ h hrange
  constructor
  · intro hsame
    -- the two texts have the same length, so no comment was added
    rw [hparts] at hsame
    have hlength := congrArg List.length hsame
    rw [← hwoven.written, ← hwoven.original] at hlength
    simp only [List.length_append, length_written] at hlength
    cases hinsertions : insertionsOf grammar options id code session with
    | nil =>
      rw [hinsertions] at hforall
      exact List.forall₂_nil_right_iff.1 hforall
    | cons i rest =>
      have hi : i ∈ insertionsOf grammar options id code session := by simp [hinsertions]
      have htext := insertionsOf_text_ne_nil h hrange i hi
      have hmem : i.text.length ∈ (additions pieces).map (·.text.length) :=
        List.mem_map_of_mem (hwoven.additions.symm.subset hi)
      have hle := List.le_sum_of_mem hmem
      have hpos := List.length_pos_of_ne_nil htext
      omega
  · intro hnone
    rw [hnone] at hforall
    have hadditions := hwoven.additions
    rw [List.forall₂_nil_left_iff.1 hforall] at hadditions
    rw [hparts, ← hwoven.written, written_eq_original hadditions.eq_nil, hwoven.original]

end Run

/-- Anchors start at tokens where all nodes that can be anchors do. -/
theorem TokenAnchors.of_anchors {grammar : Grammar} {id code : Text} {range : ScriptRange}
    (hrange : ScriptRange.extract? code (Identifier.dialect id) = some range)
    (h : ∀ a ∈ anchors (grammar range.dialect range.script), StartsToken range.script a.node.start) :
    TokenAnchors grammar id code := by
  intro other hother target htarget
  rw [hrange] at hother
  obtain rfl := Option.some.inj hother
  obtain ⟨a, ha, -, hstart⟩ := mem_collect htarget
  rw [hstart]
  exact h a (List.mem_filter.1 ha).1

/-! ### A component

    A small component with text beyond ASCII before its only function. -/

/-- Options that ask no description service. -/
def quietOptions : Options := ⟨⟨.absent, [], true, []⟩, .none, .sending⟩

def component : Text := "<p>é</p><script>\nlet é;\nfunction f() \x7b\x7d\n</script>\n".toList

def componentRange : ScriptRange :=
  ⟨"\nlet é;\nfunction f() \x7b\x7d\n".toList, 16, 40, "<p>é</p><script>".toList,
    "</script>\n".toList, .javascript⟩

def letStatement : Node :=
  ⟨"lexical_declaration", 1, 8, true, none,
    [⟨"variable_declarator", 5, 7, true, none, [⟨"identifier", 5, 7, true, some "name", []⟩]⟩]⟩

def bareFunction : Node :=
  ⟨"function_declaration", 9, 24, true, none, [⟨"identifier", 18, 19, true, some "name", []⟩]⟩

def componentTree : Node := ⟨"program", 0, 25, true, none, [letStatement, bareFunction]⟩

/-- The grammar that knows this one script. -/
def componentGrammar : Grammar := fun _ _ => componentTree

theorem extract?_component :
    ScriptRange.extract? component (Identifier.dialect "a.vue".toList) = some componentRange := by
  have hopen : ScriptRange.findOpen? component =
      some ("<p>é</p>".toList, [] ++ '>' :: (componentRange.script ++ componentRange.after)) := by
    decide +kernel
  have hclose : ScriptRange.findClose? (componentRange.script ++ componentRange.after) =
      some (componentRange.script, componentRange.after) := by decide +kernel
  have hdialect : Identifier.dialect "a.vue".toList = .vue := by decide +kernel
  rw [hdialect, ScriptRange.extract?, ScriptRange.block?_eq componentRange.before hopen (by simp)
    (by decide +kernel), ScriptRange.ofContent, hclose]
  rfl

theorem anchors_componentTree :
    anchors componentTree = [⟨bareFunction, [⟨[letStatement], componentTree⟩]⟩] := rfl

theorem startsToken_component :
    ∀ a ∈ anchors componentTree, StartsToken componentRange.script a.node.start := by
  intro a ha
  rw [anchors_componentTree, List.mem_singleton] at ha
  rw [ha]
  exact ⟨"\nlet é;\n".toList, 'f', "unction f() \x7b\x7d\n".toList, by decide +kernel, by decide,
    by decide⟩

/-- The function has no doc comment: only a line feed stands between it and the statement before. -/
theorem targetsOf_component : targetsOf componentGrammar componentRange ≠ [] := by
  have hgap : ((Utf8.encode componentRange.script).take 9).drop 8 = [0x0A] := by decide
  have hopen : Place.isDocumented (Utf8.encode componentRange.script)
      ⟨bareFunction, [⟨[letStatement], componentTree⟩]⟩ = false := by
    change (comments (((Utf8.encode componentRange.script).take 9).drop 8)).any isDocComment = false
    rw [hgap]
    simp [comments]
  have hmem : ⟨bareFunction, [⟨[letStatement], componentTree⟩]⟩ ∈
      openAnchors (Utf8.encode componentRange.script) componentTree :=
    List.mem_filter.2 ⟨by rw [anchors_componentTree]; exact List.mem_cons_self, by simp [hopen]⟩
  intro hnone
  obtain ⟨t, ht, -⟩ := exists_mem_collect hmem
  change t ∈ targetsOf componentGrammar componentRange at ht
  rw [hnone] at ht
  exact List.not_mem_nil ht

theorem resolve_quietOptions :
    ∃ settings, (Config.resolve quietOptions.sources).1 = .ok settings ∧
      settings.templates = Config.defaultTemplates ∧
      Describe.describer quietOptions.client settings.ai = .ok none := ⟨_, rfl, rfl, rfl⟩

/-- A run of the small grammar over a unit with this script returns. -/
theorem annotate_component_returns {id code : Text} {range : ScriptRange}
    (hrange : ScriptRange.extract? code (Identifier.dialect id) = some range)
    (hscript : range.script = componentRange.script) :
    ∃ result, (annotate componentGrammar quietOptions id code ⟨[], [], []⟩).1 = .ok result := by
  have htokens : TokenAnchors componentGrammar id code :=
    TokenAnchors.of_anchors hrange (by rw [hscript]; exact startsToken_component)
  obtain ⟨settings, hsettings, htemplates, hservice⟩ := resolve_quietOptions
  exact annotate_returns htokens hsettings hservice (by rw [htemplates]; decide) _

/-- A run only adds comments. A unit without a script stays as it is; otherwise the result is the
    unit with one comment per target woven into its script, each at the byte offset of its anchor
    in the script as it was. Deleting the comments gives the unit back, no line feed is ever put
    back at the ends of the block, and nothing changes exactly where nothing is to be documented. -/
theorem annotate_conservative {grammar : Grammar} {options : Options} {id code result : Text}
    {session : Session} (htokens : TokenAnchors grammar id code)
    (h : (annotate grammar options id code session).1 = .ok result) :
    (match ScriptRange.extract? code (Identifier.dialect id) with
      | none => result = code
      | some range =>
        let insertions := insertionsOf grammar options id code session
        List.Forall₂ (Documents (Utf8.encode range.script)) (targetsOf grammar range) insertions ∧
        ∃ script pieces,
          Insertion.splice (Utf8.encode range.script) insertions = .ok script ∧
          Woven range.script insertions script pieces ∧
          range.KeepsLineEnds script ∧
          result = range.before ++ script ++ range.after ∧
          code = range.before ++ original pieces ++ range.after) ∧
    (result = code ↔ ∀ range, ScriptRange.extract? code (Identifier.dialect id) = some range →
      targetsOf grammar range = []) := by
  cases hrange : ScriptRange.extract? code (Identifier.dialect id) with
  | none =>
    have hresult := annotate_ok h
    rw [hrange] at hresult
    refine ⟨hresult, fun _ range hsome => ?_, fun _ => hresult⟩
    cases hsome
  | some range =>
    obtain ⟨script, pieces, hsplice, hwoven, hends, hresult⟩ := annotate_woven htokens h hrange
    have hparts := (ScriptRange.extract?_splits hrange).parts
    refine ⟨⟨insertionsOf_forall₂ h hrange, script, pieces, hsplice, hwoven, hends, hresult, ?_⟩, ?_⟩
    · rw [hwoven.original, ← hparts]
    · rw [annotate_eq_self_iff htokens h hrange]
      constructor
      · rintro hnone other hother
        obtain rfl := Option.some.inj hother
        exact hnone
      · exact fun hall => hall range rfl

/-- The component is annotated: a comment goes into its script, and the template around the script
    stays as it is. -/
theorem annotate_conservative_component :
    TokenAnchors componentGrammar "a.vue".toList component ∧
    ∃ result script,
      (annotate componentGrammar quietOptions "a.vue".toList component ⟨[], [], []⟩).1 = .ok result ∧
      result = "<p>é</p><script>".toList ++ script ++ "</script>\n".toList ∧ result ≠ component := by
  have htokens : TokenAnchors componentGrammar "a.vue".toList component :=
    TokenAnchors.of_anchors extract?_component startsToken_component
  obtain ⟨result, hresult⟩ := annotate_component_returns extract?_component rfl
  obtain ⟨hwoven, hsame⟩ := annotate_conservative htokens hresult
  rw [extract?_component] at hwoven
  obtain ⟨-, script, pieces, -, -, -, hscript, -⟩ := hwoven
  refine ⟨htokens, result, script, hresult, hscript, fun heq => ?_⟩
  exact targetsOf_component (hsame.1 heq componentRange extract?_component)

end DocAnnotator
