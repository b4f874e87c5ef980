import DocAnnotator.Comment.Lines
import DocAnnotator.Proofs.Template

/-! ## Outlines of comments

    The lines of a comment are settled up to the places of the description: how many there are, and
    what each says around those places. Half of a surrogate pair in a line comes from its template,
    or from a description that has a place in it.

    - `LineOutline`, `Outline`, `outline`: a line, and the lines for a target, before it is described.
    - `lines_eq`, `length_outline`: describing a target fills its outline, and how many lines it has.
    - `outline_closed`: where no line template mentions the description, no line has a place for it.
    - `lines_whole`: when no line holds half of a surrogate pair.
-/

namespace DocAnnotator

/-- One of the line templates mentions a name. -/
def LineTemplates.Mentions (name : Text) (templates : LineTemplates) : Prop :=
  ∃ template ∈ [templates.description, templates.parameter, templates.returns],
    Template.Mentions name template.text

/-- No line template holds half of a surrogate pair. -/
def LineTemplates.Whole (templates : LineTemplates) : Prop :=
  ∀ template ∈ [templates.description, templates.parameter, templates.returns],
    template.torn = false

instance LineTemplates.decidableWhole (templates : LineTemplates) : Decidable templates.Whole :=
  inferInstanceAs (Decidable (∀ template ∈ [templates.description, templates.parameter,
    templates.returns], template.torn = false))

namespace Comment

/-- A line, before its target is described. -/
structure LineOutline where
  parts : Template.Outline
  /-- Does the template hold half of a surrogate pair? -/
  torn : Bool

namespace LineOutline

/-- The line with a description in the places for it. -/
def fill (o : LineOutline) (description : RawText) : RawText :=
  ⟨o.parts.fill description.text, o.torn || description.torn && o.parts.contains none⟩

/-- A line without a place for a description is the same with any. -/
theorem fill_of_closed {o : LineOutline} (h : none ∉ o.parts) (description other : RawText) :
    o.fill description = o.fill other := by
  simp [fill, h, Template.Outline.fill_of_closed h description.text other.text]

end LineOutline

/-- The lines for a target, before it is described. -/
structure Outline where
  description : LineOutline
  /-- One line for each parameter. -/
  parameters : List LineOutline
  /-- The line for the result, if there is one. -/
  returns : Option LineOutline

namespace Outline

/-- All lines of an outline, in their order. -/
def all (o : Outline) : List LineOutline :=
  o.description :: o.parameters ++ o.returns.toList

/-- The lines with a description in the places for it. -/
def lines (o : Outline) (description : RawText) : List RawText := o.all.map (·.fill description)

theorem length_lines (o : Outline) (description : RawText) :
    (o.lines description).length = 1 + o.parameters.length + o.returns.toList.length := by
  simp only [lines, all, List.cons_append, List.length_map, List.length_cons, List.length_append]
  omega

/-- Lines without a place for a description are the same with any. -/
theorem lines_of_closed {o : Outline} (h : ∀ line ∈ o.all, none ∉ line.parts)
    (description other : RawText) : o.lines description = o.lines other :=
  List.map_congr_left fun line hline =>
    LineOutline.fill_of_closed (h line hline) description other

end Outline

/-- The outline of a line, with the values of all names but the description's. -/
def lineOutline (values : Template.Variables) (template : RawText) : LineOutline :=
  ⟨Template.outline values descriptionName template.text, template.torn⟩

/-- Is there a line for the result of a target? -/
def hasReturns (includeReturnsWhenVoid : Bool) (target : Target) : Bool :=
  orElse target.returnType TypeUnion.void != TypeUnion.void || includeReturnsWhenVoid

/-- The outline for a target. -/
def outline (templates : LineTemplates) (includeReturnsWhenVoid : Bool) (target : Target) :
    Outline :=
  let base := baseVariables target []
  { description := lineOutline base templates.description
    parameters := target.parameters.map fun p =>
      lineOutline (parameterVariables base p) templates.parameter
    returns :=
      if hasReturns includeReturnsWhenVoid target
      then some (lineOutline base templates.returns) else none }

/-- One line for the description, one for each parameter, and maybe one for the result. -/
theorem length_outline (templates : LineTemplates) (includeReturnsWhenVoid : Bool) (target : Target)
    (description : RawText) :
    ((outline templates includeReturnsWhenVoid target).lines description).length =
      1 + target.parameters.length + (hasReturns includeReturnsWhenVoid target).toNat := by
  rw [Outline.length_lines]
  cases hreturns : hasReturns includeReturnsWhenVoid target <;> simp [outline, hreturns]

/-! ### Describing a target -/

/-- A line is told by its outline where the description is the value of one name only. -/
theorem line_eq_fill {values fixed : Template.Variables} {description : RawText}
    (hvalue : values.value? descriptionName = some description.text)
    (hfixed : ∀ name, name ≠ descriptionName → values.value? name = fixed.value? name)
    (template : RawText) :
    line values template description = (lineOutline fixed template).fill description := by
  have hplaces : Template.mentions descriptionName template.text =
      (Template.outline fixed descriptionName template.text).contains none := by
    rw [Bool.eq_iff_iff, Template.mentions_iff fixed, List.contains_iff_mem]
  unfold line lineOutline LineOutline.fill
  rw [Template.render_eq_fill hvalue hfixed, hplaces]

/-- On the lines for the function, the description is the value of one name only. -/
theorem line_base (target : Target) (description template : RawText) :
    line (baseVariables target description.text) template description =
      (lineOutline (baseVariables target []) template).fill description := by
  refine line_eq_fill rfl (fun name h => ?_) template
  exact Template.value?_of_ne h [("functionName".toList, target.name)] _ description.text []

/-- On the line of a parameter two more names have values, and neither is the description's. -/
theorem line_parameter (target : Target) (parameter : Parameter) (description template : RawText) :
    line (parameterVariables (baseVariables target description.text) parameter) template
        description =
      (lineOutline (parameterVariables (baseVariables target []) parameter) template).fill
        description := by
  refine line_eq_fill rfl (fun name h => ?_) template
  exact Template.value?_of_ne h [("name".toList, parameter.name),
    ("type".toList, orElse parameter.type TypeUnion.any), ("functionName".toList, target.name)] _
    description.text []

/-- Describing a target fills its outline. -/
theorem lines_eq (templates : LineTemplates) (includeReturnsWhenVoid : Bool) (target : Target)
    (description : RawText) :
    lines templates includeReturnsWhenVoid target description =
      (outline templates includeReturnsWhenVoid target).lines description := by
  have hasked : (orElse target.returnType TypeUnion.void != TypeUnion.void ||
      includeReturnsWhenVoid) = hasReturns includeReturnsWhenVoid target := rfl
  simp only [lines, hasked, outline, Outline.lines, Outline.all, line_base, line_parameter,
    List.map_append, List.map_cons, List.map_map]
  cases hasReturns includeReturnsWhenVoid target <;> rfl

/-- Every line of an outline is that of one of the templates. -/
theorem exists_template_of_mem {templates : LineTemplates} {includeReturnsWhenVoid : Bool}
    {target : Target} {o : LineOutline}
    (h : o ∈ (outline templates includeReturnsWhenVoid target).all) :
    ∃ template ∈ [templates.description, templates.parameter, templates.returns], ∃ values,
      o = lineOutline values template := by
  simp only [outline, Outline.all, List.cons_append, List.mem_cons, List.mem_append, List.mem_map,
    Option.mem_toList] at h
  rcases h with rfl | ⟨p, -, rfl⟩ | hreturns
  · exact ⟨_, by simp, _, rfl⟩
  · exact ⟨_, by simp, _, rfl⟩
  · split at hreturns
    · exact ⟨_, by simp, _, (Option.some.inj hreturns).symm⟩
    · cases hreturns

/-- Where no line template mentions the description, no line has a place for it. -/
theorem outline_closed {templates : LineTemplates} (h : ¬ templates.Mentions descriptionName)
    (includeReturnsWhenVoid : Bool) (target : Target) :
    ∀ line ∈ (outline templates includeReturnsWhenVoid target).all, none ∉ line.parts := by
  intro line hline
  obtain ⟨template, htemplate, values, rfl⟩ := exists_template_of_mem hline
  exact Template.outline_of_not_mentions (fun hmentions => h ⟨template, htemplate, hmentions⟩) values

/-- Whole templates make whole lines of a description that is whole, or has no place in them. -/
theorem lines_whole {templates : LineTemplates} (h : templates.Whole) {description : RawText}
    (hdescription : description.torn = true → ¬ templates.Mentions descriptionName)
    (includeReturnsWhenVoid : Bool) (target : Target) :
    ∀ line ∈ lines templates includeReturnsWhenVoid target description, line.torn = false := by
  rw [lines_eq]
  intro line hline
  obtain ⟨o, ho, rfl⟩ := List.mem_map.1 hline
  obtain ⟨template, htemplate, values, houtline⟩ := exists_template_of_mem ho
  have hwhole : o.torn = false := by
    rw [houtline]
    exact h template htemplate
  cases htorn : description.torn with
  | false => simp [LineOutline.fill, hwhole, htorn]
  | true =>
    have hclosed := outline_closed (hdescription htorn) includeReturnsWhenVoid target o ho
    simp [LineOutline.fill, hwhole, hclosed]

end Comment

end DocAnnotator
