import Mathlib.Data.List.Infix
import Mathlib.Data.List.TakeWhile
import DocAnnotator.Template

/-! ## Outlines of templates

    A template has places for the value of a variable. Everything else in its rendering is settled
    without that value, and the value itself is never scanned.

    - `IsPlaceholder`, `Mentions`: the two spellings of a placeholder, and a template with one.
    - `placeholder?_eq_some`: what is found is a placeholder, with the rest of the text after it.
    - `outline`, `fill`: a template with its places for one variable still open, and their filling.
    - `render_eq_fill`: rendering fills the outline.
    - `outline_of_not_mentions`: a template that does not mention the variable has no open places.
    - `mentions_iff`: the open places are found by the scanner of the program, too.
-/

namespace DocAnnotator

theorem Text.eq_of_after? {lead s rest : Text} (h : after? lead s = some rest) :
    s = lead ++ rest := by
  fun_induction after? lead s with
  | case1 s => exact Option.some.inj h
  | case2 c lead s ih => rw [ih h, List.cons_append]
  | case3 => cases h
  | case4 => cases h

namespace Template

/-- A text that is a placeholder for a name, in one of the two spellings. -/
def IsPlaceholder (name written : Text) : Prop :=
  ∃ front back : Text, (∀ c ∈ front, Text.isBlank c = true) ∧ (∀ c ∈ back, Text.isBlank c = true) ∧
    (written = ['\x7b', '\x7b'] ++ front ++ name ++ back ++ ['\x7d', '\x7d'] ∨
      written = ['$', '\x7b'] ++ front ++ name ++ back ++ ['\x7d'])

/-- A placeholder for the name occurs in the template. -/
def Mentions (name s : Text) : Prop := ∃ written, IsPlaceholder name written ∧ written <:+: s

theorem IsPlaceholder.infix {name written : Text} (h : IsPlaceholder name written) :
    name <:+: written := by
  obtain ⟨front, back, -, -, rfl | rfl⟩ := h
  · exact ⟨['\x7b', '\x7b'] ++ front, back ++ ['\x7d', '\x7d'], by simp⟩
  · exact ⟨['$', '\x7b'] ++ front, back ++ ['\x7d'], by simp⟩

/-- A template that mentions a name holds its characters. -/
theorem Mentions.infix {name s : Text} (h : Mentions name s) : name <:+: s := by
  obtain ⟨written, hwritten, hinfix⟩ := h
  exact hwritten.infix.trans hinfix

theorem Mentions.mono {name s t : Text} (h : Mentions name s) (hst : s <:+: t) :
    Mentions name t := by
  obtain ⟨written, hwritten, hinfix⟩ := h
  exact ⟨written, hwritten, hinfix.trans hst⟩

/-! ### What is found -/

theorem placeholderBody?_eq_some {opened close s : Text} {m : Match}
    (h : placeholderBody? opened close s = some m) :
    ∃ front back : Text, (∀ c ∈ front, Text.isBlank c = true) ∧
      (∀ c ∈ back, Text.isBlank c = true) ∧
      (m.name ≠ [] ∧ ∀ c ∈ m.name, Text.isWord c = true) ∧
      m.written = opened ++ front ++ m.name ++ back ++ close ∧
      opened ++ s = m.written ++ m.rest := by
  -- what a class of characters takes and what it leaves make up the text
  have hcut (p : Char → Bool) (t : Text) : t.takeWhile p ++ t.drop (t.takeWhile p).length = t :=
    (List.prefix_append_drop (List.takeWhile_prefix p)).symm
  simp only [placeholderBody?] at h
  split at h
  · cases h
  next hname =>
    obtain ⟨rest, hrest, rfl⟩ := Option.map_eq_some_iff.1 h
    refine ⟨_, _, fun c hc => List.mem_takeWhile_imp hc, fun c hc => List.mem_takeWhile_imp hc,
      ⟨by simpa using hname, fun c hc => List.mem_takeWhile_imp hc⟩, rfl, ?_⟩
    have hafter := Text.eq_of_after? hrest
    simp only [List.append_assoc, ← hafter, hcut]

/-- What is found is a placeholder, and the text goes on after it. -/
theorem placeholder?_eq_some {s : Text} {m : Match} (h : placeholder? s = some m) :
    IsPlaceholder m.name m.written ∧ s = m.written ++ m.rest := by
  unfold placeholder? at h
  split at h
  · obtain ⟨front, back, hfront, hback, -, hwritten, hs⟩ := placeholderBody?_eq_some h
    exact ⟨⟨front, back, hfront, hback, .inl hwritten⟩, hs⟩
  · obtain ⟨front, back, hfront, hback, -, hwritten, hs⟩ := placeholderBody?_eq_some h
    exact ⟨⟨front, back, hfront, hback, .inr hwritten⟩, hs⟩
  · cases h

theorem mentions_of_placeholder? {s : Text} {m : Match} (h : placeholder? s = some m) :
    Mentions m.name s := by
  obtain ⟨hwritten, hs⟩ := placeholder?_eq_some h
  exact ⟨m.written, hwritten, [], m.rest, by rw [List.nil_append, ← hs]⟩

/-! ### Outlines -/

/-- The value of a name is that of no other entry. -/
theorem value?_of_ne {name hole : Text} (h : name ≠ hole) (before after : Variables)
    (value other : Text) :
    (before ++ (hole, value) :: after).value? name =
      (before ++ (hole, other) :: after).value? name := by
  induction before with
  | nil => rw [List.nil_append, List.nil_append, Variables.value?, Variables.value?,
      if_neg (Ne.symm h), if_neg (Ne.symm h)]
  | cons entry before ih =>
    obtain ⟨key, text⟩ := entry
    rw [List.cons_append, List.cons_append, Variables.value?, Variables.value?, ih]

/-- A template with the places for one variable still open. -/
abbrev Outline := List (Option Text)

/-- The outline of a template for the variable `hole`, with the values of all others. -/
def outline (fixed : Variables) (hole s : Text) : Outline :=
  match _h : placeholder? s with
  | some m => (if m.name = hole then none else some (m.value fixed)) :: outline fixed hole m.rest
  | none =>
    match s with
    | [] => []
    | c :: s => some [c] :: outline fixed hole s
  termination_by s.length
  decreasing_by
  · exact length_placeholder? _h
  · simp

/-- An outline with a value in its open places. -/
def Outline.fill (o : Outline) (value : Text) : Text := o.flatMap (·.getD value)

theorem render_of_placeholder {s : Text} {m : Match} (h : placeholder? s = some m)
    (values : Variables) : render values s = m.value values ++ render values m.rest := by
  rw [render]
  split
  next m' h' => rw [Option.some.inj (h'.symm.trans h)]
  next h' => rw [h] at h'; cases h'

theorem render_cons {c : Char} {s : Text} (h : placeholder? (c :: s) = none) (values : Variables) :
    render values (c :: s) = c :: render values s := by
  rw [render]
  split
  next m h' => rw [h] at h'; cases h'
  next => rfl

theorem render_nil (values : Variables) : render values [] = [] := by
  rw [render]
  rfl

/-- Rendering fills the outline: a value is copied to the places for it and not looked into. -/
theorem render_eq_fill {values fixed : Variables} {hole value : Text}
    (hhole : values.value? hole = some value)
    (hfixed : ∀ name, name ≠ hole → values.value? name = fixed.value? name) (s : Text) :
    render values s = (outline fixed hole s).fill value := by
  fun_induction outline fixed hole s with
  | case1 s m h ih =>
    rw [render_of_placeholder h, ih, Outline.fill, Outline.fill, List.flatMap_cons]
    congr 1
    by_cases hname : m.name = hole
    · rw [if_pos hname, Match.value, hname, hhole]
      rfl
    · rw [if_neg hname, Match.value, hfixed m.name hname]
      rfl
  | case2 => exact render_nil values
  | case3 c s h ih => rw [render_cons h, ih, Outline.fill, Outline.fill, List.flatMap_cons]; rfl

/-- A template that does not mention the variable has no open places. -/
theorem outline_of_not_mentions {hole s : Text} (h : ¬ Mentions hole s) (fixed : Variables) :
    none ∉ outline fixed hole s := by
  fun_induction outline fixed hole s with
  | case1 s m hm ih =>
    have hname : m.name ≠ hole := fun hname => h (hname ▸ mentions_of_placeholder? hm)
    have hrest : ¬ Mentions hole m.rest := fun hrest =>
      h (hrest.mono ⟨m.written, [], by rw [List.append_nil, ← (placeholder?_eq_some hm).2]⟩)
    rw [if_neg hname]
    simpa using ih hrest
  | case2 => exact List.not_mem_nil
  | case3 c s hc ih =>
    have hrest : ¬ Mentions hole s := fun hrest => h (hrest.mono (List.infix_cons List.infix_rfl))
    simpa using ih hrest

/-- The open places of a template are its placeholders of the variable's name. -/
theorem mentions_iff (fixed : Variables) (hole s : Text) :
    mentions hole s = true ↔ none ∈ outline fixed hole s := by
  fun_induction outline fixed hole s with
  | case1 s m hm ih =>
    rw [mentions]
    split
    next m' hm' =>
      obtain rfl := Option.some.inj (hm.symm.trans hm')
      by_cases hname : m.name = hole
      · simp [hname]
      · simp [hname, ih]
    next hnone => rw [hm] at hnone; cases hnone
  | case2 => simp [show mentions hole [] = false by rw [mentions]; rfl]
  | case3 c s hc ih =>
    rw [mentions]
    split
    next m hm => rw [hc] at hm; cases hm
    next => simp [ih]

/-- An outline without open places reads the same with any value. -/
theorem Outline.fill_of_closed {o : Outline} (h : none ∉ o) (value other : Text) :
    o.fill value = o.fill other := by
  refine List.flatMap_congr fun piece hpiece => ?_
  cases piece with
  | none => exact absurd hpiece h
  | some text => rfl

end Template

end DocAnnotator
