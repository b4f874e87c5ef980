import DocAnnotator.Proofs.Template

/-! ## Rendering in a single pass

    Placeholders stand apart from each other and from the text around them, whatever that text
    holds: no placeholder reaches into another, and none comes about where a text meets one. So a
    template is cut into text and placeholders once, and the values go in without being read.

    - `Placeholder`: a placeholder as it is written.
    - `placeholder?_text`, `exists_placeholder`: what is found is a placeholder, and each is found.
    - `placeholder?_append_of_none`: none reaches from one text into a placeholder behind it.
    - `render_append_placeholder`: a placeholder is rendered apart from what stands around it.
    - `exists_pieces`: the cut of a template, which does not depend on the values.
    - `render_single_pass`: the whole statement.
-/

namespace DocAnnotator

/-! ### Blanks and words -/

/-- The code points of the blanks. -/
def Text.blankCodes : List Nat :=
  List.range' 0x09 5 ++ List.range' 0x1C 5 ++ [0x85, 0xA0, 0x1680] ++ List.range' 0x2000 11 ++
    [0x2028, 0x2029, 0x202F, 0x205F, 0x3000]

theorem Text.mem_blankCodes {c : Char} (h : isBlank c = true) : c.toNat ∈ blankCodes := by
  simp only [isBlank, Bool.or_eq_true, Bool.and_eq_true, decide_eq_true_eq, beq_iff_eq] at h
  simp only [blankCodes, List.mem_append, List.mem_range'_1, List.mem_cons, List.not_mem_nil,
    or_false]
  rcases h with ((((((((((h | h) | h) | h) | h) | h) | h) | h) | h) | h) | h) <;> omega

/-- No blank is a word character. -/
theorem Text.not_word_of_blank {c : Char} (h : isBlank c = true) : isWord c = false := by
  have hall : ∀ n ∈ blankCodes, isWord (Char.ofNat n) = false := by decide +kernel
  have hword := hall c.toNat (mem_blankCodes h)
  rwa [Char.ofNat_toNat] at hword

theorem Text.after?_append (lead s : Text) : after? lead (lead ++ s) = some s := by
  induction lead with
  | nil => rfl
  | cons c lead ih => simpa [after?] using ih

namespace Template

/-! ### Placeholders -/

/-- The two spellings of a placeholder. -/
inductive Spelling where
  | braces
  | dollar

/-- What opens a placeholder. -/
def Spelling.opened : Spelling → Text
  | .braces => ['\x7b', '\x7b']
  | .dollar => ['$', '\x7b']

/-- What closes a placeholder. -/
def Spelling.close : Spelling → Text
  | .braces => ['\x7d', '\x7d']
  | .dollar => ['\x7d']

/-- A placeholder as it is written: a word with blanks around it, in one of the two spellings. -/
structure Placeholder where
  spelling : Spelling
  front : Text
  name : Text
  back : Text
  front_blank : ∀ c ∈ front, Text.isBlank c = true
  name_word : ∀ c ∈ name, Text.isWord c = true
  name_ne_nil : name ≠ []
  back_blank : ∀ c ∈ back, Text.isBlank c = true

namespace Placeholder

/-- The text of a placeholder. -/
def text (p : Placeholder) : Text :=
  p.spelling.opened ++ p.front ++ p.name ++ p.back ++ p.spelling.close

/-- What becomes of a placeholder: its value where it is bound, itself where it is not. -/
def value (values : Variables) (p : Placeholder) : Text := (values.value? p.name).getD p.text

/-- Behind its two opening characters a placeholder holds no other opening character. -/
theorem exists_text (p : Placeholder) :
    ∃ first rest, p.text = first :: '\x7b' :: rest ∧ (first = '\x7b' ∨ first = '$') ∧
      rest ≠ [] ∧ ∀ c ∈ rest, c ≠ '\x7b' ∧ c ≠ '$' := by
  have hclose : ∀ c ∈ p.spelling.close, c = '\x7d' := by
    cases p.spelling <;> simp [Spelling.close]
  have hrest : ∀ c ∈ p.front ++ p.name ++ p.back ++ p.spelling.close, c ≠ '\x7b' ∧ c ≠ '$' := by
    have hclass : ∀ (q : Char → Bool) (c : Char), q '\x7b' = false → q '$' = false → q c = true →
        c ≠ '\x7b' ∧ c ≠ '$' := by
      intro q c hbrace hdollar hc
      constructor
      · rintro rfl
        exact absurd hc (by simp [hbrace])
      · rintro rfl
        exact absurd hc (by simp [hdollar])
    intro c hc
    simp only [List.mem_append] at hc
    rcases hc with ((hc | hc) | hc) | hc
    · exact hclass Text.isBlank c (by decide) (by decide) (p.front_blank c hc)
    · exact hclass Text.isWord c (by decide) (by decide) (p.name_word c hc)
    · exact hclass Text.isBlank c (by decide) (by decide) (p.back_blank c hc)
    · rw [hclose c hc]
      decide
  have hne : p.front ++ p.name ++ p.back ++ p.spelling.close ≠ [] := by
    simp [p.name_ne_nil]
  unfold text
  cases hspelling : p.spelling with
  | braces =>
    rw [hspelling] at hrest hne
    exact ⟨'\x7b', _, by simp [Spelling.opened], .inl rfl, hne, hrest⟩
  | dollar =>
    rw [hspelling] at hrest hne
    exact ⟨'$', _, by simp [Spelling.opened], .inr rfl, hne, hrest⟩

end Placeholder

/-! ### What is found -/

/-- A class of characters takes what is in it, up to the first character that is not. -/
theorem takeWhile_exact {q : Char → Bool} {taken rest : Text} (htaken : ∀ c ∈ taken, q c = true)
    (hrest : ∀ c ∈ rest.head?, q c = false) : (taken ++ rest).takeWhile q = taken := by
  rw [List.takeWhile_append_of_pos htaken]
  cases rest with
  | nil => simp
  | cons c rest => simp [hrest c rfl]

theorem placeholderBody?_text (p : Placeholder) (opened : Text) {close : Text}
    (hclose : ∃ more, close = '\x7d' :: more) (b : Text) :
    placeholderBody? opened close (p.front ++ (p.name ++ (p.back ++ (close ++ b)))) =
      some ⟨p.name, opened ++ p.front ++ p.name ++ p.back ++ close, b⟩ := by
  obtain ⟨more, rfl⟩ := hclose
  -- each stretch is followed by a character of another class
  have hfront : (p.front ++ (p.name ++ (p.back ++ ('\x7d' :: more ++ b)))).takeWhile Text.isBlank =
      p.front := by
    refine takeWhile_exact p.front_blank ?_
    obtain ⟨c, name, hname⟩ := List.exists_cons_of_ne_nil p.name_ne_nil
    have hword := p.name_word c (by rw [hname]; exact List.mem_cons_self)
    intro d hd
    rw [hname] at hd
    obtain rfl : c = d := by simpa using hd
    by_contra hblank
    rw [Text.not_word_of_blank (by simpa using hblank)] at hword
    cases hword
  have hname : (p.name ++ (p.back ++ ('\x7d' :: more ++ b))).takeWhile Text.isWord = p.name := by
    refine takeWhile_exact p.name_word ?_
    intro d hd
    cases hback : p.back with
    | nil =>
      rw [hback] at hd
      obtain rfl : '\x7d' = d := by simpa using hd
      decide
    | cons c back =>
      rw [hback] at hd
      obtain rfl : c = d := by simpa using hd
      exact Text.not_word_of_blank (p.back_blank c (by rw [hback]; exact List.mem_cons_self))
  have hback : (p.back ++ ('\x7d' :: more ++ b)).takeWhile Text.isBlank = p.back := by
    refine takeWhile_exact p.back_blank ?_
    intro d hd
    obtain rfl : '\x7d' = d := by simpa using hd
    decide
  have hempty : p.name.isEmpty = false := by simpa using p.name_ne_nil
  simp only [placeholderBody?, hfront, List.drop_left, hname, hback, hempty,
    Text.after?_append, Option.map_some]
  rfl

/-- A placeholder is found where it stands, whatever comes behind it. -/
theorem placeholder?_text (p : Placeholder) (b : Text) :
    placeholder? (p.text ++ b) = some ⟨p.name, p.text, b⟩ := by
  unfold Placeholder.text
  cases p.spelling with
  | braces =>
    have hbody := placeholderBody?_text p ['\x7b', '\x7b'] ⟨['\x7d'], rfl⟩ b
    simpa [placeholder?, Spelling.opened, Spelling.close] using hbody
  | dollar =>
    have hbody := placeholderBody?_text p ['$', '\x7b'] ⟨[], rfl⟩ b
    simpa [placeholder?, Spelling.opened, Spelling.close] using hbody

/-- What is found is a placeholder, and the text goes on behind it. -/
theorem exists_placeholder {s : Text} {m : Match} (h : placeholder? s = some m) :
    ∃ p : Placeholder, m = ⟨p.name, p.text, m.rest⟩ ∧ s = p.text ++ m.rest := by
  have hbody : ∀ spelling : Spelling, ∀ t, s = spelling.opened ++ t →
      placeholderBody? spelling.opened spelling.close t = some m →
      ∃ p : Placeholder, m = ⟨p.name, p.text, m.rest⟩ ∧ s = p.text ++ m.rest := by
    intro spelling t hs hm
    obtain ⟨front, back, hfront, hback, ⟨hne, hword⟩, hwritten, ht⟩ := placeholderBody?_eq_some hm
    refine ⟨⟨spelling, front, m.name, back, hfront, hword, hne, hback⟩, ?_, ?_⟩
    · show m = ⟨m.name, _, m.rest⟩
      unfold Placeholder.text
      rw [← hwritten]
    · unfold Placeholder.text
      rw [hs, ht, hwritten]
  unfold placeholder? at h
  split at h
  next t => exact hbody .braces t rfl h
  next t => exact hbody .dollar t rfl h
  next => cases h

/-- A placeholder that is found is found as well with more text behind. -/
theorem placeholder?_append_of_some {s : Text} {m : Match} (h : placeholder? s = some m)
    (t : Text) : placeholder? (s ++ t) = some { m with rest := m.rest ++ t } := by
  obtain ⟨p, hm, hs⟩ := exists_placeholder h
  rw [hs, List.append_assoc, placeholder?_text, hm]

/-- Of two cuts of a text, the longer front holds the character behind the shorter one. -/
theorem mem_of_append_eq {s t rest more : Text} {c : Char} (h : s ++ c :: t = rest ++ more)
    (hshort : s.length < rest.length) : c ∈ rest := by
  have hget := congrArg (fun l => l[s.length]?) h
  rw [List.getElem?_append_right (Nat.le_refl _), List.getElem?_append_left hshort,
    Nat.sub_self] at hget
  exact List.mem_of_getElem? hget.symm

/-- No placeholder reaches from a text into a placeholder behind it. -/
theorem placeholder?_append_of_none {s : Text} (hne : s ≠ []) (h : placeholder? s = none)
    (p : Placeholder) (b : Text) : placeholder? (s ++ (p.text ++ b)) = none := by
  by_contra hsome
  obtain ⟨m, hm⟩ := Option.ne_none_iff_exists'.1 hsome
  obtain ⟨q, -, hq⟩ := exists_placeholder hm
  obtain ⟨first, rest, hrest, -, hrestNe, hclean⟩ := q.exists_text
  obtain ⟨opener, tail, htail, hopener, -, -⟩ := p.exists_text
  rw [hrest, htail] at hq
  by_cases hlength : q.text.length ≤ s.length
  · -- then it ends before the other starts
    have hbefore : q.text <+: s := by
      refine List.prefix_of_prefix_length_le ?_ (List.prefix_append s (p.text ++ b)) hlength
      rw [htail, hq, hrest]
      exact List.prefix_append _ _
    obtain ⟨more, rfl⟩ := hbefore
    rw [placeholder?_text] at h
    cases h
  · -- else the opening character of the other would stand inside it
    rw [hrest, List.length_cons, List.length_cons] at hlength
    obtain ⟨c, s, rfl⟩ := List.exists_cons_of_ne_nil hne
    have hbehind := (List.cons.inj hq).2
    rw [List.length_cons] at hlength
    cases s with
    | nil =>
      obtain ⟨d, rest, rfl⟩ := List.exists_cons_of_ne_nil hrestNe
      have hsecond : '\x7b' = d := by
        have := (List.cons.inj hbehind).2
        simpa using (List.cons.inj this).1
      exact (hclean d List.mem_cons_self).1 hsecond.symm
    | cons d s =>
      have hinside : s ++ (opener :: '\x7b' :: tail ++ b) = rest ++ m.rest :=
        (List.cons.inj hbehind).2
      rw [List.length_cons] at hlength
      have hmem : opener ∈ rest := mem_of_append_eq hinside (by omega)
      rcases hopener with rfl | rfl
      · exact (hclean _ hmem).1 rfl
      · exact (hclean _ hmem).2 rfl

/-! ### Rendering -/

/-- A placeholder is rendered apart from the text before it and the text behind it. -/
theorem render_append_placeholder (values : Variables) (a : Text) (p : Placeholder) (b : Text) :
    render values (a ++ (p.text ++ b)) = render values a ++ (p.value values ++ render values b) := by
  fun_induction render values a with
  | case1 a m h ih =>
    rw [render_of_placeholder (placeholder?_append_of_some h (p.text ++ b)), ih, List.append_assoc]
    rfl
  | case2 h =>
    rw [List.nil_append, render_of_placeholder (placeholder?_text p b)]
    rfl
  | case3 c a h ih =>
    have hnone := placeholder?_append_of_none (List.cons_ne_nil c a) h p b
    rw [List.cons_append] at hnone ⊢
    rw [render_cons hnone, ih]
    rfl

/-- No placeholder occurs in the text. -/
def IsPlain (s : Text) : Prop := ∀ p : Placeholder, ¬ p.text <:+: s

/-- Text without a placeholder is copied. -/
theorem render_of_isPlain {s : Text} (h : IsPlain s) (values : Variables) :
    render values s = s := by
  fun_induction render values s with
  | case1 s m hm ih =>
    obtain ⟨p, -, hs⟩ := exists_placeholder hm
    exact absurd ⟨[], m.rest, by rw [List.nil_append, ← hs]⟩ (h p)
  | case2 => rfl
  | case3 c s hc ih => rw [ih fun p hp => h p (List.infix_cons hp)]

/-! ### The cut of a template -/

/-- A template in pieces: text, and then placeholders, each with the text up to the next. -/
structure Pieces where
  first : Text
  rest : List (Placeholder × Text)

namespace Pieces

/-- The template that the pieces make up. -/
def text (t : Pieces) : Text := t.first ++ t.rest.flatMap fun piece => piece.1.text ++ piece.2

/-- The template with values in the place of its placeholders. -/
def filled (values : Variables) (t : Pieces) : Text :=
  t.first ++ t.rest.flatMap fun piece => piece.1.value values ++ piece.2

/-- No placeholder occurs in the text between the placeholders. -/
structure Separated (t : Pieces) : Prop where
  first : IsPlain t.first
  rest : ∀ piece ∈ t.rest, IsPlain piece.2

/-- Whatever pieces a template is put together from, they are found again: it is rendered by
    filling them. -/
theorem render_text {t : Pieces} (h : t.Separated) (values : Variables) :
    render values t.text = t.filled values := by
  obtain ⟨first, rest⟩ := t
  induction rest generalizing first with
  | nil => simpa [text, filled] using render_of_isPlain h.first values
  | cons piece rest ih =>
    obtain ⟨p, gap⟩ := piece
    have hrest : (⟨gap, rest⟩ : Pieces).Separated :=
      ⟨h.rest (p, gap) List.mem_cons_self, fun q hq => h.rest q (List.mem_cons_of_mem _ hq)⟩
    have hbehind := ih gap hrest
    unfold text filled at hbehind ⊢
    simp only [List.flatMap_cons, List.append_assoc] at hbehind ⊢
    rw [render_append_placeholder, render_of_isPlain h.first, hbehind]

end Pieces

/-- A character in front of plain text leaves it plain, if no placeholder starts there. -/
theorem IsPlain.cons {c : Char} {s t : Text} (h : IsPlain s)
    (hnone : placeholder? (c :: (s ++ t)) = none) : IsPlain (c :: s) := by
  intro p hp
  rcases List.infix_cons_iff.1 hp with hstart | hlater
  · obtain ⟨more, hmore⟩ := hstart
    rw [← List.cons_append, ← hmore, List.append_assoc, placeholder?_text] at hnone
    cases hnone
  · exact h p hlater

/-- Every template can be cut into plain text and placeholders. -/
theorem exists_pieces (s : Text) : ∃ t : Pieces, t.text = s ∧ t.Separated := by
  have hnil : IsPlain [] := by
    intro p hp
    obtain ⟨first, rest, hp', -⟩ := p.exists_text
    rw [hp'] at hp
    simp at hp
  -- the cut follows the recursion of rendering; the values play no part in it
  fun_induction render [] s with
  | case1 s m h ih =>
    obtain ⟨p, -, hs⟩ := exists_placeholder h
    obtain ⟨t, ht, hfirst, hrest⟩ := ih
    refine ⟨⟨[], (p, t.first) :: t.rest⟩, ?_, hnil, ?_⟩
    · rw [hs, ← ht]
      simp [Pieces.text]
    · rw [List.forall_mem_cons]
      exact ⟨hfirst, hrest⟩
  | case2 => exact ⟨⟨[], []⟩, rfl, hnil, fun piece hpiece => absurd hpiece List.not_mem_nil⟩
  | case3 c s h ih =>
    obtain ⟨t, rfl, hfirst, hrest⟩ := ih
    exact ⟨⟨c :: t.first, t.rest⟩, rfl, hfirst.cons h, hrest⟩

/-! ### The whole statement -/

/-- Between any two texts, a placeholder becomes its value, or stays where it has none, and both
    texts are rendered as they are on their own; text without placeholders is copied. So every
    template can be cut into plain text and placeholders once and for all: whatever the values, it
    is rendered by filling that cut, and nothing that a value holds is scanned. -/
theorem render_single_pass :
    (∀ (values : Variables) (a : Text) (p : Placeholder) (b : Text),
      render values (a ++ p.text ++ b) =
        render values a ++ (values.value? p.name).getD p.text ++ render values b) ∧
    (∀ (values : Variables) (s : Text), (∀ p : Placeholder, ¬ p.text <:+: s) →
      render values s = s) ∧
    ∀ s : Text, ∃ t : Pieces, t.text = s ∧ t.Separated ∧
      ∀ values, render values s = t.filled values := by
  refine ⟨?_, ?_, ?_⟩
  · intro values a p b
    rw [List.append_assoc, render_append_placeholder, ← List.append_assoc]
    rfl
  · intro values s h
    exact render_of_isPlain h values
  · intro s
    obtain ⟨t, rfl, h⟩ := exists_pieces s
    exact ⟨t, rfl, h, t.render_text h⟩

/-- A placeholder without blanks. -/
def typePlaceholder : Placeholder :=
  ⟨.braces, [], "type".toList, [], List.forall_mem_nil _, List.all_eq_true.1 (by decide),
    by decide, List.forall_mem_nil _⟩

/-- Text that lacks one of the two braces is plain. -/
theorem isPlain_of_no_brace {s : Text} (h : '\x7b' ∉ s ∨ '\x7d' ∉ s) : IsPlain s := by
  intro p hp
  have hopen : '\x7b' ∈ p.text := by
    unfold Placeholder.text
    cases p.spelling <;> simp [Spelling.opened]
  have hclose : '\x7d' ∈ p.text := by
    unfold Placeholder.text
    cases p.spelling <;> simp [Spelling.close]
  rcases h with h | h
  · exact h (hp.subset hopen)
  · exact h (hp.subset hclose)

/-- Half a placeholder in front, a brace behind, and a value that is a placeholder itself: just the
    one placeholder is replaced. -/
theorem render_single_pass_abutting :
    (∀ p : Placeholder, ¬ p.text <:+: "$\x7b\x7b type".toList) ∧
    (∀ p : Placeholder, ¬ p.text <:+: "\x7d".toList) ∧
    "$\x7b\x7b type".toList ++ typePlaceholder.text ++ "\x7d".toList =
      "$\x7b\x7b type\x7b\x7btype\x7d\x7d\x7d".toList ∧
    render [("type".toList, "$\x7btype\x7d".toList)]
        ("$\x7b\x7b type".toList ++ typePlaceholder.text ++ "\x7d".toList) =
      "$\x7b\x7b type$\x7btype\x7d\x7d".toList := by
  have hfront : IsPlain "$\x7b\x7b type".toList := isPlain_of_no_brace (.inr (by decide))
  have hback : IsPlain "\x7d".toList := isPlain_of_no_brace (.inl (by decide))
  obtain ⟨hcompose, hplain, -⟩ := render_single_pass
  refine ⟨hfront, hback, by decide, ?_⟩
  rw [hcompose, hplain _ _ hfront, hplain _ _ hback]
  decide

end Template

end DocAnnotator
