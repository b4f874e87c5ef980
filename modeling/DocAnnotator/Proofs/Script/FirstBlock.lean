import DocAnnotator.Proofs.Script.Block

/-! ## The first block of a container

    The search for a block goes to the first opening tag, from there to the first bracket, and from
    there to the first closing tag. It never comes back to try another opening tag: what stands
    behind a later tag stands behind the first one too.

    - `OpensAt`, `ClosesAt`: a tag stands at a position.
    - `Completes`: an opening tag has a bracket and a closing tag behind it.
    - `findOpen?_first`: the first opening tag, by positions.
    - `exists_block`: one opening tag that can be completed is enough for a block.
    - `FirstBlock`: where the first block of a text lies.
    - `extract?_first_block`: the whole statement.
-/

namespace DocAnnotator.ScriptRange

/-- The name of an opening tag stands at the position, in small or capital letters, and a word ends
    there. -/
def OpensAt (text : Text) (p : Nat) : Prop :=
  ∃ name rest, text.drop p = name ++ rest ∧
    List.Forall₂ (fun l c => Text.sameLetter l c = true) "<script".toList name ∧
    ∀ c ∈ rest.head?, Text.isWord c = false

/-- A closing tag stands at the position. -/
def ClosesAt (text : Text) (p : Nat) : Prop := ∃ t rest, text.drop p = t ++ rest ∧ CloseTag t

/-- The opening tag at the position has a bracket behind its name, and a closing tag behind that. -/
def Completes (text : Text) (p : Nat) : Prop :=
  OpensAt text p ∧ ∃ b, p + 7 ≤ b ∧ text[b]? = some '>' ∧ ∃ q, b < q ∧ ClosesAt text q

/-- The first position from `start` on at which something holds. -/
structure FirstFrom (holds : Nat → Prop) (start position : Nat) : Prop where
  le : start ≤ position
  here : holds position
  first : ∀ p, start ≤ p → p < position → ¬ holds p

/-! ### Opening tags -/

theorem opensAt_of_openTag? {text rest : Text} {p : Nat} (h : openTag? (text.drop p) = some rest) :
    OpensAt text p := by
  unfold openTag? at h
  split at h
  next c tail hafter =>
    obtain ⟨name, hname, hfold⟩ := Text.afterFolded?_eq_some hafter
    refine ⟨name, c :: tail, hname, hfold, ?_⟩
    intro d hd
    obtain rfl : c = d := Option.some.inj hd
    split at h
    · cases h
    next hword => simpa using hword
  next => cases h

/-- An opening tag that does not end the text is read as one. -/
theorem openTag?_of_opensAt {text : Text} {p : Nat} (h : OpensAt text p)
    (hlength : p + 7 < text.length) : ∃ rest, openTag? (text.drop p) = some rest := by
  obtain ⟨name, rest, hdrop, hname, hword⟩ := h
  have hseven : name.length = 7 := hname.length_eq.symm
  cases rest with
  | nil =>
    have := congrArg List.length hdrop
    rw [List.length_drop, List.append_nil] at this
    omega
  | cons c tail =>
    refine ⟨c :: tail, ?_⟩
    rw [hdrop, openTag?, Text.afterFolded?_of_forall₂ hname]
    simp only [hword c rfl, Bool.false_eq_true, if_false]

/-- No tag is read before the one that is found. -/
theorem findOpen?_first {text front rest : Text} (h : findOpen? text = some (front, rest)) :
    openTag? (text.drop front.length) = some rest ∧
      ∀ p, p < front.length → openTag? (text.drop p) = none := by
  induction text generalizing front with
  | nil => cases h
  | cons c s ih =>
    rw [findOpen?_cons] at h
    cases hopen : openTag? (c :: s) with
    | some found =>
      rw [hopen] at h
      obtain ⟨rfl, rfl⟩ := Prod.mk.inj (Option.some.inj h)
      exact ⟨hopen, fun p hp => absurd hp (Nat.not_lt_zero p)⟩
    | none =>
      rw [hopen] at h
      obtain ⟨⟨inner, found⟩, hfound, hpair⟩ := Option.map_eq_some_iff.1 h
      obtain ⟨rfl, rfl⟩ := Prod.mk.inj hpair
      obtain ⟨hhere, hbefore⟩ := ih hfound
      refine ⟨hhere, fun p hp => ?_⟩
      cases p with
      | zero => exact hopen
      | succ p => exact hbefore p (Nat.lt_of_succ_lt_succ hp)

theorem findOpen?_isSome {text rest : Text} {p : Nat} (h : openTag? (text.drop p) = some rest) :
    ∃ front found, findOpen? text = some (front, found) := by
  induction text generalizing p with
  | nil => rw [List.drop_nil] at h; cases h
  | cons c s ih =>
    rw [findOpen?_cons]
    cases hopen : openTag? (c :: s) with
    | some found => exact ⟨[], found, rfl⟩
    | none =>
      cases p with
      | zero =>
        rw [List.drop_zero, hopen] at h
        cases h
      | succ p =>
        obtain ⟨front, found, hfound⟩ := ih h
        exact ⟨c :: front, found, by rw [hfound]; rfl⟩

/-- The tag that is found is the first one that stands in the text. -/
theorem firstFrom_opensAt {text front rest : Text} (h : findOpen? text = some (front, rest)) :
    FirstFrom (OpensAt text) 0 front.length := by
  obtain ⟨hhere, hearlier⟩ := findOpen?_first h
  obtain ⟨name, c, tail, hname, -, htext, -⟩ := findOpen?_some h
  refine ⟨Nat.zero_le _, opensAt_of_openTag? hhere, ?_⟩
  intro p _ hp hopens
  have hlength : p + 7 < text.length := by
    rw [htext, List.length_append, List.length_append, hname, List.length_cons]
    omega
  obtain ⟨found, hfound⟩ := openTag?_of_opensAt hopens hlength
  rw [hearlier p hp] at hfound
  cases hfound

/-! ### Brackets -/

/-- Behind a first part, attributes without a bracket and a bracket. -/
theorem firstFrom_bracket (front content : Text) {attributes : Text} (hnot : '>' ∉ attributes) :
    FirstFrom (fun p => (front ++ (attributes ++ '>' :: content))[p]? = some '>') front.length
      (front.length + attributes.length) := by
  have hchar : ∀ p, (front ++ (attributes ++ '>' :: content))[front.length + p]? =
      (attributes ++ '>' :: content)[p]? := by
    intro p
    rw [List.getElem?_append_right (Nat.le_add_right _ _), Nat.add_sub_cancel_left]
  refine ⟨Nat.le_add_right _ _, ?_, ?_⟩
  · rw [hchar]
    simp
  · intro p hlow hhigh hp
    rw [← Nat.add_sub_cancel' hlow, hchar, List.getElem?_append_left (by omega)] at hp
    exact hnot (List.mem_of_getElem? hp)

/-! ### Closing tags -/

theorem closesAt_iff {text : Text} {p : Nat} :
    ClosesAt text p ↔ startsCloseTag (text.drop p) = true := by
  rw [startsCloseTag_iff]
  constructor
  · rintro ⟨t, rest, hdrop, ht⟩
    exact ⟨t, rest, ht, hdrop⟩
  · rintro ⟨t, rest, ht, hdrop⟩
    exact ⟨t, rest, hdrop, ht⟩

theorem closesAt_append (front s : Text) (p : Nat) :
    ClosesAt (front ++ s) (front.length + p) ↔ ClosesAt s p := by
  rw [closesAt_iff, closesAt_iff, List.drop_length_add_append]

theorem ClosesAt.lt_length {text : Text} {p : Nat} (h : ClosesAt text p) : p < text.length := by
  obtain ⟨t, rest, hdrop, ht⟩ := h
  by_contra hge
  rw [List.drop_eq_nil_of_le (Nat.le_of_not_lt hge)] at hdrop
  exact ht.ne_nil (List.append_eq_nil_iff.1 hdrop.symm).1

/-- A closing tag starts in a text exactly if it stands at one of its positions. -/
theorem closesIn_iff {s rest : Text} :
    ClosesIn s rest ↔ ∃ p, p < s.length ∧ ClosesAt (s ++ rest) p := by
  constructor
  · rintro ⟨before, after, rfl, hne, hstarts⟩
    refine ⟨before.length, ?_, ?_⟩
    · rw [List.length_append]
      have := List.length_pos_of_ne_nil hne
      omega
    · rw [closesAt_iff, List.append_assoc, List.drop_left]
      exact hstarts
  · rintro ⟨p, hp, hcloses⟩
    refine ⟨s.take p, s.drop p, (List.take_append_drop p s).symm, ?_, ?_⟩
    · intro hnil
      have := List.drop_eq_nil_iff.1 hnil
      omega
    · rw [closesAt_iff, List.drop_append_of_le_length (Nat.le_of_lt hp)] at hcloses
      exact hcloses

theorem not_closesIn_nil_iff {s : Text} : ¬ ClosesIn s [] ↔ ∀ p, ¬ ClosesAt s p := by
  rw [closesIn_iff, List.append_nil]
  constructor
  · intro h p hcloses
    exact h ⟨p, hcloses.lt_length, hcloses⟩
  · rintro h ⟨p, -, hcloses⟩
    exact h p hcloses

/-! ### The block -/

/-- An opening tag that can be completed is enough for a block, even if it is not the first one. -/
theorem exists_block {text : Text} {p : Nat} (h : Completes text p) :
    ∃ range, block? text = some range := by
  obtain ⟨hopens, b, hb, hbracket, q, hq, hcloses⟩ := h
  have hlength : b < text.length := (List.getElem?_eq_some_iff.1 hbracket).1
  -- the first opening tag is no later than this one
  obtain ⟨found, hfound⟩ := openTag?_of_opensAt hopens (by omega)
  obtain ⟨front, rest, hopen⟩ := findOpen?_isSome hfound
  have hfront : front.length ≤ p := by
    by_contra hlater
    exact (firstFrom_opensAt hopen).first p (Nat.zero_le p) (Nat.lt_of_not_le hlater) hopens
  obtain ⟨name, c, tail, hname, hrest, htext, -⟩ := findOpen?_some hopen
  rw [← hrest] at htext
  -- so the bracket is behind its name too, and its own first bracket no later
  have hbehind : (front ++ name).length ≤ b := by
    rw [List.length_append, hname]
    omega
  have hmem : '>' ∈ rest := by
    rw [htext, List.getElem?_append_right hbehind] at hbracket
    exact List.mem_of_getElem? hbracket
  obtain ⟨attributes, content, rfl, hnot⟩ := List.eq_append_cons_of_mem hmem
  have hfirst : (front ++ name).length + attributes.length ≤ b := by
    by_contra hlater
    rw [htext] at hbracket
    exact (firstFrom_bracket (front ++ name) content hnot).first b hbehind
      (Nat.lt_of_not_le hlater) hbracket
  -- and the closing tag lies in its content
  have hbefore : text = front ++ name ++ attributes ++ ['>'] ++ content := by
    rw [htext]
    simp
  rw [block?_eq _ hopen hnot hbefore, ofContent]
  cases hclose : findClose? content with
  | some found => exact ⟨_, rfl⟩
  | none =>
    have hnone := not_closesIn_nil_iff.1 (findClose?_eq_none_iff.1 hclose)
    have hle : (front ++ name ++ attributes ++ ['>']).length ≤ q := by
      rw [List.length_append, List.length_append, List.length_singleton]
      omega
    rw [hbefore, ← Nat.add_sub_cancel' hle, closesAt_append] at hcloses
    exact absurd hcloses (hnone _)

/-- The block of a text lies behind the first opening tag, from its first bracket to the first
    closing tag behind that. The parts make the text, and the offsets say where they meet. -/
structure FirstBlock (text : Text) (range : ScriptRange) (tag bracket : Nat) : Prop where
  opening : FirstFrom (OpensAt text) 0 tag
  completing : FirstFrom (Completes text) 0 tag
  bracketing : FirstFrom (fun p => text[p]? = some '>') (tag + 7) bracket
  start : range.start = bracket + 1
  closing : FirstFrom (ClosesAt text) range.start range.stop
  parts : range.before ++ range.script ++ range.after = text
  startOffset : range.start = range.before.length
  stopOffset : range.stop = (range.before ++ range.script).length
  inside : ∀ p, ¬ ClosesAt range.script p
  after : ClosesAt range.after 0
  container : range.isContainer = true
  dialect : range.dialect = blockDialect ((text.take bracket).drop (tag + 7))

/-- A block ends where the first closing tag of its content stands. -/
theorem closing_of_block? {text : Text} {range : ScriptRange} (h : block? text = some range) :
    FirstFrom (ClosesAt text) range.start range.stop := by
  obtain ⟨hnone, hstarts⟩ := not_closesIn_of_block? h
  have hsplits := block?_splits h
  refine ⟨?_, ?_, ?_⟩
  · rw [hsplits.start, hsplits.stop]
    omega
  · rw [closesAt_iff, hsplits.stop, ← List.length_append, hsplits.parts, List.drop_left]
    exact hstarts
  · intro p hstart hstop hcloses
    rw [hsplits.start] at hstart
    rw [hsplits.stop] at hstop
    rw [hsplits.parts, List.append_assoc, ← Nat.add_sub_cancel' hstart, closesAt_append] at hcloses
    exact hnone (closesIn_iff.2 ⟨_, by omega, hcloses⟩)

/-- The block that is found is the first one. -/
theorem firstBlock_of_block? {text : Text} {range : ScriptRange} (h : block? text = some range) :
    ∃ tag bracket, FirstBlock text range tag bracket := by
  obtain ⟨front, name, attributes, content, hname, hnot, hbefore, htext, hdialect, -, hfind⟩ :=
    block?_tag h
  have hsplits := block?_splits h
  obtain ⟨hnone, hstarts⟩ := not_closesIn_of_block? h
  have hparts : text = front ++ name ++ (attributes ++ '>' :: content) := by
    rw [htext, hbefore]
    simp
  have hseven : (front ++ name).length = front.length + 7 := by rw [List.length_append, hname]
  have hstart : range.start = front.length + 7 + attributes.length + 1 := by
    rw [hsplits.start, hbefore, List.length_append, List.length_append, hseven]
    rfl
  have hopening : FirstFrom (OpensAt text) 0 front.length := by
    rw [htext]
    exact firstFrom_opensAt (hfind content)
  have hbracketing : FirstFrom (fun p => text[p]? = some '>') (front.length + 7)
      (front.length + 7 + attributes.length) := by
    rw [hparts, ← hseven]
    exact firstFrom_bracket (front ++ name) content hnot
  have hclosing := closing_of_block? h
  -- so the first tag is completed, and all the more the first that can be
  have hcompletes : Completes text front.length := by
    have hlater : front.length + 7 + attributes.length < range.stop := by
      have := hclosing.le
      omega
    exact ⟨hopening.here, _, hbracketing.le, hbracketing.here, range.stop, hlater, hclosing.here⟩
  refine ⟨front.length, front.length + 7 + attributes.length,
    { opening := hopening
      completing := ⟨Nat.zero_le _, hcompletes, fun p hp hlt hc => hopening.first p hp hlt hc.1⟩
      bracketing := hbracketing
      start := hstart
      closing := hclosing
      parts := hsplits.parts.symm
      startOffset := hsplits.start
      stopOffset := by rw [hsplits.stop, List.length_append]
      inside := not_closesIn_nil_iff.1 fun hin => hnone (hin.extend range.after)
      after := closesAt_iff.2 hstarts
      container := ?_
      dialect := ?_ }⟩
  · rw [isContainer, hbefore]
    simp
  · rw [hdialect, hparts, ← hseven, List.take_length_add_append, List.take_left, List.drop_left]

/-- A container has a block exactly if some opening tag can be completed, and the block that is
    taken is the first one. -/
theorem extract?_first_block (text : Text) :
    (extract? text .vue = none ↔ ¬ ∃ p, Completes text p) ∧
    ∀ range, extract? text .vue = some range →
      ∃ tag bracket, FirstBlock text range tag bracket := by
  refine ⟨⟨?_, ?_⟩, fun range h => firstBlock_of_block? h⟩
  · rintro hnone ⟨p, hp⟩
    obtain ⟨range, hrange⟩ := exists_block hp
    exact absurd (hrange.symm.trans hnone) (Option.some_ne_none range)
  · intro hno
    cases hrange : extract? text .vue with
    | none => rfl
    | some range =>
      obtain ⟨tag, bracket, hfirst⟩ := firstBlock_of_block? hrange
      exact absurd ⟨tag, hfirst.completing.here⟩ hno

/-- A container that opens another tag first, has its script tag in capitals and with a long s, and
    holds a tag that does not close and one more opening tag in its script. -/
def crowded : Text :=
  "<scripts></scripts><ſCRIPT lang=TS>a</script x><script></Script\n></script>".toList

/-- Its block is taken from the tag in capitals up to the first tag that closes. -/
theorem extract?_first_block_crowded :
    ∃ range, extract? crowded .vue = some range ∧
      range.script = "a</script x><script>".toList ∧ range.dialect = .typescript ∧
      ∃ tag bracket, FirstBlock crowded range tag bracket := by
  have hfields : (extract? crowded .vue).map (fun range => (range.script, range.dialect)) =
      some ("a</script x><script>".toList, .typescript) := by decide +kernel
  obtain ⟨range, hrange, hpair⟩ := Option.map_eq_some_iff.1 hfields
  obtain ⟨hscript, hdialect⟩ := Prod.mk.inj hpair
  exact ⟨range, hrange, hscript, hdialect, (extract?_first_block crowded).2 range hrange⟩

end DocAnnotator.ScriptRange
