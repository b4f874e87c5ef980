import Mathlib.Data.List.Forall2
import Mathlib.Data.List.TakeWhile
import DocAnnotator.Proofs.Text.Utf8
import DocAnnotator.Script.Block

/-! ## Where a script block begins and ends

    The block is found by its opening tag, which nothing after the tag can change, and by the first
    closing tag.

    - `block?_tag`: the opening tag that a block was found by.
    - `block?_some`: a container is what stands before its script, the script and what follows it,
      and the same beginning with other content has its script end at the content's first closing
      tag.
    - `CloseTag`: the texts that close a block.
    - `findClose?_eq_some_iff`: the first closing tag splits a text.
    - `not_closesIn_of_block?`: a block ends at the first closing tag of its content.
-/

namespace DocAnnotator

namespace Text

/-- A word that is read without regard to case is read from the start of the text alone. -/
theorem afterFolded?_append {word s : Text} (h : word.length ≤ s.length) (t : Text) :
    afterFolded? word (s ++ t) = (afterFolded? word s).map (· ++ t) := by
  induction word generalizing s with
  | nil => rfl
  | cons letter word ih =>
    cases s with
    | nil => simp at h
    | cons c s =>
      simp only [afterFolded?, List.cons_append]
      split
      · exact ih (Nat.le_of_succ_le_succ h)
      · rfl

/-- A word that is read: letter by letter the same, up to case. -/
theorem afterFolded?_eq_some {word s rest : Text} (h : afterFolded? word s = some rest) :
    ∃ name, s = name ++ rest ∧ List.Forall₂ (fun l c => sameLetter l c = true) word name := by
  induction word generalizing s with
  | nil =>
    obtain rfl := Option.some.inj h
    exact ⟨[], rfl, .nil⟩
  | cons letter word ih =>
    cases s with
    | nil => simp [afterFolded?] at h
    | cons c s =>
      simp only [afterFolded?] at h
      split at h
      next hc =>
        obtain ⟨name, rfl, hname⟩ := ih h
        exact ⟨c :: name, rfl, .cons hc hname⟩
      next => simp at h

theorem afterFolded?_of_forall₂ {word name : Text}
    (h : List.Forall₂ (fun l c => sameLetter l c = true) word name) (rest : Text) :
    afterFolded? word (name ++ rest) = some rest := by
  induction h with
  | nil => rfl
  | cons hc _ ih => simp [afterFolded?, hc, ih]

theorem after?_singleton {c : Char} {s rest : Text} (h : after? [c] s = some rest) :
    s = c :: rest := by
  cases s with
  | nil => simp [after?] at h
  | cons d s =>
    simp only [after?] at h
    split at h
    next hcd => rw [hcd, Option.some.inj h]
    next => simp at h

end Text

namespace ScriptRange

/-! ### The opening tag -/

/-- Whether an opening tag starts somewhere is settled by eight characters. -/
theorem openTag?_append {s : Text} (h : 8 ≤ s.length) (t : Text) :
    openTag? (s ++ t) = (openTag? s).map (· ++ t) := by
  have hname : "<script".toList.length = 7 := by decide
  rw [openTag?, openTag?, Text.afterFolded?_append (by omega)]
  cases hs : Text.afterFolded? "<script".toList s with
  | none => rfl
  | some rest =>
    obtain ⟨name, rfl, hfold⟩ := Text.afterFolded?_eq_some hs
    -- a character follows the name, and it decides
    cases rest with
    | nil =>
      have := hfold.length_eq
      rw [List.append_nil] at h
      omega
    | cons c rest =>
      simp only [Option.map_some, List.cons_append]
      split <;> rfl

theorem openTag?_some {text rest : Text} (h : openTag? text = some rest) :
    ∃ name c tail, name.length = 7 ∧ rest = c :: tail ∧ text = name ++ c :: tail := by
  unfold openTag? at h
  split at h
  next c tail hafter =>
    obtain ⟨name, rfl, hfold⟩ := Text.afterFolded?_eq_some hafter
    split at h
    · simp at h
    · exact ⟨name, c, tail, hfold.length_eq.symm, (Option.some.inj h).symm, rfl⟩
  next => simp at h

theorem findOpen?_cons (c : Char) (s : Text) :
    findOpen? (c :: s) = match openTag? (c :: s) with
      | some rest => some ([], rest)
      | none => (findOpen? s).map fun (before, rest) => (c :: before, rest) := rfl

/-- An opening tag is found by the text up to the character after its name, whatever follows. -/
theorem findOpen?_some {text before rest : Text} (h : findOpen? text = some (before, rest)) :
    ∃ name c tail, name.length = 7 ∧ rest = c :: tail ∧ text = before ++ name ++ c :: tail ∧
      ∀ other, findOpen? (before ++ name ++ c :: other) = some (before, c :: other) := by
  induction text generalizing before with
  | nil => simp [findOpen?] at h
  | cons d s ih =>
    cases hopen : openTag? (d :: s) with
    | some found =>
      rw [findOpen?_cons, hopen] at h
      obtain ⟨rfl, rfl⟩ := Prod.mk.inj (Option.some.inj h)
      obtain ⟨name, c, tail, hlen, rfl, htext⟩ := openTag?_some hopen
      refine ⟨name, c, tail, hlen, rfl, by rw [htext]; rfl, fun other => ?_⟩
      -- the name and the character after it settle that the tag starts here
      have height : 8 ≤ (name ++ [c]).length := by rw [List.length_append, hlen]; rfl
      have hother : openTag? (name ++ c :: other) = some (c :: other) := by
        have hall := openTag?_append height tail
        rw [List.append_cons] at htext
        rw [← htext, hopen] at hall
        obtain ⟨r, hr, hrest⟩ := Option.map_eq_some_iff.1 hall.symm
        have hone : r = [c] := List.append_cancel_right (hrest.trans (List.singleton_append).symm)
        rw [List.append_cons, openTag?_append height, hr, hone]
        rfl
      match name, hlen with
      | x :: name, _ =>
        rw [List.nil_append, List.cons_append, findOpen?_cons]
        rw [List.cons_append] at hother
        rw [hother]
    | none =>
      rw [findOpen?_cons, hopen] at h
      obtain ⟨⟨inner, found⟩, hfound, hpair⟩ := Option.map_eq_some_iff.1 h
      obtain ⟨rfl, rfl⟩ := Prod.mk.inj hpair
      obtain ⟨name, c, tail, hlen, rfl, rfl, hall⟩ := ih hfound
      refine ⟨name, c, tail, hlen, rfl, rfl, fun other => ?_⟩
      -- no tag starts at `d`, and eight characters of what is known settle that too
      have height : 8 ≤ (d :: (inner ++ name)).length := by
        rw [List.length_cons, List.length_append, hlen]
        omega
      have hclosed : openTag? (d :: (inner ++ name)) = none := by
        have := openTag?_append height (c :: tail)
        rw [List.cons_append, hopen] at this
        exact Option.map_eq_none_iff.1 this.symm
      have hother : openTag? (d :: (inner ++ name) ++ c :: other) = none := by
        rw [openTag?_append height, hclosed]
        rfl
      rw [List.cons_append, List.cons_append, findOpen?_cons, hall other]
      rw [List.cons_append] at hother
      rw [hother]
      rfl

/-! ### The closing tag -/

/-- The texts that close a block: the name of the tag, blanks and a bracket. -/
def CloseTag (t : Text) : Prop :=
  ∃ name blanks, t = name ++ blanks ++ ['>'] ∧
    List.Forall₂ (fun l c => Text.sameLetter l c = true) "</script".toList name ∧
    ∀ c ∈ blanks, Text.isBlank c = true

theorem startsCloseTag_iff {s : Text} :
    startsCloseTag s = true ↔ ∃ t rest, CloseTag t ∧ s = t ++ rest := by
  constructor
  · intro h
    unfold startsCloseTag at h
    split at h
    next after hafter =>
      obtain ⟨name, rfl, hname⟩ := Text.afterFolded?_eq_some hafter
      obtain ⟨rest, hrest⟩ := List.head?_eq_some_iff.1 (beq_iff_eq.1 h)
      refine ⟨name ++ after.takeWhile Text.isBlank ++ ['>'], rest,
        ⟨name, _, rfl, hname, fun c hc => List.mem_takeWhile_imp hc⟩, ?_⟩
      have hsplit := List.takeWhile_append_dropWhile (p := Text.isBlank) (l := after)
      rw [hrest] at hsplit
      simp [hsplit]
    next => simp at h
  · rintro ⟨t, rest, ⟨name, blanks, rfl, hname, hblanks⟩, rfl⟩
    have hafter := Text.afterFolded?_of_forall₂ hname (blanks ++ '>' :: rest)
    have hdrop : (blanks ++ '>' :: rest).dropWhile Text.isBlank = '>' :: rest := by
      rw [List.dropWhile_append_of_pos hblanks, List.dropWhile_cons_of_neg (by decide)]
    rw [startsCloseTag]
    simp only [List.append_assoc, List.singleton_append] at hafter ⊢
    rw [hafter]
    simp [hdrop]

namespace CloseTag

/-- Folding case turns no letter into a bracket. -/
theorem eq_bracket {c : Char} (h : Text.sameLetter '<' c = true) : c = '<' := by
  have hc : Text.lowerAscii c = '<' := by simpa [Text.sameLetter] using h
  unfold Text.lowerAscii at hc
  split at hc
  next hcap =>
    -- a folded capital is a letter, far above the bracket
    have hlow : 65 ≤ c.toNat := hcap.1
    have hhigh : c.toNat ≤ 90 := hcap.2
    have hval := Utf8.toNat_char (n := c.toNat + 0x20) (by omega)
    rw [hc] at hval
    have hbracket : '<'.val.toNat = 60 := by decide
    omega
  next => exact hc

/-- A mark of ASCII that is no letter is matched by itself alone. -/
theorem mem_of_forall₂ {mark : Char} (hself : Text.lowerAscii mark = mark)
    (hascii : mark.toNat < 0x80) {word name : Text}
    (h : List.Forall₂ (fun l c => Text.sameLetter l c = true) word name) (hmem : mark ∈ name) :
    mark ∈ word := by
  induction h with
  | nil => exact hmem
  | @cons l c word name hc _ ih =>
    rcases List.mem_cons.1 hmem with rfl | hmem
    · simp only [Text.sameLetter, Bool.or_eq_true, Bool.and_eq_true, beq_iff_eq] at hc
      -- the mark is its own lower case, and no letter beyond ASCII
      rcases hc with (hc | hc) | hc
      · rw [← hc, hself]
        exact List.mem_cons_self
      · omega
      · omega
    · exact List.mem_cons_of_mem _ (ih hmem)

theorem star_not_mem {t : Text} (h : CloseTag t) : '*' ∉ t := by
  obtain ⟨name, blanks, rfl, hname, hblanks⟩ := h
  intro hmem
  rcases List.mem_append.1 hmem with hmem | hmem
  · rcases List.mem_append.1 hmem with hmem | hmem
    · exact absurd (mem_of_forall₂ (by decide) (by decide) hname hmem) (by decide)
    · exact absurd (hblanks _ hmem) (by decide)
  · exact absurd hmem (by decide)

/-- A closing tag starts with a bracket, which is neither a slash nor blank. -/
theorem head {t : Text} (h : CloseTag t) : ∃ more, t = '<' :: more := by
  obtain ⟨name, blanks, rfl, hname, -⟩ := h
  obtain ⟨c, rest, hc, -, rfl⟩ := List.forall₂_cons_left_iff.1 hname
  obtain rfl := eq_bracket hc
  exact ⟨_, rfl⟩

theorem ne_nil {t : Text} (h : CloseTag t) : t ≠ [] := by
  obtain ⟨more, rfl⟩ := h.head
  exact List.cons_ne_nil _ _

/-- A closing tag ends in a bracket. -/
theorem getLast {t : Text} (h : CloseTag t) : t.getLast? = some '>' := by
  obtain ⟨name, blanks, rfl, -, -⟩ := h
  simp

end CloseTag

/-- A closing tag starts in the text, where `rest` follows it. -/
def ClosesIn (s rest : Text) : Prop :=
  ∃ before after, s = before ++ after ∧ after ≠ [] ∧ startsCloseTag (after ++ rest) = true

theorem not_closesIn_nil (rest : Text) : ¬ ClosesIn [] rest := by
  rintro ⟨before, after, h, hne, -⟩
  exact hne (List.append_eq_nil_iff.1 h.symm).2

theorem closesIn_cons {c : Char} {s rest : Text} :
    ClosesIn (c :: s) rest ↔ startsCloseTag (c :: s ++ rest) = true ∨ ClosesIn s rest := by
  constructor
  · rintro ⟨before, after, h, hne, hstarts⟩
    cases before with
    | nil =>
      rw [List.nil_append] at h
      exact .inl (h ▸ hstarts)
    | cons d before =>
      obtain ⟨rfl, hs⟩ := List.cons.inj h
      exact .inr ⟨before, after, hs, hne, hstarts⟩
  · rintro (hstarts | ⟨before, after, rfl, hne, hstarts⟩)
    · exact ⟨[], c :: s, rfl, by simp, hstarts⟩
    · exact ⟨c :: before, after, rfl, hne, hstarts⟩

theorem closesIn_append {s t rest : Text} :
    ClosesIn (s ++ t) rest ↔ ClosesIn s (t ++ rest) ∨ ClosesIn t rest := by
  induction s with
  | nil => simp [not_closesIn_nil]
  | cons c s ih =>
    rw [List.cons_append, closesIn_cons, closesIn_cons, ih, or_assoc]
    simp

/-- A closing tag in a text stays one, whatever follows. -/
theorem ClosesIn.extend {s : Text} (h : ClosesIn s []) (rest : Text) : ClosesIn s rest := by
  obtain ⟨before, after, rfl, hne, hstarts⟩ := h
  rw [List.append_nil] at hstarts
  obtain ⟨t, more, ht, rfl⟩ := startsCloseTag_iff.1 hstarts
  exact ⟨before, t ++ more, rfl, hne, startsCloseTag_iff.2 ⟨t, more ++ rest, ht, by simp⟩⟩

theorem findClose?_append {text script after : Text} (h : findClose? text = some (script, after)) :
    text = script ++ after := by
  induction text generalizing script with
  | nil => simp [findClose?] at h
  | cons c s ih =>
    simp only [findClose?] at h
    split at h
    · obtain ⟨rfl, rfl⟩ := Prod.mk.inj (Option.some.inj h)
      rfl
    · obtain ⟨⟨inner, rest⟩, hfound, hpair⟩ := Option.map_eq_some_iff.1 h
      obtain ⟨rfl, rfl⟩ := Prod.mk.inj hpair
      rw [List.cons_append, ← ih hfound]

theorem findClose?_eq_none_iff {s : Text} : findClose? s = none ↔ ¬ ClosesIn s [] := by
  induction s with
  | nil => simp [findClose?, not_closesIn_nil]
  | cons c s ih =>
    rw [closesIn_cons, List.append_nil, findClose?]
    split
    next h => simp [h]
    next h => simp [h, ih]

/-- The first closing tag splits a text: none starts before it. -/
theorem findClose?_eq_some_iff (s rest : Text) :
    findClose? (s ++ rest) = some (s, rest) ↔ ¬ ClosesIn s rest ∧ startsCloseTag rest = true := by
  induction s with
  | nil =>
    cases rest with
    | nil => simp [findClose?, startsCloseTag, Text.afterFolded?]
    | cons c rest =>
      rw [List.nil_append, findClose?]
      split
      next h => simp [h, not_closesIn_nil]
      next h => simp [h]
  | cons c s ih =>
    rw [closesIn_cons, List.cons_append, findClose?]
    split
    next h => simp [h]
    next h =>
      -- no tag starts at `c`, so the search goes on behind it
      have hmap : ((findClose? (s ++ rest)).map fun (inside, more) => (c :: inside, more)) =
          some (c :: s, rest) ↔ findClose? (s ++ rest) = some (s, rest) := by
        simp [Option.map_eq_some_iff]
      rw [hmap, ih]
      simp [h]

/-! ### The block -/

/-- The block that a beginning of a container and its content make, in a dialect. -/
def ofContent (before : Text) (dialect : Dialect) (content : Text) : Option ScriptRange :=
  (findClose? content).map fun (script, after) =>
    ⟨script, before.length, before.length + script.length, before, after, dialect⟩

/-- The block of a text whose opening tag is known. -/
theorem block?_eq {text front attributes content : Text} (before : Text)
    (hopen : findOpen? text = some (front, attributes ++ '>' :: content))
    (hattributes : '>' ∉ attributes) (htext : text = before ++ content) :
    block? text = ofContent before (blockDialect attributes) content := by
  have htake : (attributes ++ '>' :: content).takeWhile (· != '>') = attributes := by
    rw [List.takeWhile_append_of_pos, List.takeWhile_cons_of_neg (by decide), List.append_nil]
    intro c hc
    exact bne_iff_ne.2 fun h => hattributes (h ▸ hc)
  have hstart : text.length - content.length = before.length := by
    rw [htext, List.length_append]
    omega
  have hbefore : text.take before.length = before := by rw [htext, List.take_left]
  have hafter : Text.after? ['>'] ('>' :: content) = some content := rfl
  simp only [block?, hopen, Option.bind_eq_bind, Option.bind_some, htake, List.drop_left, hafter,
    hstart, hbefore]
  cases hclose : findClose? content <;> simp [ofContent, hclose]

/-- A block has an opening tag, whose attributes end at its first bracket. The text up to there fixes
    where the tag is found, whatever follows. -/
theorem block?_tag {text : Text} {range : ScriptRange} (h : block? text = some range) :
    ∃ front name attributes content, name.length = 7 ∧ '>' ∉ attributes ∧
      range.before = front ++ name ++ attributes ++ ['>'] ∧ text = range.before ++ content ∧
      range.dialect = blockDialect attributes ∧
      ofContent range.before range.dialect content = some range ∧
      ∀ other, findOpen? (range.before ++ other) = some (front, attributes ++ '>' :: other) := by
  have hparts := h
  simp only [block?, Option.bind_eq_bind, Option.bind_eq_some_iff] at hparts
  obtain ⟨⟨front, rest⟩, hopen, content, hcontent, _⟩ := hparts
  obtain ⟨name, c, tail, hname, hrest, htext, hall⟩ := findOpen?_some hopen
  simp only at hcontent
  -- the attributes end at the first bracket
  generalize hattributes : rest.takeWhile (· != '>') = attributes at hcontent
  have hnot : '>' ∉ attributes := by
    intro hmem
    rw [← hattributes] at hmem
    exact absurd (List.mem_takeWhile_imp hmem) (by decide)
  have hsplit : rest = attributes ++ '>' :: content := by
    rw [← Text.after?_singleton hcontent, ← hattributes]
    exact (List.prefix_iff_eq_append.1 (List.takeWhile_prefix _)).symm
  -- the opening tag is found with any content behind it
  have hall' : ∀ other, findOpen? (front ++ name ++ attributes ++ ['>'] ++ other) =
      some (front, attributes ++ '>' :: other) := by
    intro other
    cases attributes with
    | nil =>
      obtain ⟨rfl, -⟩ := List.cons.inj (hrest.symm.trans hsplit)
      simpa using hall other
    | cons d attributes =>
      obtain ⟨rfl, -⟩ := List.cons.inj (hrest.symm.trans hsplit)
      simpa using hall (attributes ++ '>' :: other)
  have hhead : text = front ++ name ++ attributes ++ ['>'] ++ content := by
    rw [htext, ← hrest, hsplit]
    simp
  have hblock := block?_eq (front ++ name ++ attributes ++ ['>']) (hsplit ▸ hopen) hnot hhead
  rw [h] at hblock
  obtain ⟨⟨script, after⟩, -, rfl⟩ := Option.map_eq_some_iff.1 hblock.symm
  exact ⟨front, name, attributes, content, hname, hnot, rfl, hhead, rfl, hblock.symm, hall'⟩

/-- A block begins after its opening tag. The text before it fixes where it begins and its dialect;
    the content only decides where it ends. -/
theorem block?_some {text : Text} {range : ScriptRange} (h : block? text = some range) :
    (∃ content, text = range.before ++ content ∧
      ofContent range.before range.dialect content = some range) ∧
    ∀ content, block? (range.before ++ content) = ofContent range.before range.dialect content := by
  obtain ⟨front, name, attributes, content, -, hnot, -, htext, hdialect, hrange, hopen⟩ :=
    block?_tag h
  refine ⟨⟨content, htext, hrange⟩, fun other => ?_⟩
  rw [hdialect]
  exact block?_eq range.before (hopen other) hnot rfl

/-- A block ends at the first closing tag after it. -/
theorem not_closesIn_of_block? {code : Text} {range : ScriptRange} (h : block? code = some range) :
    ¬ ClosesIn range.script range.after ∧ startsCloseTag range.after = true := by
  obtain ⟨⟨content, -, hrange⟩, -⟩ := block?_some h
  obtain ⟨⟨script, after⟩, hclose, hparts⟩ := Option.map_eq_some_iff.1 hrange
  obtain rfl := findClose?_append hclose
  rw [← hparts]
  exact (findClose?_eq_some_iff _ _).1 hclose

/-! ### The unit around its script -/

/-- A unit is the text before its script, the script and the text after it, and the offsets say
    so. -/
structure Splits (code : Text) (range : ScriptRange) : Prop where
  parts : code = range.before ++ range.script ++ range.after
  start : range.start = range.before.length
  stop : range.stop = range.before.length + range.script.length

theorem block?_splits {code : Text} {range : ScriptRange} (h : block? code = some range) :
    Splits code range := by
  obtain ⟨⟨content, hcode, hrange⟩, -⟩ := block?_some h
  obtain ⟨⟨script, after⟩, hclose, hparts⟩ := Option.map_eq_some_iff.1 hrange
  have hcontent := findClose?_append hclose
  rw [← hparts] at hcode ⊢
  exact ⟨by rw [hcode, hcontent, List.append_assoc], rfl, rfl⟩

theorem extract?_splits {code : Text} {dialect : Dialect} {range : ScriptRange}
    (h : extract? code dialect = some range) : Splits code range := by
  unfold extract? at h
  split at h
  · exact block?_splits h
  · obtain rfl := Option.some.inj h
    exact ⟨by simp, rfl, by simp⟩

/-- The script of a plain unit is the unit. -/
theorem extract?_plain {dialect : Dialect} (h : dialect ≠ .vue) (code : Text) :
    extract? code dialect = some ⟨code, 0, code.length, [], [], dialect⟩ := by
  cases dialect with
  | vue => exact absurd rfl h
  | _ => rfl

/-- A new script of a plain unit is the new unit. -/
theorem reassemble_plain (dialect : Dialect) (code script : Text) :
    reassemble code ⟨code, 0, code.length, [], [], dialect⟩ script = script := by
  unfold reassemble
  split
  next hsame => exact hsame.symm
  next => simp [isContainer]

/-- A line feed that opens or closes the script of a unit does so in a new script too. -/
def KeepsLineEnds (range : ScriptRange) (script : Text) : Prop :=
  (range.script.head? = some '\n' → script.head? = some '\n') ∧
    (range.script.getLast? = some '\n' → script.getLast? = some '\n')

/-- Where no line feed is to be put back, a new script just takes the place of the old one. -/
theorem reassemble_eq {code script : Text} {range : ScriptRange} (h : Splits code range)
    (hends : KeepsLineEnds range script) :
    range.reassemble code script = range.before ++ script ++ range.after := by
  unfold reassemble
  split
  next hsame => rw [h.parts, hsame]
  split
  next hplain =>
    have hbefore : code.take range.start = range.before := by
      rw [h.parts, h.start, List.append_assoc, List.take_left]
    have hafter : code.drop range.stop = range.after := by
      rw [h.parts, h.stop, ← List.length_append, List.drop_left]
    rw [hbefore, hafter]
  next =>
    -- neither end of a container's block lost its line feed
    have hhead : (range.script.head? == some '\n' && script.head? != some '\n') = false := by
      cases hb : range.script.head? == some '\n' with
      | false => rfl
      | true => simp [hends.1 (beq_iff_eq.1 hb)]
    have hlast : (range.script.getLast? == some '\n' && script.getLast? != some '\n') = false := by
      cases hb : range.script.getLast? == some '\n' with
      | false => rfl
      | true => simp [hends.2 (beq_iff_eq.1 hb)]
    simp only [hhead, hlast, Bool.false_eq_true, if_false]

end ScriptRange

end DocAnnotator
