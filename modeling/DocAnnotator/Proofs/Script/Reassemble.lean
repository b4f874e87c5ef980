import DocAnnotator.Proofs.Script.FirstBlock

/-! ## Reading a reassembled container

    A container with a new script is read back with that script and with its old parts around it, as
    long as the new script holds no closing tag. It may hold anything else: opening tags are behind
    the one that counts, and no closing tag can be made of the end of the script and what follows,
    since what follows starts with a bracket and a tag has one only at its start.

    - `restored`: the new script with line feeds put back at its ends.
    - `closesIn_cases`: a closing tag that starts in a text lies in it or runs over its end.
    - `not_closesIn_before_tag`: none runs into another closing tag.
    - `extract?_reassemble`: the whole statement.
-/

namespace DocAnnotator.ScriptRange

/-! ### Line feeds that are put back -/

/-- A new script that starts with a line feed where the old one did. -/
def restoreStart (range : ScriptRange) (script : Text) : Text :=
  if range.script.head? = some '\n' ∧ script.head? ≠ some '\n' then '\n' :: script else script

/-- A new script that ends in a line feed where the old one did. -/
def restoreEnd (range : ScriptRange) (script : Text) : Text :=
  if range.script.getLast? = some '\n' ∧ script.getLast? ≠ some '\n' then script ++ ['\n']
  else script

/-- A new script with the line feeds of the old one, first at its start and then at its end. -/
def restored (range : ScriptRange) (script : Text) : Text :=
  range.restoreEnd (range.restoreStart script)

theorem restored_self (range : ScriptRange) : range.restored range.script = range.script := by
  have hstart : range.restoreStart range.script = range.script := if_neg fun h => h.2 h.1
  rw [restored, hstart]
  exact if_neg fun h => h.2 h.1

/-- A container is put together from its old parts and the restored script. -/
theorem reassemble_block {text : Text} {range : ScriptRange} (h : block? text = some range)
    (script : Text) :
    range.reassemble text script = range.before ++ range.restored script ++ range.after := by
  obtain ⟨tag, bracket, hfirst⟩ := firstBlock_of_block? h
  have hstart : (if range.script.head? == some '\n' && script.head? != some '\n'
      then '\n' :: script else script) = range.restoreStart script := by
    simp [restoreStart]
  have hend : ∀ s : Text, (if range.script.getLast? == some '\n' && s.getLast? != some '\n'
      then s ++ ['\n'] else s) = range.restoreEnd s := by
    intro s
    simp [restoreEnd]
  unfold reassemble
  split
  next hsame => rw [hsame, restored_self, hfirst.parts]
  next =>
    simp only [hfirst.container, Bool.not_true, Bool.false_eq_true, if_false, hstart, hend]
    rfl

/-! ### Tags at the ends of a script -/

/-- A closing tag that starts in a text lies in it, or begins in it and ends in what follows. -/
theorem closesIn_cases {s rest : Text} (h : ClosesIn s rest) :
    ClosesIn s [] ∨ ∃ u v, CloseTag (u ++ v) ∧ u ≠ [] ∧ v ≠ [] ∧ v <+: rest := by
  obtain ⟨before, after, rfl, hne, hstarts⟩ := h
  obtain ⟨t, more, ht, hsplit⟩ := startsCloseTag_iff.1 hstarts
  rcases List.append_eq_append_iff.1 hsplit with ⟨v, rfl, hrest⟩ | ⟨m, rfl, -⟩
  · by_cases hv : v = []
    · -- the tag ends with the text
      refine .inl ⟨before, after, rfl, hne, startsCloseTag_iff.2 ⟨after, [], ?_, rfl⟩⟩
      rwa [hv, List.append_nil] at ht
    · exact .inr ⟨after, v, ht, hne, hv, more, hrest.symm⟩
  · refine .inl ⟨before, t ++ m, rfl, hne, startsCloseTag_iff.2 ⟨t, m, ht, ?_⟩⟩
    rw [List.append_nil]

/-- A closing tag has a bracket that opens it at its start only. -/
theorem CloseTag.bracket_not_mem {c : Char} {more : Text} (h : CloseTag (c :: more)) :
    '<' ∉ more := by
  obtain ⟨name, blanks, hsplit, hname, hblanks⟩ := h
  obtain ⟨d, rest, -, hrest, rfl⟩ := List.forall₂_cons_left_iff.1 hname
  obtain ⟨-, rfl⟩ := List.cons.inj hsplit
  intro hmem
  rcases List.mem_append.1 hmem with hmem | hmem
  · rcases List.mem_append.1 hmem with hmem | hmem
    · exact absurd (mem_of_forall₂ (by decide) (by decide) hrest hmem) (by decide)
    · exact absurd (hblanks _ hmem) (by decide)
  · exact absurd hmem (by decide)

/-- No closing tag runs over the end of a text into another closing tag. -/
theorem not_closesIn_before_tag {s rest : Text} (hs : ¬ ClosesIn s [])
    (hrest : startsCloseTag rest = true) : ¬ ClosesIn s rest := by
  intro h
  rcases closesIn_cases h with h | ⟨u, v, htag, hu, hv, more, hmore⟩
  · exact hs h
  · -- the part in `rest` starts with the bracket that opens `rest`
    obtain ⟨t, tail, ht, htail⟩ := startsCloseTag_iff.1 hrest
    obtain ⟨name, hname⟩ := ht.head
    obtain ⟨x, u, rfl⟩ := List.exists_cons_of_ne_nil hu
    obtain ⟨y, v, rfl⟩ := List.exists_cons_of_ne_nil hv
    have hy : y = '<' := by
      rw [htail, hname] at hmore
      exact (List.cons.inj hmore).1
    apply htag.bracket_not_mem
    rw [hy]
    simp

theorem not_closesIn_restoreStart {range : ScriptRange} {script : Text} (h : ¬ ClosesIn script []) :
    ¬ ClosesIn (range.restoreStart script) [] := by
  unfold restoreStart
  split
  · intro hcloses
    rcases closesIn_cons.1 hcloses with hstarts | hcloses
    · -- a line feed opens no tag
      obtain ⟨t, rest, ht, hsplit⟩ := startsCloseTag_iff.1 hstarts
      obtain ⟨more, rfl⟩ := ht.head
      exact absurd (List.cons.inj hsplit).1 (by decide)
    · exact h hcloses
  · exact h

theorem not_closesIn_restoreEnd {range : ScriptRange} {script : Text} (h : ¬ ClosesIn script []) :
    ¬ ClosesIn (range.restoreEnd script) [] := by
  unfold restoreEnd
  split
  · intro hcloses
    rcases closesIn_append.1 hcloses with hcloses | hcloses
    · rcases closesIn_cases hcloses with hcloses | ⟨u, v, htag, -, hv, hprefix⟩
      · exact h hcloses
      · -- a line feed ends no tag
        obtain ⟨y, v, rfl⟩ := List.exists_cons_of_ne_nil hv
        obtain ⟨rfl, hnil⟩ := List.cons_prefix_cons.1 hprefix
        obtain rfl := List.prefix_nil.1 hnil
        have hlast := htag.getLast
        rw [List.getLast?_concat] at hlast
        exact absurd (Option.some.inj hlast) (by decide)
    · rcases closesIn_cons.1 hcloses with hstarts | hcloses
      · exact absurd hstarts (by decide)
      · exact not_closesIn_nil [] hcloses
  · exact h

/-! ### The whole statement -/

/-- A container with a new script that holds no closing tag is read back with that script, its line
    feeds restored, and with everything else as it was; with its own script it is the same text. -/
theorem extract?_reassemble {text : Text} {range : ScriptRange}
    (h : extract? text .vue = some range) {script : Text} (hscript : ∀ p, ¬ ClosesAt script p) :
    extract? (range.reassemble text script) .vue =
      some { range with
        script := range.restored script
        stop := range.start + (range.restored script).length } ∧
    range.reassemble text range.script = text := by
  refine ⟨?_, if_pos rfl⟩
  have hstarts := (not_closesIn_of_block? h).2
  have hclean : ¬ ClosesIn (range.restored script) [] :=
    not_closesIn_restoreEnd (not_closesIn_restoreStart (not_closesIn_nil_iff.2 hscript))
  have hclose : findClose? (range.restored script ++ range.after) =
      some (range.restored script, range.after) :=
    (findClose?_eq_some_iff _ _).2 ⟨not_closesIn_before_tag hclean hstarts, hstarts⟩
  have hblock := (block?_some h).2 (range.restored script ++ range.after)
  rw [ofContent, hclose, Option.map_some] at hblock
  rw [reassemble_block h, extract?, List.append_assoc, hblock, (block?_splits h).start]

/-- A new script that opens a tag of its own and ends in half a closing tag. -/
def halfClosed : Text := "<script>b</script ".toList

/-- The crowded container is read back with it. -/
theorem extract?_reassemble_crowded :
    ∃ range again, extract? crowded .vue = some range ∧ (∀ p, ¬ ClosesAt halfClosed p) ∧
      extract? (range.reassemble crowded halfClosed) .vue = some again ∧
      again.script = halfClosed ∧ again.before = range.before ∧ again.after = range.after := by
  have hscript : (extract? crowded .vue).map ScriptRange.script =
      some "a</script x><script>".toList := by decide +kernel
  obtain ⟨range, hrange, hold⟩ := Option.map_eq_some_iff.1 hscript
  have hclean : ∀ p, ¬ ClosesAt halfClosed p :=
    not_closesIn_nil_iff.1 (findClose?_eq_none_iff.1 (by decide +kernel))
  have hrestored : range.restored halfClosed = halfClosed := by
    rw [restored, restoreStart, restoreEnd, hold]
    decide
  refine ⟨range, _, hrange, hclean, (extract?_reassemble hrange hclean).1, hrestored, rfl, rfl⟩

end DocAnnotator.ScriptRange
