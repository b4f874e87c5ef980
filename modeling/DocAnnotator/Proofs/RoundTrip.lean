import DocAnnotator.Proofs.Conservation

/-! ## Reading a container back

    A container is read up to the first closing tag. Neither end of an inserted comment can help to
    make a tag, but a comment may hold one, and then the block ends inside it.

    - `CommentShaped`: a block comment and blanks.
    - `closesIn_of_insert`: a comment put into a text makes no closing tag but those it holds.
    - `closesIn_written_iff`: the same of all comments of a run.
    - `annotate_container`: the block that is read back, and when it is the annotated one.
-/

namespace DocAnnotator

/-- A block comment followed by blanks. -/
def CommentShaped (c : Text) : Prop :=
  ∃ inside blanks, c = '/' :: '*' :: inside ++ '*' :: '/' :: blanks ∧
    ∀ x ∈ blanks, Text.isBlank x = true

theorem commentShaped_layout (lines : List Text) (source : Bytes) (offset : Nat) :
    CommentShaped (Comment.layout lines source offset) := by
  obtain ⟨more, hmore⟩ :=
    Comment.inside_eq source (Comment.indentation (Comment.lineHead source offset)) lines
  refine ⟨'*' :: Comment.newlineOf source ++ more, Comment.gap source offset, ?_,
    fun x => Comment.isBlank_gap⟩
  rw [Comment.layout_eq, Comment.blockAt_eq, hmore]
  simp

namespace ScriptRange

/-! ### Tags at the ends of a comment -/

/-- A tag that starts before a comment ends before it. -/
theorem CloseTag.isPrefix_of_before {t a more : Text} (ht : CloseTag t)
    (h : t <+: a ++ '/' :: '*' :: more) : t <+: a := by
  obtain ⟨rest, hrest⟩ := h
  rcases List.append_eq_append_iff.1 hrest with ⟨m, rfl, -⟩ | ⟨m, rfl, hm⟩
  · exact List.prefix_append t m
  · -- the tag would end in the opener
    match m, hm with
    | [], _ => simp
    | [c], hm =>
      obtain ⟨rfl, -⟩ := List.cons.inj hm
      have hlast := ht.getLast
      simp at hlast
    | c :: d :: m, hm =>
      obtain ⟨-, hm⟩ := List.cons.inj hm
      obtain ⟨rfl, -⟩ := List.cons.inj hm
      exact absurd (by simp) ht.star_not_mem

/-- A tag that starts inside a comment ends inside it. -/
theorem CloseTag.isPrefix_of_inside {t c tail b : Text} (ht : CloseTag t) (hc : CommentShaped c)
    (htail : tail <:+ c) (hne : tail ≠ []) (h : t <+: tail ++ b) : t <+: tail := by
  obtain ⟨rest, hrest⟩ := h
  rcases List.append_eq_append_iff.1 hrest with ⟨m, rfl, -⟩ | ⟨m, rfl, -⟩
  · exact List.prefix_append t m
  · -- the tail would hold neither a star nor a bracket
    exfalso
    obtain ⟨inside, blanks, rfl, hblanks⟩ := hc
    obtain ⟨front, hfront⟩ := htail
    have hstar : '*' ∉ tail := fun hmem => ht.star_not_mem (List.mem_append_left _ hmem)
    -- without a star the tail lies behind the closer's, but it starts with the tag's bracket
    obtain ⟨more, hmore⟩ := ht.head
    obtain ⟨x, tail, rfl⟩ := List.exists_cons_of_ne_nil hne
    obtain ⟨rfl, -⟩ := List.cons.inj hmore
    rcases List.append_eq_append_iff.1 hfront with ⟨m, -, hm⟩ | ⟨m, -, hm⟩
    · exact hstar (by rw [hm]; simp)
    · cases m with
      | nil => exact hstar (by rw [List.nil_append] at hm; rw [← hm]; simp)
      | cons y m =>
        obtain ⟨-, hm⟩ := List.cons.inj hm
        have hmem : '<' ∈ '/' :: blanks := by rw [hm]; simp
        rcases List.mem_cons.1 hmem with hslash | hblank
        · exact absurd hslash (by decide)
        · exact absurd (hblanks _ hblank) (by decide)

/-- A comment put into a text makes no closing tag but those that it holds. -/
theorem closesIn_of_insert {a c b rest : Text} (hc : CommentShaped c)
    (h : ClosesIn (a ++ (c ++ b)) rest) : ClosesIn (a ++ b) rest ∨ ClosesIn c [] := by
  rcases closesIn_append.1 h with ⟨before, after, rfl, hne, hstarts⟩ | h
  · -- the tag starts in front of the comment
    obtain ⟨t, more, ht, hmore⟩ := startsCloseTag_iff.1 hstarts
    obtain ⟨inside, blanks, rfl, -⟩ := hc
    have hprefix : t <+: after ++ '/' :: '*' ::
        (inside ++ '*' :: '/' :: blanks ++ b ++ rest) := ⟨more, by rw [← hmore]; simp⟩
    obtain ⟨tail, rfl⟩ := ht.isPrefix_of_before hprefix
    refine .inl ⟨before, t ++ tail ++ b, by simp, by simp [ht.ne_nil], ?_⟩
    exact startsCloseTag_iff.2 ⟨t, tail ++ b ++ rest, ht, by simp⟩
  · rcases closesIn_append.1 h with ⟨before, after, rfl, hne, hstarts⟩ | h
    · -- it starts inside the comment
      obtain ⟨t, more, ht, hmore⟩ := startsCloseTag_iff.1 hstarts
      obtain ⟨tail, rfl⟩ := ht.isPrefix_of_inside hc (List.suffix_append _ _) hne ⟨more, hmore.symm⟩
      refine .inr ⟨before, t ++ tail, rfl, hne, ?_⟩
      exact startsCloseTag_iff.2 ⟨t, tail, ht, by simp⟩
    · -- it starts behind the comment
      exact .inl (closesIn_append.2 (.inr h))

/-! ### All comments of a run -/

/-- Weaving comments into a text makes no closing tag but those that the comments hold. -/
theorem closesIn_of_written {pieces : List Piece}
    (hcomments : ∀ i ∈ additions pieces, CommentShaped i.text) (front : Text) {rest : Text}
    (h : ClosesIn (front ++ written pieces) rest) :
    ClosesIn (front ++ original pieces) rest ∨ ∃ i ∈ additions pieces, ClosesIn i.text [] := by
  induction pieces generalizing front with
  | nil => exact .inl h
  | cons piece pieces ih =>
    cases piece with
    | kept text =>
      -- what is kept goes to the front, since a tag may start in it and end behind it
      rw [written_kept, ← List.append_assoc] at h
      rw [original_kept, ← List.append_assoc]
      exact ih hcomments (front ++ text) h
    | added insertion =>
      rw [written_added] at h
      rcases closesIn_of_insert (hcomments insertion (by simp)) h with h | h
      · rcases ih (fun i hi => hcomments i (by simp [hi])) front h with h | ⟨i, hi, h⟩
        · exact .inl h
        · exact .inr ⟨i, by simp [hi], h⟩
      · exact .inr ⟨insertion, by simp, h⟩

/-- A closing tag in a comment is one in the woven text. -/
theorem closesIn_written {pieces : List Piece} {i : Insertion} (hi : i ∈ additions pieces)
    (h : ClosesIn i.text []) (rest : Text) : ClosesIn (written pieces) rest := by
  induction pieces with
  | nil => simp [additions] at hi
  | cons piece pieces ih =>
    cases piece with
    | kept text => exact closesIn_append.2 (.inr (ih hi))
    | added insertion =>
      rcases List.mem_cons.1 hi with rfl | hi
      · exact closesIn_append.2 (.inl (h.extend _))
      · exact closesIn_append.2 (.inr (ih hi))

/-- A block that is closed behind a text is still closed there once comments are woven in, exactly
    if no comment holds a closing tag. -/
theorem closesIn_written_iff {pieces : List Piece} {insertions : List Insertion} {source script rest : Text}
    (hwoven : Woven source insertions script pieces)
    (hcomments : ∀ i ∈ insertions, CommentShaped i.text) (hsource : ¬ ClosesIn source rest) :
    ClosesIn script rest ↔ ∃ i ∈ insertions, ClosesIn i.text [] := by
  rw [← hwoven.written]
  constructor
  · intro h
    rcases closesIn_of_written (fun i hi => hcomments i (hwoven.additions.subset hi)) [] h with
      h | ⟨i, hi, h⟩
    · rw [List.nil_append, hwoven.original] at h
      exact absurd h hsource
    · exact ⟨i, hwoven.additions.subset hi, h⟩
  · rintro ⟨i, hi, h⟩
    exact closesIn_written (hwoven.additions.symm.subset hi) h rest

end ScriptRange

/-! ### Reading back -/

/-- A new script in front of the end of a block: a block is read back that begins as the old one,
    and it ends where the old one did exactly if no closing tag starts in the new script. -/
theorem ScriptRange.block?_reassembled {code : Text} {range : ScriptRange}
    (h : block? code = some range) (script : Text) :
    ∃ again, block? (range.before ++ script ++ range.after) = some again ∧
      again.dialect = range.dialect ∧ again.before = range.before ∧
      ((again.after = range.after ∧ again.script = script) ↔ ¬ ClosesIn script range.after) := by
  obtain ⟨-, hcontent⟩ := block?_some h
  have hstarts := (not_closesIn_of_block? h).2
  rw [List.append_assoc, hcontent, ofContent]
  cases hclose : findClose? (script ++ range.after) with
  | none =>
    -- the old end is still there
    refine absurd (closesIn_append.2 (.inr ?_)) (findClose?_eq_none_iff.1 hclose)
    refine ⟨[], range.after, rfl, fun hnil => ?_, by rw [List.append_nil]; exact hstarts⟩
    rw [hnil] at hstarts
    exact absurd hstarts (by decide)
  | some found =>
    -- the first closing tag is the old one exactly if none starts before it
    obtain ⟨inside, after⟩ := found
    refine ⟨_, rfl, rfl, rfl, ?_⟩
    have hiff := findClose?_eq_some_iff script range.after
    rw [hclose, Option.some.injEq, Prod.mk.injEq] at hiff
    simp only
    rw [and_comm, hiff]
    exact and_iff_left hstarts

/-- A container is read back with the dialect and the beginning that it had. Its script is the
    annotated one, and the text after it is unchanged, exactly if no comment holds a closing tag. -/
theorem annotate_container {grammar : Grammar} {options : Options} {id code result : Text}
    {session : Session} {range : ScriptRange} (hvue : Identifier.dialect id = .vue)
    (htokens : TokenAnchors grammar id code)
    (h : (annotate grammar options id code session).1 = .ok result)
    (hrange : ScriptRange.extract? code .vue = some range) :
    ∃ script again,
      Insertion.splice (Utf8.encode range.script)
        (insertionsOf grammar options id code session) = .ok script ∧
      ScriptRange.extract? result .vue = some again ∧
      again.dialect = range.dialect ∧ again.before = range.before ∧
      ((again.after = range.after ∧ again.script = script) ↔
        ∀ i ∈ insertionsOf grammar options id code session,
          ScriptRange.findClose? i.text = none) := by
  have hrange' : ScriptRange.extract? code (Identifier.dialect id) = some range := by
    rw [hvue, hrange]
  obtain ⟨script, pieces, hsplice, hwoven, -, rfl⟩ := annotate_woven htokens h hrange'
  obtain ⟨again, hagain, hdialect, hbefore, hends⟩ :=
    ScriptRange.block?_reassembled hrange script
  have hcomments : ∀ i ∈ insertionsOf grammar options id code session, CommentShaped i.text := by
    intro i hi
    obtain ⟨target, -, -, lines, htext⟩ := exists_of_forall₂ (insertionsOf_forall₂ h hrange') hi
    rw [htext]
    exact commentShaped_layout lines _ _
  refine ⟨script, again, hsplice, hagain, hdialect, hbefore, ?_⟩
  rw [hends, ScriptRange.closesIn_written_iff hwoven hcomments
    (ScriptRange.not_closesIn_of_block? hrange).1]
  simp only [ScriptRange.findClose?_eq_none_iff, not_exists, not_and]

/-- The component is annotated, and a block of its dialect is read back after its template. -/
theorem annotate_container_component :
    TokenAnchors componentGrammar "a.vue".toList component ∧
    ∃ result again,
      (annotate componentGrammar quietOptions "a.vue".toList component ⟨[], [], []⟩).1 = .ok result ∧
      ScriptRange.extract? result .vue = some again ∧ again.dialect = .javascript ∧
      again.before = "<p>é</p><script>".toList := by
  have htokens : TokenAnchors componentGrammar "a.vue".toList component :=
    .of_anchors extract?_component startsToken_component
  obtain ⟨result, hresult⟩ := annotate_component_returns extract?_component rfl
  obtain ⟨script, again, -, hagain, hdialect, hbefore, -⟩ :=
    annotate_container (by decide) htokens hresult extract?_component
  exact ⟨htokens, result, again, hresult, hagain, hdialect, hbefore⟩

/-! ### A comment that ends the block -/

/-- A text without braces is no template. -/
theorem Template.render_of_no_brace (values : Template.Variables) {s : Text} (h : '\x7b' ∉ s) :
    Template.render values s = s := by
  induction s with
  | nil =>
    rw [Template.render]
    rfl
  | cons c s ih =>
    have hnone : Template.placeholder? (c :: s) = none := by
      unfold Template.placeholder?
      split
      next heq => exact absurd (by rw [heq]; simp) h
      next heq => exact absurd (by rw [heq]; simp) h
      next => rfl
    rw [Template.render]
    split
    next m hm => simp [hnone] at hm
    next => simp only [ih fun hs => h (List.mem_cons_of_mem _ hs)]

/-- Nothing keeps a closing tag out of a comment. -/
theorem closesIn_layout (more : List Text) (source : Bytes) (offset : Nat) :
    ScriptRange.ClosesIn (Comment.layout ("</script>".toList :: more) source offset) [] := by
  have htrim : Text.trimEnd (' ' :: "</script>".toList) = ' ' :: "</script>".toList := by decide
  have hline : ∀ indent, Comment.bodyLines indent "</script>".toList =
      [indent ++ " * ".toList ++ "</script>".toList] := by
    intro indent
    change [Comment.bodyLine indent "</script>".toList] = _
    rw [Comment.bodyLine_eq, htrim]
    simp
  -- the tag stands on the second line
  have hsplit : ∃ before after, Comment.layout ("</script>".toList :: more) source offset =
      before ++ ("</script>".toList ++ after) := by
    rw [Comment.layout_eq, Comment.blockAt_eq, Comment.inside, List.flatMap_cons, hline,
      List.singleton_append, List.flatMap_cons]
    simp only [List.append_assoc]
    exact ⟨"/**".toList ++ (Comment.newlineOf source ++
      (Comment.indentation (Comment.lineHead source offset) ++ " * ".toList)), _,
      by simp only [List.append_assoc]; rfl⟩
  obtain ⟨before, after, hsplit⟩ := hsplit
  exact ⟨before, _, hsplit, by simp, rfl⟩

/-- Options whose description line closes a script block. -/
def closingOptions : Options :=
  ⟨⟨.absent, [("template".toList, .obj [("descriptionLine".toList, .str "</script>".toList)])], true,
    []⟩, .none, .sending⟩

theorem resolve_closingOptions :
    ∃ settings, (Config.resolve closingOptions.sources).1 = .ok settings ∧
      settings.templates =
        { Config.defaultTemplates with description := "</script>".toList } ∧
      Describe.describer closingOptions.client settings.ai = .ok none := ⟨_, rfl, rfl, rfl⟩

/-- With these options the component is annotated, but the block that is read back is not the
    annotated one: it ends inside the comment. -/
theorem annotate_container_closed_early :
    ∃ result script again,
      (annotate componentGrammar closingOptions "a.vue".toList component ⟨[], [], []⟩).1 =
        .ok result ∧
      Insertion.splice (Utf8.encode componentRange.script)
        (insertionsOf componentGrammar closingOptions "a.vue".toList component ⟨[], [], []⟩) =
        .ok script ∧
      ScriptRange.extract? result .vue = some again ∧
      ¬ (again.after = componentRange.after ∧ again.script = script) := by
  have htokens : TokenAnchors componentGrammar "a.vue".toList component :=
    .of_anchors extract?_component startsToken_component
  obtain ⟨settings, hsettings, htemplates, hservice⟩ := resolve_closingOptions
  obtain ⟨result, hresult⟩ :=
    annotate_returns htokens hsettings hservice (by rw [htemplates]; decide) ⟨[], [], []⟩
  obtain ⟨script, pieces, hsplice, hwoven, -, rfl⟩ :=
    annotate_woven htokens hresult extract?_component
  obtain ⟨again, hagain, -, -, hends⟩ := ScriptRange.block?_reassembled extract?_component script
  refine ⟨_, script, again, hresult, hsplice, hagain, ?_⟩
  rw [hends, not_not, ← hwoven.written]
  have hdocs := insertionsOf_forall₂ hresult extract?_component
  -- the comment of the only function starts with the description line, and so with a tag
  obtain ⟨target, htarget⟩ := List.exists_mem_of_ne_nil _ targetsOf_component
  obtain ⟨i, hi, -⟩ := exists_of_forall₂ hdocs.flip htarget
  obtain ⟨values, more, source, offset, htext⟩ := insertionsOf_first_line hsettings i hi
  have hclosed : ScriptRange.ClosesIn i.text [] := by
    rw [htext, htemplates, RawText.text_ofText,
      Template.render_of_no_brace values (by decide)]
    exact closesIn_layout more source offset
  exact ScriptRange.closesIn_written (hwoven.additions.symm.subset hi) hclosed _

end DocAnnotator
