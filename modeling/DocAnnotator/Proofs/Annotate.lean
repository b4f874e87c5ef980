import Mathlib.Data.List.Forall2
import DocAnnotator.Proofs.Describe.Session
import DocAnnotator.Proofs.Script.Block
import DocAnnotator.Proofs.Script.Splice

/-! ## What a run does

    A run either has nothing to do, or splices one comment per target into the script.

    - `insertionsOf`: the insertions that a run makes.
    - `annotate_cases`: a run that returns had nothing to do, or finished a plan.
    - `insertionsOf_forall₂`: one insertion for each target, a comment laid out at its anchor.
    - `annotate_ok`: the text that a run returns, in terms of them.
    - `annotate_of_no_targets`: a run with nothing to do.
-/

namespace DocAnnotator

/-- The functions of a script that have no doc comment yet. -/
def targetsOf (grammar : Grammar) (range : ScriptRange) : List Target :=
  collect (Utf8.encode range.script) (grammar range.dialect range.script)

/-- The insertions that a run makes. A run that is stopped before it has them all makes none. -/
def insertionsOf (grammar : Grammar) (options : Options) (id code : Text) (session : Session) :
    List Insertion :=
  match prepare grammar options id code with
  | (.ok (some plan), warnings) =>
    (plan.insertions (session.warn warnings) plan.targets).1.toOption.getD []
  | _ => []

/-! ### The plan -/

theorem syntaxTree_ok {grammar : Grammar} {dialect : Dialect} {script : Text} {root : Node}
    (h : syntaxTree grammar dialect script = .ok root) : root = grammar dialect script := by
  unfold syntaxTree at h
  split at h
  · exact (Except.ok.inj h).symm
  · cases h

/-- A plan is made exactly where there are targets. -/
theorem planScript_ok {grammar : Grammar} {oracle : OracleSource} {client : Client}
    {settings : Settings} {range : ScriptRange} {plan : Option Plan}
    (h : (planScript grammar oracle client settings range).1 = .ok plan) :
    (plan = none ∧ targetsOf grammar range = []) ∨
      ∃ p, plan = some p ∧ p.settings = settings ∧
        Describe.describer client settings.ai = .ok p.describer ∧ p.range = range ∧
        p.source = Utf8.encode range.script ∧ p.targets = targetsOf grammar range ∧
        p.targets ≠ [] := by
  unfold planScript at h
  split at h
  · cases h
  next root hroot =>
    obtain rfl := syntaxTree_ok hroot
    simp only at h
    -- a describer is only asked for where there are targets
    split at h
    next hnone => exact .inl ⟨(Except.ok.inj h).symm, hnone⟩
    next targets hsome =>
      split at h
      · cases h
      next describer hdescriber =>
        obtain rfl := Except.ok.inj h
        exact .inr ⟨_, rfl, rfl, hdescriber, rfl, rfl, rfl, hsome⟩

/-- A plan is for a unit: for the settings of its configuration, the service of these settings, and
    the targets of its script, of which there are some. -/
structure Plan.IsFor (plan : Plan) (grammar : Grammar) (options : Options) (id code : Text) :
    Prop where
  settings : (Config.resolve options.sources).1 = .ok plan.settings
  describer : Describe.describer options.client plan.settings.ai = .ok plan.describer
  range : ScriptRange.extract? code (Identifier.dialect id) = some plan.range
  source : plan.source = Utf8.encode plan.range.script
  targets : plan.targets = targetsOf grammar plan.range
  unfinished : plan.targets ≠ []

/-- What a unit is found to need: nothing where it holds no script or its script no target, and
    otherwise a plan for it. -/
theorem prepare_ok {grammar : Grammar} {options : Options} {id code : Text} {plan : Option Plan}
    (h : (prepare grammar options id code).1 = .ok plan) :
    (plan = none ∧ ∀ range, ScriptRange.extract? code (Identifier.dialect id) = some range →
      targetsOf grammar range = []) ∨
    ∃ p, plan = some p ∧ p.IsFor grammar options id code := by
  unfold prepare at h
  split at h
  · cases h
  next settings warnings hsettings =>
    split at h
    next hnone =>
      -- no script
      refine .inl ⟨(Except.ok.inj h).symm, fun range hrange => ?_⟩
      rw [hnone] at hrange
      cases hrange
    next range hrange =>
      rcases planScript_ok h with
        ⟨rfl, hnone⟩ | ⟨p, rfl, rfl, hdescriber, rfl, hsource, htargets, hne⟩
      · refine .inl ⟨rfl, fun other hother => ?_⟩
        rw [hrange] at hother
        obtain rfl := Option.some.inj hother
        exact hnone
      · exact .inr ⟨p, rfl, by rw [hsettings], hdescriber, hrange, hsource, htargets, hne⟩

theorem prepare_some {grammar : Grammar} {options : Options} {id code : Text} {plan : Plan}
    (h : (prepare grammar options id code).1 = .ok (some plan)) :
    plan.IsFor grammar options id code := by
  rcases prepare_ok h with ⟨hnone, -⟩ | ⟨p, hp, hfor⟩
  · cases hnone
  · rwa [Option.some.inj hp]

/-! ### The insertions -/

/-- An insertion puts a comment in front of a target: a comment laid out at its anchor. -/
def Documents (source : Bytes) (target : Target) (insertion : Insertion) : Prop :=
  insertion.offset = target.anchorOffset ∧
    ∃ lines, insertion.text = Comment.layout lines source target.anchorOffset

theorem Plan.documents_answered (plan : Plan) (target : Target) (answer : Answer) :
    Documents plan.source target (plan.answered target answer) := ⟨rfl, _, rfl⟩

theorem Plan.insertions_forall₂ {plan : Plan} {session : Session} {targets : List Target}
    {insertions : List Insertion} (h : (plan.insertions session targets).1 = .ok insertions) :
    List.Forall₂ (Documents plan.source) targets insertions := by
  obtain ⟨-, rfl⟩ := insertions_ok h
  refine List.forall₂_iff_get.2 ⟨by simp [length_deal], fun i hi hi' => ?_⟩
  simp only [List.get_eq_getElem, List.getElem_zipWith]
  exact plan.documents_answered _ _

/-- In two lists that correspond, every entry of the second has its counterpart in the first. -/
theorem exists_of_forall₂ {α β : Type} {r : α → β → Prop} {as : List α} {bs : List β}
    (h : List.Forall₂ r as bs) {b : β} (hb : b ∈ bs) : ∃ a ∈ as, r a b := by
  induction h with
  | nil => simp at hb
  | cons hfirst _ ih =>
    rcases List.mem_cons.1 hb with rfl | hb
    · exact ⟨_, List.mem_cons_self, hfirst⟩
    · obtain ⟨a, ha, hrel⟩ := ih hb
      exact ⟨a, List.mem_cons_of_mem _ ha, hrel⟩

/-! ### The result -/

section Result

variable {grammar : Grammar} {options : Options} {id code result : Text} {session : Session}

/-- A run follows its plan. -/
theorem annotate_of_prepare {plan : Option Plan} (h : (prepare grammar options id code).1 = .ok plan)
    (session : Session) :
    (plan = none ∧ (annotate grammar options id code session).1 = .ok code ∧
      insertionsOf grammar options id code session = []) ∨
    ∃ p later, plan = some p ∧
      (annotate grammar options id code session).1 =
        (p.insertions later p.targets).1.bind (p.finish code) ∧
      insertionsOf grammar options id code session =
        (p.insertions later p.targets).1.toOption.getD [] := by
  unfold annotate insertionsOf
  cases hprep : prepare grammar options id code with
  | mk prepared warnings =>
    rw [hprep] at h
    obtain rfl : prepared = .ok plan := h
    cases plan with
    | none => exact .inl ⟨rfl, rfl, rfl⟩
    | some p => exact .inr ⟨p, _, rfl, rfl, rfl⟩

/-- A run whose configuration is refused fails as the configuration does. -/
theorem annotate_of_refused {e : Error} (h : (Config.resolve options.sources).1 = .error e)
    (grammar : Grammar) (id code : Text) (session : Session) :
    (annotate grammar options id code session).1 = .error e := by
  unfold annotate prepare
  cases hresolve : Config.resolve options.sources with
  | mk resolved warnings =>
    rw [hresolve] at h
    obtain rfl : resolved = .error e := h
    rfl

theorem prepare_of_annotate (h : (annotate grammar options id code session).1 = .ok result) :
    ∃ plan, (prepare grammar options id code).1 = .ok plan := by
  unfold annotate at h
  cases hprep : prepare grammar options id code with
  | mk prepared warnings =>
    rw [hprep] at h
    cases prepared with
    | error e => cases h
    | ok plan => exact ⟨plan, rfl⟩

/-- A run that returns had nothing to do, or made the insertions of a plan for the targets of the
    script and finished it. -/
theorem annotate_cases (h : (annotate grammar options id code session).1 = .ok result) :
    (result = code ∧ insertionsOf grammar options id code session = [] ∧
      ∀ range, ScriptRange.extract? code (Identifier.dialect id) = some range →
        targetsOf grammar range = []) ∨
    ∃ (p : Plan) (later : Session),
      (p.insertions later p.targets).1 = .ok (insertionsOf grammar options id code session) ∧
      ScriptRange.extract? code (Identifier.dialect id) = some p.range ∧
      p.source = Utf8.encode p.range.script ∧ p.targets = targetsOf grammar p.range ∧
      p.finish code (insertionsOf grammar options id code session) = .ok result := by
  obtain ⟨plan, hplan⟩ := prepare_of_annotate h
  rcases annotate_of_prepare hplan session with ⟨rfl, hcode, hnil⟩ | ⟨p, later, rfl, hfinish, hmade⟩
  · obtain rfl := Except.ok.inj (hcode.symm.trans h)
    rcases prepare_ok hplan with ⟨-, hnone⟩ | ⟨p, hp, -⟩
    · exact .inl ⟨rfl, hnil, hnone⟩
    · cases hp
  · have hfor := prepare_some hplan
    -- a run that is stopped returns nothing
    cases hinsertions : (p.insertions later p.targets).1 with
    | error e =>
      rw [hinsertions, h] at hfinish
      cases hfinish
    | ok insertions =>
      rw [hinsertions] at hfinish hmade
      have hsame : insertionsOf grammar options id code session = insertions := hmade
      rw [hsame]
      exact .inr ⟨p, later, hinsertions, hfor.range, hfor.source, hfor.targets,
        hfinish.symm.trans h⟩

/-- A run makes one insertion for each target of the script, in their order. -/
theorem insertionsOf_forall₂ {range : ScriptRange}
    (h : (annotate grammar options id code session).1 = .ok result)
    (hrange : ScriptRange.extract? code (Identifier.dialect id) = some range) :
    List.Forall₂ (Documents (Utf8.encode range.script)) (targetsOf grammar range)
      (insertionsOf grammar options id code session) := by
  rcases annotate_cases h with ⟨-, hnil, hnone⟩ | ⟨p, later, hmade, hrange', hsource, htargets, -⟩
  · rw [hnil, hnone range hrange]
    exact .nil
  · obtain rfl := Option.some.inj (hrange.symm.trans hrange')
    rw [← hsource, ← htargets]
    exact Plan.insertions_forall₂ hmade

/-- Whatever a run inserts is the comment for a target of its plan, made of an answer in store. -/
theorem exists_answered_of_mem {i : Insertion}
    (hi : i ∈ insertionsOf grammar options id code session) :
    ∃ plan target answer, (prepare grammar options id code).1 = .ok (some plan) ∧
      target ∈ plan.targets ∧ (answer = .refused ∨ answer ∈ session.answers) ∧
      i = plan.answered target answer := by
  unfold insertionsOf at hi
  split at hi
  next plan warnings hprep =>
    cases hinsertions : (plan.insertions (session.warn warnings) plan.targets).1 with
    | error e => rw [hinsertions] at hi; cases hi
    | ok insertions =>
      rw [hinsertions] at hi
      obtain ⟨-, rfl⟩ := Plan.insertions_ok hinsertions
      obtain ⟨k, hk, rfl⟩ := List.mem_iff_getElem.1 hi
      exact ⟨plan, _, _, congrArg Prod.fst hprep, List.getElem_mem _,
        Plan.mem_deal (List.getElem_mem _), List.getElem_zipWith⟩
  next => cases hi

/-- Whatever a run inserts, it inserts at the anchor of a target, even if the run fails later. -/
theorem exists_target_of_mem {range : ScriptRange} {i : Insertion}
    (hrange : ScriptRange.extract? code (Identifier.dialect id) = some range)
    (hi : i ∈ insertionsOf grammar options id code session) :
    ∃ target ∈ targetsOf grammar range, i.offset = target.anchorOffset := by
  obtain ⟨plan, target, answer, hplan, htarget, -, rfl⟩ := exists_answered_of_mem hi
  have hfor := prepare_some hplan
  obtain rfl := Option.some.inj (hrange.symm.trans hfor.range)
  exact ⟨target, hfor.targets ▸ htarget, rfl⟩

/-- The text that a run returns: the unit itself where it holds no script, and otherwise the unit
    with the insertions spliced into its script. -/
theorem annotate_ok (h : (annotate grammar options id code session).1 = .ok result) :
    match ScriptRange.extract? code (Identifier.dialect id) with
    | none => result = code
    | some range => ∃ script,
        Insertion.splice (Utf8.encode range.script)
          (insertionsOf grammar options id code session) = .ok script ∧
        result = range.reassemble code script := by
  rcases annotate_cases h with ⟨rfl, hnil, -⟩ | ⟨p, later, -, hrange, hsource, -, hfinish⟩
  · split
    · rfl
    next range _ =>
      -- splicing nothing gives the script back, and the unit with it
      rw [hnil]
      refine ⟨range.script, Insertion.splice_eq_ok_iff.2 ⟨nofun, Utf8.decode_eq_ok_iff.2 rfl⟩, ?_⟩
      simp [ScriptRange.reassemble]
  · rw [hrange]
    rw [Plan.finish, hsource] at hfinish
    cases hscript : Insertion.splice (Utf8.encode p.range.script)
        (insertionsOf grammar options id code session) with
    | error e => rw [hscript] at hfinish; cases hfinish
    | ok script =>
      rw [hscript] at hfinish
      exact ⟨script, hscript, (Except.ok.inj hfinish).symm⟩

end Result

/-! ### What a run looks at -/

theorem prepare_congr {grammar other : Grammar} {id code : Text} (options : Options)
    (h : ∀ range, ScriptRange.extract? code (Identifier.dialect id) = some range →
      grammar range.dialect range.script = other range.dialect range.script) :
    prepare grammar options id code = prepare other options id code := by
  unfold prepare
  split
  · rfl
  · split
    · rfl
    next range hrange => simp only [planScript, syntaxTree, h range hrange]

/-- A run looks at the grammar only for the tree of its script. -/
theorem annotate_congr {grammar other : Grammar} {id code : Text} (options : Options)
    (session : Session)
    (h : ∀ range, ScriptRange.extract? code (Identifier.dialect id) = some range →
      grammar range.dialect range.script = other range.dialect range.script) :
    annotate grammar options id code session = annotate other options id code session ∧
      insertionsOf grammar options id code session = insertionsOf other options id code session := by
  have hprepare := prepare_congr options h
  unfold annotate insertionsOf
  rw [hprepare]
  exact ⟨rfl, rfl⟩

/-- The first line of every comment comes from the description template. -/
theorem insertionsOf_first_line {grammar : Grammar} {options : Options} {id code : Text}
    {session : Session} {settings : Settings}
    (hsettings : (Config.resolve options.sources).1 = .ok settings) :
    ∀ i ∈ insertionsOf grammar options id code session, ∃ values more source offset, i.text =
      Comment.layout (Template.render values settings.templates.description.text :: more) source
        offset := by
  intro i hi
  obtain ⟨plan, target, answer, hplan, -, -, rfl⟩ := exists_answered_of_mem hi
  obtain rfl := Except.ok.inj (hsettings.symm.trans (prepare_some hplan).settings)
  exact ⟨_, _, _, _, rfl⟩

/-! ### Runs with nothing to do -/

/-- Every dialect of an identifier but the container's has a grammar. -/
theorem Identifier.isSupported_dialect {id : Text} (h : dialect id ≠ .vue) :
    (dialect id).isSupported = true := by
  unfold dialect suffixDialect at h ⊢
  split
  · rfl
  split
  · rfl
  split
  · rfl
  split
  · rfl
  split
  next hvue => simp [hvue] at h
  · rfl

theorem ScriptRange.isSupported_blockDialect (attributes : Text) :
    (blockDialect attributes).isSupported = true := by
  unfold blockDialect
  split
  next language _ =>
    unfold languageDialect
    split
    · rfl
    split
    · rfl
    split <;> rfl
  next => rfl

/-- The script of a unit is in a dialect that has a grammar. -/
theorem ScriptRange.isSupported_of_extract? {id code : Text} {range : ScriptRange}
    (h : extract? code (Identifier.dialect id) = some range) : range.dialect.isSupported = true := by
  by_cases hvue : Identifier.dialect id = .vue
  · rw [hvue] at h
    simp only [extract?, block?, Option.bind_eq_bind, Option.bind_eq_some_iff] at h
    obtain ⟨_, -, content, -, _, -, hrange⟩ := h
    obtain rfl := Option.some.inj hrange
    exact isSupported_blockDialect _
  · rw [extract?_plain hvue] at h
    obtain rfl := Option.some.inj h
    exact Identifier.isSupported_dialect hvue

/-- A unit can be planned for, once the configuration is accepted. -/
theorem exists_plan {options : Options} {settings : Settings} {describer : Option Describer}
    (hsettings : (Config.resolve options.sources).1 = .ok settings)
    (hdescriber : Describe.describer options.client settings.ai = .ok describer)
    (grammar : Grammar) (id code : Text) : ∃ plan, (prepare grammar options id code).1 = .ok plan := by
  unfold prepare
  cases hresolve : Config.resolve options.sources with
  | mk resolved warnings =>
    rw [hresolve] at hsettings
    obtain rfl : resolved = .ok settings := hsettings
    cases hrange : ScriptRange.extract? code (Identifier.dialect id) with
    | none => exact ⟨none, rfl⟩
    | some range =>
      -- the script has a tree, since its dialect has a grammar
      simp only [planScript, syntaxTree, ScriptRange.isSupported_of_extract? hrange, if_true,
        hdescriber]
      cases collect (Utf8.encode range.script) (grammar range.dialect range.script) with
      | nil => exact ⟨none, rfl⟩
      | cons target rest => exact ⟨_, rfl⟩

/-- A plain unit without targets comes back as it is, once the configuration is accepted. -/
theorem annotate_of_no_targets {grammar : Grammar} {id code : Text} (options : Options)
    (session : Session) (hplain : Identifier.dialect id ≠ .vue)
    (hnone : collect (Utf8.encode code) (grammar (Identifier.dialect id) code) = []) :
    (annotate grammar options id code session).1 =
      (Config.resolve options.sources).1.map fun _ => code := by
  unfold annotate prepare
  cases hresolve : Config.resolve options.sources with
  | mk settings warnings =>
    cases settings with
    | error e => rfl
    | ok settings =>
      simp only [ScriptRange.extract?_plain hplain, planScript, syntaxTree,
        Identifier.isSupported_dialect hplain, if_true, hnone]
      rfl

end DocAnnotator
