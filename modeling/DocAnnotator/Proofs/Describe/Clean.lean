import Mathlib.Data.List.SplitBy
import DocAnnotator.Proofs.Describe.Fallback

/-! ## A description on one line

    A run of blanks with a line end in it becomes one space, and all other text stays.

    - `runs`: the longest stretches of a text that are all blank, or hold no blank.
    - `restsOf`, `afterBreak?`, `substituted`: the same by a search that goes from left to right,
      takes as much as it can, and gives back where it went too far.
    - `collapse_flatten`: what becomes of a text, told run by run.
    - `substituted_eq`: the search finds exactly the runs with a line end in them.
    - `clean_runs`: the whole statement.
-/

namespace DocAnnotator.Describe

open Text (isBlank trim)

/-- Does the character end a line on its own or as a part of a pair? -/
def isLineEnd (c : Char) : Bool := c = '\n' || c = '\r'

theorem isBlank_of_isLineEnd {c : Char} (h : isLineEnd c = true) : isBlank c = true := by
  simp only [isLineEnd, Bool.or_eq_true, decide_eq_true_eq] at h
  rcases h with rfl | rfl <;> rfl

theorem not_isLineEnd {c : Char} (h : isBlank c = false) : isLineEnd c = false := by
  by_contra hend
  rw [Bool.not_eq_false] at hend
  rw [isBlank_of_isLineEnd hend] at h
  cases h

/-- A run with a line end in it becomes one space, any other run stays. -/
def onOneLine (run : Text) : Text := if run.any isLineEnd then [' '] else run

/-- The longest stretches of a text whose characters are all blank, or all not blank. -/
def runs (s : Text) : List Text := s.splitBy fun a b => isBlank a == isBlank b

/-! ### Run by run -/

theorem flushRun_eq (run : Text) : flushRun run = onOneLine run.reverse := by
  rw [flushRun, onOneLine, List.any_reverse]
  rfl

theorem onOneLine_of_no_lineEnd {run : Text} (h : ∀ c ∈ run, isLineEnd c = false) :
    onOneLine run = run := by
  rw [onOneLine, if_neg]
  rw [Bool.not_eq_true, List.any_eq_false]
  intro c hc
  rw [h c hc]
  exact Bool.false_ne_true

theorem onOneLine_of_not_blank {run : Text} (h : ∀ c ∈ run, isBlank c = false) :
    onOneLine run = run :=
  onOneLine_of_no_lineEnd fun c hc => not_isLineEnd (h c hc)

theorem not_isLineEnd_of_mem_onOneLine {run : Text} : ∀ c ∈ onOneLine run, isLineEnd c = false := by
  intro c hc
  unfold onOneLine at hc
  split at hc
  · obtain rfl := List.mem_singleton.1 hc
    rfl
  next hnone =>
    rw [Bool.not_eq_true, List.any_eq_false] at hnone
    exact Bool.eq_false_iff.2 (hnone c hc)

/-- Reading goes on after a character that is no blank as at the start of a text. -/
theorem collapse_append_cons {run s t : Text} {c : Char} (hc : isBlank c = false) :
    collapse run (s ++ c :: t) = collapse run s ++ c :: collapse [] t := by
  induction s generalizing run with
  | nil => simp [collapse, hc]
  | cons d s ih =>
    rw [List.cons_append, collapse, collapse]
    split
    · exact ih
    · rw [ih, List.append_assoc, List.cons_append]

theorem collapse_not_blank {s : Text} (hs : ∀ c ∈ s, isBlank c = false) (t : Text) :
    collapse [] (s ++ t) = s ++ collapse [] t := by
  induction s with
  | nil => rfl
  | cons c s ih =>
    rw [List.cons_append, ← List.nil_append (c :: (s ++ t)),
      collapse_append_cons (hs c List.mem_cons_self),
      ih fun d hd => hs d (List.mem_cons_of_mem _ hd)]
    rfl

/-- Blanks are gathered until the run ends. -/
theorem collapse_blank {s t : Text} (hs : ∀ c ∈ s, isBlank c = true)
    (ht : ∀ c ∈ t.head?, isBlank c = false) (run : Text) :
    collapse run (s ++ t) = onOneLine (run.reverse ++ s) ++ collapse [] t := by
  induction s generalizing run with
  | nil =>
    cases t with
    | nil => simp [collapse, flushRun_eq, onOneLine]
    | cons c t =>
      have hc := ht c rfl
      simp [collapse, flushRun_eq, hc, onOneLine]
  | cons c s ih =>
    rw [List.cons_append, collapse, if_pos (hs c List.mem_cons_self),
      ih (fun d hd => hs d (List.mem_cons_of_mem _ hd)), List.reverse_cons, List.append_assoc,
      List.singleton_append]

/-- The characters of a run are all like its first one. -/
theorem isBlank_of_isChain {c : Char} {run : Text}
    (h : (c :: run).IsChain fun a b => (isBlank a == isBlank b) = true) :
    ∀ d ∈ c :: run, isBlank d = isBlank c := by
  induction run generalizing c with
  | nil => simp
  | cons e run ih =>
    rw [List.isChain_cons_cons, beq_iff_eq] at h
    intro d hd
    rcases List.mem_cons.1 hd with rfl | hd
    · rfl
    · rw [ih h.2 d hd, h.1]

/-- A text is put on one line run by run. -/
theorem collapse_flatten {parts : List Text} (hne : [] ∉ parts)
    (hrun : ∀ run ∈ parts, run.IsChain fun a b => (isBlank a == isBlank b) = true)
    (hcut : parts.IsChain fun a b =>
      ∃ ha hb, (isBlank (a.getLast ha) == isBlank (b.head hb)) = false) :
    collapse [] parts.flatten = parts.flatMap onOneLine := by
  induction parts with
  | nil => rfl
  | cons run parts ih =>
    have hrest := ih (fun h => hne (List.mem_cons_of_mem _ h))
      (fun r hr => hrun r (List.mem_cons_of_mem _ hr)) hcut.tail
    cases run with
    | nil => exact absurd List.mem_cons_self hne
    | cons c run =>
      have halike := isBlank_of_isChain (hrun _ List.mem_cons_self)
      rw [List.flatten_cons, List.flatMap_cons]
      cases hc : isBlank c with
      | false =>
        have hnone : ∀ d ∈ c :: run, isBlank d = false := fun d hd => (halike d hd).trans hc
        rw [collapse_not_blank hnone, hrest, onOneLine_of_not_blank hnone]
      | true =>
        have hall : ∀ d ∈ c :: run, isBlank d = true := fun d hd => (halike d hd).trans hc
        have hnext : ∀ d ∈ parts.flatten.head?, isBlank d = false := by
          -- the next run starts with a character of the other sort
          cases parts with
          | nil => simp
          | cons next parts =>
            obtain ⟨⟨hlast, hhead, hdiffer⟩, -⟩ := List.isChain_cons_cons.1 hcut
            rw [hall _ (List.getLast_mem hlast)] at hdiffer
            rw [List.flatten_cons, List.head?_append_of_ne_nil _ hhead,
              List.head?_eq_some_head hhead]
            rintro d ⟨rfl⟩
            simpa using hdiffer
        rw [collapse_blank hall hnext, List.reverse_nil, List.nil_append, hrest]

theorem collapse_eq_runs (s : Text) : collapse [] s = (runs s).flatMap onOneLine := by
  obtain ⟨hflat, hne, hrun, hcut⟩ := List.splitBy_eq_iff.1 (rfl : runs s = runs s)
  conv_lhs => rw [hflat]
  exact collapse_flatten hne hrun hcut

/-! ### By a search -/

/-- What a run of characters of a sort can leave of a text, the longest run first. -/
def restsOf (accepts : Char → Bool) : Text → List Text
  | [] => [[]]
  | c :: s => if accepts c then restsOf accepts s ++ [c :: s] else [c :: s]

/-- The same for a run of at least one character. -/
def restsOfSome (accepts : Char → Bool) : Text → List Text
  | [] => []
  | c :: s => if accepts c then restsOf accepts s else []

/-- What blanks, line ends and blanks again leave of a text: each takes as much as it can, and gives
    back for as long as there is no line end for the second. -/
def afterBreak? (s : Text) : Option Text :=
  ((restsOf isBlank s).flatMap fun s => (restsOfSome isLineEnd s).flatMap (restsOf isBlank)).head?

theorem head?_restsOf (accepts : Char → Bool) (s : Text) :
    (restsOf accepts s).head? = some (s.dropWhile accepts) := by
  induction s with
  | nil => rfl
  | cons c s ih =>
    rw [restsOf, List.dropWhile_cons]
    split
    · rw [List.head?_append, ih]
      rfl
    · rfl

theorem restsOf_of_not_accepts {accepts : Char → Bool} {s : Text}
    (h : ∀ c ∈ s.head?, accepts c = false) : restsOf accepts s = [s] := by
  cases s with
  | nil => rfl
  | cons c s => rw [restsOf, h c rfl, if_neg Bool.false_ne_true]

/-- Nothing is found in a run without a line end. In any other one, the blanks in front give back
    up to the last line end, and the blanks behind take what is left of the run. -/
theorem afterBreak?_eq (s : Text) :
    afterBreak? s =
      if (s.takeWhile isBlank).any isLineEnd then some (s.dropWhile isBlank) else none := by
  induction s with
  | nil => rfl
  | cons c s ih =>
    cases hc : isBlank c with
    | false =>
      simp [afterBreak?, restsOf, restsOfSome, hc, not_isLineEnd hc]
    | true =>
      rw [afterBreak?] at ih
      rw [afterBreak?, restsOf, if_pos hc, List.flatMap_append, List.head?_append, ih,
        List.takeWhile_cons_of_pos hc, List.dropWhile_cons_of_pos hc, List.any_cons]
      cases hmore : (s.takeWhile isBlank).any isLineEnd with
      | true => simp
      | false =>
        -- the last line end of the run, if there is one, is `c`
        cases hend : isLineEnd c with
        | false => simp [restsOfSome, hend]
        | true =>
          have hnone : ∀ d ∈ s.head?, isLineEnd d = false := by
            intro d hd
            cases hd' : isBlank d with
            | false => exact not_isLineEnd hd'
            | true =>
              obtain ⟨t, rfl⟩ := List.head?_eq_some_iff.1 hd
              rw [List.takeWhile_cons_of_pos hd', List.any_cons, Bool.or_eq_false_iff] at hmore
              exact hmore.1
          simp [restsOfSome, hend, restsOf_of_not_accepts hnone, head?_restsOf]

/-- A break takes up at least one character. -/
theorem length_afterBreak? {s rest : Text} (h : afterBreak? s = some rest) :
    rest.length < s.length := by
  rw [afterBreak?_eq] at h
  split at h
  next hbreak =>
    obtain rfl := Option.some.inj h
    cases s with
    | nil => cases hbreak
    | cons c s =>
      cases hc : isBlank c with
      | false => simp [hc] at hbreak
      | true =>
        rw [List.dropWhile_cons_of_pos hc]
        exact Nat.lt_succ_of_le (List.dropWhile_suffix _).length_le
  next => cases h

/-- Text in which every break that is found, from left to right, is replaced by a space. -/
def substituted (s : Text) : Text :=
  match _h : afterBreak? s with
  | some rest => ' ' :: substituted rest
  | none =>
    match s with
    | [] => []
    | c :: s => c :: substituted s
  termination_by s.length
  decreasing_by
  · exact length_afterBreak? _h
  · simp

theorem substituted_nil : substituted [] = [] := by
  rw [substituted]
  rfl

theorem substituted_of_break {s rest : Text} (h : afterBreak? s = some rest) :
    substituted s = ' ' :: substituted rest := by
  rw [substituted]
  split
  next rest' h' => rw [Option.some.inj (h'.symm.trans h)]
  next h' => rw [h] at h'; cases h'

theorem substituted_cons {c : Char} {s : Text} (h : afterBreak? (c :: s) = none) :
    substituted (c :: s) = c :: substituted s := by
  rw [substituted]
  split
  next rest h' => rw [h] at h'; cases h'
  next => rfl

theorem takeWhile_isBlank_append {s t : Text} (hs : ∀ c ∈ s, isBlank c = true)
    (ht : ∀ c ∈ t.head?, isBlank c = false) : (s ++ t).takeWhile isBlank = s := by
  rw [List.takeWhile_append_of_pos hs]
  cases t with
  | nil => rw [List.takeWhile_nil, List.append_nil]
  | cons d t => rw [List.takeWhile_cons_of_neg (by simp [ht d rfl]), List.append_nil]

/-- A run without a line end is passed over, blank by blank. -/
theorem substituted_blank {s t : Text} (hs : ∀ c ∈ s, isBlank c = true)
    (hnone : s.any isLineEnd = false) (ht : ∀ c ∈ t.head?, isBlank c = false) :
    substituted (s ++ t) = s ++ substituted t := by
  induction s with
  | nil => rfl
  | cons c s ih =>
    have hbreak : afterBreak? (c :: (s ++ t)) = none := by
      rw [afterBreak?_eq, ← List.cons_append, takeWhile_isBlank_append hs ht, hnone]
      rfl
    rw [List.any_cons, Bool.or_eq_false_iff] at hnone
    rw [List.cons_append, substituted_cons hbreak,
      ih (fun d hd => hs d (List.mem_cons_of_mem _ hd)) hnone.2]
    rfl

/-- A run of blanks is replaced as a whole, or not at all. -/
theorem substituted_run {s t : Text} (hs : ∀ c ∈ s, isBlank c = true)
    (ht : ∀ c ∈ t.head?, isBlank c = false) :
    substituted (s ++ t) = onOneLine s ++ substituted t := by
  rw [onOneLine]
  split
  next hend =>
    have hdrop : (s ++ t).dropWhile isBlank = t := by
      have hcut := List.takeWhile_append_dropWhile (p := isBlank) (l := s ++ t)
      rw [takeWhile_isBlank_append hs ht] at hcut
      exact List.append_cancel_left hcut
    have hbreak : afterBreak? (s ++ t) = some t := by
      rw [afterBreak?_eq, takeWhile_isBlank_append hs ht, hend, if_pos rfl, hdrop]
    rw [substituted_of_break hbreak]
    rfl
  next hend => exact substituted_blank hs (Bool.eq_false_iff.2 hend) ht

/-- The search replaces the runs with a line end in them and nothing else. -/
theorem substituted_eq (s : Text) : substituted s = collapse [] s := by
  induction hlength : s.length using Nat.strong_induction_on generalizing s with
  | _ n ih =>
    subst hlength
    cases s with
    | nil => rw [substituted_nil]; rfl
    | cons c s =>
      cases hc : isBlank c with
      | false =>
        have hbreak : afterBreak? (c :: s) = none := by
          rw [afterBreak?_eq, List.takeWhile_cons_of_neg (by simp [hc])]
          rfl
        rw [substituted_cons hbreak, ih s.length (by simp) s rfl, collapse, hc]
        rfl
      | true =>
        -- the run that starts here, and the text behind it
        obtain ⟨run, rest, hcut, hblank, hnext, hshorter⟩ : ∃ run rest, c :: s = run ++ rest ∧
            (∀ d ∈ run, isBlank d = true) ∧ (∀ d ∈ rest.head?, isBlank d = false) ∧
            rest.length < (c :: s).length := by
          refine ⟨_, _, List.takeWhile_append_dropWhile.symm, fun d hd => List.mem_takeWhile_imp hd,
            fun d hd => ?_, ?_⟩
          · have hhead := List.head?_dropWhile_not isBlank (c :: s)
            rwa [hd] at hhead
          · rw [List.dropWhile_cons_of_pos hc]
            exact Nat.lt_succ_of_le (List.dropWhile_suffix _).length_le
        rw [hcut, substituted_run hblank hnext, collapse_blank hblank hnext, ih _ hshorter rest rfl]
        rfl

/-! ### What is left -/

theorem not_isLineEnd_of_mem_clean (text : Text) : ∀ c ∈ clean text, isLineEnd c = false := by
  intro c hc
  rw [clean, collapse_eq_runs] at hc
  obtain ⟨run, -, hrun⟩ := List.mem_flatMap.1 hc
  exact not_isLineEnd_of_mem_onOneLine c hrun

theorem not_blank_of_getLast?_trim (text : Text) :
    ∀ c ∈ (trim text).getLast?, isBlank c = false := by
  intro c hc
  have hhead := List.head?_dropWhile_not isBlank (Text.trimStart text).reverse
  rw [trim, Text.trimEnd, List.getLast?_reverse] at hc
  rw [hc] at hhead
  exact hhead

/-- What starts and ends with a character that is no blank still does on one line. -/
theorem clean_ends (text : Text) :
    (∀ c ∈ (clean text).head?, isBlank c = false) ∧
      ∀ c ∈ (clean text).getLast?, isBlank c = false := by
  rw [clean]
  cases htrim : trim text with
  | nil => simp [collapse, flushRun]
  | cons c s =>
    have hc : isBlank c = false := Text.not_blank_of_trim (by rw [← htrim, Text.trim_trim])
    constructor
    · simp [collapse, hc, flushRun]
    · -- the last character, told from those before it
      obtain ⟨front, last, hlast⟩ := (List.eq_nil_or_concat' (c :: s)).resolve_left (by simp)
      have hblank : isBlank last = false := by
        have hend := not_blank_of_getLast?_trim text last
        rw [htrim, hlast] at hend
        exact hend (by simp)
      rw [hlast, collapse_append_cons hblank]
      simp [collapse, flushRun, hblank]

/-- A text without a line end is on one line already. -/
theorem collapse_of_no_lineEnd {s : Text} (h : ∀ c ∈ s, isLineEnd c = false) :
    collapse [] s = s := by
  have hflat : (runs s).flatten = s := List.flatten_splitBy _ s
  have hsame : ∀ run ∈ runs s, onOneLine run = run := by
    intro run hrun
    refine onOneLine_of_no_lineEnd fun c hc => h c ?_
    rw [← hflat]
    exact List.mem_flatten.2 ⟨run, hrun, hc⟩
  rw [collapse_eq_runs, List.flatMap_def, List.map_congr_left hsame, List.map_id', hflat]

theorem trim_of_ends {s : Text} (hhead : ∀ c ∈ s.head?, isBlank c = false)
    (hlast : ∀ c ∈ s.getLast?, isBlank c = false) : trim s = s := by
  cases s with
  | nil => rfl
  | cons c s =>
    obtain ⟨front, last, heq⟩ := (List.eq_nil_or_concat' (c :: s)).resolve_left (by simp)
    have hblank : isBlank last = false := hlast last (by rw [heq]; simp)
    rw [trim, Text.trimStart, List.dropWhile_cons_of_neg (by simp [hhead c rfl]), heq,
      Text.trimEnd_append_cons hblank]
    rfl

/-- Only a text of blanks becomes empty. -/
theorem clean_ne_nil_iff (text : Text) : clean text ≠ [] ↔ ∃ c ∈ text, isBlank c = false := by
  constructor
  · intro hne
    by_contra hall
    have hblank : ∀ c ∈ text, isBlank c = true := by
      intro c hc
      by_contra hnot
      exact hall ⟨c, hc, by simpa using hnot⟩
    have htrim : trim text = [] := by
      have hnil := Text.trim_blank_append (t := []) hblank
      rwa [List.append_nil] at hnil
    rw [clean, htrim] at hne
    exact hne rfl
  · exact clean_ne_nil

/-- A description is the trimmed text with each run of blanks that holds a line end turned into one
    space, and all else as it is; a search from left to right that gives back where it took too much
    finds just these runs. It has no line end and no blank at its ends, is empty only if the text is
    blank, and stays as it is from then on. -/
theorem clean_runs (text : Text) :
    clean text = substituted (trim text) ∧
    clean text = (runs (trim text)).flatMap onOneLine ∧
    (∀ c ∈ clean text, c ≠ '\r' ∧ c ≠ '\n') ∧
    (∀ c ∈ (clean text).head?, isBlank c = false) ∧
    (∀ c ∈ (clean text).getLast?, isBlank c = false) ∧
    (clean text ≠ [] ↔ ∃ c ∈ text, isBlank c = false) ∧
    clean (clean text) = clean text := by
  have hends := clean_ends text
  have hone := not_isLineEnd_of_mem_clean text
  refine ⟨(substituted_eq _).symm, collapse_eq_runs _, fun c hc => ?_, hends.1, hends.2,
    clean_ne_nil_iff text, ?_⟩
  · have hc := hone c hc
    simp only [isLineEnd, Bool.or_eq_false_iff, decide_eq_false_iff_not] at hc
    exact ⟨hc.2, hc.1⟩
  · calc clean (clean text) = collapse [] (trim (clean text)) := rfl
      _ = collapse [] (clean text) := by rw [trim_of_ends hends.1 hends.2]
      _ = clean text := collapse_of_no_lineEnd hone

example : clean " one \t\r\n\x0c two  three\n".toList = "one two  three".toList := by
  decide +kernel

end DocAnnotator.Describe
