import Mathlib.Data.List.DropRight
import Mathlib.Data.List.Infix
import DocAnnotator.Text.Blank

/-! ## Trimming and splitting

    What trimming leaves and what the lines of a text can hold.

    - `trimEnd_append_cons`: trimming stops at the last character that is not blank.
    - `trimEnd_append_blank`: blanks at the end do not survive.
    - `exists_trim`, `trim_trim`: trimming takes blanks off both ends, and leaves none there.
    - `splitLines_infix`, `not_lineBreak_of_mem_splitLines`: a line is a part of its text, and holds
      no line break.
-/

namespace DocAnnotator.Text

/-! ### Trimming -/

theorem trimEnd_isPrefix (s : Text) : trimEnd s <+: s := by
  have h := List.dropWhile_suffix (l := s.reverse) isBlank
  rw [← List.reverse_prefix, List.reverse_reverse] at h
  exact h

theorem trimEnd_append_cons {s t : Text} {c : Char} (hc : isBlank c = false) :
    trimEnd (s ++ c :: t) = s ++ c :: trimEnd t := by
  have hrev : (s ++ c :: t).reverse = t.reverse ++ (c :: s.reverse) := by simp
  rw [trimEnd, hrev, List.dropWhile_append]
  split
  next h =>
    -- `t` is all blank, and trimming stops at `c`
    have ht : trimEnd t = [] := by rw [trimEnd, List.isEmpty_iff.1 h, List.reverse_nil]
    rw [ht, List.dropWhile_cons_of_neg (by simp [hc])]
    simp
  next => simp [trimEnd]

theorem trimEnd_append_blank {s t : Text} (ht : ∀ c ∈ t, isBlank c = true) :
    trimEnd (s ++ t) = trimEnd s := by
  rw [trimEnd, List.reverse_append, List.dropWhile_append_of_pos]
  · rfl
  · intro c hc
    exact ht c (List.mem_reverse.1 hc)

theorem trim_cons_blank {s : Text} {c : Char} (hc : isBlank c = true) :
    trim (c :: s) = trim s := by
  unfold trim trimStart
  rw [List.dropWhile_cons_of_pos hc]

theorem trim_append_blank {s t : Text} (ht : ∀ c ∈ t, isBlank c = true) :
    trim (s ++ t) = trim s := by
  unfold trim trimStart
  rw [List.dropWhile_append]
  split
  next h =>
    have hdrop : t.dropWhile isBlank = [] := List.dropWhile_eq_nil_iff.2 ht
    rw [hdrop, List.isEmpty_iff.1 h]
  next => exact trimEnd_append_blank ht

/-- Trimming stops at a first character that is not blank. -/
theorem trim_cons {s : Text} {c : Char} (hc : isBlank c = false) :
    trim (c :: s) = c :: trimEnd s := by
  unfold trim trimStart
  rw [List.dropWhile_cons_of_neg (by simp [hc])]
  exact trimEnd_append_cons (s := []) hc

/-- A text is its trimmed form with blanks around it. -/
theorem exists_trim (s : Text) :
    ∃ a b, s = a ++ trim s ++ b ∧ (∀ c ∈ a, isBlank c = true) ∧ ∀ c ∈ b, isBlank c = true := by
  refine ⟨s.takeWhile isBlank, ((trimStart s).reverse.takeWhile isBlank).reverse, ?_, ?_, ?_⟩
  · have hend : trim s ++ ((trimStart s).reverse.takeWhile isBlank).reverse = trimStart s := by
      unfold trim trimEnd
      rw [← List.reverse_append, List.takeWhile_append_dropWhile, List.reverse_reverse]
    rw [List.append_assoc, hend]
    exact List.takeWhile_append_dropWhile.symm
  · exact fun c hc => List.mem_takeWhile_imp hc
  · exact fun c hc => List.mem_takeWhile_imp (List.mem_reverse.1 hc)

/-- Trimming keeps what is not blank. -/
theorem mem_trim {s : Text} {c : Char} (hmem : c ∈ s) (hc : isBlank c = false) : c ∈ trim s := by
  obtain ⟨a, b, hs, ha, hb⟩ := exists_trim s
  rw [hs, List.mem_append, List.mem_append] at hmem
  rcases hmem with (hfront | hmiddle) | hback
  · simp [ha c hfront] at hc
  · exact hmiddle
  · simp [hb c hback] at hc

theorem trim_blank_append {s t : Text} (hs : ∀ c ∈ s, isBlank c = true) :
    trim (s ++ t) = trim t := by
  unfold trim trimStart
  rw [List.dropWhile_append_of_pos hs]

/-- Without a blank in it, a text is trimmed. -/
theorem trim_of_not_blank {s : Text} (h : ∀ c ∈ s, isBlank c = false) : trim s = s := by
  obtain ⟨a, b, hs, ha, hb⟩ := exists_trim s
  have hnone : ∀ t : Text, (∀ c ∈ t, isBlank c = true) → (∀ c ∈ t, c ∈ s) → t = [] := by
    intro t ht hsub
    rw [List.eq_nil_iff_forall_not_mem]
    intro c hc
    have hblank := ht c hc
    rw [h c (hsub c hc)] at hblank
    exact Bool.noConfusion hblank
  have hfront : a = [] := hnone a ha fun c hc => by rw [hs]; simp [hc]
  have hback : b = [] := hnone b hb fun c hc => by rw [hs]; simp [hc]
  rw [hfront, hback, List.nil_append, List.append_nil] at hs
  exact hs.symm

theorem length_trim_le (s : Text) : (trim s).length ≤ s.length := by
  refine (trimEnd_isPrefix _).length_le.trans ?_
  exact (List.dropWhile_suffix _).length_le

/-- What is trimmed does not start with a blank. -/
theorem not_blank_of_trim {s : Text} {c : Char} (h : trim (c :: s) = c :: s) :
    isBlank c = false := by
  by_contra hblank
  rw [Bool.not_eq_false] at hblank
  rw [trim_cons_blank hblank] at h
  have hle := length_trim_le s
  rw [h, List.length_cons] at hle
  omega

/-- What trimming leaves does not start with a blank. -/
theorem trimStart_trim (s : Text) : trimStart (trim s) = trim s := by
  obtain ⟨rest, hrest⟩ := trimEnd_isPrefix (trimStart s)
  change trim s ++ rest = trimStart s at hrest
  cases htrim : trim s with
  | nil => rfl
  | cons c t =>
    rw [htrim] at hrest
    have hc : isBlank c = false := by
      have hhead := List.head?_dropWhile_not isBlank s
      have hdrop : s.dropWhile isBlank = c :: t ++ rest := hrest.symm
      rw [hdrop] at hhead
      exact hhead
    exact List.dropWhile_cons_of_neg (by simp [hc])

theorem trim_trim (s : Text) : trim (trim s) = trim s := by
  have hend : trimEnd (trim s) = trim s := by
    unfold trim trimEnd
    rw [List.reverse_reverse, List.dropWhile_idempotent]
  calc trim (trim s) = trimEnd (trimStart (trim s)) := rfl
    _ = trimEnd (trim s) := by rw [trimStart_trim]
    _ = trim s := hend

/-! ### Lines -/

/-- A line is a part of its text, and the first line stands at its start. -/
theorem splitLines_infix (s : Text) :
    (∀ line more, splitLines s = line :: more → line <+: s) ∧
      ∀ line ∈ splitLines s, line <:+: s := by
  fun_induction splitLines s with
  | case1 => simp
  | case2 s ih =>
    refine ⟨fun line more h => ?_, fun line hline => ?_⟩
    · obtain ⟨rfl, -⟩ := List.cons.inj h
      exact List.nil_prefix
    · rcases List.mem_cons.1 hline with rfl | hline
      · exact List.nil_infix
      · exact (ih.2 line hline).trans ⟨['\r', '\n'], [], by simp⟩
  | case3 c s _ hc ih =>
    refine ⟨fun line more h => ?_, fun line hline => ?_⟩
    · obtain ⟨rfl, -⟩ := List.cons.inj h
      exact List.nil_prefix
    · rcases List.mem_cons.1 hline with rfl | hline
      · exact List.nil_infix
      · exact (ih.2 line hline).trans (List.suffix_cons c s).isInfix
  | case4 c s _ hc hs ih =>
    -- the text ends in `c`, which is a line of its own
    have hfirst : [c] <+: c :: s := ⟨s, rfl⟩
    refine ⟨fun line more h => ?_, fun line hline => ?_⟩
    · obtain ⟨rfl, -⟩ := List.cons.inj h
      exact hfirst
    · obtain rfl := List.mem_singleton.1 hline
      exact hfirst.isInfix
  | case5 c s _ hc first more hs ih =>
    -- `c` goes in front of the first line of the rest
    have hfirst : c :: first <+: c :: s := List.prefix_cons_inj c |>.2 (ih.1 first more hs)
    refine ⟨fun line rest h => ?_, fun line hline => ?_⟩
    · obtain ⟨rfl, -⟩ := List.cons.inj h
      exact hfirst
    · rcases List.mem_cons.1 hline with rfl | hline
      · exact hfirst.isInfix
      · have hmem : line ∈ splitLines s := hs ▸ List.mem_cons_of_mem _ hline
        exact (ih.2 line hmem).trans (List.suffix_cons c s).isInfix

/-- No line holds a line break. -/
theorem not_lineBreak_of_mem_splitLines {s line : Text} (h : line ∈ splitLines s) :
    ∀ c ∈ line, isLineBreak c = false := by
  fun_induction splitLines s generalizing line with
  | case1 => simp at h
  | case2 s ih =>
    rcases List.mem_cons.1 h with rfl | h
    · simp
    · exact ih h
  | case3 c s _ hc ih =>
    rcases List.mem_cons.1 h with rfl | h
    · simp
    · exact ih h
  | case4 c s _ hc hs ih =>
    obtain rfl := List.mem_singleton.1 h
    simpa using hc
  | case5 c s _ hc first more hs ih =>
    rw [hs] at ih
    rcases List.mem_cons.1 h with rfl | h
    · intro d hd
      rcases List.mem_cons.1 hd with rfl | hd
      · simpa using hc
      · exact ih List.mem_cons_self d hd
    · exact ih (List.mem_cons_of_mem _ h)

end DocAnnotator.Text
