import Mathlib.Algebra.Order.Field.Power
import Mathlib.Algebra.Order.Field.Rat
import Mathlib.Tactic.FieldSimp
import Mathlib.Tactic.Linarith
import Mathlib.Tactic.NormNum
import Mathlib.Tactic.Positivity
import Mathlib.Tactic.Ring
import DocAnnotator.Json.Nearest

/-! ## Where the nearest binary fraction changes

    A decimal is compared with the rational number that it denotes. Rounding goes to zero up to one
    half of the smallest fraction, reaches one from a quarter of a unit of the last place below it,
    and leaves the range from the midpoint above the largest fraction.

    - `le_roundDiv_iff`: when a rounded quotient reaches a number; a half counts for even ones.
    - `log2Quotient_spec`: the power of two below a quotient.
    - `pow_le_nearest_iff`: when the nearest fraction reaches a power of two.
    - `roundDecimal_cases`: the three places where the rounding of a decimal changes.
-/

namespace DocAnnotator.Number

/-- The rational number `mantissa · 10 ^ exponent`. -/
def decimalValue (mantissa exponent : Int) : ℚ := mantissa * 10 ^ exponent

/-- Values up to here round to zero: half of the smallest fraction, whose neighbour is even. -/
def vanishing : ℚ := 2 ^ (-1075 : ℤ)

/-- Values from here on round to one or more: the midpoint between one and the fraction below. -/
def unity : ℚ := 1 - 2 ^ (-54 : ℤ)

/-- Values from here on have no fraction: the midpoint between the largest one and `2 ^ 1024`. -/
def beyond : ℚ := 2 ^ (1024 : ℤ) - 2 ^ (970 : ℤ)

theorem vanishing_pos : 0 < vanishing := by
  unfold vanishing
  positivity

theorem two_zpow_le_beyond {j : ℤ} (hj : j ≤ 1023) : (2 : ℚ) ^ j ≤ beyond := by
  have htwice : (2 : ℚ) ^ (1024 : ℤ) = 2 ^ (1023 : ℤ) * 2 := zpow_add_one₀ two_ne_zero 1023
  calc (2 : ℚ) ^ j ≤ 2 ^ (1023 : ℤ) := zpow_le_zpow_right₀ one_le_two hj
    _ = 2 ^ (1024 : ℤ) - 2 ^ (1023 : ℤ) := by rw [htwice, mul_two, add_sub_cancel_right]
    _ ≤ beyond := sub_le_sub_left (zpow_le_zpow_right₀ one_le_two (by decide)) _

theorem vanishing_lt_beyond : vanishing < beyond := by
  have hsmall : vanishing < 2 ^ (0 : ℤ) := zpow_lt_zpow_right₀ one_lt_two (by decide)
  exact hsmall.trans_le (two_zpow_le_beyond (by decide))

/-! ### Rounding a quotient -/

/-- A rounded quotient reaches a number from one half below it on; the half itself is rounded up
    only to an even number. -/
theorem le_roundDiv_iff_mul {num den : Nat} (hden : 0 < den) (t : Nat) :
    t ≤ roundDiv num den ↔
      if t % 2 = 0 then 2 * (t * den) ≤ 2 * num + den else 2 * (t * den) < 2 * num + den := by
  have hnum := Nat.div_add_mod num den
  have hrest := Nat.mod_lt num hden
  rw [Nat.mul_comm] at hnum
  -- the products are the only terms that are not linear
  have hside : t * den ≤ num / den * den ∧ t ≤ num / den ∨
      t * den = num / den * den + den ∧ t = num / den + 1 ∨
      num / den * den + 2 * den ≤ t * den ∧ num / den + 2 ≤ t := by
    rcases Nat.lt_trichotomy t (num / den + 1) with h | h | h
    · have hle : t ≤ num / den := by omega
      exact .inl ⟨Nat.mul_le_mul_right den hle, hle⟩
    · refine .inr (.inl ⟨?_, h⟩)
      rw [h, Nat.succ_mul]
    · have hle : num / den + 2 ≤ t := by omega
      have hmul := Nat.mul_le_mul_right den hle
      rw [Nat.add_mul] at hmul
      exact .inr (.inr ⟨hmul, hle⟩)
  unfold roundDiv
  simp only
  by_cases hlow : 2 * (num % den) < den
  · rw [if_pos hlow]
    split <;> omega
  · by_cases hhigh : den < 2 * (num % den)
    · rw [if_neg hlow, if_pos hhigh]
      split <;> omega
    · rw [if_neg hlow, if_neg hhigh]
      split <;> omega

theorem le_roundDiv_iff {num den : Nat} (hden : 0 < den) (t : Nat) :
    t ≤ roundDiv num den ↔
      if t % 2 = 0 then (t : ℚ) - 1 / 2 ≤ num / den else (t : ℚ) - 1 / 2 < num / den := by
  have hdenq : (0 : ℚ) < den := by exact_mod_cast hden
  rw [le_roundDiv_iff_mul hden, le_div_iff₀ hdenq, lt_div_iff₀ hdenq]
  split
  · rw [← Nat.cast_le (α := ℚ)]
    push_cast
    constructor <;> intro h <;> linarith
  · rw [← Nat.cast_lt (α := ℚ)]
    push_cast
    constructor <;> intro h <;> linarith

/-! ### Powers of two -/

theorem two_zpow_of_nonneg {e : Int} (h : 0 ≤ e) : ((2 ^ e.toNat : Nat) : ℚ) = 2 ^ e := by
  rw [Nat.cast_pow, Nat.cast_ofNat, ← zpow_natCast, Int.toNat_of_nonneg h]

theorem two_zpow_of_neg {e : Int} (h : ¬ 0 ≤ e) : ((2 ^ (-e).toNat : Nat) : ℚ) = (2 ^ e)⁻¹ := by
  have hneg : 0 ≤ -e := by omega
  rw [two_zpow_of_nonneg hneg, zpow_neg]

/-- The comparison that finds the exponent is one of rational numbers. -/
theorem fits_iff (num : Nat) {den : Nat} (hden : 0 < den) (k : Int) :
    (if 0 ≤ k then den * Nat.pow 2 k.toNat ≤ num else den ≤ num * Nat.pow 2 (-k).toNat) ↔
      (2 : ℚ) ^ k ≤ num / den := by
  have hdenq : (0 : ℚ) < den := by exact_mod_cast hden
  have hpow : (0 : ℚ) < 2 ^ k := by positivity
  rw [le_div_iff₀ hdenq]
  by_cases hk : 0 ≤ k
  · rw [if_pos hk, Nat.pow_eq, ← Nat.cast_le (α := ℚ), Nat.cast_mul, two_zpow_of_nonneg hk,
      mul_comm]
  · rw [if_neg hk, Nat.pow_eq, ← Nat.cast_le (α := ℚ), Nat.cast_mul, two_zpow_of_neg hk,
      ← div_eq_mul_inv, le_div_iff₀ hpow, mul_comm]

/-- The exponent found is that of the greatest power of two below the quotient. -/
theorem log2Quotient_spec {num den : Nat} (hnum : 0 < num) (hden : 0 < den) :
    (2 : ℚ) ^ log2Quotient num den ≤ num / den ∧
      (num : ℚ) / den < 2 ^ (log2Quotient num den + 1) := by
  have hdenq : (0 : ℚ) < den := by exact_mod_cast hden
  have hlow : ((2 ^ num.log2 : Nat) : ℚ) ≤ num := by
    exact_mod_cast Nat.log2_self_le hnum.ne'
  have hhigh : (num : ℚ) < ((2 ^ (num.log2 + 1) : Nat) : ℚ) := by
    exact_mod_cast Nat.lt_log2_self (n := num)
  have hlow' : ((2 ^ den.log2 : Nat) : ℚ) ≤ den := by
    exact_mod_cast Nat.log2_self_le hden.ne'
  have hhigh' : (den : ℚ) < ((2 ^ (den.log2 + 1) : Nat) : ℚ) := by
    exact_mod_cast Nat.lt_log2_self (n := den)
  push_cast at hlow hhigh hlow' hhigh'
  -- the difference of the logarithms is right, or one too large
  have habove : (num : ℚ) / den < 2 ^ ((num.log2 : Int) - den.log2 + 1) := by
    rw [div_lt_iff₀ hdenq]
    calc (num : ℚ) < 2 ^ (num.log2 + 1) := hhigh
      _ = 2 ^ ((num.log2 : Int) - den.log2 + 1) * 2 ^ den.log2 := by
        rw [← zpow_natCast, ← zpow_natCast, ← zpow_add₀ two_ne_zero]
        congr 1
        push_cast
        ring
      _ ≤ 2 ^ ((num.log2 : Int) - den.log2 + 1) * den := by gcongr
  have hbelow : (2 : ℚ) ^ ((num.log2 : Int) - den.log2 - 1) ≤ num / den := by
    rw [le_div_iff₀ hdenq]
    calc (2 : ℚ) ^ ((num.log2 : Int) - den.log2 - 1) * den
        ≤ 2 ^ ((num.log2 : Int) - den.log2 - 1) * 2 ^ (den.log2 + 1) := by gcongr
      _ = 2 ^ num.log2 := by
        rw [← zpow_natCast, ← zpow_natCast, ← zpow_add₀ two_ne_zero]
        congr 1
        push_cast
        ring
      _ ≤ num := hlow
  have hfits := fits_iff num hden ((num.log2 : Int) - den.log2)
  unfold log2Quotient
  by_cases hle : (2 : ℚ) ^ ((num.log2 : Int) - den.log2) ≤ num / den
  · simp only [if_pos (hfits.2 hle)]
    exact ⟨hle, habove⟩
  · simp only [if_neg (fun h => hle (hfits.1 h))]
    refine ⟨hbelow, ?_⟩
    rw [sub_add_cancel]
    exact not_le.1 hle

/-! ### The nearest fraction -/

/-- The exponent of the nearest fraction: 53 bits, but no smaller unit than `2 ^ -1074`. -/
theorem nearest_exponent (num den : Nat) :
    (nearest num den).exponent = max (-1074) (log2Quotient num den - 52) := by
  unfold nearest
  simp only
  split <;> rfl

/-- The mantissa of the nearest fraction is the quotient rounded in units of its exponent. -/
theorem exists_scaled (num : Nat) {den : Nat} (hden : 0 < den) :
    ∃ a b : Nat, 0 < b ∧ (nearest num den).mantissa = roundDiv a b ∧
      (a : ℚ) / b = num / den / 2 ^ (nearest num den).exponent := by
  rw [nearest_exponent]
  unfold nearest
  simp only
  generalize max (-1074) (log2Quotient num den - 52) = e
  by_cases he : 0 ≤ e
  · refine ⟨num, den * Nat.pow 2 e.toNat, Nat.mul_pos hden (Nat.two_pow_pos _), ?_, ?_⟩
    · rw [if_pos he]
    · rw [Nat.cast_mul, Nat.pow_eq, two_zpow_of_nonneg he, div_div]
  · refine ⟨num * Nat.pow 2 (-e).toNat, den, hden, ?_, ?_⟩
    · rw [if_neg he]
    · rw [Nat.cast_mul, Nat.pow_eq, two_zpow_of_neg he]
      ring

/-- The mantissa reaches a number from half a unit below it on. -/
theorem le_mantissa_iff (num : Nat) {den : Nat} (hden : 0 < den) (t : Nat) :
    t ≤ (nearest num den).mantissa ↔
      if t % 2 = 0 then ((t : ℚ) - 1 / 2) * 2 ^ (nearest num den).exponent ≤ num / den
      else ((t : ℚ) - 1 / 2) * 2 ^ (nearest num den).exponent < num / den := by
  obtain ⟨a, b, hb, hmantissa, hscaled⟩ := exists_scaled num hden
  have hpow : (0 : ℚ) < 2 ^ (nearest num den).exponent := by positivity
  rw [hmantissa, le_roundDiv_iff hb, hscaled, le_div_iff₀ hpow, lt_div_iff₀ hpow]

/-- The whole part of a fraction reaches what the fraction reaches. -/
theorem le_floor_iff (b : Binary) (n : Nat) :
    n ≤ b.floor ↔ (n : ℚ) ≤ b.mantissa * 2 ^ b.exponent := by
  unfold Binary.floor
  by_cases he : 0 ≤ b.exponent
  · rw [if_pos he, ← Nat.cast_le (α := ℚ), Nat.cast_mul, Nat.pow_eq, two_zpow_of_nonneg he]
  · have hpos : 0 < Nat.pow 2 (-b.exponent).toNat := Nat.two_pow_pos _
    have hpow : (0 : ℚ) < 2 ^ b.exponent := by positivity
    rw [if_neg he, Nat.le_div_iff_mul_le hpos, ← Nat.cast_le (α := ℚ), Nat.cast_mul, Nat.pow_eq,
      two_zpow_of_neg he, ← div_eq_mul_inv, div_le_iff₀ hpow]

/-- The nearest fraction reaches a power of two no smaller than its unit from half a unit below
    that power on. -/
theorem pow_le_nearest_of_le (num : Nat) {den : Nat} (hden : 0 < den) {j : Int}
    (hj : (nearest num den).exponent ≤ j) :
    (2 : ℚ) ^ j ≤ (nearest num den).mantissa * 2 ^ (nearest num den).exponent ↔
      if (nearest num den).exponent < j then
        (2 : ℚ) ^ j - 2 ^ ((nearest num den).exponent - 1) ≤ num / den
      else (2 : ℚ) ^ j - 2 ^ ((nearest num den).exponent - 1) < num / den := by
  have hmantissa := le_mantissa_iff num hden
  generalize (nearest num den).exponent = e at hj hmantissa ⊢
  generalize (nearest num den).mantissa = m at hmantissa ⊢
  have hpow : (0 : ℚ) < 2 ^ e := by positivity
  have hdiff : 0 ≤ j - e := by omega
  have hsplit : (2 : ℚ) ^ j = ((2 ^ (j - e).toNat : Nat) : ℚ) * 2 ^ e := by
    rw [two_zpow_of_nonneg hdiff, ← zpow_add₀ two_ne_zero, sub_add_cancel]
  have hhalf : (((2 ^ (j - e).toNat : Nat) : ℚ) - 1 / 2) * 2 ^ e = 2 ^ j - 2 ^ (e - 1) := by
    rw [sub_mul, ← hsplit, zpow_sub_one₀ two_ne_zero]
    ring
  have hreach : (2 : ℚ) ^ j ≤ m * 2 ^ e ↔ 2 ^ (j - e).toNat ≤ m := by
    rw [hsplit, mul_le_mul_iff_left₀ hpow, Nat.cast_le]
  rw [hreach, hmantissa, hhalf]
  -- only the unit itself is odd
  by_cases he : e < j
  · obtain ⟨d, hd⟩ : ∃ d, (j - e).toNat = d + 1 := ⟨(j - e).toNat - 1, by omega⟩
    have heven : 2 ^ (j - e).toNat % 2 = 0 := by
      rw [hd, Nat.pow_succ]
      omega
    rw [if_pos he, if_pos heven]
  · have hzero : (j - e).toNat = 0 := by omega
    have hodd : ¬ 2 ^ (j - e).toNat % 2 = 0 := by
      rw [hzero]
      decide
    rw [if_neg he, if_neg hodd]

/-- The nearest fraction reaches a power of two from the midpoint below that power on. -/
theorem pow_le_nearest_iff {num den : Nat} (hnum : 0 < num) (hden : 0 < den) {j : Int}
    (hj : -1021 ≤ j) :
    (2 : ℚ) ^ j ≤ (nearest num den).mantissa * 2 ^ (nearest num den).exponent ↔
      (2 : ℚ) ^ j - 2 ^ (j - 54) ≤ num / den := by
  obtain ⟨hlow, hhigh⟩ := log2Quotient_spec hnum hden
  have hexp := nearest_exponent num den
  have hmono {a b : Int} (h : a ≤ b) : (2 : ℚ) ^ a ≤ 2 ^ b := zpow_le_zpow_right₀ one_le_two h
  have hmidpoint : (0 : ℚ) < 2 ^ (j - 54) := by positivity
  have hunit : (0 : ℚ) < 2 ^ ((nearest num den).exponent - 1) := by positivity
  generalize log2Quotient num den = k at hlow hhigh hexp
  by_cases hk : j ≤ k
  · -- the quotient is at least this large, and so is its fraction
    have hle := hmono hk
    have hreach := (pow_le_nearest_of_le num hden (j := k) (by omega)).2 (by
      split <;> linarith)
    constructor
    · intro _
      linarith
    · intro _
      linarith
  · rw [pow_le_nearest_of_le num hden (by omega), if_pos (by omega)]
    by_cases hnext : k = j - 1
    · -- the power is the next one, so half a unit is the distance to the midpoint
      have hhalf : (nearest num den).exponent - 1 = j - 54 := by omega
      rw [hhalf]
    · -- the quotient is less than half of the power
      have hfar := hmono (show k + 1 ≤ j - 1 by omega)
      have hhalf : (2 : ℚ) ^ (j - 1) = 2 ^ j / 2 := by rw [zpow_sub_one₀ two_ne_zero]; rfl
      have hnear := hmono (show (nearest num den).exponent - 1 ≤ j - 1 by omega)
      have hnear' := hmono (show j - 54 ≤ j - 1 by omega)
      constructor
      · intro _
        linarith
      · intro _
        linarith

theorem two_pow_le_floor_nearest_iff {num den : Nat} (hnum : 0 < num) (hden : 0 < den) (n : Nat) :
    Nat.pow 2 n ≤ (nearest num den).floor ↔
      (2 : ℚ) ^ (n : Int) - 2 ^ ((n : Int) - 54) ≤ num / den := by
  rw [le_floor_iff, Nat.pow_eq, Nat.cast_pow, Nat.cast_ofNat, ← zpow_natCast]
  exact pow_le_nearest_iff hnum hden (by omega)

/-- The nearest fraction is zero up to half of the smallest unit. -/
theorem nearest_mantissa_eq_zero_iff {num den : Nat} (hnum : 0 < num) (hden : 0 < den) :
    (nearest num den).mantissa = 0 ↔ (num : ℚ) / den ≤ vanishing := by
  obtain ⟨hlow, -⟩ := log2Quotient_spec hnum hden
  have hexp := nearest_exponent num den
  have hone := le_mantissa_iff num hden 1
  have hhalf : (((1 : Nat) : ℚ) - 1 / 2) * 2 ^ (nearest num den).exponent =
      2 ^ ((nearest num den).exponent - 1) := by
    rw [zpow_sub_one₀ two_ne_zero]
    push_cast
    ring
  rw [if_neg (by decide), hhalf] at hone
  have hzero : (nearest num den).mantissa = 0 ↔ ¬ 1 ≤ (nearest num den).mantissa := by omega
  rw [hzero, hone, not_lt, vanishing]
  generalize log2Quotient num den = k at hlow hexp
  by_cases hk : k - 52 ≤ -1074
  · have hsmall : (nearest num den).exponent - 1 = -1075 := by omega
    rw [hsmall]
  · -- otherwise the unit is far below the quotient
    have hfar : (2 : ℚ) ^ ((nearest num den).exponent - 1) < 2 ^ k :=
      zpow_lt_zpow_right₀ one_lt_two (by omega)
    have hfar' : (2 : ℚ) ^ (-1075 : Int) < 2 ^ k := zpow_lt_zpow_right₀ one_lt_two (by omega)
    constructor
    · intro _
      linarith
    · intro _
      linarith

/-! ### Decimals -/

/-- A decimal by the number of its digits before the point. -/
theorem decimalValue_lt (m : Nat) (e : Int) :
    decimalValue m e < 10 ^ ((Nat.toDigits 10 m).length + e) := by
  have hdigits : m < 10 ^ (Nat.toDigits 10 m).length :=
    (Nat.length_toDigits_le_iff (by decide) Nat.length_toDigits_pos).1 le_rfl
  have hcast : (m : ℚ) < 10 ^ (Nat.toDigits 10 m).length := by exact_mod_cast hdigits
  rw [decimalValue, zpow_add₀ (by norm_num), zpow_natCast, Int.cast_natCast]
  gcongr

theorem le_decimalValue {m : Nat} (hm : 0 < m) (e : Int) :
    (10 : ℚ) ^ ((Nat.toDigits 10 m).length + e - 1) ≤ decimalValue m e := by
  have hlength : 0 < (Nat.toDigits 10 m).length := Nat.length_toDigits_pos
  have hdigits : 10 ^ ((Nat.toDigits 10 m).length - 1) ≤ m := by
    by_contra hlt
    by_cases hone : (Nat.toDigits 10 m).length = 1
    · rw [hone] at hlt
      exact hlt hm
    · have hshort := (Nat.length_toDigits_le_iff (b := 10) (by decide)
        (show 0 < (Nat.toDigits 10 m).length - 1 by omega)).2 (not_le.1 hlt)
      omega
  have hcast : (10 : ℚ) ^ ((Nat.toDigits 10 m).length - 1) ≤ m := by exact_mod_cast hdigits
  have hsplit : ((Nat.toDigits 10 m).length : Int) + e - 1 =
      (((Nat.toDigits 10 m).length - 1 : Nat) : Int) + e := by omega
  rw [decimalValue, hsplit, zpow_add₀ (by norm_num), zpow_natCast, Int.cast_natCast]
  gcongr

/-- Ten is more than the third power of two. -/
theorem two_pow_le_ten_pow (n : Nat) : (2 : ℚ) ^ (3 * n) ≤ 10 ^ n := by
  rw [pow_mul]
  gcongr
  norm_num

theorem vanishing_of_size {size : Int} (h : size < -400) : (10 : ℚ) ^ size ≤ vanishing := by
  have hpow : (0 : ℚ) < 2 ^ (3 * 401) := by positivity
  calc (10 : ℚ) ^ size ≤ 10 ^ (-401 : Int) := zpow_le_zpow_right₀ (by norm_num) (by omega)
    _ = (10 ^ 401)⁻¹ := by rw [zpow_neg]; rfl
    _ ≤ (2 ^ (3 * 401))⁻¹ := inv_anti₀ hpow (two_pow_le_ten_pow 401)
    _ = 2 ^ (-1203 : Int) := by rw [zpow_neg]; rfl
    _ ≤ vanishing := zpow_le_zpow_right₀ one_le_two (by decide)

theorem beyond_of_size {size : Int} (h : 400 < size) : beyond ≤ (10 : ℚ) ^ (size - 1) := by
  have hpow : (0 : ℚ) ≤ 2 ^ (970 : Int) := by positivity
  calc beyond ≤ 2 ^ (1024 : Int) := sub_le_self _ hpow
    _ ≤ 2 ^ (((3 * 400 : Nat) : Int)) := zpow_le_zpow_right₀ one_le_two (by decide)
    _ ≤ 10 ^ 400 := by rw [zpow_natCast]; exact two_pow_le_ten_pow 400
    _ ≤ 10 ^ (size - 1) := by
      rw [← zpow_natCast]
      exact zpow_le_zpow_right₀ (by norm_num) (by push_cast; omega)

/-- A decimal of moderate size is rounded as a quotient of two naturals. -/
theorem exists_quotient {m : Nat} (hm : 0 < m) (e : Int) :
    ∃ num den : Nat, 0 < num ∧ 0 < den ∧ (num : ℚ) / den = decimalValue m e ∧
      (if 0 ≤ e then nearest (m * Nat.pow 10 e.toNat) 1 else nearest m (Nat.pow 10 (-e).toNat)) =
        nearest num den := by
  by_cases he : 0 ≤ e
  · refine ⟨m * Nat.pow 10 e.toNat, 1, ?_, Nat.one_pos, ?_, if_pos he⟩
    · exact Nat.mul_pos hm (Nat.pow_pos (by decide))
    · rw [decimalValue, Nat.cast_one, div_one, Nat.cast_mul, Nat.pow_eq, Nat.cast_pow,
        ← zpow_natCast, Int.toNat_of_nonneg he]
      rfl
  · refine ⟨m, Nat.pow 10 (-e).toNat, hm, Nat.pow_pos (by decide), ?_, if_neg he⟩
    have hneg : 0 ≤ -e := by omega
    rw [decimalValue, Nat.pow_eq, Nat.cast_pow, ← zpow_natCast, Int.toNat_of_nonneg hneg, zpow_neg,
      div_inv_eq_mul]
    rfl

/-- What becomes of a fraction, by the number that it is nearest to. -/
theorem rounded_cases {b : Binary} {limit : Nat} {x : ℚ} (hzero : b.mantissa = 0 ↔ x ≤ vanishing)
    (hbeyond : limit ≤ b.floor ↔ beyond ≤ x) (hunity : 1 ≤ b.floor ↔ unity ≤ x) :
    let rounded := if b.mantissa = 0 then Rounded.zero
      else if limit ≤ b.floor then .tooLarge else .finite b
    (rounded = .zero ∧ x ≤ vanishing) ∨ (rounded = .tooLarge ∧ beyond ≤ x) ∨
      ∃ b, rounded = .finite b ∧ vanishing < x ∧ x < beyond ∧ (1 ≤ b.floor ↔ unity ≤ x) := by
  intro rounded
  by_cases hnone : b.mantissa = 0
  · exact .inl ⟨if_pos hnone, hzero.1 hnone⟩
  have hrounded : rounded = if limit ≤ b.floor then .tooLarge else .finite b := if_neg hnone
  by_cases hover : limit ≤ b.floor
  · rw [if_pos hover] at hrounded
    exact .inr (.inl ⟨hrounded, hbeyond.1 hover⟩)
  · rw [if_neg hover] at hrounded
    refine .inr (.inr ⟨b, hrounded, ?_, ?_, hunity⟩)
    · exact not_le.1 (fun h => hnone (hzero.2 h))
    · exact not_le.1 (fun h => hover (hbeyond.2 h))

/-- What a decimal rounds to, by the rational number that it denotes. -/
theorem roundDecimal_cases (m : Nat) (e : Int) :
    (roundDecimal m e = .zero ∧ decimalValue m e ≤ vanishing) ∨
    (roundDecimal m e = .tooLarge ∧ beyond ≤ decimalValue m e) ∨
    ∃ b, roundDecimal m e = .finite b ∧ vanishing < decimalValue m e ∧ decimalValue m e < beyond ∧
      (1 ≤ b.floor ↔ unity ≤ decimalValue m e) := by
  by_cases hm : m = 0
  · subst hm
    refine .inl ⟨rfl, ?_⟩
    rw [decimalValue, vanishing]
    simp
  have hpos : 0 < m := by omega
  unfold roundDecimal
  simp only [hm, decide_false, Bool.false_or, decide_eq_true_eq]
  by_cases hsmall : ((Nat.toDigits 10 m).length : Int) + e < -400
  · rw [if_pos hsmall]
    exact .inl ⟨rfl, (decimalValue_lt m e).le.trans (vanishing_of_size hsmall)⟩
  by_cases hlarge : 400 < ((Nat.toDigits 10 m).length : Int) + e
  · rw [if_neg hsmall, if_pos hlarge]
    exact .inr (.inl ⟨rfl, (beyond_of_size hlarge).trans (le_decimalValue hpos e)⟩)
  rw [if_neg hsmall, if_neg hlarge]
  -- in between the quotient is rounded
  obtain ⟨num, den, hnum, hden, hvalue, hquotient⟩ := exists_quotient hpos e
  rw [hquotient]
  have hzero := nearest_mantissa_eq_zero_iff hnum hden
  have hbeyond := two_pow_le_floor_nearest_iff hnum hden 1024
  rw [hvalue, Nat.cast_ofNat, show (1024 : Int) - 54 = 970 by decide, ← beyond] at hbeyond
  have hunity := two_pow_le_floor_nearest_iff hnum hden 0
  rw [hvalue, Nat.cast_zero, zpow_zero, zero_sub, ← unity, Nat.pow_eq, pow_zero] at hunity
  rw [hvalue] at hzero
  exact rounded_cases hzero hbeyond hunity

end DocAnnotator.Number
