import Mathlib.Data.Char
import Mathlib.Tactic.IntervalCases
import DocAnnotator.Text.Utf8

/-! ## Encoding and decoding

    The two decoders undo the encoder, and what they accept is what the encoder writes.

    - `le_of_mem_encodeChar`: beyond ASCII, no byte of a character is an ASCII byte.
    - `step_encodeChar`, `encodeChar_step`: one step reads exactly one encoded character.
    - `decode_eq_ok_iff`: bytes decode to a text exactly where the text encodes to them.
    - `encode_injective`: a text is known by its bytes.
-/

namespace DocAnnotator.Utf8

/-! ### Bytes of one character -/

@[simp] theorem encode_nil : encode [] = [] := rfl

@[simp] theorem encode_cons (c : Char) (s : Text) :
    encode (c :: s) = String.utf8EncodeChar c ++ encode s := rfl

@[simp] theorem encode_append (s t : Text) : encode (s ++ t) = encode s ++ encode t := by
  simp [encode]

theorem encodeChar_ascii {c : Char} (h : c.toNat < 0x80) :
    String.utf8EncodeChar c = [UInt8.ofNat c.toNat] := by
  have h' : c.val.toNat ≤ 0x7F := Nat.le_of_lt_succ h
  simp only [String.utf8EncodeChar, if_pos h']
  rfl

/-- Beyond ASCII, every byte of a character is beyond ASCII. -/
theorem le_of_mem_encodeChar {c : Char} (h : 0x80 ≤ c.toNat) :
    ∀ b ∈ String.utf8EncodeChar c, 0x80 ≤ b.toNat := by
  intro b hb
  have h' : ¬ c.val.toNat ≤ 0x7F := Nat.not_le.2 h
  simp only [String.utf8EncodeChar, if_neg h'] at hb
  -- two, three or four bytes: each is a marker above 0x80 with some bits of the character
  split at hb
  · simp only [List.mem_cons, List.not_mem_nil, or_false] at hb
    rcases hb with rfl | rfl <;> rw [UInt8.toNat_ofNat'] <;> omega
  · split at hb
    · simp only [List.mem_cons, List.not_mem_nil, or_false] at hb
      rcases hb with rfl | rfl | rfl <;> rw [UInt8.toNat_ofNat'] <;> omega
    · simp only [List.mem_cons, List.not_mem_nil, or_false] at hb
      rcases hb with rfl | rfl | rfl | rfl <;> rw [UInt8.toNat_ofNat'] <;> omega

/-- An ASCII byte comes from its own character only. -/
theorem eq_of_mem_encodeChar {c d : Char} (hd : d.toNat < 0x80)
    (h : UInt8.ofNat d.toNat ∈ String.utf8EncodeChar c) : c = d := by
  have hbyte : (UInt8.ofNat d.toNat).toNat = d.toNat := by
    rw [UInt8.toNat_ofNat']
    omega
  rcases Nat.lt_or_ge c.toNat 0x80 with hc | hc
  · -- both are ASCII, so the byte is the code point
    rw [encodeChar_ascii hc, List.mem_singleton] at h
    have hnat : d.toNat = c.toNat := by
      rw [← hbyte, h, UInt8.toNat_ofNat']
      omega
    rw [← Char.ofNat_toNat c, ← hnat, Char.ofNat_toNat]
  · have := le_of_mem_encodeChar hc _ h
    omega

/-! ### Reading what was written -/

/-- One more byte of a character, where it lies within its bounds. -/
theorem follow_cons {bits low high used count : Nat} {b : UInt8} {rest : Bytes}
    (hlow : low ≤ b.toNat) (hhigh : b.toNat ≤ high) :
    follow bits low high used (count + 1) (b :: rest) =
      follow (bits * 64 + (b.toNat - 0x80)) 0x80 0xBF (used + 1) count rest := by
  simp [follow, hlow, hhigh]

/-- Reading at a lead byte. -/
theorem step_lead {b : UInt8} {l : Lead} (rest : Bytes) (hb : 0x80 ≤ b.toNat)
    (hl : lead? b.toNat = some l) : step b rest = follow l.bits l.low l.high 0 l.follow rest := by
  have hn : ¬ b.toNat < 0x80 := Nat.not_lt.2 hb
  simp only [step, if_neg hn, hl]

theorem toNat_byte {n : Nat} (h : n < 0x100) : (UInt8.ofNat n).toNat = n := by
  rw [UInt8.toNat_ofNat']
  exact Nat.mod_eq_of_lt h

/-- What a lead byte announces, by the bits of the character that it carries. -/
theorem lead?_two {n : Nat} (h : 2 ≤ n) (h' : n < 0x20) :
    lead? (n + 0xC0) = some ⟨n, 1, 0x80, 0xBF⟩ := by
  simp [lead?]
  omega

theorem lead?_three {n : Nat} (h : n < 0x10) :
    ∃ low high, lead? (n + 0xE0) = some ⟨n, 2, low, high⟩ ∧
      low = (if n = 0 then 0xA0 else 0x80) ∧ high = (if n = 0xD then 0x9F else 0xBF) := by
  refine ⟨_, _, ?_, rfl, rfl⟩
  interval_cases n <;> rfl

theorem lead?_four {n : Nat} (h : n < 5) :
    ∃ low high, lead? (n + 0xF0) = some ⟨n, 3, low, high⟩ ∧
      low = (if n = 0 then 0x90 else 0x80) ∧ high = (if n = 4 then 0x8F else 0xBF) := by
  refine ⟨_, _, ?_, rfl, rfl⟩
  interval_cases n <;> rfl

/-- Reading an encoded character gives it back, whatever follows. -/
theorem step_encodeChar (c : Char) (rest : Bytes) :
    ∃ b tail, String.utf8EncodeChar c = b :: tail ∧
      step b (tail ++ rest) = ⟨.ok c, tail.length⟩ := by
  have valid : c.val.toNat < 0xD800 ∨ 0xDFFF < c.val.toNat ∧ c.val.toNat < 0x110000 := c.valid
  have hc : Char.ofNat c.val.toNat = c := Char.ofNat_toNat c
  simp only [String.utf8EncodeChar]
  -- from here on only the value of the character counts
  generalize c.val.toNat = v at *
  split_ifs with h1 h2 h3
  · -- one byte
    refine ⟨_, _, rfl, ?_⟩
    have hb := toNat_byte (n := v) (by omega)
    have hlt : v < 0x80 := by omega
    simp [step, hb, hc, hlt]
  · -- two bytes: the lead byte carries the bits above the lowest six
    refine ⟨_, _, rfl, ?_⟩
    have hb := toNat_byte (n := v / 64 % 0x20 + 0xC0) (by omega)
    have hb1 := toNat_byte (n := v % 0x40 + 0x80) (by omega)
    rw [step_lead _ (by omega) (by rw [hb]; exact lead?_two (by omega) (by omega))]
    simp only [List.cons_append, List.nil_append]
    rw [follow_cons (by omega) (by omega), hb1, follow]
    have hv : v / 64 % 0x20 * 64 + (v % 0x40 + 0x80 - 0x80) = v := by omega
    rw [hv, hc]
    rfl
  · -- three bytes: the bounds on the second one hold because `v` is no surrogate and needs three
    refine ⟨_, _, rfl, ?_⟩
    have hb := toNat_byte (n := v / 4096 % 0x10 + 0xE0) (by omega)
    have hb1 := toNat_byte (n := v / 64 % 0x40 + 0x80) (by omega)
    have hb2 := toNat_byte (n := v % 0x40 + 0x80) (by omega)
    obtain ⟨low, high, hl, hlow, hhigh⟩ := lead?_three (n := v / 4096 % 0x10) (by omega)
    rw [step_lead _ (by omega) (by rw [hb]; exact hl)]
    simp only [List.cons_append, List.nil_append]
    rw [follow_cons (by rw [hlow]; split <;> omega) (by rw [hhigh]; split <;> omega), hb1,
      follow_cons (by omega) (by omega), hb2, follow]
    have hv : (v / 4096 % 0x10 * 64 + (v / 64 % 0x40 + 0x80 - 0x80)) * 64 +
        (v % 0x40 + 0x80 - 0x80) = v := by omega
    rw [hv, hc]
    rfl
  · -- four bytes: they hold because `v` is a code point and needs four
    refine ⟨_, _, rfl, ?_⟩
    have hb := toNat_byte (n := v / 262144 % 0x08 + 0xF0) (by omega)
    have hb1 := toNat_byte (n := v / 4096 % 0x40 + 0x80) (by omega)
    have hb2 := toNat_byte (n := v / 64 % 0x40 + 0x80) (by omega)
    have hb3 := toNat_byte (n := v % 0x40 + 0x80) (by omega)
    obtain ⟨low, high, hl, hlow, hhigh⟩ := lead?_four (n := v / 262144 % 0x08) (by omega)
    rw [step_lead _ (by omega) (by rw [hb]; exact hl)]
    simp only [List.cons_append, List.nil_append]
    rw [follow_cons (by rw [hlow]; split <;> omega) (by rw [hhigh]; split <;> omega), hb1,
      follow_cons (by omega) (by omega), hb2, follow_cons (by omega) (by omega), hb3, follow]
    have hv : ((v / 262144 % 0x08 * 64 + (v / 4096 % 0x40 + 0x80 - 0x80)) * 64 +
        (v / 64 % 0x40 + 0x80 - 0x80)) * 64 + (v % 0x40 + 0x80 - 0x80) = v := by omega
    rw [hv, hc]
    rfl

/-! ### Writing what was read -/

theorem follow_succ_ok {bits low high used count k : Nat} {c : Char} {rest : Bytes}
    (h : follow bits low high used (count + 1) rest = ⟨.ok c, k⟩) :
    ∃ b more, rest = b :: more ∧ low ≤ b.toNat ∧ b.toNat ≤ high ∧
      follow (bits * 64 + (b.toNat - 0x80)) 0x80 0xBF (used + 1) count more = ⟨.ok c, k⟩ := by
  cases rest with
  | nil => simp [follow] at h
  | cons b more =>
    simp only [follow] at h
    split at h
    next hb =>
      simp only [Bool.and_eq_true, decide_eq_true_eq] at hb
      exact ⟨b, more, rfl, hb.1, hb.2, h⟩
    next => simp at h

theorem toNat_char {n : Nat} (h : n < 0xD800 ∨ 0xDFFF < n ∧ n < 0x110000) :
    (Char.ofNat n).val.toNat = n := by
  rw [Char.ofNat, dif_pos h]
  rfl

theorem byte_eq {n : Nat} {b : UInt8} (h : n = b.toNat) : UInt8.ofNat n = b := by
  rw [h, UInt8.ofNat_toNat]

/-- What a lead byte announces: the bits above those to come, and bounds on the next byte that
    keep the character out of the shorter forms, of the surrogates and below the last code point. -/
theorem lead?_cases {n : Nat} {l : Lead} (h : lead? n = some l) :
    (0xC2 ≤ n ∧ n ≤ 0xDF ∧ l.follow = 1 ∧ l.bits = n - 0xC0 ∧ l.low = 0x80 ∧ l.high = 0xBF) ∨
    (0xE0 ≤ n ∧ n ≤ 0xEF ∧ l.follow = 2 ∧ l.bits = n - 0xE0 ∧ 0x80 ≤ l.low ∧ l.high ≤ 0xBF ∧
      (n = 0xE0 → 0xA0 ≤ l.low) ∧ (n = 0xED → l.high ≤ 0x9F)) ∨
    (0xF0 ≤ n ∧ n ≤ 0xF4 ∧ l.follow = 3 ∧ l.bits = n - 0xF0 ∧ 0x80 ≤ l.low ∧ l.high ≤ 0xBF ∧
      (n = 0xF0 → 0x90 ≤ l.low) ∧ (n = 0xF4 → l.high ≤ 0x8F)) := by
  simp only [lead?, Bool.and_eq_true, decide_eq_true_eq, beq_iff_eq] at h
  split_ifs at h <;> simp only [Option.some.injEq] at h <;> subst h <;> grind

/-- A character that is read is the one whose bytes were read. -/
theorem encodeChar_step {b : UInt8} {rest : Bytes} {c : Char} {k : Nat}
    (h : step b rest = ⟨.ok c, k⟩) :
    String.utf8EncodeChar c = b :: rest.take k ∧ k ≤ rest.length := by
  have hlt := b.toNat_lt
  simp only [step] at h
  split at h
  next hb =>
    -- one byte
    simp only [Step.mk.injEq, Except.ok.injEq] at h
    obtain ⟨rfl, rfl⟩ := h
    have hv := toNat_char (n := b.toNat) (by omega)
    have hle : b.toNat ≤ 0x7F := by omega
    simp only [String.utf8EncodeChar, hv, if_pos hle, UInt8.ofNat_toNat, List.take_zero, true_and]
    exact Nat.zero_le _
  next hb =>
    split at h
    · simp at h
    next l hl =>
      -- the bits that were read make a value in the range of the lead byte's length
      rcases lead?_cases hl with ⟨h1, h2, hf, hbits, hlow, hhigh⟩ |
        ⟨h1, h2, hf, hbits, hlow, hhigh, hmin, hmax⟩ | ⟨h1, h2, hf, hbits, hlow, hhigh, hmin, hmax⟩
      · rw [hf] at h
        obtain ⟨b1, more, rfl, hl1, hh1, h⟩ := follow_succ_ok h
        simp only [follow, Step.mk.injEq, Except.ok.injEq] at h
        obtain ⟨rfl, rfl⟩ := h
        have hv := toNat_char (n := l.bits * 64 + (b1.toNat - 0x80)) (by omega)
        simp only [String.utf8EncodeChar, hv]
        rw [if_neg (by omega), if_pos (by omega), byte_eq (b := b) (by omega),
          byte_eq (b := b1) (by omega)]
        simp
      · rw [hf] at h
        obtain ⟨b1, more, rfl, hl1, hh1, h⟩ := follow_succ_ok h
        obtain ⟨b2, more, rfl, hl2, hh2, h⟩ := follow_succ_ok h
        simp only [follow, Step.mk.injEq, Except.ok.injEq] at h
        obtain ⟨rfl, rfl⟩ := h
        have hv := toNat_char
          (n := (l.bits * 64 + (b1.toNat - 0x80)) * 64 + (b2.toNat - 0x80)) (by omega)
        simp only [String.utf8EncodeChar, hv]
        rw [if_neg (by omega), if_neg (by omega), if_pos (by omega), byte_eq (b := b) (by omega),
          byte_eq (b := b1) (by omega), byte_eq (b := b2) (by omega)]
        simp
      · rw [hf] at h
        obtain ⟨b1, more, rfl, hl1, hh1, h⟩ := follow_succ_ok h
        obtain ⟨b2, more, rfl, hl2, hh2, h⟩ := follow_succ_ok h
        obtain ⟨b3, more, rfl, hl3, hh3, h⟩ := follow_succ_ok h
        simp only [follow, Step.mk.injEq, Except.ok.injEq] at h
        obtain ⟨rfl, rfl⟩ := h
        have hv := toNat_char
          (n := ((l.bits * 64 + (b1.toNat - 0x80)) * 64 + (b2.toNat - 0x80)) * 64 +
            (b3.toNat - 0x80)) (by omega)
        simp only [String.utf8EncodeChar, hv]
        rw [if_neg (by omega), if_neg (by omega), if_neg (by omega), byte_eq (b := b) (by omega),
          byte_eq (b := b1) (by omega), byte_eq (b := b2) (by omega), byte_eq (b := b3) (by omega)]
        simp

/-! ### Whole texts -/

theorem decodeFrom_encode (position : Nat) (s : Text) : decodeFrom position (encode s) = .ok s := by
  induction s generalizing position with
  | nil => simp [encode, decodeFrom]
  | cons c s ih =>
    -- the decoder is at the first byte of `c`, and reads it whole
    obtain ⟨b, tail, hb, hstep⟩ := step_encodeChar c (encode s)
    rw [encode_cons, hb, List.cons_append, decodeFrom, hstep]
    simp only [List.drop_left, ih]
    rfl

theorem encode_of_decodeFrom {position : Nat} {bytes : Bytes} {s : Text}
    (h : decodeFrom position bytes = .ok s) : encode s = bytes := by
  fun_induction decodeFrom position bytes generalizing s with
  | case1 =>
    cases h
    rfl
  | case2 position b rest fault hf => cases h
  | case3 position b rest st c hc =>
    rename_i ih
    cases hmore : decodeFrom (position + st.extra + 1) (rest.drop st.extra) with
    | error e =>
      rw [hmore] at h
      cases h
    | ok t =>
      rw [hmore] at h
      have hstep : step b rest = ⟨.ok c, st.extra⟩ := by rw [← hc]
      rw [← Except.ok.inj h, encode_cons, (encodeChar_step hstep).1, ih hmore, List.cons_append,
        List.take_append_drop]

/-- Bytes decode to a text exactly where the text encodes to them. -/
theorem decode_eq_ok_iff {bytes : Bytes} {s : Text} : decode bytes = .ok s ↔ encode s = bytes := by
  constructor
  · exact encode_of_decodeFrom
  · rintro rfl
    exact decodeFrom_encode 0 s

/-- A text is known by its bytes. -/
theorem encode_injective : Function.Injective encode := by
  intro s t h
  have hs : decode (encode s) = .ok s := decodeFrom_encode 0 s
  rw [h, decode, decodeFrom_encode] at hs
  exact (Except.ok.inj hs).symm

theorem decodeLossy_encode (s : Text) : decodeLossy (encode s) = s := by
  induction s with
  | nil => simp [encode, decodeLossy]
  | cons c s ih =>
    obtain ⟨b, tail, hb, hstep⟩ := step_encodeChar c (encode s)
    rw [encode_cons, hb, List.cons_append, decodeLossy, hstep]
    simp only [List.drop_left, ih]

end DocAnnotator.Utf8
