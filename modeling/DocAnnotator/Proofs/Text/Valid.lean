import DocAnnotator.Proofs.Text.Utf8

/-! ## Well-formed bytes

    Bytes are well-formed where they are the bytes of a text. Only the first byte of a character can
    begin one, so a text that is put in between two parts neither breaks nor mends them.

    - `exists_of_encode_append`: bytes that start as those of a text do.
    - `IsValid.of_firstByte`: what stands in front of a first byte is well-formed by itself.
    - `isValid_insert`: a text between two parts.
-/

namespace DocAnnotator

namespace Utf8

/-- The bytes are those of a text. -/
def IsValid (bytes : Bytes) : Prop := ∃ s, encode s = bytes

theorem isValid_encode (s : Text) : IsValid (encode s) := ⟨s, rfl⟩

theorem isValid_nil : IsValid [] := ⟨[], rfl⟩

theorem IsValid.append {first second : Bytes} (h : IsValid first) (h' : IsValid second) :
    IsValid (first ++ second) := by
  obtain ⟨s, rfl⟩ := h
  obtain ⟨t, rfl⟩ := h'
  exact ⟨s ++ t, encode_append s t⟩

/-- Decoding fails exactly on bytes that are not well-formed. -/
theorem exists_error_iff {bytes : Bytes} :
    (∃ fault, decode bytes = .error fault) ↔ ¬ IsValid bytes := by
  constructor
  · rintro ⟨fault, hfault⟩ ⟨s, hs⟩
    rw [decode_eq_ok_iff.2 hs] at hfault
    cases hfault
  · intro hinvalid
    cases hdecode : decode bytes with
    | error fault => exact ⟨fault, rfl⟩
    | ok s => exact absurd ⟨s, decode_eq_ok_iff.1 hdecode⟩ hinvalid

/-! ### Cutting well-formed bytes -/

/-- A character is known by its bytes, whatever follows them. -/
theorem eq_of_encodeChar_append {c d : Char} {rest more : Bytes}
    (h : String.utf8EncodeChar c ++ rest = String.utf8EncodeChar d ++ more) : c = d := by
  obtain ⟨b, tail, hc, hstep⟩ := step_encodeChar c rest
  obtain ⟨b', tail', hd, hstep'⟩ := step_encodeChar d more
  rw [hc, hd, List.cons_append, List.cons_append] at h
  obtain ⟨rfl, htail⟩ := List.cons.inj h
  -- the decoder reads one character at this byte
  rw [htail, hstep'] at hstep
  have hread : Except.ok d = (Except.ok c : Except Fault Char) := congrArg Step.outcome hstep
  exact (Except.ok.inj hread).symm

/-- A text whose bytes start with those of another text starts with that text. -/
theorem exists_of_encode_append {s t : Text} {rest : Bytes} (h : encode s = encode t ++ rest) :
    ∃ u, s = t ++ u ∧ encode u = rest := by
  induction t generalizing s with
  | nil => exact ⟨s, rfl, h⟩
  | cons c t ih =>
    rw [encode_cons, List.append_assoc] at h
    cases s with
    | nil =>
      have hnil := (List.append_eq_nil_iff.1 h.symm).1
      exact absurd hnil String.utf8EncodeChar_ne_nil
    | cons d s =>
      rw [encode_cons] at h
      obtain rfl := eq_of_encodeChar_append h
      obtain ⟨u, rfl, hu⟩ := ih (List.append_cancel_left h)
      exact ⟨u, rfl, hu⟩

/-- What follows a text in well-formed bytes is well-formed. -/
theorem IsValid.of_encode_append {t : Text} {rest : Bytes} (h : IsValid (encode t ++ rest)) :
    IsValid rest := by
  obtain ⟨s, hs⟩ := h
  obtain ⟨u, -, hu⟩ := exists_of_encode_append hs
  exact ⟨u, hu⟩

/-- In front of the first byte of a character, well-formed bytes may be cut. -/
theorem IsValid.of_firstByte {front rest : Bytes} {b : UInt8} (hb : b.IsUTF8FirstByte)
    (h : IsValid (front ++ b :: rest)) : IsValid front := by
  obtain ⟨s, hs⟩ := h
  induction s generalizing front with
  | nil => simp at hs
  | cons d s ih =>
    rw [encode_cons] at hs
    rcases List.append_eq_append_iff.1 hs with ⟨m, rfl, hm⟩ | ⟨m, hm, hrest⟩
    · -- the cut lies behind the first character
      obtain ⟨u, rfl⟩ := ih hm
      exact ⟨d :: u, rfl⟩
    · cases m with
      | nil => exact ⟨[d], by rw [encode_cons, encode_nil, List.append_nil, hm, List.append_nil]⟩
      | cons b' m =>
        -- the cut would lie inside the first character, unless it lies in front of it
        obtain ⟨rfl, -⟩ := List.cons.inj hrest
        have hlt : front.length < (String.utf8EncodeChar d).length := by
          rw [hm, List.length_append, List.length_cons]
          omega
        have hbyte : (String.utf8EncodeChar d)[front.length] = b := by simp [hm]
        have hzero : front.length = 0 := by
          apply (@UInt8.isUTF8FirstByte_getElem_utf8EncodeChar d front.length hlt).1
          rw [hbyte]
          exact hb
        rw [List.eq_nil_of_length_eq_zero hzero]
        exact isValid_nil

/-- A text between two parts: the whole is well-formed exactly if both parts are. -/
theorem isValid_insert {front rest : Bytes} {t : Text} (ht : t ≠ []) :
    IsValid (front ++ (encode t ++ rest)) ↔ IsValid front ∧ IsValid rest := by
  constructor
  · intro h
    obtain ⟨c, t, rfl⟩ := List.exists_cons_of_ne_nil ht
    have hfront : IsValid front := by
      obtain ⟨b, tail, hc⟩ := List.exists_cons_of_ne_nil (String.utf8EncodeChar_ne_nil (c := c))
      have hb : b.IsUTF8FirstByte := by
        have hfirst := UInt8.isUTF8FirstByte_getElem_zero_utf8EncodeChar (c := c)
        simpa only [hc, List.getElem_cons_zero] using hfirst
      rw [encode_cons, hc, List.cons_append, List.cons_append] at h
      exact h.of_firstByte hb
    obtain ⟨s, rfl⟩ := hfront
    exact ⟨isValid_encode s, h.of_encode_append.of_encode_append⟩
  · rintro ⟨hfront, hrest⟩
    exact hfront.append ((isValid_encode t).append hrest)

end Utf8

end DocAnnotator
