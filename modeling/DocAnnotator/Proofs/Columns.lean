import DocAnnotator.Proofs.Conservation
import DocAnnotator.Proofs.Script.Front

/-! ## Anchors keep their columns, and files their line ends

    Each comment is laid out for the script as it was, and all of them are spliced in at once. Still
    every anchor stands at its column afterwards, and no line end of another sort gets in.

    - `StartsVisible`, `VisibleAnchors`: what a grammar promises about the anchors of a unit.
    - `KeepsPlace`: how code stands behind its comment.
    - `keepsPlace_merge`: it does, whatever else is inserted.
    - `textAt_documents`: what holds of line ends, indentations and plain text holds of all that is
      inserted.
    - `annotate_keeps_columns`: the whole statement.
-/

namespace DocAnnotator

open Insertion (textAt merge movedTo)

/-- A character that is no blank starts at the byte offset. -/
def StartsVisible (s : Text) (offset : Nat) : Prop :=
  ∃ a c b, s = a ++ c :: b ∧ Text.isBlank c = false ∧ (Utf8.encode a).length = offset

/-- Every anchor in the script of a unit is a character that is no blank. -/
def VisibleAnchors (grammar : Grammar) (id code : Text) : Prop :=
  ∀ range, ScriptRange.extract? code (Identifier.dialect id) = some range →
    ∀ target ∈ targetsOf grammar range, StartsVisible range.script target.anchorOffset

theorem StartsVisible.startsToken {s : Text} {offset : Nat} (h : StartsVisible s offset) :
    StartsToken s offset := by
  obtain ⟨a, c, b, hs, hvisible, hoff⟩ := h
  refine ⟨a, c, b, hs, ?_, hoff⟩
  rintro rfl
  exact absurd hvisible (by decide)

theorem VisibleAnchors.tokenAnchors {grammar : Grammar} {id code : Text}
    (h : VisibleAnchors grammar id code) : TokenAnchors grammar id code := by
  intro range hrange target htarget
  exact (h range hrange target htarget).startsToken

/-- At a character that is no blank there is a byte, and it is no line feed. -/
theorem StartsVisible.byte {s : Text} {offset : Nat} (h : StartsVisible s offset) :
    offset < (Utf8.encode s).length ∧ (Utf8.encode s)[offset]? ≠ some 0x0A := by
  obtain ⟨a, c, b, rfl, hvisible, rfl⟩ := h
  obtain ⟨byte, tail, hc⟩ := List.exists_cons_of_ne_nil (String.utf8EncodeChar_ne_nil (c := c))
  have hencode : Utf8.encode (a ++ c :: b) = Utf8.encode a ++ byte :: (tail ++ Utf8.encode b) := by
    rw [Utf8.encode_append, Utf8.encode_cons, hc, List.cons_append]
  rw [hencode]
  refine ⟨by simp, ?_⟩
  rw [List.getElem?_append_right (Nat.le_refl _), Nat.sub_self, List.getElem?_cons_zero]
  intro hbyte
  -- the byte of a line feed is that of no other character
  have hfeed : c = '\n' := by
    refine Utf8.eq_of_mem_encodeChar (d := '\n') (by decide) ?_
    rw [hc, Option.some.inj hbyte]
    exact List.mem_cons_self
  rw [hfeed] at hvisible
  exact absurd hvisible (by decide)

/-! ### Behind a comment -/

/-- How the code at an offset stands behind the comment that is inserted for it. Alone on its line
    it stays at its column; otherwise the comment ends in one space, and nothing but the text
    `between` stands between that space and the code. -/
inductive KeepsPlace (script : Text) (patched : Bytes) (insertions : List Insertion)
    (between : Text) (i : Insertion) : Prop
  | intro (front : Text) (c : Char) (rest : Text) (hscript : script = front ++ c :: rest)
    (hc : Text.isBlank c = false) (hoffset : (Utf8.encode front).length = i.offset)
    (code : patched[movedTo insertions i.offset]? = (Utf8.encode script)[i.offset]?)
    (column : (∀ c ∈ lastLine '\n' front, Text.isBlank c = true) →
      lastLine 0x0A (patched.take (movedTo insertions i.offset)) =
        lastLine 0x0A ((Utf8.encode script).take i.offset))
    (space : (¬ ∀ c ∈ lastLine '\n' front, Text.isBlank c = true) → ∃ before comment,
      i.text = comment ++ "*/ ".toList ∧
        patched.take (movedTo insertions i.offset) =
          before ++ Utf8.encode i.text ++ Utf8.encode between)

section Documented

variable {script : Text} {targets : List Target} {insertions : List Insertion}
  (hdocs : List.Forall₂ (Documents (Utf8.encode script)) targets insertions)
  (hvisible : ∀ target ∈ targets, StartsVisible script target.anchorOffset)
include hdocs

theorem text_of_documents {i : Insertion} (hi : i ∈ insertions) :
    ∃ lines, i.text = Comment.layout lines (Utf8.encode script) i.offset := by
  obtain ⟨target, -, hoffset, lines, htext⟩ := exists_of_forall₂ hdocs hi
  exact ⟨lines, by rw [htext, hoffset]⟩

include hvisible

theorem startsVisible_of_documents {i : Insertion} (hi : i ∈ insertions) :
    StartsVisible script i.offset := by
  obtain ⟨target, htarget, hoffset, -⟩ := exists_of_forall₂ hdocs hi
  rw [hoffset]
  exact hvisible target htarget

/-- Behind its comment, code stands at its column or behind one space, whatever else is inserted.
    Only comments of earlier insertions at the same offset can stand in between. -/
theorem keepsPlace_merge {first second : List Insertion} {i : Insertion}
    (hsplit : insertions = first ++ i :: second) :
    KeepsPlace script (merge (Utf8.encode script) insertions) insertions
      (textAt first i.offset) i := by
  have hi : i ∈ insertions := by simp [hsplit]
  have hstarts := startsVisible_of_documents hdocs hvisible hi
  obtain ⟨htake, hcode⟩ := Insertion.merge_at hstarts.byte.1 insertions
  obtain ⟨front, c, rest, hscript, hc, hoffset⟩ := hstarts
  have hfront : (Utf8.encode script).take i.offset = Utf8.encode front := by
    rw [hscript, Utf8.encode_append, ← hoffset, List.take_left]
  have hhead : Comment.lineHead (Utf8.encode script) i.offset = lastLine '\n' front := by
    rw [hscript, ← hoffset, Comment.lineHead_encode]
  -- the pass over the text in front ends in what is inserted here
  obtain ⟨before, hbefore⟩ := Insertion.exists_mergeFrom (textAt insertions) 0 (Utf8.encode front)
  rw [Nat.zero_add, hoffset] at hbefore
  rw [hfront] at htake
  replace htake := htake.trans hbefore
  refine ⟨front, c, rest, hscript, hc, hoffset, hcode, fun hblank => ?_, fun hcodeBefore => ?_⟩
  · obtain ⟨j, hj, hjoffset, s, hs⟩ := Insertion.exists_textAt hi
    obtain ⟨lines, hlines⟩ := text_of_documents hdocs hj
    rw [← hhead] at hblank
    obtain ⟨s', hs'⟩ := Comment.layout_of_blank hblank lines
    have hend : textAt insertions i.offset = s ++ s' ++ '\n' :: lastLine '\n' front := by
      rw [hs, hlines, hjoffset, hs', hhead, List.append_assoc]
    have hnone : 0x0A ∉ Utf8.encode (lastLine '\n' front) := fun hmem =>
      not_mem_lastLine front ((Utf8.mem_encode_iff (by decide)).1 hmem)
    have hbytes : before ++ Utf8.encode (textAt insertions i.offset) =
        before ++ Utf8.encode (s ++ s') ++ 0x0A :: Utf8.encode (lastLine '\n' front) := by
      rw [hend, Utf8.encode_append, ← List.append_assoc]
      rfl
    rw [htake, hbytes, lastLine_append_cons hnone, hfront, lastLine_encode]
  · obtain ⟨lines, hlines⟩ := text_of_documents hdocs hi
    rw [← hhead] at hcodeBefore
    obtain ⟨comment, hcomment⟩ := Comment.layout_of_code hcodeBefore lines
    refine ⟨before ++ Utf8.encode (textAt second i.offset), comment, hlines.trans hcomment, ?_⟩
    have hall : textAt insertions i.offset =
        textAt second i.offset ++ i.text ++ textAt first i.offset := by
      rw [hsplit, Insertion.textAt_append, Insertion.textAt_cons_self]
    rw [htake, hall]
    simp only [Utf8.encode_append, List.append_assoc]

/-- What can be put together and holds of the line end, of every indentation and of all text
    without line ends, holds of all that is inserted at an offset. -/
theorem textAt_documents {Q : Bytes → Prop} (happend : ∀ x y, Q x → Q y → Q (x ++ y))
    (hplain : ∀ s, '\n' ∉ s → '\r' ∉ s → Q (Utf8.encode s))
    (hnewline : Q (Utf8.encode (Comment.newlineOf (Utf8.encode script))))
    (hindent : ∀ s, (∀ c ∈ s, c ∈ script) → '\n' ∉ s → Q (Utf8.encode s)) (offset : Nat) :
    Q (Utf8.encode (textAt insertions offset)) := by
  refine Insertion.textAt_bytes (hplain [] List.not_mem_nil List.not_mem_nil) happend ?_ offset
  intro i hi
  obtain ⟨lines, hlines⟩ := text_of_documents hdocs hi
  obtain ⟨a, c, b, hscript, -, hoffset⟩ := startsVisible_of_documents hdocs hvisible hi
  have hhead : Comment.lineHead (Utf8.encode script) i.offset = lastLine '\n' a := by
    rw [hscript, ← hoffset, Comment.lineHead_encode]
  rw [hlines]
  refine Comment.layout_bytes happend hplain hnewline (hindent _ ?_ ?_) lines
  · intro d hd
    have hmem := (List.takeWhile_prefix _).subset hd
    rw [hhead] at hmem
    rw [hscript]
    exact List.mem_append_left _ (mem_of_mem_lastLine hmem)
  · intro hfeed
    have hmem := (List.takeWhile_prefix _).subset hfeed
    rw [hhead] at hmem
    exact not_mem_lastLine a hmem

/-- Where a script ends its lines in two characters, so do the comments. -/
theorem paired_merge_documents (hpair : HasPair (Utf8.encode script))
    (hpaired : Paired (Utf8.encode script)) :
    HasPair (merge (Utf8.encode script) insertions) ∧
      Paired (merge (Utf8.encode script) insertions) := by
  have hnewline : Paired (Utf8.encode (Comment.newlineOf (Utf8.encode script))) := by
    rw [Comment.newlineOf, if_pos (Comment.hasCrLf_iff.2 hpair)]
    exact Paired.crLf
  have htexts : ∀ offset, Paired (Utf8.encode (textAt insertions offset)) :=
    textAt_documents hdocs hvisible (fun _ _ => Paired.append)
      (fun s hfeed _ => .of_no_lineFeed fun hmem =>
        hfeed ((Utf8.mem_encode_iff (by decide)).1 hmem)) hnewline
      fun s _ hfeed => .of_no_lineFeed fun hmem => hfeed ((Utf8.mem_encode_iff (by decide)).1 hmem)
  have hplaces : ∀ k, textAt insertions (0 + k) ≠ [] → (Utf8.encode script)[k]? ≠ some 0x0A := by
    intro k hk
    rw [Nat.zero_add, Insertion.textAt_ne_nil_iff] at hk
    obtain ⟨i, hi, rfl, -⟩ := hk
    exact (startsVisible_of_documents hdocs hvisible hi).byte.2
  have hkept : Paired ([] ++ merge (Utf8.encode script) insertions) :=
    Insertion.paired_mergeFrom htexts hpaired hplaces
  rw [List.nil_append] at hkept
  refine ⟨?_, hkept⟩
  -- the line feed of the pair is still there, and it stands behind a carriage return
  obtain ⟨front, rest, hsplit⟩ := hpair
  have hfeed : 0x0A ∈ merge (Utf8.encode script) insertions :=
    Insertion.mem_mergeFrom_of_mem _ 0 (by rw [hsplit]; simp)
  obtain ⟨before, after, hcut⟩ := List.append_of_mem hfeed
  obtain ⟨more, hmore⟩ := List.getLast?_eq_some_iff.1 (hkept before after hcut)
  exact ⟨more, after, by rw [hcut, hmore]; simp⟩

/-- Where a script has no carriage return, the comments have none. -/
theorem no_return_merge_documents (hnone : 0x0D ∉ Utf8.encode script) :
    0x0D ∉ merge (Utf8.encode script) insertions := by
  have hfeeds : Comment.hasCrLf (Utf8.encode script) = false := by
    rw [← Bool.not_eq_true, Comment.hasCrLf_iff]
    rintro ⟨front, rest, hsplit⟩
    exact hnone (by rw [hsplit]; simp)
  have hplain {s : Text} (h : '\r' ∉ s) : 0x0D ∉ Utf8.encode s := fun hmem =>
    h ((Utf8.mem_encode_iff (by decide)).1 hmem)
  have htexts : ∀ offset, 0x0D ∉ Utf8.encode (textAt insertions offset) := by
    refine textAt_documents hdocs hvisible (Q := (0x0D ∉ ·)) ?_ (fun s _ h => hplain h) ?_ ?_
    · exact fun x y hx hy hmem => (List.mem_append.1 hmem).elim hx hy
    · rw [Comment.newlineOf, hfeeds]
      decide
    · intro s hs _
      refine hplain fun hmem => hnone ?_
      exact (Utf8.mem_encode_iff (d := '\r') (by decide)).2 (hs _ hmem)
  intro hmem
  rcases Insertion.mem_mergeFrom hmem with hsource | ⟨offset, htext⟩
  · exact hnone hsource
  · exact htexts offset htext

end Documented

/-! ### The whole statement -/

/-- In the script that a run returns, an anchor with nothing but blanks in front of it on its line
    keeps what stands between the last line feed and it, and the comment of any other anchor ends
    in one space, right before the anchor or the comments of the same anchor that were given
    earlier. Where no two anchors are at one offset, there are none of those, so that one space is
    all that stands between a comment and its anchor. Line ends of two characters stay line ends of
    two characters, and where there was no carriage return there is none. -/
theorem annotate_keeps_columns {grammar : Grammar} {options : Options} {id code result : Text}
    {session : Session} {range : ScriptRange} (hvisible : VisibleAnchors grammar id code)
    (h : (annotate grammar options id code session).1 = .ok result)
    (hrange : ScriptRange.extract? code (Identifier.dialect id) = some range) :
    let source := Utf8.encode range.script
    let insertions := insertionsOf grammar options id code session
    List.Forall₂ (Documents source) (targetsOf grammar range) insertions ∧
    ∃ script, result = range.before ++ script ++ range.after ∧
      Utf8.encode script = Insertion.applyAll source insertions ∧
      (∀ first i second, insertions = first ++ i :: second →
        KeepsPlace range.script (Utf8.encode script) insertions (textAt first i.offset) i) ∧
      ((insertions.map (·.offset)).Nodup → ∀ i ∈ insertions,
        KeepsPlace range.script (Utf8.encode script) insertions [] i) ∧
      (HasPair source → Paired source →
        HasPair (Utf8.encode script) ∧ Paired (Utf8.encode script)) ∧
      (0x0D ∉ source → 0x0D ∉ Utf8.encode script) := by
  intro source insertions
  have hdocs : List.Forall₂ (Documents source) (targetsOf grammar range) insertions :=
    insertionsOf_forall₂ h hrange
  obtain ⟨script, -, hsplice, -, -, hresult⟩ := annotate_woven hvisible.tokenAnchors h hrange
  have hbounds : ∀ i ∈ insertions, i.offset ≤ source.length := by
    intro i hi
    exact Nat.le_of_lt (startsVisible_of_documents hdocs (hvisible range hrange) hi).byte.1
  have hbytes : Utf8.encode script = Insertion.applyAll source insertions :=
    Insertion.encode_of_splice hsplice
  have hmerge : Utf8.encode script = merge source insertions :=
    hbytes.trans (Insertion.applyAll_eq_merge hbounds)
  have hplaces : ∀ first i second, insertions = first ++ i :: second →
      KeepsPlace range.script (Utf8.encode script) insertions (textAt first i.offset) i := by
    intro first i second hsplit
    rw [hmerge]
    exact keepsPlace_merge hdocs (hvisible range hrange) hsplit
  refine ⟨hdocs, script, hresult, hbytes, hplaces, ?_, ?_, ?_⟩
  · intro hdistinct i hi
    obtain ⟨first, second, hsplit⟩ := List.append_of_mem hi
    have hplace := hplaces first i second hsplit
    rwa [Insertion.textAt_of_distinct (hsplit ▸ hdistinct)] at hplace
  · intro hpair hpaired
    rw [hmerge]
    exact paired_merge_documents hdocs (hvisible range hrange) hpair hpaired
  · intro hnone
    rw [hmerge]
    exact no_return_merge_documents hdocs (hvisible range hrange) hnone

/-- Two functions on one line, with line ends of two characters. -/
def pairScript : Text := "\tfunction f() \x7b\x7d function g() \x7b\x7d\r\n".toList

/-- The tree of `pairScript`. -/
def pairTree : Node :=
  let declared (start : Nat) : Node :=
    ⟨"function_declaration", start, start + 15, true, none,
      [⟨"identifier", start + 9, start + 10, true, some "name", []⟩]⟩
  ⟨"program", 1, 34, true, none, [declared 1, declared 17]⟩

/-- The grammar that knows this one script. -/
def pairGrammar : Grammar := fun _ _ => pairTree

/-- The range of `pairScript`, which is all of its unit. -/
def pairRange : ScriptRange := ⟨pairScript, 0, pairScript.length, [], [], .javascript⟩

theorem extract?_pair :
    ScriptRange.extract? pairScript (Identifier.dialect "a.js".toList) = some pairRange := by
  have hdialect : Identifier.dialect "a.js".toList = .javascript := by decide +kernel
  rw [hdialect, ScriptRange.extract?_plain (by decide)]
  rfl

theorem visibleAnchors_pair : VisibleAnchors pairGrammar "a.js".toList pairScript := by
  intro range hrange target htarget
  obtain rfl := Option.some.inj (extract?_pair.symm.trans hrange)
  have hoffsets : (targetsOf pairGrammar pairRange).map (·.anchorOffset) = [1, 17] := by
    decide +kernel
  have hmem : target.anchorOffset ∈ (targetsOf pairGrammar pairRange).map (·.anchorOffset) :=
    List.mem_map_of_mem htarget
  rw [hoffsets, List.mem_pair] at hmem
  rcases hmem with hfirst | hsecond
  · rw [hfirst]
    exact ⟨['\t'], 'f', pairScript.drop 2, by decide, by decide, by decide⟩
  · rw [hsecond]
    exact ⟨pairScript.take 17, 'f', pairScript.drop 18, by decide, by decide, by decide⟩

/-- `pairScript` with its comments. -/
def pairResult : Text :=
  ("\t/**\r\n\t * @description f function\r\n\t * @returns \x7bvoid\x7d\r\n\t */\r\n" ++
    "\tfunction f() \x7b\x7d /**\r\n\t * @description g function\r\n" ++
    "\t * @returns \x7bvoid\x7d\r\n\t */ function g() \x7b\x7d\r\n").toList

theorem annotate_pair :
    (annotate pairGrammar quietOptions "a.js".toList pairScript ⟨[], [], []⟩).1 =
      .ok pairResult := by
  decide +kernel

/-- The first function keeps its tab, the second one stands behind one space, and all lines end in
    two characters. -/
theorem annotate_keeps_columns_pair :
    VisibleAnchors pairGrammar "a.js".toList pairScript ∧
    (annotate pairGrammar quietOptions "a.js".toList pairScript ⟨[], [], []⟩).1 = .ok pairResult ∧
    ∃ i j, insertionsOf pairGrammar quietOptions "a.js".toList pairScript ⟨[], [], []⟩ = [i, j] ∧
      i.offset = 1 ∧ j.offset = 17 ∧
      KeepsPlace pairScript (Utf8.encode pairResult) [i, j] [] i ∧
      KeepsPlace pairScript (Utf8.encode pairResult) [i, j] [] j ∧
      Paired (Utf8.encode pairResult) := by
  obtain ⟨-, script, hscript, -, -, hplaces, hpairs, -⟩ :=
    annotate_keeps_columns visibleAnchors_pair annotate_pair extract?_pair
  obtain rfl : pairResult = script := by
    rw [hscript]
    simp [pairRange]
  have hoffsets : (insertionsOf pairGrammar quietOptions "a.js".toList pairScript
      ⟨[], [], []⟩).map (·.offset) = [1, 17] := by
    decide +kernel
  obtain ⟨i, more, hall, hi, hmore⟩ := List.map_eq_cons_iff.1 hoffsets
  obtain ⟨j, rest, rfl, hj, hrest⟩ := List.map_eq_cons_iff.1 hmore
  obtain rfl := List.map_eq_nil_iff.1 hrest
  rw [hall] at hplaces hoffsets
  have hapart := hplaces (by rw [hoffsets]; decide)
  have hpair : HasPair (Utf8.encode pairScript) := Comment.hasCrLf_iff.1 (by decide)
  have hpaired : Paired (Utf8.encode pairScript) := by
    have hsplit : Utf8.encode pairScript = Utf8.encode (pairScript.take 32) ++ [0x0D, 0x0A] := by
      decide
    rw [hsplit]
    exact (Paired.of_no_lineFeed (by decide)).append Paired.crLf
  exact ⟨visibleAnchors_pair, annotate_pair, i, j, hall, hi, hj, hapart i (by simp),
    hapart j (by simp), (hpairs hpair hpaired).2⟩

end DocAnnotator
