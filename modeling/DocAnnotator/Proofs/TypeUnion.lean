import DocAnnotator.Proofs.Comment.Layout
import DocAnnotator.Proofs.Text.Blank
import DocAnnotator.TypeUnion

/-! ## Members and joins of type texts

    A union is built as text and cut again at every level, so what is joined must be found again.

    - `Position`: where a reader of a type text stands; `Along`: what holds on its way.
    - `Closed`, `Balanced`: the brackets of a text come out even, and none closes before it opens.
    - `Uncut`, `IsPart`, `IsMember`: what can stand between two bars.
    - `isMember_of_mem_members`: cutting a text gives members.
    - `membersAt_union_iff`, `members_union`: when parts that are put together are found again.
    - `members_join`: a join has the distinct members of what it joins.
-/

namespace DocAnnotator.TypeUnion

/-! ### Reading a type text -/

/-- Where a reader of a type text stands: the bracket depth, and the character before. -/
structure Position where
  depth : Int
  previous : Option Char

namespace Position

/-- Before the first character. -/
def start : Position := ⟨0, none⟩

/-- After one more character. -/
def next (p : Position) (c : Char) : Position := ⟨depthAfter p.depth p.previous c, some c⟩

/-- After a text. -/
def after (p : Position) (s : Text) : Position := s.foldl next p

theorem after_append (p : Position) (s t : Text) : p.after (s ++ t) = (p.after s).after t :=
  List.foldl_append

/-- `holds` at every position that is reached in a text. -/
def Along (holds : Position → Prop) (p : Position) : Text → Prop
  | [] => True
  | c :: s => holds (p.next c) ∧ Along holds (p.next c) s

theorem along_append {holds : Position → Prop} (p : Position) (s t : Text) :
    Along holds p (s ++ t) ↔ Along holds p s ∧ Along holds (p.after s) t := by
  induction s generalizing p with
  | nil => exact (and_iff_right trivial).symm
  | cons c s ih =>
    show holds _ ∧ Along holds (p.next c) (s ++ t) ↔ (holds _ ∧ Along holds _ s) ∧ _
    rw [ih (p.next c), and_assoc]
    rfl

theorem along_of_forall {holds : Position → Prop} (h : ∀ q, holds q) (p : Position) (s : Text) :
    Along holds p s := by
  induction s generalizing p with
  | nil => trivial
  | cons c s ih => exact ⟨h _, ih _⟩

theorem Along.imp {holds holds' : Position → Prop} (h : ∀ q, holds q → holds' q)
    {p : Position} {s : Text} (hs : Along holds p s) : Along holds' p s := by
  induction s generalizing p with
  | nil => trivial
  | cons c s ih => exact ⟨h _ hs.1, ih hs.2⟩

instance Along.decidable {holds : Position → Prop} [DecidablePred holds] :
    (p : Position) → (s : Text) → Decidable (Along holds p s)
  | _, [] => isTrue trivial
  | p, c :: s =>
    have : Decidable (Along holds (p.next c) s) := Along.decidable (p.next c) s
    inferInstanceAs (Decidable (_ ∧ _))

/-- Outside all brackets, where a member can start. -/
structure Free (p : Position) : Prop where
  depth : p.depth = 0
  arrow : p.previous ≠ some '='

namespace Free

theorem start : Free start := ⟨rfl, by simp [Position.start]⟩

variable {p : Position} {holds : Position → Prop}

/-- Reading goes on in the same way from all free positions. -/
theorem next_eq (h : Free p) (c : Char) : p.next c = Position.start.next c := by
  obtain ⟨depth, previous⟩ := p
  obtain ⟨rfl, harrow⟩ := h
  have hprevious : (previous == some '=') = false := by simpa using harrow
  simp [next, Position.start, depthAfter, hprevious]

theorem along_iff (h : Free p) (s : Text) : Along holds p s ↔ Along holds Position.start s := by
  cases s with
  | nil => exact Iff.rfl
  | cons c s => unfold Along; rw [h.next_eq]

theorem after_depth (h : Free p) (s : Text) :
    (p.after s).depth = (Position.start.after s).depth := by
  cases s with
  | nil => exact h.depth
  | cons c s =>
    show ((p.next c).after s).depth = ((Position.start.next c).after s).depth
    rw [h.next_eq]

end Free

/-- A blank changes no depth. -/
theorem next_blank {c : Char} (hc : Text.isBlank c = true) (p : Position) :
    p.next c = ⟨p.depth, some c⟩ := by
  have hne : ∀ d, Text.isBlank d = false → c ≠ d := by
    rintro d hd rfl
    rw [hc] at hd
    exact Bool.noConfusion hd
  unfold next depthAfter
  simp [hne '<' (by decide), hne '(' (by decide), hne '[' (by decide), hne '\x7b' (by decide),
    hne '>' (by decide), hne ')' (by decide), hne ']' (by decide), hne '\x7d' (by decide)]

theorem after_blank_depth {s : Text} (hs : ∀ c ∈ s, Text.isBlank c = true) (p : Position) :
    (p.after s).depth = p.depth := by
  induction s generalizing p with
  | nil => rfl
  | cons c s ih =>
    show ((p.next c).after s).depth = p.depth
    rw [ih (fun d hd => hs d (List.mem_cons_of_mem _ hd)), next_blank (hs c List.mem_cons_self)]

theorem Free.after_blank {p : Position} (h : Free p) {s : Text}
    (hs : ∀ c ∈ s, Text.isBlank c = true) : Free (p.after s) := by
  induction s generalizing p with
  | nil => exact h
  | cons c s ih =>
    have hc := hs c List.mem_cons_self
    have hnext : Free (p.next c) := by
      rw [next_blank hc]
      refine ⟨h.depth, ?_⟩
      rintro ⟨rfl⟩
      exact absurd hc (by decide)
    exact ih hnext fun d hd => hs d (List.mem_cons_of_mem _ hd)

/-- Right after a bar that separates two members. -/
def IsCut (p : Position) : Prop := p.previous = some '|' ∧ p.depth = 0

instance : DecidablePred IsCut := fun p =>
  inferInstanceAs (Decidable (p.previous = some '|' ∧ p.depth = 0))

theorem IsCut.free {p : Position} (h : IsCut p) : Free p := ⟨h.2, by simp [h.1]⟩

/-- A bar is no bracket. -/
theorem next_bar (p : Position) : p.next '|' = ⟨p.depth, some '|'⟩ := by
  simp [next, depthAfter]

end Position

open Position

/-- Every bracket that opens in the text closes in it, as far as counting tells. -/
def Closed (type : Text) : Prop := (start.after type).depth = 0

/-- Closed, and no bracket closes before it opens. -/
structure Balanced (type : Text) : Prop where
  closed : Closed type
  up : Along (fun p => 0 ≤ p.depth) start type

instance (type : Text) : Decidable (Closed type) := inferInstanceAs (Decidable (_ = (0 : Int)))

instance (type : Text) : Decidable (Balanced type) :=
  decidable_of_iff (Closed type ∧ Along (fun p => 0 ≤ p.depth) start type)
    ⟨fun h => ⟨h.1, h.2⟩, fun h => ⟨h.1, h.2⟩⟩

/-! ### Cutting -/

/-- The pieces of the text that is still to come. -/
def piecesAt (p : Position) (s : Text) : List Text := pieces p.depth p.previous s

theorem piecesAt_nil (p : Position) : piecesAt p [] = [[]] := rfl

theorem piecesAt_ne_nil (p : Position) (s : Text) : piecesAt p s ≠ [] := by
  unfold piecesAt
  fun_cases pieces p.depth p.previous s <;> simp_all

theorem piecesAt_cut {p : Position} {c : Char} (h : IsCut (p.next c)) (s : Text) :
    piecesAt p (c :: s) = [] :: piecesAt (p.next c) s := by
  obtain ⟨hbar, hdepth⟩ := h
  obtain rfl : c = '|' := Option.some.inj hbar
  change depthAfter p.depth p.previous '|' = 0 at hdepth
  simp [piecesAt, pieces, next, hdepth]

theorem piecesAt_keep {p : Position} {c : Char} (h : ¬ IsCut (p.next c)) (s : Text) :
    piecesAt p (c :: s) = (piecesAt (p.next c) s).modifyHead (c :: ·) := by
  have hkeep : ¬ (c = '|' ∧ depthAfter p.depth p.previous c = 0) :=
    fun hcut => h ⟨congrArg some hcut.1, hcut.2⟩
  obtain ⟨piece, more, hpieces⟩ := List.exists_cons_of_ne_nil (piecesAt_ne_nil (p.next c) s)
  have hpieces' : pieces (depthAfter p.depth p.previous c) (some c) s = piece :: more := hpieces
  rw [hpieces]
  simp [piecesAt, pieces, hkeep, hpieces']

/-- A stretch of text without a bar that cuts stays in one piece. -/
theorem piecesAt_append {p : Position} {s : Text} (h : Along (fun q => ¬ IsCut q) p s) (t : Text) :
    piecesAt p (s ++ t) = (piecesAt (p.after s) t).modifyHead (s ++ ·) := by
  induction s generalizing p with
  | nil =>
    show piecesAt p t = (piecesAt p t).modifyHead fun x => x
    cases piecesAt p t <;> rfl
  | cons c s ih =>
    rw [List.cons_append, piecesAt_keep h.1, ih h.2, List.modifyHead_modifyHead]
    rfl

theorem piecesAt_whole {p : Position} {s : Text} (h : Along (fun q => ¬ IsCut q) p s) :
    piecesAt p s = [s] := by
  have hpieces := piecesAt_append h []
  rwa [List.append_nil, piecesAt_nil, List.modifyHead_cons, List.append_nil] at hpieces

/-- A stretch of a type text that ends outside all brackets and is not cut, with `holds` along it. -/
structure Stretch (holds : Position → Prop) (p : Position) (s : Text) : Prop where
  depth : (p.after s).depth = 0
  whole : Along (fun q => ¬ IsCut q) p s
  along : Along holds p s

variable {holds : Position → Prop}

theorem Stretch.of_free {p : Position} (hp : Free p) {s : Text} :
    Stretch holds p s ↔ Stretch holds start s := by
  constructor
  · intro h
    exact ⟨hp.after_depth s ▸ h.depth, (hp.along_iff s).1 h.whole, (hp.along_iff s).1 h.along⟩
  · intro h
    exact ⟨(hp.after_depth s).trans h.depth, (hp.along_iff s).2 h.whole, (hp.along_iff s).2 h.along⟩

/-- The pieces of a closed text are stretches. -/
theorem stretch_of_mem_pieces {p : Position} {s : Text} (hdepth : (p.after s).depth = 0)
    (halong : Along holds p s) {piece : Text} {more : List Text}
    (h : piecesAt p s = piece :: more) :
    Stretch holds p piece ∧ ∀ other ∈ more, Stretch holds start other := by
  induction s generalizing p piece more with
  | nil =>
    obtain ⟨rfl, rfl⟩ := List.cons.inj h
    exact ⟨⟨hdepth, trivial, trivial⟩, fun _ h => absurd h List.not_mem_nil⟩
  | cons c s ih =>
    obtain ⟨first, others, hrest⟩ := List.exists_cons_of_ne_nil (piecesAt_ne_nil (p.next c) s)
    obtain ⟨hfirst, hothers⟩ := ih hdepth halong.2 hrest
    by_cases hcut : IsCut (p.next c)
    · -- the piece ends here, and the others start behind the bar
      rw [piecesAt_cut hcut, hrest] at h
      obtain ⟨rfl, rfl⟩ := List.cons.inj h
      obtain rfl : c = '|' := Option.some.inj hcut.1
      have hp : p.depth = 0 := by simpa [next_bar] using hcut.2
      refine ⟨⟨hp, trivial, trivial⟩, fun other hother => ?_⟩
      rcases List.mem_cons.1 hother with rfl | hother
      · exact (Stretch.of_free hcut.free).1 hfirst
      · exact hothers other hother
    · rw [piecesAt_keep hcut, hrest] at h
      obtain ⟨rfl, rfl⟩ := List.cons.inj h
      exact ⟨⟨hfirst.depth, ⟨hcut, hfirst.whole⟩, ⟨halong.1, hfirst.along⟩⟩, hothers⟩

/-- Blanks around a text do not matter for the way through it. -/
theorem along_trim {s : Text} (h : Along holds start s) : Along holds start (Text.trim s) := by
  obtain ⟨a, b, hs, ha, -⟩ := Text.exists_trim s
  rw [hs, along_append, along_append] at h
  exact ((Free.start.after_blank ha).along_iff _).1 h.1.2

theorem Closed.trim {s : Text} (h : Closed s) : Closed (Text.trim s) := by
  obtain ⟨a, b, hs, ha, hb⟩ := Text.exists_trim s
  unfold Closed at h
  rw [hs, after_append, after_append, after_blank_depth hb] at h
  rwa [(Free.start.after_blank ha).after_depth] at h

/-- Blanks around a stretch do not matter. -/
theorem Stretch.trim {s : Text} (h : Stretch holds start s) :
    Stretch holds start (Text.trim s) :=
  ⟨Closed.trim h.depth, along_trim h.whole, along_trim h.along⟩

/-! ### Members -/

/-- What can stand between two bars of a union, with `holds` along it. -/
structure IsMember (holds : Position → Prop) (m : Text) : Prop extends Stretch holds start m where
  trimmed : Text.trim m = m
  ne_nil : m ≠ []

theorem mem_members {type m : Text} :
    m ∈ members type ↔ m ≠ [] ∧ ∃ piece ∈ piecesAt start type, Text.trim piece = m := by
  unfold members
  rw [List.mem_filter, List.mem_map, and_comm]
  simp [piecesAt, start]

/-- The members of a closed text are members. -/
theorem isMember_of_mem_members {type m : Text} (hclosed : Closed type)
    (halong : Along holds start type) (h : m ∈ members type) : IsMember holds m := by
  obtain ⟨hne, piece, hpiece, rfl⟩ := mem_members.1 h
  obtain ⟨first, more, hpieces⟩ := List.exists_cons_of_ne_nil (piecesAt_ne_nil start type)
  obtain ⟨hfirst, hmore⟩ := stretch_of_mem_pieces hclosed halong hpieces
  have hstretch : Stretch holds start piece := by
    rw [hpieces] at hpiece
    rcases List.mem_cons.1 hpiece with rfl | hpiece
    · exact hfirst
    · exact hmore piece hpiece
  exact ⟨hstretch.trim, Text.trim_trim piece, hne⟩

/-- The members of what is still to come. -/
def membersAt (p : Position) (s : Text) : List Text :=
  ((piecesAt p s).map Text.trim).filter (!·.isEmpty)

/-- No bar cuts the text. -/
def Uncut (type : Text) : Prop := Along (fun p => ¬ IsCut p) start type

instance (type : Text) : Decidable (Uncut type) :=
  inferInstanceAs (Decidable (Along (fun p => ¬ IsCut p) start type))

/-- What can be written between the bars of a union, whatever becomes of it when the union is cut:
    it is trimmed and not empty, and no bar stands in front. -/
structure IsPart (m : Text) : Prop where
  trimmed : Text.trim m = m
  ne_nil : m ≠ []
  head : m.head? ≠ some '|'

theorem Uncut.isPart {m : Text} (h : Uncut m) (htrim : Text.trim m = m) (hne : m ≠ []) :
    IsPart m := by
  refine ⟨htrim, hne, ?_⟩
  intro hbar
  obtain ⟨s, rfl⟩ := List.head?_eq_some_iff.1 hbar
  exact h.1 ⟨rfl, rfl⟩

theorem IsMember.isPart {m : Text} (h : IsMember holds m) : IsPart m :=
  Uncut.isPart h.whole h.trimmed h.ne_nil

theorem IsPart.exists_cons {m : Text} (h : IsPart m) :
    ∃ c s, m = c :: s ∧ Text.isBlank c = false ∧ c ≠ '|' := by
  obtain ⟨c, s, rfl⟩ := List.exists_cons_of_ne_nil h.ne_nil
  refine ⟨c, s, rfl, Text.not_blank_of_trim h.trimmed, ?_⟩
  rintro rfl
  exact h.head rfl

theorem membersAt_whole {p : Position} {m : Text} (hp : Free p) (hm : IsPart m) (hcut : Uncut m) :
    membersAt p m = [m] := by
  have hpieces := piecesAt_whole ((hp.along_iff m).2 hcut)
  simp [membersAt, hpieces, hm.trimmed, hm.ne_nil]

/-- Where a text is cut, it is cut for the first time at some bar. -/
theorem exists_cut {p : Position} {s : Text} (h : ¬ Along (fun q => ¬ IsCut q) p s) :
    ∃ x y, s = x ++ '|' :: y ∧ Along (fun q => ¬ IsCut q) p x ∧ IsCut ((p.after x).next '|') := by
  induction s generalizing p with
  | nil => exact absurd trivial h
  | cons c s ih =>
    by_cases hcut : IsCut (p.next c)
    · obtain rfl : c = '|' := Option.some.inj hcut.1
      exact ⟨[], s, rfl, trivial, hcut⟩
    · obtain ⟨x, y, rfl, hx, hy⟩ := ih fun hs => h ⟨hcut, hs⟩
      exact ⟨c :: x, y, rfl, ⟨hcut, hx⟩, hy⟩

/-- A part that comes out as the first member has not been cut: else that member would be
    shorter. -/
theorem uncut_of_head {p : Position} {m s : Text} (hp : Free p) (hm : IsPart m)
    (h : (membersAt p (m ++ s)).head? = some m) : Uncut m := by
  by_contra hcut
  obtain ⟨x, y, rfl, hx, hbar⟩ := exists_cut fun hall => hcut ((hp.along_iff m).1 hall)
  have hpieces : piecesAt p (x ++ '|' :: y ++ s) =
      x :: piecesAt ((p.after x).next '|') (y ++ s) := by
    rw [List.append_assoc, piecesAt_append hx, List.cons_append, piecesAt_cut hbar]
    simp
  obtain ⟨c, rest, hcons, hblank, hc⟩ := hm.exists_cons
  cases x with
  | nil => exact hc (List.cons.inj hcons).1.symm
  | cons d x =>
    obtain rfl : d = c := (List.cons.inj hcons).1
    have htrim : Text.trim (d :: x) = d :: Text.trimEnd x := Text.trim_cons hblank
    have hlength := (Text.trimEnd_isPrefix x).length_le
    rw [membersAt, hpieces, List.map_cons, htrim, List.filter_cons_of_pos (by simp)] at h
    have hequal := congrArg List.length (Option.some.inj h)
    simp at hequal
    omega

/-- A part in front of a bar that comes out as the first member has even brackets: else the bar
    would be inside them, and that member would be longer. -/
theorem closed_of_head {p : Position} {m s : Text} (hp : Free p) (hm : IsPart m) (hcut : Uncut m)
    (h : (membersAt p (m ++ (" | ".toList ++ s))).head? = some m) : Closed m := by
  by_contra hopen
  have hdepth : (p.after m).depth ≠ 0 := by rwa [hp.after_depth m]
  have hspace : ∀ q : Position, ¬ IsCut (q.next ' ') := fun q hq => by simp [next, IsCut] at hq
  have hbar : ¬ IsCut (((p.after m).next ' ').next '|') := by
    rw [next_bar, next_blank (by decide)]
    exact fun hq => hdepth hq.2
  have hpieces : piecesAt p (m ++ (" | ".toList ++ s)) =
      (piecesAt (((p.after m).next ' ').next '|') (' ' :: s)).modifyHead
        (m ++ ' ' :: '|' :: ·) := by
    rw [piecesAt_append ((hp.along_iff m).2 hcut)]
    show (piecesAt (p.after m) (' ' :: '|' :: ' ' :: s)).modifyHead (m ++ ·) = _
    rw [piecesAt_keep (hspace _), piecesAt_keep hbar, List.modifyHead_modifyHead,
      List.modifyHead_modifyHead]
    rfl
  obtain ⟨first, more, hrest⟩ :=
    List.exists_cons_of_ne_nil (piecesAt_ne_nil (((p.after m).next ' ').next '|') (' ' :: s))
  obtain ⟨c, rest, rfl, hblank, -⟩ := hm.exists_cons
  have htrim : Text.trim (c :: rest ++ ' ' :: '|' :: first) =
      c :: rest ++ ' ' :: '|' :: Text.trimEnd first := by
    have hend := Text.trimEnd_append_cons (s := rest ++ [' ']) (t := first) (c := '|') (by decide)
    rw [List.cons_append, Text.trim_cons hblank]
    simpa using hend
  rw [membersAt, hpieces, hrest, List.modifyHead_cons, List.map_cons, htrim,
    List.filter_cons_of_pos (by simp)] at h
  have hequal := congrArg List.length (Option.some.inj h)
  simp at hequal

/-- A member in front of a bar is cut off there, and reading goes on behind the blank. -/
theorem membersAt_cons {p : Position} {m : Text} (hp : Free p) (hm : IsMember holds m) (s : Text) :
    membersAt p (m ++ (" | ".toList ++ s)) = m :: membersAt ⟨0, some ' '⟩ s := by
  have hdepth : (p.after m).depth = 0 := (hp.after_depth m).trans hm.depth
  have hblank : (p.after m).next ' ' = ⟨0, some ' '⟩ := by
    rw [next_blank (by decide), hdepth]
  have hcut : IsCut ((⟨0, some ' '⟩ : Position).next '|') := ⟨rfl, by simp [next_bar]⟩
  have hbehind : ((⟨0, some ' '⟩ : Position).next '|').next ' ' = ⟨0, some ' '⟩ := by
    rw [next_bar, next_blank (by decide)]
  have hpieces : piecesAt p (m ++ (" | ".toList ++ s)) =
      (m ++ [' ']) :: (piecesAt ⟨0, some ' '⟩ s).modifyHead (' ' :: ·) := by
    have hspace : ∀ q : Position, ¬ IsCut (q.next ' ') := fun q h => by simp [next, IsCut] at h
    rw [piecesAt_append ((hp.along_iff m).2 hm.whole)]
    show (piecesAt (p.after m) (' ' :: '|' :: ' ' :: s)).modifyHead (m ++ ·) = _
    rw [piecesAt_keep (hspace _), hblank, piecesAt_cut hcut, piecesAt_keep (hspace _), hbehind]
    rfl
  have hfirst : Text.trim (m ++ [' ']) = m := by
    have hspace : ∀ c ∈ [' '], Text.isBlank c = true := by
      intro c hc
      rw [List.mem_singleton.1 hc]
      decide
    rw [Text.trim_append_blank hspace, hm.trimmed]
  have hrest : ((piecesAt ⟨0, some ' '⟩ s).modifyHead (' ' :: ·)).map Text.trim =
      (piecesAt ⟨0, some ' '⟩ s).map Text.trim := by
    cases piecesAt ⟨0, some ' '⟩ s with
    | nil => rfl
    | cons piece more => simp [Text.trim_cons_blank (c := ' ') (by decide)]
  unfold membersAt
  rw [hpieces, List.map_cons, hfirst, hrest, List.filter_cons_of_pos (by simp [hm.ne_nil])]

/-- Parts that are put together with bars are found again just if none of them is cut, and the
    brackets of each come out even in front of the next. -/
theorem membersAt_union_iff {p : Position} (hp : Free p) {front : List Text} {last : Text}
    (hfront : ∀ m ∈ front, IsPart m) (hlast : IsPart last) :
    membersAt p (List.intercalate " | ".toList (front ++ [last])) = front ++ [last] ↔
      (∀ m ∈ front, Uncut m ∧ Closed m) ∧ Uncut last := by
  induction front generalizing p with
  | nil =>
    rw [List.nil_append, List.intercalate_singleton]
    constructor
    · intro h
      refine ⟨fun m hm => absurd hm List.not_mem_nil, ?_⟩
      exact uncut_of_head (s := []) hp hlast (by rw [List.append_nil, h]; rfl)
    · exact fun h => membersAt_whole hp hlast h.2
  | cons m front ih =>
    have hm := hfront m List.mem_cons_self
    have hne : front ++ [last] ≠ [] := by simp
    have hbehind : Free (⟨0, some ' '⟩ : Position) := ⟨rfl, by decide⟩
    have hpeel : Uncut m → Closed m →
        membersAt p (m ++ (" | ".toList ++ List.intercalate " | ".toList (front ++ [last]))) =
          m :: membersAt ⟨0, some ' '⟩ (List.intercalate " | ".toList (front ++ [last])) := by
      intro hcut hclosed
      have hmember : IsMember (fun _ => True) m :=
        ⟨⟨hclosed, hcut, along_of_forall (fun _ => trivial) _ _⟩, hm.trimmed, hm.ne_nil⟩
      exact membersAt_cons hp hmember _
    rw [List.cons_append, List.intercalate_cons_of_ne_nil hne, List.append_assoc]
    rw [List.forall_mem_cons, and_assoc]
    have hrest := ih hbehind fun other hother => hfront other (List.mem_cons_of_mem _ hother)
    constructor
    · intro h
      have hhead : (membersAt p (m ++ (" | ".toList ++
          List.intercalate " | ".toList (front ++ [last])))).head? = some m := by rw [h]; rfl
      have hcut := uncut_of_head hp hm hhead
      have hclosed := closed_of_head hp hm hcut hhead
      rw [hpeel hcut hclosed] at h
      exact ⟨⟨hcut, hclosed⟩, hrest.1 (List.cons.inj h).2⟩
    · rintro ⟨⟨hcut, hclosed⟩, hothers⟩
      rw [hpeel hcut hclosed, hrest.2 hothers]

/-- Members that are put together with bars are found again. -/
theorem members_union {m : Text} {more : List Text} (hm : IsMember holds m)
    (hmore : ∀ other ∈ more, IsMember holds other) :
    members (List.intercalate " | ".toList (m :: more)) = m :: more := by
  have hall : ∀ other ∈ m :: more, IsMember holds other := by
    rw [List.forall_mem_cons]
    exact ⟨hm, hmore⟩
  have hne : m :: more ≠ [] := List.cons_ne_nil m more
  rw [← List.dropLast_append_getLast hne] at hall ⊢
  have hlast := hall _ (List.mem_append_right _ List.mem_cons_self)
  refine (membersAt_union_iff Free.start ?_ hlast.isPart).2 ⟨?_, hlast.whole⟩
  · exact fun other hother => (hall other (List.mem_append_left _ hother)).isPart
  · intro other hother
    have hother := hall other (List.mem_append_left _ hother)
    exact ⟨hother.whole, hother.depth⟩

/-- The way through a union is the way through its members, but for the bars between them. -/
theorem along_union (hsep : ∀ c, holds ⟨0, some c⟩) {m : Text} {more : List Text}
    (hm : IsMember holds m) (hmore : ∀ other ∈ more, IsMember holds other) :
    Closed (List.intercalate " | ".toList (m :: more)) ∧
      Along holds start (List.intercalate " | ".toList (m :: more)) := by
  have hall : ∀ p : Position, Free p → (p.after (m ++ more.flatMap (" | ".toList ++ ·))).depth = 0 ∧
      Along holds p (m ++ more.flatMap (" | ".toList ++ ·)) := by
    induction more generalizing m with
    | nil =>
      intro p hp
      rw [List.flatMap_nil, List.append_nil]
      exact ⟨(hp.after_depth m).trans hm.depth, (hp.along_iff m).2 hm.along⟩
    | cons second more ih =>
      intro p hp
      have hdepth : (p.after m).depth = 0 := (hp.after_depth m).trans hm.depth
      have hbar : ((p.after m).after " | ".toList) = ⟨0, some ' '⟩ := by
        show (((p.after m).next ' ').next '|').next ' ' = _
        rw [next_blank (by decide), next_bar, next_blank (by decide), hdepth]
      obtain ⟨hrest, halong⟩ := ih (hmore second List.mem_cons_self)
        (fun o ho => hmore o (List.mem_cons_of_mem _ ho)) ⟨0, some ' '⟩ ⟨rfl, by decide⟩
      rw [List.flatMap_cons, List.append_assoc, after_append, after_append, hbar]
      refine ⟨hrest, ?_⟩
      rw [along_append, along_append, hbar]
      refine ⟨(hp.along_iff m).2 hm.along, ?_, halong⟩
      show holds ((p.after m).next ' ') ∧ holds (((p.after m).next ' ').next '|') ∧
        holds ((((p.after m).next ' ').next '|').next ' ') ∧ True
      rw [next_blank (by decide), next_bar, next_blank (by decide), hdepth]
      exact ⟨hsep _, hsep _, hsep _, trivial⟩
  rw [Comment.intercalate_cons]
  exact hall start Free.start

/-! ### Joins -/

theorem mem_distinctMembers {types : List Text} {m : Text} :
    m ∈ distinctMembers types ↔ ∃ type ∈ types, m ∈ members type := by
  unfold distinctMembers
  rw [List.mem_eraseDups, List.mem_flatMap]

theorem join_of_members {types : List Text} {m : Text} {more : List Text}
    (h : distinctMembers types = m :: more) :
    join types = List.intercalate " | ".toList (m :: more) := by
  unfold join
  rw [h]

theorem join_of_no_members {types : List Text} (h : distinctMembers types = []) :
    join types = any := by
  unfold join
  rw [h]

/-- A join has the distinct members of what it joins, if there are any. -/
theorem members_join {types : List Text} (h : ∀ type ∈ types, Closed type)
    (hne : distinctMembers types ≠ []) : members (join types) = distinctMembers types := by
  have hmember : ∀ m ∈ distinctMembers types, IsMember (fun _ => True) m := by
    intro m hm
    obtain ⟨type, htype, hm⟩ := mem_distinctMembers.1 hm
    exact isMember_of_mem_members (h type htype) (along_of_forall (fun _ => trivial) _ _) hm
  obtain ⟨m, more, hmembers⟩ := List.exists_cons_of_ne_nil hne
  rw [hmembers] at hmember ⊢
  rw [join_of_members hmembers]
  exact members_union (hmember m List.mem_cons_self)
    fun other hother => hmember other (List.mem_cons_of_mem _ hother)

/-- What holds along the types that are joined holds along the join. -/
theorem along_join (hsep : ∀ c, holds ⟨0, some c⟩) {types : List Text}
    (h : ∀ type ∈ types, Closed type ∧ Along holds start type) :
    Closed (join types) ∧ Along holds start (join types) := by
  cases hmembers : distinctMembers types with
  | nil =>
    rw [join_of_no_members hmembers]
    exact ⟨rfl, hsep _, hsep _, hsep _, trivial⟩
  | cons m more =>
    have hmember : ∀ m' ∈ m :: more, IsMember holds m' := by
      intro m' hm
      rw [← hmembers] at hm
      obtain ⟨type, htype, hm⟩ := mem_distinctMembers.1 hm
      exact isMember_of_mem_members (h type htype).1 (h type htype).2 hm
    rw [join_of_members hmembers]
    exact along_union hsep (hmember m List.mem_cons_self)
      fun other hother => hmember other (List.mem_cons_of_mem _ hother)

theorem Balanced.join {types : List Text} (h : ∀ type ∈ types, Balanced type) :
    Balanced (join types) := by
  have hjoin : Closed (TypeUnion.join types) ∧
      Along (fun p => 0 ≤ p.depth) start (TypeUnion.join types) :=
    along_join (fun _ => Int.le_refl 0) fun type htype => ⟨(h type htype).closed, (h type htype).up⟩
  exact ⟨hjoin.1, hjoin.2⟩

/-- A type text with even brackets that names at least one type. -/
structure IsUnion (type : Text) : Prop where
  closed : Closed type
  ne_nil : members type ≠ []

instance (type : Text) : Decidable (IsUnion type) :=
  decidable_of_iff (Closed type ∧ members type ≠ []) ⟨fun h => ⟨h.1, h.2⟩, fun h => ⟨h.1, h.2⟩⟩

theorem distinctMembers_ne_nil {types : List Text} (hne : types ≠ [])
    (h : ∀ type ∈ types, IsUnion type) : distinctMembers types ≠ [] := by
  obtain ⟨type, more, rfl⟩ := List.exists_cons_of_ne_nil hne
  obtain ⟨m, rest, hm⟩ := List.exists_cons_of_ne_nil (h type List.mem_cons_self).ne_nil
  intro hnil
  have hmem : m ∈ distinctMembers (type :: more) :=
    mem_distinctMembers.2 ⟨type, List.mem_cons_self, by rw [hm]; exact List.mem_cons_self⟩
  rw [hnil] at hmem
  exact absurd hmem List.not_mem_nil

theorem IsUnion.join {types : List Text} (h : ∀ type ∈ types, IsUnion type) :
    IsUnion (join types) := by
  have hclosed : Closed (TypeUnion.join types) ∧
      Along (fun _ => True) start (TypeUnion.join types) :=
    along_join (fun _ => trivial)
      fun type htype => ⟨(h type htype).closed, along_of_forall (fun _ => trivial) _ _⟩
  refine ⟨hclosed.1, ?_⟩
  by_cases hne : distinctMembers types = []
  · rw [join_of_no_members hne]
    decide
  · rw [members_join (fun type htype => (h type htype).closed) hne]
    exact hne

/-! ### Distinct members -/

/-- Induction along the way that repeats are dropped: the first entry stays, and the rest goes on
    without it. -/
theorem distinct_induction {motive : List Text → Prop} (nil : motive [])
    (cons : ∀ a rest, motive (rest.filter fun b => !b == a) → motive (a :: rest)) :
    ∀ l, motive l
  | [] => nil
  | a :: rest =>
    have : (rest.filter fun b => !b == a).length < rest.length + 1 :=
      Nat.lt_succ_of_le (List.length_filter_le _ _)
    cons a rest (distinct_induction nil cons _)
  termination_by l => l.length

/-- Choosing and dropping repeats can be done in either order. -/
theorem eraseDups_filter (keep : Text → Bool) (l : List Text) :
    (l.filter keep).eraseDups = l.eraseDups.filter keep := by
  induction l using distinct_induction with
  | nil => rfl
  | cons a rest ih =>
    have hswap : (rest.filter keep).filter (fun b => !b == a) =
        (rest.filter fun b => !b == a).filter keep := List.filter_comm _ _ _
    by_cases ha : keep a = true
    · rw [List.filter_cons_of_pos ha, List.eraseDups_cons, List.eraseDups_cons,
        List.filter_cons_of_pos ha, hswap, ih]
    · -- what equals `a` is not chosen anyway
      have hsame : (rest.filter fun b => !b == a).filter keep = rest.filter keep := by
        rw [← hswap, List.filter_filter]
        refine List.filter_congr fun b _ => ?_
        by_cases hb : b = a
        · subst hb
          simp [ha]
        · simp [hb]
      rw [List.filter_cons_of_neg ha, List.eraseDups_cons, List.filter_cons_of_neg ha, ← ih, hsame]

theorem eraseDups_eraseDups (l : List Text) : l.eraseDups.eraseDups = l.eraseDups := by
  induction l using distinct_induction with
  | nil => rfl
  | cons a rest ih =>
    have hdropped : (rest.filter fun b => !b == a).eraseDups.filter (fun b => !b == a) =
        (rest.filter fun b => !b == a).eraseDups := by
      rw [← eraseDups_filter, List.filter_filter]
      simp
    rw [List.eraseDups_cons, List.eraseDups_cons, hdropped, ih]

/-- The distinct entries of two lists depend on the distinct entries of each. -/
theorem eraseDups_append_congr {a b c d : List Text} (hac : a.eraseDups = c.eraseDups)
    (hbd : b.eraseDups = d.eraseDups) : (a ++ b).eraseDups = (c ++ d).eraseDups := by
  have hmem : ∀ x, a.elem x = c.elem x := by
    intro x
    have hiff : x ∈ a ↔ x ∈ c := by rw [← List.mem_eraseDups, hac, List.mem_eraseDups]
    simp [hiff]
  have hrest : (b.removeAll a).eraseDups = (d.removeAll c).eraseDups := by
    unfold List.removeAll
    rw [eraseDups_filter, eraseDups_filter, hbd]
    exact List.filter_congr fun x _ => by rw [hmem x]
  rw [List.eraseDups_append, List.eraseDups_append, hac, hrest]

theorem eraseDups_flatMap_congr {α : Type} {f g : α → List Text} {l : List α}
    (h : ∀ x ∈ l, (f x).eraseDups = (g x).eraseDups) :
    (l.flatMap f).eraseDups = (l.flatMap g).eraseDups := by
  induction l with
  | nil => rfl
  | cons x rest ih =>
    rw [List.flatMap_cons, List.flatMap_cons]
    exact eraseDups_append_congr (h x List.mem_cons_self)
      (ih fun y hy => h y (List.mem_cons_of_mem _ hy))

/-- A list after one with the same distinct entries adds nothing. -/
theorem eraseDups_append_of_eq {a b : List Text} (h : a.eraseDups = b.eraseDups) :
    (a ++ b).eraseDups = a.eraseDups := by
  have hnone : b.removeAll a = [] := by
    unfold List.removeAll
    rw [List.filter_eq_nil_iff]
    intro x hx
    have hmem : x ∈ a := by rwa [← List.mem_eraseDups, h, List.mem_eraseDups]
    simp [hmem]
  rw [List.eraseDups_append, hnone, List.eraseDups_nil, List.append_nil]

end DocAnnotator.TypeUnion
