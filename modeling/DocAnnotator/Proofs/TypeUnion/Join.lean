import Mathlib.Data.List.Basic
import DocAnnotator.Proofs.TypeUnion

/-! ## Laws of joining

    Unions are joined again and again on the way from single expressions to the result of a
    function. Nothing is lost or repeated on that way, as long as the brackets come out even.

    - `FirstSeen`: the entries of a list without repeats, each where it is seen first.
    - `distinctMembers_single_join`, `distinctMembers_pair_join`: joins that are joined again.
    - `members_of_sublist`: members that are picked out of any text are found again.
    - `join_single_eq_iff`: the texts that a join of one text keeps.
    - `members_join_firstSeen`: cutting is the inverse of joining, and the laws that follow from it.
-/

namespace DocAnnotator.TypeUnion

open Position

/-! ### The order of first sight -/

/-- The entries of `seen`, each of them once, in the order in which they are seen first. -/
structure FirstSeen (seen distinct : List Text) : Prop where
  mem : ∀ m, m ∈ distinct ↔ m ∈ seen
  order : distinct.Pairwise fun a b => seen.idxOf a < seen.idxOf b

theorem FirstSeen.nodup {seen distinct : List Text} (h : FirstSeen seen distinct) :
    distinct.Nodup := by
  refine h.order.imp ?_
  rintro a b hlt rfl
  omega

/-- Entries that are left out do not change which of two others is seen first. -/
theorem idxOf_lt_of_filter {keep : Text → Bool} {l : List Text} {a b : Text}
    (ha : keep a = true) (hb : keep b = true)
    (h : (l.filter keep).idxOf a < (l.filter keep).idxOf b) : l.idxOf a < l.idxOf b := by
  induction l with
  | nil => exact h
  | cons c rest ih =>
    by_cases hac : c = a
    · subst hac
      have hbc : c ≠ b := by
        rintro rfl
        omega
      rw [List.idxOf_cons_self, List.idxOf_cons_ne _ hbc]
      omega
    · by_cases hbc : c = b
      · -- then `b` is first among those that are kept as well
        subst hbc
        rw [List.filter_cons_of_pos hb, List.idxOf_cons_self] at h
        omega
      · rw [List.idxOf_cons_ne _ hac, List.idxOf_cons_ne _ hbc]
        apply Nat.succ_lt_succ
        apply ih
        by_cases hc : keep c = true
        · rw [List.filter_cons_of_pos hc, List.idxOf_cons_ne _ hac, List.idxOf_cons_ne _ hbc] at h
          omega
        · rwa [List.filter_cons_of_neg hc] at h

/-- Dropping repeats leaves every entry where it is seen first. -/
theorem firstSeen_eraseDups (l : List Text) : FirstSeen l l.eraseDups := by
  refine ⟨fun m => List.mem_eraseDups, ?_⟩
  induction l using distinct_induction with
  | nil => exact List.Pairwise.nil
  | cons a rest ih =>
    have hother : ∀ b ∈ (rest.filter fun b => !b == a).eraseDups, b ≠ a := by
      intro b hb
      have hkept := (List.mem_filter.1 (List.mem_eraseDups.1 hb)).2
      simpa using hkept
    rw [List.eraseDups_cons, List.pairwise_cons]
    constructor
    · intro b hb
      rw [List.idxOf_cons_self, List.idxOf_cons_ne _ (hother b hb).symm]
      omega
    · refine ih.imp_of_mem ?_
      intro b c hb hc hlt
      have hrest : rest.idxOf b < rest.idxOf c :=
        idxOf_lt_of_filter (by simpa using hother b hb) (by simpa using hother c hc) hlt
      rw [List.idxOf_cons_ne _ (hother b hb).symm, List.idxOf_cons_ne _ (hother c hc).symm]
      omega

/-! ### Joins that are joined again -/

/-- Types that have a member between them. -/
def HasMember (types : List Text) : Prop := ∃ type ∈ types, members type ≠ []

instance (types : List Text) : Decidable (HasMember types) :=
  inferInstanceAs (Decidable (∃ type ∈ types, members type ≠ []))

theorem hasMember_iff {types : List Text} : HasMember types ↔ distinctMembers types ≠ [] := by
  constructor
  · rintro ⟨type, htype, hne⟩ hnil
    obtain ⟨m, hm⟩ := List.exists_mem_of_ne_nil _ hne
    have hmem : m ∈ distinctMembers types := mem_distinctMembers.2 ⟨type, htype, hm⟩
    rw [hnil] at hmem
    exact absurd hmem List.not_mem_nil
  · intro hne
    obtain ⟨m, hm⟩ := List.exists_mem_of_ne_nil _ hne
    obtain ⟨type, htype, hm⟩ := mem_distinctMembers.1 hm
    exact ⟨type, htype, List.ne_nil_of_mem hm⟩

/-- A join depends on the distinct members only. -/
theorem join_congr {types others : List Text}
    (h : distinctMembers types = distinctMembers others) : join types = join others := by
  unfold join
  rw [h]

/-- Without a member between them, types say nothing. -/
theorem join_of_not_hasMember {types : List Text} (h : ¬ HasMember types) : join types = any := by
  rw [hasMember_iff, not_not] at h
  exact join_of_no_members h

section Again

variable {types others : List Text}

theorem distinctMembers_single_join (h : ∀ type ∈ types, Closed type) (hne : HasMember types) :
    distinctMembers [join types] = distinctMembers types := by
  calc distinctMembers [join types]
      = (members (join types)).eraseDups := by simp [distinctMembers]
    _ = (distinctMembers types).eraseDups := by rw [members_join h (hasMember_iff.1 hne)]
    _ = distinctMembers types := eraseDups_eraseDups _

theorem distinctMembers_pair_join (h : ∀ type ∈ types, Closed type) (hne : HasMember types)
    (h' : ∀ type ∈ others, Closed type) (hne' : HasMember others) :
    distinctMembers [join types, join others] = distinctMembers (types ++ others) := by
  have hfirst : (members (join types)).eraseDups = (types.flatMap members).eraseDups := by
    rw [members_join h (hasMember_iff.1 hne)]
    exact eraseDups_eraseDups _
  have hsecond : (members (join others)).eraseDups = (others.flatMap members).eraseDups := by
    rw [members_join h' (hasMember_iff.1 hne')]
    exact eraseDups_eraseDups _
  calc distinctMembers [join types, join others]
      = (members (join types) ++ members (join others)).eraseDups := by simp [distinctMembers]
    _ = (types.flatMap members ++ others.flatMap members).eraseDups :=
        eraseDups_append_congr hfirst hsecond
    _ = distinctMembers (types ++ others) := by rw [distinctMembers, List.flatMap_append]

/-- A join that is joined again stays as it is, also where it says nothing. -/
theorem join_join (h : ∀ type ∈ types, Closed type) : join [join types] = join types := by
  by_cases hne : HasMember types
  · exact join_congr (distinctMembers_single_join h hne)
  · rw [join_of_not_hasMember hne]
    decide

/-- No member stands twice in a join. -/
theorem members_join_nodup (h : ∀ type ∈ types, Closed type) : (members (join types)).Nodup := by
  by_cases hne : HasMember types
  · rw [members_join h (hasMember_iff.1 hne)]
    exact (firstSeen_eraseDups _).nodup
  · rw [join_of_not_hasMember hne]
    decide

end Again

/-! ### One text on its own -/

/-- The pieces of any text are uncut, and the brackets come out even in each that has another
    behind it. -/
theorem pieces_open {p : Position} {s piece : Text} {more : List Text}
    (h : piecesAt p s = piece :: more) :
    Along (fun q => ¬ IsCut q) p piece ∧ (more ≠ [] → (p.after piece).depth = 0) ∧
      (∀ other ∈ more, Uncut other) ∧ more.Pairwise fun other _ => Closed other := by
  induction s generalizing p piece more with
  | nil =>
    obtain ⟨rfl, rfl⟩ := List.cons.inj h
    exact ⟨trivial, fun hne => absurd rfl hne, fun _ hmem => absurd hmem List.not_mem_nil, .nil⟩
  | cons c s ih =>
    obtain ⟨first, others, hrest⟩ := List.exists_cons_of_ne_nil (piecesAt_ne_nil (p.next c) s)
    obtain ⟨hfirst, hdepth, huncut, hclosed⟩ := ih hrest
    by_cases hcut : IsCut (p.next c)
    · -- the piece ends here, and what was first so far comes behind it
      rw [piecesAt_cut hcut, hrest] at h
      obtain ⟨rfl, rfl⟩ := List.cons.inj h
      obtain rfl : c = '|' := Option.some.inj hcut.1
      have hp : p.depth = 0 := by simpa [next_bar] using hcut.2
      refine ⟨trivial, fun _ => hp, ?_, ?_⟩
      · rw [List.forall_mem_cons]
        exact ⟨(hcut.free.along_iff first).1 hfirst, huncut⟩
      · rw [List.pairwise_cons]
        refine ⟨fun other hother => ?_, hclosed⟩
        have hzero := hdepth (List.ne_nil_of_mem hother)
        rwa [hcut.free.after_depth first] at hzero
    · rw [piecesAt_keep hcut, hrest] at h
      obtain ⟨rfl, rfl⟩ := List.cons.inj h
      exact ⟨⟨hcut, hfirst⟩, hdepth, huncut, hclosed⟩

/-- The members of any text are uncut parts, and only the last can have a bracket open. -/
theorem members_open (type : Text) :
    (∀ m ∈ members type, IsPart m ∧ Uncut m) ∧ (members type).Pairwise fun m _ => Closed m := by
  obtain ⟨piece, more, hpieces⟩ := List.exists_cons_of_ne_nil (piecesAt_ne_nil start type)
  obtain ⟨hpiece, hdepth, huncut, hclosed⟩ := pieces_open hpieces
  have hwhole : ∀ other ∈ piecesAt start type, Uncut other := by
    rw [hpieces, List.forall_mem_cons]
    exact ⟨hpiece, huncut⟩
  have heven : (piecesAt start type).Pairwise fun other _ => Closed other := by
    rw [hpieces, List.pairwise_cons]
    exact ⟨fun other hother => hdepth (List.ne_nil_of_mem hother), hclosed⟩
  constructor
  · intro m hm
    obtain ⟨hne, other, hother, rfl⟩ := mem_members.1 hm
    have hcut : Uncut (Text.trim other) := along_trim (hwhole other hother)
    exact ⟨hcut.isPart (Text.trim_trim other) hne, hcut⟩
  · unfold members
    apply List.Pairwise.filter
    rw [List.pairwise_map]
    exact heven.imp fun hother => hother.trim

/-- Some members of a text, put together in their order, are found again, whether or not all
    brackets of the text come out even. -/
theorem members_of_sublist {type : Text} {chosen : List Text} (h : chosen.Sublist (members type))
    (hne : chosen ≠ []) : members (List.intercalate " | ".toList chosen) = chosen := by
  obtain ⟨hpart, heven⟩ := members_open type
  have hpart : ∀ m ∈ chosen, IsPart m ∧ Uncut m := fun m hm => hpart m (h.subset hm)
  have heven := heven.sublist h
  rw [← List.dropLast_append_getLast hne] at hpart heven ⊢
  obtain ⟨-, -, hbefore⟩ := List.pairwise_append.1 heven
  have hlast := hpart _ (List.mem_append_right _ List.mem_cons_self)
  refine (membersAt_union_iff Free.start ?_ hlast.1).2 ⟨?_, hlast.2⟩
  · exact fun m hm => (hpart m (List.mem_append_left _ hm)).1
  · intro m hm
    exact ⟨(hpart m (List.mem_append_left _ hm)).2, hbefore m hm _ List.mem_cons_self⟩

/-- Dropping repeats leaves the others in their order. -/
theorem eraseDups_sublist (l : List Text) : l.eraseDups.Sublist l := by
  induction l using distinct_induction with
  | nil => exact List.Sublist.refl []
  | cons a rest ih =>
    rw [List.eraseDups_cons]
    exact (ih.trans List.filter_sublist).cons_cons a

theorem eraseDups_of_nodup {l : List Text} (h : l.Nodup) : l.eraseDups = l := by
  induction l with
  | nil => rfl
  | cons a rest ih =>
    obtain ⟨hnot, hrest⟩ := List.nodup_cons.1 h
    have hkeep : (rest.filter fun b => !b == a) = rest := by
      rw [List.filter_eq_self]
      intro b hb
      have hne : b ≠ a := by
        rintro rfl
        exact hnot hb
      simpa using hne
    rw [List.eraseDups_cons, hkeep, ih hrest]

/-- A text that is written as its members are joined: with a bar and two spaces between them, and
    none of them twice. -/
structure Rejoins (type : Text) : Prop where
  nodup : (members type).Nodup
  written : List.intercalate " | ".toList (members type) = type

/-- A text on its own is kept by a join just if it is written as its members are joined. -/
theorem join_single_eq_iff {type : Text} (hne : members type ≠ []) :
    join [type] = type ↔ Rejoins type := by
  have hdistinct : distinctMembers [type] = (members type).eraseDups := by simp [distinctMembers]
  have herase : (members type).eraseDups ≠ [] := by
    obtain ⟨m, hm⟩ := List.exists_mem_of_ne_nil _ hne
    exact List.ne_nil_of_mem (List.mem_eraseDups.2 hm)
  have hjoin : join [type] = List.intercalate " | ".toList (members type).eraseDups := by
    obtain ⟨m, more, hmore⟩ := List.exists_cons_of_ne_nil herase
    rw [join_of_members (hdistinct.trans hmore), hmore]
  constructor
  · intro hself
    -- the members of the join are the distinct ones, and the join is the text
    have hfound := members_of_sublist (eraseDups_sublist (members type)) herase
    rw [← hjoin, hself] at hfound
    refine ⟨hfound ▸ (firstSeen_eraseDups _).nodup, ?_⟩
    rw [hfound, ← hjoin, hself]
  · intro h
    rw [hjoin, eraseDups_of_nodup h.nodup, h.written]

/-- A part that is not cut is kept, also if a bracket of it stays open. -/
theorem Uncut.rejoins {m : Text} (h : Uncut m) (hm : IsPart m) : Rejoins m := by
  have hself : members m = [m] := membersAt_whole Free.start hm h
  exact ⟨by simp [hself], by simp [hself]⟩

/-! ### The laws -/

/-- Where all brackets come out even, the members of a join are the distinct members of the types
    in the order in which they are first seen; types without any member join to `any`. So a join
    is not changed by joining it again, holds no member twice, and can be taken in two steps. -/
theorem members_join_firstSeen {types : List Text} (h : ∀ type ∈ types, Closed type) :
    (HasMember types → FirstSeen (types.flatMap members) (members (join types))) ∧
    (¬ HasMember types → join types = any) ∧
    join [join types] = join types ∧
    (members (join types)).Nodup ∧
    ∀ others : List Text, (∀ type ∈ others, Closed type) → HasMember types → HasMember others →
      join [join types, join others] = join (types ++ others) := by
  refine ⟨?_, join_of_not_hasMember, join_join h, members_join_nodup h, ?_⟩
  · intro hne
    rw [members_join h (hasMember_iff.1 hne)]
    exact firstSeen_eraseDups _
  · intro others h' hne hne'
    exact join_congr (distinctMembers_pair_join h hne h' hne')

/-- Types with a bar inside brackets, an arrow, and a bracket that closes before it opens. -/
def crookedTypes : List Text :=
  ["Map<string, a | b> | null".toList, "(a: string) => void | >x|y< |".toList, " null|a=".toList]

/-- The bar inside brackets does not cut, nor does the one between the brackets that stand the
    wrong way round; the arrow closes none. -/
theorem members_join_firstSeen_crooked :
    (∀ type ∈ crookedTypes, Closed type) ∧ HasMember crookedTypes ∧
    members (join crookedTypes) = ["Map<string, a | b>".toList, "null".toList,
      "(a: string) => void".toList, ">x|y<".toList, "a=".toList] ∧
    FirstSeen (crookedTypes.flatMap members) (members (join crookedTypes)) ∧
    join [join crookedTypes, join [">x|y<".toList]] = join (crookedTypes ++ [">x|y<".toList]) := by
  have hclosed : ∀ type ∈ crookedTypes, Closed type := by decide
  have hne : HasMember crookedTypes := by decide
  obtain ⟨hseen, -, -, -, htwo⟩ := members_join_firstSeen hclosed
  exact ⟨hclosed, hne, by decide, hseen hne, htwo _ (by decide) hne (by decide)⟩

end DocAnnotator.TypeUnion
