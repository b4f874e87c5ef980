import DocAnnotator.Proofs.Config.Service
import DocAnnotator.Proofs.Json.Nearest
import DocAnnotator.Proofs.Json.Read

/-! ## The timeout of a configuration

    A configuration is refused for two reasons only: its file holds an integer of too many digits,
    or its timeout has no end. Otherwise the timeout is a positive number of milliseconds, unless a
    positive fraction of one is given, which is cut to zero.

    - `Sources.timeout?`, `resolve_timeoutMs`: the timeout that the merged sources give is the one
      that is resolved.
    - `IsEndless`, `IsFraction`, `IsUnusable`: how a given timeout can fail to be usable.
    - `resolveTimeout_cases`: what becomes of each.
    - `loadFile_error`: what a file is refused for.
    - `resolve_timeout`: the whole statement.
-/

namespace DocAnnotator.Config

/-! ### The timeout of the merged section -/

/-- The timeout that the sources give. -/
def Sources.timeout? (sources : Sources) (file : Json.Fields) : Option Json :=
  (sources.aiSection file).get? "timeoutMs".toList

theorem resolveAi_timeoutMs (fields : Json.Fields) (environment : Environment) :
    (resolveAi fields environment).map AiSettings.timeoutMs =
      resolveTimeout (fields.get? "timeoutMs".toList) := by
  unfold resolveAi
  simp only
  cases resolveTimeout (Json.Fields.get? "timeoutMs".toList fields) <;> rfl

/-- Apart from the file, only the timeout can be refused. -/
theorem resolve_timeoutMs (sources : Sources) :
    (resolve sources).1.map (·.ai.timeoutMs) = (loadFile sources.file).1.bind fun file =>
      resolveTimeout (sources.timeout? file) := by
  calc (resolve sources).1.map (·.ai.timeoutMs)
      = ((resolve sources).1.map Settings.ai).map AiSettings.timeoutMs := by
        cases (resolve sources).1 <;> rfl
    _ = ((loadFile sources.file).1.bind fun file =>
          resolveAi (sources.aiSection file) sources.environment).map AiSettings.timeoutMs := by
        rw [resolve_ai]
    _ = _ := by
        cases (loadFile sources.file).1 with
        | error e => rfl
        | ok file => exact resolveAi_timeoutMs _ _

/-! ### Timeouts -/

/-- The timeout has no end: it is infinite or no number, or rounds to an infinite one. -/
def IsEndless : Option Json → Prop
  | some (.num .nan) => True
  | some (.num (.infinite negative)) => negative = false
  | some (.num (.decimal m e)) => Number.beyond ≤ Number.decimalValue m e
  | _ => False

/-- The timeout is positive, but less than a millisecond. -/
def IsFraction : Option Json → Prop
  | some (.num (.decimal m e)) =>
    Number.vanishing < Number.decimalValue m e ∧ Number.decimalValue m e < Number.unity
  | _ => False

/-- The timeout is missing, a boolean or another value than a number, or not positive. -/
def IsUnusable : Option Json → Prop
  | some (.num .nan) => False
  | some (.num (.infinite negative)) => negative = true
  | some (.num (.decimal m e)) => Number.decimalValue m e ≤ Number.vanishing
  | some (.num (.int n)) => n ≤ 0
  | _ => True

/-- What is made of a timeout that has an end. -/
structure Resolves (given : Option Json) (timeoutMs : Int) : Prop where
  positive : 1 ≤ timeoutMs ↔ ¬ IsFraction given
  default : IsUnusable given → timeoutMs = defaultTimeoutMs
  integer : ∀ n, given = some (.num (.int n)) → 0 < n → timeoutMs = n

theorem decimalValue_le_vanishing {m : Int} (hm : ¬ 0 < m) (e : Int) :
    Number.decimalValue m e ≤ Number.vanishing := by
  have hle : (m : ℚ) ≤ 0 := by exact_mod_cast not_lt.1 hm
  have hpow : (0 : ℚ) < 10 ^ e := by positivity
  exact (mul_nonpos_of_nonpos_of_nonneg hle hpow.le).trans Number.vanishing_pos.le

/-- A decimal that is as good as zero gives the default. -/
theorem resolves_default {m e : Int} (h : Number.decimalValue m e ≤ Number.vanishing) :
    ¬ IsEndless (some (.num (.decimal m e))) ∧
      Resolves (some (.num (.decimal m e))) defaultTimeoutMs := by
  refine ⟨?_, ?_, ?_, ?_⟩
  · intro hbeyond
    exact absurd (Number.vanishing_lt_beyond.trans_le hbeyond) (not_lt.2 h)
  · constructor
    · intro _ hfraction
      exact absurd hfraction.1 (not_lt.2 h)
    · intro _
      decide
  · intro _
    rfl
  · intro n hn
    cases hn

/-- A decimal timeout is endless, or has an end and is cut to an integer. -/
theorem resolveTimeout_decimal (m e : Int) :
    (IsEndless (some (.num (.decimal m e))) ∧
      resolveTimeout (some (.num (.decimal m e))) = .error .timeoutInfinite) ∨
    (¬ IsEndless (some (.num (.decimal m e))) ∧
      ∃ timeout, resolveTimeout (some (.num (.decimal m e))) = .ok timeout ∧
        Resolves (some (.num (.decimal m e))) timeout) := by
  by_cases hm : 0 < m
  · have hvalue : Number.decimalValue m.toNat e = Number.decimalValue m e := by
      rw [Int.toNat_of_nonneg hm.le]
    unfold resolveTimeout
    simp only [if_pos hm]
    rcases Number.roundDecimal_cases m.toNat e with
      ⟨hround, hzero⟩ | ⟨hround, hbeyond⟩ | ⟨b, hround, hpositive, hfinite, hfloor⟩
    · rw [hvalue] at hzero
      obtain ⟨hends, hdefault⟩ := resolves_default hzero
      rw [hround]
      exact .inr ⟨hends, _, rfl, hdefault⟩
    · rw [hvalue] at hbeyond
      rw [hround]
      exact .inl ⟨hbeyond, rfl⟩
    · rw [hvalue] at hpositive hfinite hfloor
      rw [hround]
      refine .inr ⟨not_le.2 hfinite, _, rfl, ?_, ?_, ?_⟩
      · -- the whole part is zero exactly for a fraction of a millisecond
        have hcast : (1 : Int) ≤ b.floor ↔ 1 ≤ b.floor := by omega
        rw [hcast, hfloor]
        constructor
        · intro hone hfraction
          exact absurd hfraction.2 (not_lt.2 hone)
        · intro hwhole
          exact not_lt.1 (fun hless => hwhole ⟨hpositive, hless⟩)
      · intro hunusable
        exact absurd hunusable (not_le.2 hpositive)
      · intro n hn
        cases hn
  · obtain ⟨hends, hdefault⟩ := resolves_default (decimalValue_le_vanishing hm e)
    refine .inr ⟨hends, _, ?_, hdefault⟩
    unfold resolveTimeout
    simp only [if_neg hm]

/-- A timeout without an end is refused, and every other one is taken. -/
theorem resolveTimeout_cases (given : Option Json) :
    (IsEndless given ∧ ∃ e, resolveTimeout given = .error e) ∨
    (¬ IsEndless given ∧
      ∃ timeout, resolveTimeout given = .ok timeout ∧ Resolves given timeout) := by
  -- everything but a number gives the default
  have hother (h : resolveTimeout given = .ok defaultTimeoutMs) (hends : ¬ IsEndless given)
      (hwhole : ¬ IsFraction given) (hint : ∀ n, given ≠ some (.num (.int n))) :
      ¬ IsEndless given ∧
        ∃ timeout, resolveTimeout given = .ok timeout ∧ Resolves given timeout := by
    refine ⟨hends, _, h, ⟨fun _ => hwhole, fun _ => by decide⟩, fun _ => rfl, ?_⟩
    intro n hn
    exact absurd hn (hint n)
  match given with
  | some (.num (.int n)) =>
    refine .inr ⟨id, _, rfl, ?_, ?_, ?_⟩
    · by_cases hn : 0 < n
      · rw [if_pos hn]
        exact ⟨fun _ => id, fun _ => hn⟩
      · rw [if_neg hn]
        exact ⟨fun _ => id, fun _ => by decide⟩
    · intro hn
      exact if_neg (not_lt.2 hn)
    · intro k hk hpositive
      cases hk
      exact if_pos hpositive
  | some (.num (.decimal m e)) =>
    rcases resolveTimeout_decimal m e with ⟨hendless, herror⟩ | htaken
    · exact .inl ⟨hendless, _, herror⟩
    · exact .inr htaken
  | some (.num (.infinite true)) => exact .inr (hother rfl (by simp [IsEndless]) id (by simp))
  | some (.num (.infinite false)) => exact .inl ⟨rfl, _, rfl⟩
  | some (.num .nan) => exact .inl ⟨trivial, _, rfl⟩
  | none => exact .inr (hother rfl id id (by simp))
  | some .null => exact .inr (hother rfl id id (by simp))
  | some (.bool _) => exact .inr (hother rfl id id (by simp))
  | some (.str _) => exact .inr (hother rfl id id (by simp))
  | some (.arr _) => exact .inr (hother rfl id id (by simp))
  | some (.obj _) => exact .inr (hother rfl id id (by simp))

/-! ### The file -/

/-- A file is refused only for an integer of too many digits, which stands in it. -/
theorem loadFile_error {file : FileState} {e : Error} (h : (loadFile file).1 = .error e) :
    ∃ content text digits, file = .regular content ∧ Utf8.decode content = .ok text ∧
      e = .integerTooLong digits ∧ Json.maxDigits < digits ∧ Json.HoldsDigits digits text := by
  unfold loadFile at h
  split at h
  · cases h
  · cases h
  next content =>
    split at h
    · cases h
    next text htext =>
      split at h
      · cases h
      · cases h
      · cases h
      next digits hread =>
        obtain rfl := Except.error.inj h
        obtain ⟨hlong, hdigits⟩ := Json.read_integerTooLong hread
        exact ⟨content, text, digits, rfl, htext, rfl, hlong, hdigits⟩

/-! ### The whole statement -/

/-- A configuration whose file can be read resolves exactly if its timeout has an end. The timeout
    is then at least one millisecond, unless a fraction of one is given; what is no positive number
    gives the default, and a positive integer is kept. A file is refused only for an integer of too
    many digits. -/
theorem resolve_timeout (sources : Sources) :
    (∀ e, (loadFile sources.file).1 = .error e → (resolve sources).1 = .error e ∧
      ∃ content text digits, sources.file = .regular content ∧ Utf8.decode content = .ok text ∧
        e = .integerTooLong digits ∧ Json.maxDigits < digits ∧ Json.HoldsDigits digits text) ∧
    ∀ file, (loadFile sources.file).1 = .ok file →
      ((∃ settings, (resolve sources).1 = .ok settings) ↔ ¬ IsEndless (sources.timeout? file)) ∧
      ∀ settings, (resolve sources).1 = .ok settings →
        Resolves (sources.timeout? file) settings.ai.timeoutMs := by
  have htimeout := resolve_timeoutMs sources
  refine ⟨?_, ?_⟩
  · intro e he
    rw [he] at htimeout
    exact ⟨error_of_map_error htimeout, loadFile_error he⟩
  · intro file hfile
    rw [hfile] at htimeout
    rcases resolveTimeout_cases (sources.timeout? file) with
      ⟨hendless, e, he⟩ | ⟨hends, timeout, hok, htaken⟩
    · have hfails := error_of_map_error (htimeout.trans he)
      refine ⟨⟨?_, fun hends => absurd hendless hends⟩, ?_⟩
      · rintro ⟨settings, hsettings⟩
        cases hfails.symm.trans hsettings
      · intro settings hsettings
        cases hfails.symm.trans hsettings
    · obtain ⟨settings, hsettings, hsame⟩ := exists_of_map_ok (htimeout.trans hok)
      refine ⟨⟨fun _ => hends, fun _ => ⟨settings, hsettings⟩⟩, ?_⟩
      intro other hother
      obtain rfl := Except.ok.inj (hsettings.symm.trans hother)
      rw [hsame]
      exact htaken

/-! ### Timeouts of two and a half and of half a millisecond -/

/-- Sources that give a timeout and nothing else. -/
def timeoutSources (timeout : Number) : Sources :=
  ⟨.absent, [("ai".toList, .obj [("timeoutMs".toList, .num timeout)])], false, []⟩

theorem resolve_timeoutSources (timeout : Number) :
    (resolve (timeoutSources timeout)).1.map (·.ai.timeoutMs) =
      resolveTimeout (some (.num timeout)) :=
  resolve_timeoutMs (timeoutSources timeout)

theorem not_isEndless {m e : Int} (h : Number.decimalValue m e < 4) :
    ¬ IsEndless (some (.num (.decimal m e))) := by
  have hfour : (2 : ℚ) ^ (2 : ℤ) ≤ Number.beyond := Number.two_zpow_le_beyond (by decide)
  have hsquare : (2 : ℚ) ^ (2 : ℤ) = 4 := by norm_num
  intro hbeyond
  exact absurd (h.trans_le (hsquare ▸ hfour)) (not_lt.2 hbeyond)

/-- Two and a half milliseconds are a number of milliseconds with an end. -/
theorem twoAndAHalf_usable :
    ¬ IsEndless (some (.num (.decimal 25 (-1)))) ∧
      ¬ IsFraction (some (.num (.decimal 25 (-1)))) := by
  have hvalue : Number.decimalValue 25 (-1) = 5 / 2 := by norm_num [Number.decimalValue]
  refine ⟨not_isEndless (by rw [hvalue]; norm_num), ?_⟩
  rintro ⟨-, hless⟩
  rw [hvalue] at hless
  norm_num [Number.unity] at hless

/-- Half a millisecond is a fraction of one. -/
theorem half_isFraction :
    ¬ IsEndless (some (.num (.decimal 5 (-1)))) ∧ IsFraction (some (.num (.decimal 5 (-1)))) := by
  have hvalue : Number.decimalValue 5 (-1) = 1 / 2 := by norm_num [Number.decimalValue]
  have hsmall : Number.vanishing < 2 ^ (-1 : ℤ) := zpow_lt_zpow_right₀ one_lt_two (by decide)
  rw [zpow_neg_one, ← one_div, ← hvalue] at hsmall
  refine ⟨not_isEndless (by rw [hvalue]; norm_num), hsmall, ?_⟩
  rw [hvalue]
  norm_num [Number.unity]

/-- Two and a half milliseconds are taken. -/
theorem resolve_timeout_whole :
    ∃ settings, (loadFile (timeoutSources (.decimal 25 (-1))).file).1 = .ok [] ∧
      (resolve (timeoutSources (.decimal 25 (-1)))).1 = .ok settings ∧
      1 ≤ settings.ai.timeoutMs := by
  obtain ⟨-, hread⟩ := resolve_timeout (timeoutSources (.decimal 25 (-1)))
  obtain ⟨hresolves, htaken⟩ := hread [] rfl
  obtain ⟨settings, hsettings⟩ := hresolves.2 twoAndAHalf_usable.1
  exact ⟨settings, rfl, hsettings, (htaken settings hsettings).positive.2 twoAndAHalf_usable.2⟩

/-- Neither an infinite timeout nor one that is no number gives the default, and half a millisecond
    leaves no time at all. -/
theorem resolve_timeout_unchecked :
    (resolve (timeoutSources (.infinite false))).1 = .error .timeoutInfinite ∧
    (resolve (timeoutSources .nan)).1 = .error .timeoutNotANumber ∧
    ∃ settings, (resolve (timeoutSources (.decimal 5 (-1)))).1 = .ok settings ∧
      ¬ 1 ≤ settings.ai.timeoutMs := by
  refine ⟨rfl, rfl, ?_⟩
  have htimeout := resolve_timeoutSources (.decimal 5 (-1))
  rcases resolveTimeout_decimal 5 (-1) with ⟨hendless, -⟩ | ⟨-, timeout, hok, htaken⟩
  · exact absurd hendless half_isFraction.1
  · rw [hok] at htimeout
    obtain ⟨settings, hsettings, hsame⟩ := exists_of_map_ok htimeout
    refine ⟨settings, hsettings, ?_⟩
    rw [hsame, htaken.positive, not_not]
    exact half_isFraction.2

end DocAnnotator.Config
