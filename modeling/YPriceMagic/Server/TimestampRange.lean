import YPriceMagic.Server.ParamsTotal

/-! The range of accepted timestamps: after the epoch, and no later than the current time and a
buffer for clock skew. -/
namespace YPriceMagic.Server
open YPriceMagic.Python YPriceMagic.Python.Call
open YPriceMagic.Python.Text (strip)

section
variable (now : Datetime.Utc)

/-- `now + TIMESTAMP_FUTURE_BUFFER_SECONDS`, in microseconds. -/
def latest : Int := now.micros + timestampFutureBufferSeconds * Datetime.microsecond

def InRange (t : Int) : Prop := 0 < t ∧ t * Datetime.microsecond ≤ latest now

/-- A number between zero and one passes the check for zero and is then truncated to zero. -/
def TruncatesToZero (text : String) : Prop :=
  0 ≤ latest now ∧ ∃ value, 0 < value ∧ value < 1 ∧ float text = .ok (.finite value)

/-- As a float the latest time, or the time that is read, is a later whole second. -/
def RoundsBeyond (text : String) : Prop :=
  (∃ value, 0 < value ∧ float text = .ok (.finite value) ∧
    latest now < ⌊value⌋ * Datetime.microsecond ∧ ⌊value⌋ ≤ Datetime.timestamp (latest now)) ∨
  (∃ raised, float text = .error raised) ∧ ∃ moment ∈ isoMoment text, moment.instant ≤ latest now ∧
    0 < ⌊Datetime.timestamp moment.instant⌋ ∧
    latest now < ⌊Datetime.timestamp moment.instant⌋ * Datetime.microsecond

theorem maxAllowed_ok (property : Int → Prop) :
    (∃ maxAllowed, now.add (timestampFutureBufferSeconds * Datetime.microsecond) = .ok maxAllowed ∧
      property maxAllowed.micros) ↔ ¬LastMinutes now ∧ property (latest now) := by
  constructor
  · rintro ⟨maxAllowed,added,holds⟩
    rw [Datetime.Utc.add_ok added] at holds
    refine ⟨fun late => ?_,holds⟩
    rw [(maxAllowed_error now _).mpr ⟨rfl,late⟩] at added
    cases added
  · rintro ⟨early,holds⟩
    cases added : now.add (timestampFutureBufferSeconds * Datetime.microsecond) with
    | error raised => exact absurd ((maxAllowed_error now raised).mp added).2 early
    | ok maxAllowed =>
      refine ⟨maxAllowed,rfl,?_⟩
      rw [Datetime.Utc.add_ok added]
      exact holds

theorem parseUnixTimestamp_yields (text : String) (t : Int) :
    (parseUnixTimestamp now text).Yields (some t) ↔ ∃ value, 0 < value ∧ float text = .ok (.finite value) ∧
      ¬LastMinutes now ∧ ⌊value⌋ ≤ Datetime.timestamp (latest now) ∧ ⌊value⌋ = t := by
  cases converted : float text with
  | error raised => simp [parseUnixTimestamp_unread now converted]
  | ok parsed =>
    cases parsed with
    | nan => simp [parseUnixTimestamp,converted,PyFloat.negative,PyFloat.int]
    | infinite negative =>
      cases negative <;> simp [parseUnixTimestamp,converted,PyFloat.negative,PyFloat.int]
    | finite value =>
      rcases lt_trichotomy value 0 with below | zero | above
      · simp [parseUnixTimestamp,converted,PyFloat.negative,below,below.not_gt]
      · simp [parseUnixTimestamp,converted,PyFloat.negative,zero]
      · have checked := maxAllowed_ok now fun micros => ⌊value⌋ ≤ Datetime.timestamp micros ∧ ⌊value⌋ = t
        simpa [parseUnixTimestamp,converted,PyFloat.negative,PyFloat.int,above,above.not_gt,above.ne',
          above.le] using checked

theorem truncated_pos (x : Rat) (t : Int) :
    ¬(if 0 ≤ x then ⌊x⌋ else ⌈x⌉) ≤ 0 ∧ (if 0 ≤ x then ⌊x⌋ else ⌈x⌉) = t ↔ 0 < t ∧ ⌊x⌋ = t := by
  split
  · constructor
    · rintro ⟨positive,rfl⟩
      exact ⟨not_le.mp positive,rfl⟩
    · rintro ⟨positive,rfl⟩
      exact ⟨not_le.mpr positive,rfl⟩
  · rename_i negative
    have above : ⌈x⌉ ≤ 0 := Int.ceil_le.mpr (by simpa using (not_le.mp negative).le)
    have below : ⌊x⌋ ≤ ⌈x⌉ := Int.floor_le_ceil x
    omega

theorem replaceUtc_instant (moment : Datetime.Moment) :
    (if moment.tzinfo = none then moment.replaceUtc else moment).instant = moment.instant := by
  rcases moment with ⟨clock,_ | offset⟩ <;> rfl

theorem parseIso8601Timestamp_yields (text : String) (t : Int) :
    (parseIso8601Timestamp now text).Yields t ↔ ∃ moment ∈ isoMoment text, ¬LastMinutes now ∧
      moment.instant ≤ latest now ∧ 0 < t ∧ ⌊Datetime.timestamp moment.instant⌋ = t := by
  rw [parseIso8601Timestamp,tryPatterns_isoPatterns,pure_bind]
  cases isoMoment text with
  | none => simp
  | some moment =>
    have checked := maxAllowed_ok now fun micros => moment.instant ≤ micros ∧ 0 < t ∧
      ⌊Datetime.timestamp moment.instant⌋ = t
    simp only [← truncated_pos] at checked ⊢
    simpa [replaceUtc_instant,PyFloat.int] using checked

theorem parseStripped_yields {text : String} (nonempty : text ≠ "") (t : Int) :
    (parseTimestamp now (some text)).Yields (some t) ↔ (parseUnixTimestamp now (strip text)).Yields (some t) ∨
      (∃ raised, float (strip text) = .error raised) ∧ (parseIso8601Timestamp now (strip text)).Yields t := by
  rw [← parseUnixTimestamp_none now]
  simp only [parseTimestamp,nonempty,if_false,yields_bind]
  constructor
  · rintro ⟨parsed,yielded,result⟩
    cases parsed with
    | none =>
      obtain ⟨value,read,equal⟩ := (yields_map _ _ _).mp result
      cases equal
      exact .inr ⟨yielded,read⟩
    | some parsed =>
      rw [(yields_pure _ _).mp result] at yielded
      exact .inl yielded
  · rintro (yielded | ⟨unread,read⟩)
    · exact ⟨some t,yielded,(yields_pure _ _).mpr rfl⟩
    · exact ⟨none,unread,(yields_map _ _ _).mpr ⟨t,read,rfl⟩⟩

/-- `timestamp()` of a moment before the epoch is negative. -/
theorem timestamp_nonneg {micros : Int} (nonneg : 0 ≤ Datetime.timestamp micros) : 0 ≤ micros := by
  by_contra before
  have bound : ((micros : Int) : Rat) ≤ -1 := by exact_mod_cast (show micros ≤ -1 by omega)
  have negative : Datetime.timestamp micros < 0 := by
    apply Binary64.nearest_neg (e := -20) (by norm_num)
    rw [Datetime.microsecond]
    norm_num
    linarith
  linarith

theorem number_inRange_iff {value : Rat} (positive : 0 < value) :
    (⌊value⌋ ≤ Datetime.timestamp (latest now) → InRange now ⌊value⌋) ↔
      ¬(0 ≤ latest now ∧ value < 1) ∧ ¬(latest now < ⌊value⌋ * Datetime.microsecond ∧
        ⌊value⌋ ≤ Datetime.timestamp (latest now)) := by
  have nonneg : 0 ≤ ⌊value⌋ := Int.floor_nonneg.mpr positive.le
  constructor
  · intro inRange
    refine ⟨fun ⟨begun,small⟩ => ?_,fun ⟨beyond,passes⟩ => not_lt.mpr (inRange passes).2 beyond⟩
    have zero : ⌊value⌋ = 0 := Int.floor_eq_zero_iff.mpr ⟨positive.le,small⟩
    have passes : (0 : Rat) ≤ Datetime.timestamp (latest now) := by
      apply Binary64.nearest_nonneg
      rw [Datetime.microsecond]
      positivity
    rw [zero] at inRange
    exact absurd (inRange (by exact_mod_cast passes)).1 (lt_irrefl 0)
  · rintro ⟨whole,within⟩ passes
    refine ⟨?_,not_lt.mp fun beyond => within ⟨beyond,passes⟩⟩
    by_contra small
    have zero : ⌊value⌋ = 0 := by omega
    have begun : 0 ≤ latest now := timestamp_nonneg (by rw [zero] at passes; exact_mod_cast passes)
    exact whole ⟨begun,(Int.floor_eq_zero_iff.mp zero).2⟩

/-- An accepted timestamp is in range, unless the text stands for a number below one or rounding
to a float carries the comparison past a whole second. -/
theorem parseTimestamp_inRange_iff (timestamp : Option String) :
    (∀ t, (parseTimestamp now timestamp).Yields (some t) → InRange now t) ↔
      ∀ text ∈ timestamp, text ≠ "" → ¬LastMinutes now →
        ¬TruncatesToZero now (strip text) ∧ ¬RoundsBeyond now (strip text) := by
  cases timestamp with
  | none => simp [parseTimestamp]
  | some text =>
    by_cases empty : text = ""
    · simp [parseTimestamp,empty]
    simp only [parseStripped_yields now empty,parseUnixTimestamp_yields,parseIso8601Timestamp_yields,
      Option.mem_some_iff,forall_eq',ne_eq,empty,not_false_eq_true,forall_const]
    constructor
    · intro inRange early
      refine ⟨?_,?_⟩
      · rintro ⟨begun,value,positive,small,read⟩
        have number := (number_inRange_iff now positive).mp fun passes =>
          inRange _ (.inl ⟨value,positive,read,early,passes,rfl⟩)
        exact number.1 ⟨begun,small⟩
      · rintro (⟨value,positive,read,beyond,passes⟩ | ⟨unread,moment,read,before,positive,beyond⟩)
        · exact not_lt.mpr (inRange _ (.inl ⟨value,positive,read,early,passes,rfl⟩)).2 beyond
        · exact not_lt.mpr (inRange _ (.inr ⟨unread,moment,read,early,before,positive,rfl⟩)).2 beyond
    · rintro condition t (⟨value,positive,read,early,passes,rfl⟩ | ⟨unread,moment,read,early,before,positive,rfl⟩)
      · obtain ⟨whole,within⟩ := condition early
        refine (number_inRange_iff now positive).mpr ⟨?_,?_⟩ passes
        · rintro ⟨begun,small⟩
          exact whole ⟨begun,value,positive,small,read⟩
        · rintro ⟨beyond,_⟩
          exact within (.inl ⟨value,positive,read,beyond,passes⟩)
      · refine ⟨positive,not_lt.mp fun beyond => ?_⟩
        exact (condition early).2 (.inr ⟨unread,moment,read,before,positive,beyond⟩)

/-- `0 < 0.5` passes the check for zero, and `int(0.5)` is zero. -/
theorem fraction_accepted_as_zero :
    ¬∀ t, (parseTimestamp november (some "0.5")).Yields (some t) → InRange november t := by
  intro inRange
  have accepted : (parseTimestamp november (some "0.5")).run = .ok (.ok (some 0)) := by decide +kernel
  exact absurd (inRange 0 accepted).1 (lt_irrefl 0)

/-- Until the year 2514 a float is precise enough: a moment before a whole second stays before it. -/
theorem timestamp_lt_int {micros second : Int} (soon : micros < 2 ^ 34 * Datetime.microsecond)
    (positive : 0 < second) (before : micros < second * Datetime.microsecond) :
    Datetime.timestamp micros < second := by
  rw [Datetime.microsecond] at soon before
  have later : (0 : Rat) < second := by exact_mod_cast positive
  have gap : (micros : Rat) + 1 ≤ second * 1000000 := by exact_mod_cast (show micros + 1 ≤ second * 1000000 by omega)
  have small : (micros : Rat) < 2 ^ 34 * 1000000 := by exact_mod_cast soon
  unfold Datetime.timestamp
  rw [Datetime.microsecond]
  push_cast
  rcases le_or_gt (micros : Rat) 0 with begun | after
  · have bound : Binary64.nearest (micros / 1000000) ≤ 0 :=
      Binary64.nearest_nonpos (div_nonpos_of_nonpos_of_nonneg begun (by norm_num))
    linarith
  · have size : |(micros : Rat) / 1000000| < 2 ^ (33+1) := by
      rw [abs_of_pos (by positivity),div_lt_iff₀ (by norm_num)]
      exact small
    have exponent : Binary64.ulpExponent (micros / 1000000) ≤ -19 := Binary64.ulpExponent_le size
    have step : Binary64.ulp (micros / 1000000) ≤ 2 ^ (-19 : Int) := zpow_le_zpow_right₀ (by norm_num) exponent
    have error := (abs_le.mp (Binary64.nearest_error (micros / 1000000))).2
    norm_num at step
    linarith

theorem not_roundsBeyond (soon : latest now < 2 ^ 34 * Datetime.microsecond) (text : String) :
    ¬RoundsBeyond now text := by
  rintro (⟨value,positive,_,beyond,passes⟩ | ⟨_,moment,_,before,positive,beyond⟩)
  · rcases eq_or_lt_of_le (Int.floor_nonneg.mpr positive.le) with zero | above
    · rw [← zero] at passes beyond
      have begun : 0 ≤ latest now := timestamp_nonneg (by exact_mod_cast passes)
      omega
    · exact absurd passes (not_le.mpr (timestamp_lt_int soon above beyond))
  · have rounded := timestamp_lt_int (lt_of_le_of_lt before soon) positive (lt_of_le_of_lt before beyond)
    exact absurd (Int.floor_le (Datetime.timestamp moment.instant)) (not_le.mpr rounded)

end
end YPriceMagic.Server
