import YPriceMagic.Python.Isoformat
import YPriceMagic.Server.TimestampRange

/-! Timestamps in ISO 8601: every second that is accepted at all is read from exactly one written
time of each zone, and is the second that the time stands for. -/
namespace YPriceMagic.Server
open YPriceMagic.Python YPriceMagic.Python.Call YPriceMagic.Python.Datetime
open YPriceMagic.Python.Text (strip isspace)

/-- A float holds a whole number of seconds exactly. -/
theorem timestamp_second {second : Int} (small : |second| < 2 ^ 53) : timestamp (second * microsecond) = second := by
  have whole : ((second * microsecond : Int) : Rat) / microsecond = second := by
    rw [Int.cast_mul,mul_div_cancel_right₀]
    norm_num [microsecond]
  rw [timestamp,whole,Binary64.nearest_int small]

theorem timeChar_solid {c : Char} (time : timeChar c = true) : isspace c = false := by
  simp only [timeChar,Bool.or_eq_true,beq_iff_eq] at time
  rcases time with (((digit | rfl) | rfl) | rfl) | rfl
  · have range := Numerals.isDigit_toNat digit
    simp [isspace]
    omega
  all_goals rfl

theorem written_unread (fields : Fields) (zone : WrittenZone) : ∃ raised, float (fields.written zone) = .error raised := by
  cases read : Numerals.floatOf (fields.written zone).toList with
  | none => exact ⟨.valueError,by rw [float,read]⟩
  | some number =>
    refine absurd ?_ (Numerals.floatOf_no_colon read)
    rw [Fields.written,String.toList_ofList]
    simp [Fields.iso,pad]

section
variable {fields : Fields} {zone : WrittenZone} (valid : fields.Valid) (zoned : zone.Valid)
include valid zoned

theorem written_solid : ∀ c ∈ (fields.written zone).toList, isspace c = false := by
  rw [Fields.written,String.toList_ofList]
  refine valid.chars (fun c => timeChar_solid) ?_
  cases zone with
  | utc => exact List.forall_mem_cons.mpr ⟨rfl,List.forall_mem_nil _⟩
  | offset negative hours minutes => exact fun c member => timeChar_solid (zoned.chars c member)

theorem isoMoment_written : ∃ moment, isoMoment (fields.written zone) = some moment ∧
    moment.instant = (fields.epoch - zone.seconds) * microsecond := by
  cases zone with
  | utc =>
    refine ⟨⟨fields.epoch * microsecond,none⟩,?_,?_⟩
    · rw [isoMoment,isoPatterns,List.findSome?_cons,strptimeZ_utc valid]
      rfl
    · rw [Moment.instant,WrittenZone.seconds,Int.sub_zero]
      exact Int.sub_zero _
  | offset negative hours minutes =>
    refine ⟨⟨fields.epoch * microsecond,some ((WrittenZone.offset negative hours minutes).seconds * microsecond)⟩,?_,?_⟩
    · rw [isoMoment,isoPatterns,List.findSome?_cons,List.findSome?_cons,strptimeZ_offset valid zoned,
        strptimeOffset_offset valid zoned]
      rfl
    · exact (Int.sub_mul _ _ _).symm

/-- A written time is read as the second it stands for, if that is in range. -/
theorem written_yields (now : Utc) (t : Int) : (parseTimestamp now (some (fields.written zone))).Yields (some t) ↔
    ¬LastMinutes now ∧ InRange now t ∧ fields.epoch - zone.seconds = t := by
  have given : fields.written zone ≠ "" := by
    intro empty
    have none_left := congrArg String.toList empty
    rw [Fields.written,String.toList_ofList] at none_left
    cases none_left
  have trimmed : strip (fields.written zone) = fields.written zone := by
    rw [strip,Text.stripBy_eq_self (written_solid valid zoned),String.ofList_toList]
  have unread := written_unread fields zone
  obtain ⟨moment,read,instant⟩ := isoMoment_written valid zoned
  have small : |fields.epoch - zone.seconds| < 2 ^ 53 := by
    have near := abs_lt.mp zoned.near
    have range := valid.epoch_range
    rw [firstSecond_eq,lastSecond_eq] at range
    rw [abs_lt]
    omega
  have unnumbered : ¬(parseUnixTimestamp now (fields.written zone)).Yields (some t) := by
    obtain ⟨raised,unread⟩ := unread
    simp [parseUnixTimestamp_yields,unread]
  rw [parseStripped_yields now given,trimmed,or_iff_right unnumbered,and_iff_right unread,parseIso8601Timestamp_yields]
  simp only [read,Option.mem_some_iff,exists_eq_left',instant,timestamp_second small,Int.floor_intCast,InRange]
  constructor
  · rintro ⟨early,inside,positive,rfl⟩
    exact ⟨early,⟨positive,inside⟩,rfl⟩
  · rintro ⟨early,⟨positive,inside⟩,rfl⟩
    exact ⟨early,inside,positive,rfl⟩

end

section
variable (now : Utc) (zone : WrittenZone) (t : Int)

/-- A second in range is read from exactly one time written in a zone whose clock shows a year up to 9999
then, and a second out of range from none. -/
theorem every_second_written (zoned : zone.Valid) (early : ¬LastMinutes now) (shown : t + zone.seconds ≤ lastSecond) :
    (InRange now t → ∃! fields : Fields, fields.Valid ∧ (parseTimestamp now (some (fields.written zone))).Yields (some t)) ∧
    (¬InRange now t → ∀ fields : Fields, fields.Valid → ¬(parseTimestamp now (some (fields.written zone))).Yields (some t)) := by
  refine ⟨fun inRange => ?_,fun outside fields valid read => outside ((written_yields valid zoned now t).mp read).2.1⟩
  have near := abs_lt.mp zoned.near
  have first : firstSecond ≤ t + zone.seconds := by
    rw [firstSecond_eq]
    have positive := inRange.1
    omega
  obtain ⟨fields,valid,same⟩ := fields_exist first shown
  refine ⟨fields,⟨valid,(written_yields valid zoned now t).mpr ⟨early,inRange,by omega⟩⟩,?_⟩
  rintro other ⟨also,read⟩
  have again := ((written_yields also zoned now t).mp read).2.2
  exact also.unique valid (by omega)

end

/-- A second that has passed, and one that is years ahead. -/
theorem every_second_written_november :
    (∃! fields : Fields, fields.Valid ∧
      (parseTimestamp november (some (fields.written (.offset true 3 30)))).Yields (some 1700000000)) ∧
    ∀ fields : Fields, fields.Valid →
      ¬(parseTimestamp november (some (fields.written (.offset true 3 30)))).Yields (some 1900000000) := by
  have early : ¬LastMinutes november := by
    unfold LastMinutes
    decide +kernel
  refine ⟨(every_second_written november (.offset true 3 30) 1700000000 ⟨by decide,by decide⟩ early ?_).1 ?_,
    (every_second_written november (.offset true 3 30) 1900000000 ⟨by decide,by decide⟩ early ?_).2 ?_⟩
  · decide +kernel
  · unfold InRange
    decide +kernel
  · decide +kernel
  · unfold InRange
    decide +kernel

end YPriceMagic.Server
