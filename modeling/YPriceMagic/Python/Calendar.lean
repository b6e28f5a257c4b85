import Mathlib.Order.Monotone.Basic
import YPriceMagic.Python.Datetime

/-! Every day from the year 1 on has exactly one year, month and day, and every second of it exactly
one time of day. -/
namespace YPriceMagic.Python.Datetime

section
variable {f : Nat → Nat} {n : Nat}

/-- The steps of a sequence cover what lies between its first and its last value. -/
theorem exists_between (first last : Nat) (later : first ≤ last) (above : f first < n) (below : n ≤ f last) :
    ∃ k, first ≤ k ∧ k < last ∧ f k < n ∧ n ≤ f (k+1) := by
  induction last, later using Nat.le_induction with
  | base => omega
  | succ last later ih =>
    by_cases earlier : n ≤ f last
    · obtain ⟨k,low,high,inside⟩ := ih earlier
      exact ⟨k,low,high.trans last.lt_succ_self,inside⟩
    · exact ⟨last,later,last.lt_succ_self,not_le.mp earlier,below⟩

theorem between_unique (mono : Monotone f) {j k : Nat} (first : f j < n ∧ n ≤ f (j+1)) (second : f k < n ∧ n ≤ f (k+1)) :
    j = k := by
  have ordered {j k : Nat} (first : f j < n) (second : n ≤ f (k+1)) : j ≤ k := by
    by_contra later
    have before : f (k+1) ≤ f j := mono (not_le.mp later)
    omega
  exact le_antisymm (ordered first.1 second.2) (ordered second.1 first.2)

end

def daysInYear (year : Nat) : Nat := if isLeap year then 366 else 365

theorem isLeap_iff (year : Nat) : isLeap year = true ↔ year % 4 = 0 ∧ (year % 100 ≠ 0 ∨ year % 400 = 0) := by
  simp [isLeap]

theorem daysBeforeYear_succ {year : Nat} (positive : 1 ≤ year) :
    daysBeforeYear (year+1) = daysBeforeYear year + daysInYear year := by
  obtain ⟨before,rfl⟩ := Nat.exists_eq_add_of_le' positive
  have fourth := Nat.succ_div (a := before) (b := 4)
  have hundredth := Nat.succ_div (a := before) (b := 100)
  have last := Nat.succ_div (a := before) (b := 400)
  have leap := isLeap_iff (before+1)
  simp only [Nat.dvd_iff_mod_eq_zero] at fourth hundredth last
  simp only [daysBeforeYear,daysInYear,Nat.add_sub_cancel,leap]
  split_ifs at fourth hundredth last ⊢ <;> omega

theorem daysBeforeYear_mono : Monotone daysBeforeYear := by
  refine monotone_nat_of_le_succ fun year => ?_
  cases year with
  | zero => decide
  | succ year =>
    rw [daysBeforeYear_succ year.succ_pos]
    exact Nat.le_add_right _ _

section
variable (year : Nat)

theorem daysBeforeMonth_succ {month : Nat} (positive : 1 ≤ month) :
    daysBeforeMonth year (month+1) = daysBeforeMonth year month + daysInMonth year month := by
  simp [daysBeforeMonth,List.range_succ,Nat.ne_of_gt positive]

theorem daysBeforeMonth_mono : Monotone (daysBeforeMonth year) := by
  refine monotone_nat_of_le_succ fun month => ?_
  unfold daysBeforeMonth
  rw [List.range_succ,List.map_append,List.sum_append]
  exact Nat.le_add_right _ _

theorem daysBeforeMonth_one : daysBeforeMonth year 1 = 0 := rfl

theorem daysBeforeMonth_thirteen : daysBeforeMonth year 13 = daysInYear year := by
  cases leap : isLeap year <;> simp [daysBeforeMonth,List.range_succ,daysInMonth,daysInYear,leap]

end

/-- A year, a month and a day of it. -/
structure OnCalendar (year month day : Nat) : Prop where
  some_year : 1 ≤ year
  some_month : 1 ≤ month ∧ month ≤ 12
  some_day : 1 ≤ day ∧ day ≤ daysInMonth year month

section
variable {year month day : Nat} (date : OnCalendar year month day)
include date

theorem OnCalendar.dayOfYear : daysBeforeMonth year month < daysBeforeMonth year month + day ∧
    daysBeforeMonth year month + day ≤ daysBeforeMonth year (month+1) := by
  rw [daysBeforeMonth_succ year date.some_month.1]
  have days := date.some_day
  omega

theorem OnCalendar.ordinal : daysBeforeYear year < ymd2ord year month day ∧ ymd2ord year month day ≤ daysBeforeYear (year+1) := by
  have within := date.dayOfYear
  have whole : daysBeforeMonth year (month+1) ≤ daysBeforeMonth year 13 := by
    apply daysBeforeMonth_mono year
    have months := date.some_month
    omega
  rw [daysBeforeMonth_thirteen] at whole
  rw [daysBeforeYear_succ date.some_year,ymd2ord]
  omega

end

theorem date_unique {year month day year' month' day' : Nat} (date : OnCalendar year month day)
    (other : OnCalendar year' month' day') (same : ymd2ord year month day = ymd2ord year' month' day') :
    year = year' ∧ month = month' ∧ day = day' := by
  have others := other.ordinal
  rw [← same] at others
  have years : year = year' := between_unique daysBeforeYear_mono date.ordinal others
  subst years
  have inYear : daysBeforeMonth year month + day = daysBeforeMonth year month' + day' := by
    unfold ymd2ord at same
    omega
  have within := other.dayOfYear
  rw [← inYear] at within
  have months : month = month' := between_unique (daysBeforeMonth_mono year) date.dayOfYear within
  subst months
  exact ⟨rfl,rfl,Nat.add_left_cancel inYear⟩

theorem date_exists {ordinal last : Nat} (positive : 1 ≤ ordinal) (bounded : ordinal ≤ daysBeforeYear (last+1)) :
    ∃ year month day, OnCalendar year month day ∧ year ≤ last ∧ ymd2ord year month day = ordinal := by
  have first : daysBeforeYear 1 < ordinal := positive
  obtain ⟨year,low,high,above,below⟩ := exists_between 1 (last+1) (Nat.le_add_left 1 last) first bounded
  rw [daysBeforeYear_succ low,← daysBeforeMonth_thirteen] at below
  obtain ⟨month,some_month,few,after,before⟩ := exists_between (f := daysBeforeMonth year) 1 13 (by decide)
    (n := ordinal - daysBeforeYear year) (by rw [daysBeforeMonth_one]; omega) (by omega)
  rw [daysBeforeMonth_succ year some_month] at before
  refine ⟨year,month,ordinal - daysBeforeYear year - daysBeforeMonth year month,⟨low,⟨some_month,by omega⟩,by omega,by omega⟩,
    by omega,?_⟩
  unfold ymd2ord
  omega

/-- The fields of a time that a clock can show. -/
structure Fields.Valid (fields : Fields) : Prop where
  date : OnCalendar fields.year fields.month fields.day
  year : fields.year ≤ 9999
  hour : fields.hour ≤ 23
  minute : fields.minute ≤ 59
  second : fields.second ≤ 59

/-- The seconds since the epoch that a clock in UTC shows so. -/
def Fields.epoch (fields : Fields) : Int :=
  ((ymd2ord fields.year fields.month fields.day : Int) - ymd2ord 1970 1 1) * 86400 +
    ((fields.hour*3600 + fields.minute*60 + fields.second : Nat) : Int)

theorem Fields.Valid.clock {fields : Fields} (valid : fields.Valid) : fields.clock = .ok (fields.epoch * microsecond) := by
  obtain ⟨⟨year,month,day⟩,_,hour,minute,second⟩ := valid
  rw [Fields.clock,if_pos ⟨year,month.1,month.2,day.1,day.2,hour,minute,second⟩,Fields.epoch,microsOfDay,add_mul]

theorem Fields.Valid.unique {fields other : Fields} (valid : fields.Valid) (also : other.Valid)
    (same : fields.epoch = other.epoch) : fields = other := by
  have bounds := And.intro valid.hour (And.intro valid.minute valid.second)
  have others := And.intro also.hour (And.intro also.minute also.second)
  unfold Fields.epoch at same
  have days : ymd2ord fields.year fields.month fields.day = ymd2ord other.year other.month other.day := by omega
  obtain ⟨years,months,ofMonth⟩ := date_unique valid.date also.date days
  obtain ⟨year,month,day,hour,minute,second⟩ := fields
  obtain ⟨year',month',day',hour',minute',second'⟩ := other
  dsimp only at *
  rw [days] at same
  have clocks : hour = hour' ∧ minute = minute' ∧ second = second' := by omega
  rw [years,months,ofMonth,clocks.1,clocks.2.1,clocks.2.2]

/-- The first second of the year 1 and the last of the year 9999. -/
def firstSecond : Int := (1 - (ymd2ord 1970 1 1 : Int)) * 86400

def lastSecond : Int := ((daysBeforeYear (9999+1) : Int) - ymd2ord 1970 1 1) * 86400 + 86399

theorem Fields.Valid.epoch_range {fields : Fields} (valid : fields.Valid) :
    firstSecond ≤ fields.epoch ∧ fields.epoch ≤ lastSecond := by
  have inside := valid.date.ordinal
  have late : daysBeforeYear (fields.year+1) ≤ daysBeforeYear (9999+1) := daysBeforeYear_mono (Nat.succ_le_succ valid.year)
  have bounds := And.intro valid.hour (And.intro valid.minute valid.second)
  unfold Fields.epoch firstSecond lastSecond
  omega

theorem firstSecond_eq : firstSecond = -62135596800 := by decide +kernel

theorem lastSecond_eq : lastSecond = 253402300799 := by decide +kernel

theorem fields_exist {second : Int} (first : firstSecond ≤ second) (last : second ≤ lastSecond) :
    ∃ fields : Fields, fields.Valid ∧ fields.epoch = second := by
  unfold firstSecond at first
  unfold lastSecond at last
  obtain ⟨day,counted⟩ : ∃ day : Nat, (day : Int) = second / 86400 + ymd2ord 1970 1 1 :=
    Int.eq_ofNat_of_zero_le (by omega) |>.imp fun _ same => same.symm
  obtain ⟨ofDay,rest⟩ : ∃ ofDay : Nat, (ofDay : Int) = second % 86400 :=
    Int.eq_ofNat_of_zero_le (by omega) |>.imp fun _ same => same.symm
  obtain ⟨year,month,dayOfMonth,date,early,same⟩ : ∃ year month dayOfMonth, OnCalendar year month dayOfMonth ∧ year ≤ 9999 ∧
      ymd2ord year month dayOfMonth = day := date_exists (by omega) (by omega)
  refine ⟨⟨year,month,dayOfMonth,ofDay/3600,ofDay%3600/60,ofDay%60⟩,⟨date,early,?_,?_,?_⟩,?_⟩
  · change ofDay/3600 ≤ 23
    omega
  · change ofDay%3600/60 ≤ 59
    omega
  · change ofDay%60 ≤ 59
    omega
  · unfold Fields.epoch
    dsimp only
    rw [same]
    omega

end YPriceMagic.Python.Datetime
