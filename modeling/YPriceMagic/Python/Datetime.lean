import YPriceMagic.Python.Binary64
import YPriceMagic.Python.Calls
import YPriceMagic.Python.Numerals

/-! Python's `datetime`: instants in microseconds since the epoch, and `strptime`. -/
namespace YPriceMagic.Python.Datetime
open YPriceMagic.Python.Text YPriceMagic.Python.Numerals

def isLeap (year : Nat) : Bool := year % 4 == 0 && (year % 100 != 0 || year % 400 == 0)

def daysInMonth (year month : Nat) : Nat :=
  if month = 2 then if isLeap year then 29 else 28
  else if month = 4 ∨ month = 6 ∨ month = 9 ∨ month = 11 then 30 else 31

def daysBeforeYear (year : Nat) : Nat := (year-1)*365 + (year-1)/4 - (year-1)/100 + (year-1)/400

def daysBeforeMonth (year month : Nat) : Nat :=
  ((List.range month).map fun before => if before = 0 then 0 else daysInMonth year before).sum

def ymd2ord (year month day : Nat) : Nat := daysBeforeYear year + daysBeforeMonth year month + day

def microsecond : Int := 1000000

def microsOfDay (year month day : Nat) : Int :=
  ((ymd2ord year month day : Int) - ymd2ord 1970 1 1) * 86400 * microsecond

/-- An aware datetime in UTC; years run from 1 to 9999. -/
structure Utc where
  micros : Int
  first : microsOfDay 1 1 1 ≤ micros
  last : micros < microsOfDay 9999 12 31 + 86400 * microsecond

/-- `datetime + timedelta`. -/
def Utc.add (moment : Utc) (delta : Int) : Except Raised Utc :=
  if inside : microsOfDay 1 1 1 ≤ moment.micros + delta ∧
      moment.micros + delta < microsOfDay 9999 12 31 + 86400 * microsecond then
    .ok ⟨moment.micros + delta,inside.1,inside.2⟩
  else .error .overflowError

/-- `datetime.timestamp()` of an aware datetime: the seconds since the epoch, as a float. -/
def timestamp (micros : Int) : Rat := Binary64.nearest (micros / microsecond)

/-- What a pattern of a regular expression matches at the head of a text, with the text left over,
in the order in which `re` tries the matches. -/
abbrev Pattern (α : Type) := List Char → List (α × List Char)

namespace Pattern
variable {α β : Type}

def yield (value : α) : Pattern α := fun text => [(value,text)]

def andThen (pattern : Pattern α) (next : α → Pattern β) : Pattern β :=
  fun text => (pattern text).flatMap fun matched => next matched.1 matched.2

def orElse (first second : Pattern α) : Pattern α := fun text => first text ++ second text

def char (accept : Char → Option α) : Pattern α
  | [] => []
  | c::rest => (accept c).toList.map fun value => (value,rest)

/-- `\d`. -/
def digit : Pattern Nat := char decimal

/-- A class of ASCII digits, such as `[0-5]`. -/
def digitIn (low high : Nat) : Pattern Nat :=
  char fun c => (decimal c).filter fun d => c.isDigit && low ≤ d && d ≤ high

def two (tens units : Pattern Nat) : Pattern Nat :=
  tens.andThen fun ten => units.andThen fun unit => yield (10*ten + unit)

def literal (letter : Char) : Pattern Unit := char fun c => if c = letter then some () else none

/-- A letter of the format; the expression is compiled with `re.IGNORECASE`. -/
def letter (upper : Char) : Pattern Unit := char fun c => if c = upper ∨ c = upper.toLower then some () else none

/-- `p?` -/
def opt (pattern : Pattern α) : Pattern (Option α) :=
  orElse (pattern.andThen fun value => yield (some value)) (yield none)

/-- `\d{1,n}`, as many as there are. -/
def digits : Nat → Pattern (List Nat)
  | 0 => fun _ => []
  | 1 => digit.andThen fun d => yield [d]
  | n+1 => digit.andThen fun d => orElse ((digits n).andThen fun ds => yield (d::ds)) (yield [d])

end Pattern
open Pattern

/-- The fields of `%Y-%m-%dT%H:%M:%S`. -/
structure Fields where
  year : Nat
  month : Nat
  day : Nat
  hour : Nat
  minute : Nat
  second : Nat

def yearPattern : Pattern Nat :=
  (two digit digit).andThen fun century => (two digit digit).andThen fun year => yield (100*century + year)

def monthPattern : Pattern Nat :=
  orElse (two (digitIn 1 1) (digitIn 0 2)) (orElse (two (digitIn 0 0) (digitIn 1 9)) (digitIn 1 9))

def dayPattern : Pattern Nat :=
  orElse (two (digitIn 3 3) (digitIn 0 1)) (orElse (two (digitIn 1 2) digit)
    (orElse (two (digitIn 0 0) (digitIn 1 9)) (orElse (digitIn 1 9)
      ((literal ' ').andThen fun _ => digitIn 1 9))))

def hourPattern : Pattern Nat :=
  orElse (two (digitIn 2 2) (digitIn 0 3)) (orElse (two (digitIn 0 1) digit) digit)

def minutePattern : Pattern Nat := orElse (two (digitIn 0 5) digit) digit

def secondPattern : Pattern Nat :=
  orElse (two (digitIn 6 6) (digitIn 0 1)) (orElse (two (digitIn 0 5) digit) digit)

def fieldsPattern : Pattern Fields :=
  yearPattern.andThen fun year => (literal '-').andThen fun _ =>
  monthPattern.andThen fun month => (literal '-').andThen fun _ =>
  dayPattern.andThen fun day => (letter 'T').andThen fun _ =>
  hourPattern.andThen fun hour => (literal ':').andThen fun _ =>
  minutePattern.andThen fun minute => (literal ':').andThen fun _ =>
  secondPattern.andThen fun second => yield ⟨year,month,day,hour,minute,second⟩

/-- What `%z` matched: `Z`, or a sign, hours and minutes, and perhaps seconds with a fraction; a
flag says where a colon stood. -/
inductive Zone
  | z
  | offset (negative : Bool) (hours : Nat) (colon : Bool) (minutes : Nat)
      (seconds : Option (Bool × Nat × Option (List Nat)))

def colonPattern : Pattern Bool := (opt (literal ':')).andThen fun colon => yield colon.isSome

def zonePattern : Pattern Zone :=
  orElse
    ((char fun c => if c = '+' then some false else if c = '-' then some true else none).andThen fun negative =>
      (two digit digit).andThen fun hours => colonPattern.andThen fun colon =>
      (two (digitIn 0 5) digit).andThen fun minutes =>
      (opt (colonPattern.andThen fun again => (two (digitIn 0 5) digit).andThen fun seconds =>
        (opt ((literal '.').andThen fun _ => digits 6)).andThen fun fraction =>
        yield (again,seconds,fraction))).andThen fun seconds =>
      yield (.offset negative hours colon minutes seconds))
    ((literal 'Z').andThen fun _ => yield .z)

/-- `re.match`, and then no text may be left over. -/
def matchAll {α : Type} (pattern : Pattern α) (text : List Char) : Except Raised α :=
  match (pattern text).head? with
  | some (value,[]) => .ok value
  | _ => .error .valueError

/-- The microseconds that the digits after a point stand for, padded to six. -/
def fractionMicros (fraction : List Nat) : Int :=
  (fraction ++ List.replicate (6 - fraction.length) 0).foldl (fun (n : Int) d => 10*n + d) 0

/-- The offset in microseconds; colons stand in both places or in neither. -/
def Zone.micros : Zone → Except Raised Int
  | z => .ok 0
  | offset negative hours colon minutes seconds => do
    let (again,seconds,fraction) := seconds.getD (colon,0,none)
    if again ≠ colon then .error .valueError
    else do
      let size := ((hours*3600 + minutes*60 + seconds : Nat) : Int) * microsecond + fractionMicros (fraction.getD [])
      return if negative then -size else size

/-- `datetime(year,…)`, as the microseconds its clock shows. -/
def Fields.clock (fields : Fields) : Except Raised Int :=
  if 1 ≤ fields.year ∧ 1 ≤ fields.month ∧ fields.month ≤ 12 ∧ 1 ≤ fields.day ∧
      fields.day ≤ daysInMonth fields.year fields.month ∧ fields.hour ≤ 23 ∧ fields.minute ≤ 59 ∧
      fields.second ≤ 59 then
    .ok (microsOfDay fields.year fields.month fields.day +
      ((fields.hour*3600 + fields.minute*60 + fields.second : Nat) : Int) * microsecond)
  else .error .valueError

/-- A `datetime`: what its clock shows, in microseconds, and the offset of its zone if it has one. -/
structure Moment where
  clock : Int
  tzinfo : Option Int

/-- `replace(tzinfo=UTC)`. -/
def Moment.replaceUtc (moment : Moment) : Moment := {moment with tzinfo := some 0}

/-- The instant of an aware datetime. -/
def Moment.instant (moment : Moment) : Int := moment.clock - moment.tzinfo.getD 0

/-- `strptime(text, "%Y-%m-%dT%H:%M:%SZ")`. -/
def strptimeZ (text : String) : Except Raised Moment := do
  let fields ← matchAll (fieldsPattern.andThen fun fields => (letter 'Z').andThen fun _ => yield fields) text.toList
  return ⟨← fields.clock,none⟩

/-- `strptime(text, "%Y-%m-%dT%H:%M:%S%z")`; a zone is less than a day away from UTC. -/
def strptimeOffset (text : String) : Except Raised Moment := do
  let (fields,zone) ← matchAll (fieldsPattern.andThen fun fields => zonePattern.andThen fun zone => yield (fields,zone)) text.toList
  let offset ← zone.micros
  if 86400 * microsecond ≤ |offset| then .error .valueError
  else return ⟨← fields.clock,some offset⟩

/-- The body raises nothing but `ValueError`. -/
def OnlyValueError {α : Type} (body : Except Raised α) : Prop := ∀ raised, body = .error raised → raised = .valueError

theorem OnlyValueError.bind {α β : Type} {body : Except Raised α} {next : α → Except Raised β}
    (first : OnlyValueError body) (then_ : ∀ value, OnlyValueError (next value)) :
    OnlyValueError (body >>= next) := by
  intro raised failed
  cases body with
  | error inner =>
    cases failed
    exact first _ rfl
  | ok value => exact then_ value raised failed

theorem matchAll_only {α : Type} (pattern : Pattern α) (text : List Char) : OnlyValueError (matchAll pattern text) := by
  intro raised failed
  unfold matchAll at failed
  split at failed <;> simp_all

theorem Fields.clock_only (fields : Fields) : OnlyValueError fields.clock := by
  intro raised failed
  unfold Fields.clock at failed
  split at failed <;> simp_all

theorem Zone.micros_only (zone : Zone) : OnlyValueError zone.micros := by
  intro raised failed
  cases zone with
  | z => cases failed
  | offset negative hours colon minutes seconds =>
    simp only [Zone.micros] at failed
    split at failed
    · exact (Except.error.inj failed).symm
    · cases failed

theorem strptimeZ_only (text : String) : OnlyValueError (strptimeZ text) := by
  refine (matchAll_only _ _).bind fun fields => fields.clock_only.bind fun clock => ?_
  intro raised failed
  cases failed

theorem strptimeOffset_only (text : String) : OnlyValueError (strptimeOffset text) := by
  refine (matchAll_only _ _).bind fun matched => (Zone.micros_only _).bind fun offset => ?_
  split
  · intro raised failed
    exact (Except.error.inj failed).symm
  · refine matched.1.clock_only.bind fun clock => ?_
    intro raised failed
    cases failed

theorem Utc.add_error {moment : Utc} {delta : Int} {raised : Raised} (forward : 0 ≤ delta) :
    moment.add delta = .error raised ↔
      .overflowError = raised ∧ microsOfDay 9999 12 31 + 86400 * microsecond ≤ moment.micros + delta := by
  have first := moment.first
  unfold Utc.add
  split
  · rename_i inside
    simp
    omega
  · rename_i outside
    simp only [Except.error.injEq]
    constructor
    · intro equal
      exact ⟨equal,by omega⟩
    · exact fun both => both.1

theorem Utc.add_ok {moment result : Utc} {delta : Int} (added : moment.add delta = .ok result) :
    result.micros = moment.micros + delta := by
  unfold Utc.add at added
  split at added
  · rw [← Except.ok.inj added]
  · cases added

end YPriceMagic.Python.Datetime
