import YPriceMagic.Python.Calendar

/-! Times written as `YYYY-MM-DDThh:mm:ss` with a zone, and what `strptime` reads there. -/
namespace YPriceMagic.Python.Datetime
open YPriceMagic.Python.Text YPriceMagic.Python.Numerals Pattern

namespace Pattern
variable {α β : Type} {text rest : List Char}

theorem head_andThen {pattern : Pattern α} {next : α → Pattern β} {value : α} {result : β × List Char}
    (first : (pattern text).head? = some (value,rest)) (second : (next value rest).head? = some result) :
    ((pattern.andThen next) text).head? = some result := by
  obtain ⟨more,matched⟩ := List.head?_eq_some_iff.mp first
  rw [andThen,matched,List.flatMap_cons,List.head?_append,second,Option.some_or]

theorem head_orElse {one other : Pattern α} {result : α × List Char} (first : (one text).head? = some result) :
    (orElse one other text).head? = some result := by
  rw [orElse,List.head?_append,first,Option.some_or]

theorem literal_self (c : Char) : literal c (c::rest) = [((),rest)] := by simp [literal,char]

theorem letter_self (c : Char) : letter c (c::rest) = [((),rest)] := by simp [letter,char]

/-- A match leaves an end of the text. -/
def Shortens (pattern : Pattern α) : Prop := ∀ text, ∀ matched ∈ pattern text, matched.2 <:+ text

theorem shortens_yield (value : α) : Shortens (yield value) := by
  intro text matched member
  cases List.mem_singleton.mp member
  exact List.suffix_rfl

theorem shortens_char (accept : Char → Option α) : Shortens (char accept) := by
  intro text matched member
  cases text with
  | nil => cases member
  | cons c rest =>
    obtain ⟨value,_,rfl⟩ := List.mem_map.mp member
    exact List.suffix_cons c rest

theorem Shortens.andThen {pattern : Pattern α} {next : α → Pattern β} (first : Shortens pattern)
    (second : ∀ value, Shortens (next value)) : Shortens (pattern.andThen next) := by
  intro text matched member
  obtain ⟨early,found,later⟩ := List.mem_flatMap.mp member
  exact (second early.1 early.2 matched later).trans (first text early found)

theorem Shortens.orElse {one other : Pattern α} (first : Shortens one) (second : Shortens other) :
    Shortens (orElse one other) := by
  intro text matched member
  rcases List.mem_append.mp member with left | right
  · exact first text matched left
  · exact second text matched right

theorem Shortens.two {tens units : Pattern Nat} (first : Shortens tens) (second : Shortens units) : Shortens (two tens units) :=
  first.andThen fun _ => second.andThen fun _ => shortens_yield _

theorem shortens_digit : Shortens digit := shortens_char _

theorem shortens_digitIn (low high : Nat) : Shortens (digitIn low high) := shortens_char _

end Pattern

/-- A number below a hundred in two digits, before more text. -/
def pad (n : Nat) (rest : List Char) : List Char := Nat.digitChar (n/10)::Nat.digitChar (n%10)::rest

section
variable {rest : List Char}

theorem decimal_digitChar {d : Nat} (small : d < 10) :
    decimal (Nat.digitChar d) = some d ∧ (Nat.digitChar d).isDigit = true := by
  have all : ∀ d : Fin 10, decimal (Nat.digitChar d) = some d.val ∧ (Nat.digitChar d).isDigit = true := by decide
  exact all ⟨d,small⟩

theorem digit_digitChar {d : Nat} (small : d < 10) : digit (Nat.digitChar d::rest) = if True then [(d,rest)] else [] := by
  simp [digit,char,decimal_digitChar small]

theorem digitIn_digitChar (low high : Nat) {d : Nat} (small : d < 10) :
    digitIn low high (Nat.digitChar d::rest) = if low ≤ d ∧ d ≤ high then [(d,rest)] else [] := by
  obtain ⟨value,isDigit⟩ := decimal_digitChar small
  by_cases inside : low ≤ d ∧ d ≤ high
  · simp [digitIn,char,value,isDigit,inside]
  · rw [if_neg inside]
    simp only [digitIn,char,value,isDigit,Option.filter_some,Bool.true_and,Bool.and_eq_true,decide_eq_true_eq,inside,if_false]
    rfl

theorem two_pad {tens units : Pattern Nat} {p q : Nat → Prop} [DecidablePred p] [DecidablePred q]
    (first : ∀ {d rest}, d < 10 → tens (Nat.digitChar d::rest) = if p d then [(d,rest)] else [])
    (second : ∀ {d rest}, d < 10 → units (Nat.digitChar d::rest) = if q d then [(d,rest)] else []) {n : Nat} (small : n < 100) :
    two tens units (pad n rest) = if p (n/10) ∧ q (n%10) then [(n,rest)] else [] := by
  have whole : 10*(n/10) + n%10 = n := Nat.div_add_mod n 10
  rw [two,andThen,pad,first (by omega)]
  by_cases ten : p (n/10)
  · by_cases unit : q (n%10)
    · simp [ten,unit,andThen,yield,second (show n%10 < 10 by omega),whole]
    · simp [ten,unit,andThen,second (show n%10 < 10 by omega)]
  · simp [ten]

theorem monthPattern_pad {n : Nat} (positive : 1 ≤ n) (bounded : n ≤ 12) :
    (monthPattern (pad n rest)).head? = some (n,rest) := by
  have small : n < 100 := by omega
  rw [monthPattern,orElse,orElse,two_pad (digitIn_digitChar 1 1) (digitIn_digitChar 0 2) small,
    two_pad (digitIn_digitChar 0 0) (digitIn_digitChar 1 9) small]
  by_cases late : 10 ≤ n
  · rw [if_pos (by omega)]
    rfl
  · rw [if_neg (by omega),if_pos (by omega)]
    rfl

theorem dayPattern_pad {n : Nat} (positive : 1 ≤ n) (bounded : n ≤ 31) : (dayPattern (pad n rest)).head? = some (n,rest) := by
  have small : n < 100 := by omega
  rw [dayPattern,orElse,orElse,orElse,two_pad (digitIn_digitChar 3 3) (digitIn_digitChar 0 1) small,
    two_pad (digitIn_digitChar 1 2) digit_digitChar small,two_pad (digitIn_digitChar 0 0) (digitIn_digitChar 1 9) small]
  by_cases last : 30 ≤ n
  · rw [if_pos (by omega)]
    rfl
  · by_cases late : 10 ≤ n
    · rw [if_neg (by omega),if_pos ⟨by omega,trivial⟩]
      rfl
    · rw [if_neg (by omega),if_neg (fun both => by omega),if_pos (by omega)]
      rfl

theorem hourPattern_pad {n : Nat} (bounded : n ≤ 23) : (hourPattern (pad n rest)).head? = some (n,rest) := by
  have small : n < 100 := by omega
  rw [hourPattern,orElse,orElse,two_pad (digitIn_digitChar 2 2) (digitIn_digitChar 0 3) small,
    two_pad (digitIn_digitChar 0 1) digit_digitChar small]
  by_cases late : 20 ≤ n
  · rw [if_pos (by omega)]
    rfl
  · rw [if_neg (by omega),if_pos ⟨by omega,trivial⟩]
    rfl

theorem sixty_pad {n : Nat} (bounded : n ≤ 59) : two (digitIn 0 5) digit (pad n rest) = [(n,rest)] := by
  rw [two_pad (digitIn_digitChar 0 5) digit_digitChar (by omega),if_pos ⟨by omega,trivial⟩]

theorem hundred_pad {n : Nat} (small : n < 100) : two digit digit (pad n rest) = [(n,rest)] := by
  rw [two_pad digit_digitChar digit_digitChar small,if_pos ⟨trivial,trivial⟩]

theorem minutePattern_pad {n : Nat} (bounded : n ≤ 59) : (minutePattern (pad n rest)).head? = some (n,rest) := by
  rw [minutePattern,orElse,sixty_pad bounded]
  rfl

theorem secondPattern_pad {n : Nat} (bounded : n ≤ 59) : (secondPattern (pad n rest)).head? = some (n,rest) := by
  rw [secondPattern,orElse,orElse,two_pad (digitIn_digitChar 6 6) (digitIn_digitChar 0 1) (by omega),
    if_neg (by omega),sixty_pad bounded]
  rfl

theorem yearPattern_pad {year : Nat} (bounded : year ≤ 9999) :
    (yearPattern (pad (year/100) (pad (year%100) rest))).head? = some (year,rest) := by
  refine head_andThen (by rw [hundred_pad (by omega)]; rfl) (head_andThen (by rw [hundred_pad (by omega)]; rfl) ?_)
  rw [yield,Nat.div_add_mod]
  rfl

end

/-- `YYYY-MM-DDThh:mm:ss`, before more text. -/
def Fields.iso (fields : Fields) (rest : List Char) : List Char :=
  pad (fields.year/100) (pad (fields.year%100) ('-'::pad fields.month ('-'::pad fields.day ('T'::pad fields.hour
    (':'::pad fields.minute (':'::pad fields.second rest))))))

theorem daysInMonth_le (year month : Nat) : daysInMonth year month ≤ 31 := by
  unfold daysInMonth
  split_ifs <;> omega

theorem Fields.Valid.read {fields : Fields} (valid : fields.Valid) (rest : List Char) :
    (fieldsPattern (fields.iso rest)).head? = some (fields,rest) := by
  obtain ⟨⟨_,month,day⟩,year,hour,minute,second⟩ := valid
  have ofMonth := day.2.trans (daysInMonth_le fields.year fields.month)
  refine head_andThen (yearPattern_pad year) (head_andThen (by rw [literal_self]; rfl) ?_)
  refine head_andThen (monthPattern_pad month.1 month.2) (head_andThen (by rw [literal_self]; rfl) ?_)
  refine head_andThen (dayPattern_pad day.1 ofMonth) (head_andThen (by rw [letter_self]; rfl) ?_)
  refine head_andThen (hourPattern_pad hour) (head_andThen (by rw [literal_self]; rfl) ?_)
  refine head_andThen (minutePattern_pad minute) (head_andThen (by rw [literal_self]; rfl) ?_)
  exact head_andThen (secondPattern_pad second) rfl

/-- The zones that a written time may end in: `Z`, or a sign, hours and minutes. -/
inductive WrittenZone
  | utc
  | offset (negative : Bool) (hours minutes : Nat)
  deriving DecidableEq, Repr

namespace WrittenZone

def text : WrittenZone → List Char
  | utc => ['Z']
  | offset negative hours minutes => (if negative then '-' else '+')::pad hours (':'::pad minutes [])

def Valid : WrittenZone → Prop
  | utc => True
  | offset _ hours minutes => hours ≤ 23 ∧ minutes ≤ 59

/-- How many seconds the clock is ahead of UTC. -/
def seconds : WrittenZone → Int
  | utc => 0
  | offset negative hours minutes => if negative then -((hours*3600 + minutes*60 : Nat) : Int) else ((hours*3600 + minutes*60 : Nat) : Int)

end WrittenZone

theorem WrittenZone.Valid.near {zone : WrittenZone} (zoned : zone.Valid) : |zone.seconds| < 86400 := by
  rw [abs_lt]
  cases zone with
  | utc => decide
  | offset negative hours minutes =>
    obtain ⟨few,some⟩ := zoned
    cases negative <;> simp only [WrittenZone.seconds,if_true,Bool.false_eq_true,if_false] <;> omega

def Fields.written (fields : Fields) (zone : WrittenZone) : String := String.ofList (fields.iso zone.text)

theorem matchAll_ok {α : Type} {pattern : Pattern α} {text : List Char} {value : α}
    (first : (pattern text).head? = some (value,[])) : matchAll pattern text = .ok value := by
  rw [matchAll,first]

theorem matchAll_none {α : Type} {pattern : Pattern α} {text : List Char} (empty : pattern text = []) :
    matchAll pattern text = .error .valueError := by
  rw [matchAll,empty]
  rfl

theorem shortens_fieldsPattern : Shortens fieldsPattern := by
  have year : Shortens yearPattern :=
    (shortens_digit.two shortens_digit).andThen fun _ => (shortens_digit.two shortens_digit).andThen fun _ => shortens_yield _
  have month : Shortens monthPattern := ((shortens_digitIn 1 1).two (shortens_digitIn 0 2)).orElse
    (((shortens_digitIn 0 0).two (shortens_digitIn 1 9)).orElse (shortens_digitIn 1 9))
  have day : Shortens dayPattern := ((shortens_digitIn 3 3).two (shortens_digitIn 0 1)).orElse
    (((shortens_digitIn 1 2).two shortens_digit).orElse (((shortens_digitIn 0 0).two (shortens_digitIn 1 9)).orElse
      ((shortens_digitIn 1 9).orElse ((shortens_char _).andThen fun _ => shortens_digitIn 1 9))))
  have hour : Shortens hourPattern := ((shortens_digitIn 2 2).two (shortens_digitIn 0 3)).orElse
    (((shortens_digitIn 0 1).two shortens_digit).orElse shortens_digit)
  have minute : Shortens minutePattern := ((shortens_digitIn 0 5).two shortens_digit).orElse shortens_digit
  have second : Shortens secondPattern := ((shortens_digitIn 6 6).two (shortens_digitIn 0 1)).orElse
    (((shortens_digitIn 0 5).two shortens_digit).orElse shortens_digit)
  exact year.andThen fun _ => (shortens_char _).andThen fun _ => month.andThen fun _ => (shortens_char _).andThen fun _ =>
    day.andThen fun _ => (shortens_char _).andThen fun _ => hour.andThen fun _ => (shortens_char _).andThen fun _ =>
    minute.andThen fun _ => (shortens_char _).andThen fun _ => second.andThen fun _ => shortens_yield _

/-- The characters of a written time but for the `Z`. -/
def timeChar (c : Char) : Bool := c.isDigit || c == '-' || c == 'T' || c == ':' || c == '+'

theorem pad_chars {n : Nat} (small : n < 100) {p : Char → Prop} {rest : List Char} (digits : ∀ c, c.isDigit = true → p c)
    (others : ∀ c ∈ rest, p c) : ∀ c ∈ pad n rest, p c :=
  List.forall_mem_cons.mpr ⟨digits _ (decimal_digitChar (by omega)).2,
    List.forall_mem_cons.mpr ⟨digits _ (decimal_digitChar (by omega)).2,others⟩⟩

theorem Fields.Valid.chars {fields : Fields} (valid : fields.Valid) {p : Char → Prop} {rest : List Char}
    (time : ∀ c, timeChar c = true → p c) (others : ∀ c ∈ rest, p c) : ∀ c ∈ fields.iso rest, p c := by
  obtain ⟨⟨_,month,day⟩,year,hour,minute,second⟩ := valid
  have ofMonth := day.2.trans (daysInMonth_le fields.year fields.month)
  have digits : ∀ c, c.isDigit = true → p c := fun c digit => time c (by simp [timeChar,digit])
  refine pad_chars (by omega) digits (pad_chars (by omega) digits (List.forall_mem_cons.mpr ⟨time _ rfl,?_⟩))
  refine pad_chars (by omega) digits (List.forall_mem_cons.mpr ⟨time _ rfl,?_⟩)
  refine pad_chars (by omega) digits (List.forall_mem_cons.mpr ⟨time _ rfl,?_⟩)
  refine pad_chars (by omega) digits (List.forall_mem_cons.mpr ⟨time _ rfl,?_⟩)
  refine pad_chars (by omega) digits (List.forall_mem_cons.mpr ⟨time _ rfl,?_⟩)
  exact pad_chars (by omega) digits others

theorem WrittenZone.Valid.chars {negative : Bool} {hours minutes : Nat} (valid : (WrittenZone.offset negative hours minutes).Valid) :
    ∀ c ∈ (WrittenZone.offset negative hours minutes).text, timeChar c = true := by
  have digits : ∀ c : Char, c.isDigit = true → timeChar c = true := fun c digit => by simp [timeChar,digit]
  refine List.forall_mem_cons.mpr ⟨by cases negative <;> rfl,?_⟩
  refine pad_chars (lt_of_le_of_lt valid.1 (by decide)) digits (List.forall_mem_cons.mpr ⟨rfl,?_⟩)
  exact pad_chars (lt_of_le_of_lt valid.2 (by decide)) digits (List.forall_mem_nil _)

section
variable {negative : Bool} {hours minutes : Nat}

theorem zonePattern_offset (zoned : (WrittenZone.offset negative hours minutes).Valid) :
    (zonePattern (WrittenZone.offset negative hours minutes).text).head? = some (.offset negative hours true minutes none,[]) := by
  have colon (rest : List Char) : (colonPattern (':'::rest)).head? = some (true,rest) :=
    head_andThen (by rw [opt,orElse,andThen,literal_self]; rfl) rfl
  have early : two digit digit (pad hours (':'::pad minutes [])) = [(hours,':'::pad minutes [])] :=
    hundred_pad (lt_of_le_of_lt zoned.1 (by decide))
  have late : two (digitIn 0 5) digit (pad minutes []) = [(minutes,[])] := sixty_pad zoned.2
  have signed : (char (fun c => if c = '+' then some false else if c = '-' then some true else none)
      (WrittenZone.offset negative hours minutes).text).head? = some (negative,pad hours (':'::pad minutes [])) := by
    cases negative <;> rfl
  refine head_orElse (head_andThen signed (head_andThen (by rw [early]; rfl) (head_andThen (colon _) ?_)))
  refine head_andThen (by rw [late]; rfl) (head_andThen (show _ = some (none,[]) from rfl) rfl)

theorem micros_offset : (Zone.offset negative hours true minutes none).micros =
    .ok ((WrittenZone.offset negative hours minutes).seconds * microsecond) := by
  have whole : fractionMicros [] = 0 := by decide
  have read : (Zone.offset negative hours true minutes none).micros =
      .ok (if negative then -(((hours*3600 + minutes*60 + 0 : Nat) : Int) * microsecond + fractionMicros [])
        else ((hours*3600 + minutes*60 + 0 : Nat) : Int) * microsecond + fractionMicros []) := rfl
  rw [read,whole,Nat.add_zero,Int.add_zero,WrittenZone.seconds]
  -- Neither number is to be computed with.
  generalize ((hours*3600 + minutes*60 : Nat) : Int) = size
  rw [ite_mul,neg_mul]

end

section
variable {fields : Fields} (valid : fields.Valid)
include valid

theorem strptimeZ_utc : strptimeZ (fields.written .utc) = .ok ⟨fields.epoch * microsecond,none⟩ := by
  have matched : matchAll (fieldsPattern.andThen fun fields => (letter 'Z').andThen fun _ => yield fields) (fields.iso ['Z']) =
      .ok fields := matchAll_ok (head_andThen (valid.read _) (head_andThen (by rw [letter_self]; rfl) rfl))
  rw [strptimeZ,Fields.written,String.toList_ofList,WrittenZone.text,matched]
  simp only [bind,Except.bind,valid.clock,pure,Except.pure]

theorem strptimeZ_offset {negative : Bool} {hours minutes : Nat} (zoned : (WrittenZone.offset negative hours minutes).Valid) :
    strptimeZ (fields.written (.offset negative hours minutes)) = .error .valueError := by
  have chars := valid.chars (p := fun c => timeChar c = true) (fun _ time => time) zoned.chars
  have missed : (fieldsPattern.andThen fun fields => (letter 'Z').andThen fun _ => yield fields)
      (fields.iso (WrittenZone.offset negative hours minutes).text) = [] := by
    refine List.flatMap_eq_nil_iff.mpr fun matched member => ?_
    obtain ⟨early,rest⟩ := matched
    have later := shortens_fieldsPattern _ _ member
    cases rest with
    | nil => rfl
    | cons c rest =>
      have time := chars c (later.subset List.mem_cons_self)
      have other : ¬(c = 'Z' ∨ c = 'z') := by
        rintro (rfl | rfl) <;> cases time
      have lower : 'Z'.toLower = 'z' := rfl
      simp [andThen,letter,char,lower,other]
  rw [strptimeZ,Fields.written,String.toList_ofList,matchAll_none missed]
  rfl

theorem strptimeOffset_offset {negative : Bool} {hours minutes : Nat} (zoned : (WrittenZone.offset negative hours minutes).Valid) :
    strptimeOffset (fields.written (.offset negative hours minutes)) =
      .ok ⟨fields.epoch * microsecond,some ((WrittenZone.offset negative hours minutes).seconds * microsecond)⟩ := by
  have matched : matchAll (fieldsPattern.andThen fun fields => zonePattern.andThen fun zone => yield (fields,zone))
      (fields.iso (WrittenZone.offset negative hours minutes).text) = .ok (fields,.offset negative hours true minutes none) :=
    matchAll_ok (head_andThen (valid.read _) (head_andThen (zonePattern_offset zoned) rfl))
  rw [strptimeOffset,Fields.written,String.toList_ofList,matched]
  simp only [bind,Except.bind,micros_offset,valid.clock,pure,Except.pure]
  have near := abs_lt.mp zoned.near
  have inside : |(WrittenZone.offset negative hours minutes).seconds * microsecond| < 86400 * microsecond := by
    rw [abs_lt,microsecond]
    omega
  rw [if_neg (not_le.mpr inside)]

end

end YPriceMagic.Python.Datetime
