import YPriceMagic.Server.Params

/-! Which parameters make a parser raise instead of returning a result or a `ParseError`. -/
namespace YPriceMagic.Server
open YPriceMagic.Python YPriceMagic.Python.Call
open YPriceMagic.Python.Text (strip)

theorem int_error {text : String} {raised : Raised} (failed : int text = .error raised) : raised = .valueError := by
  unfold int at failed
  split at failed <;> simp_all

theorem float_error {text : String} {raised : Raised} (failed : float text = .error raised) :
    raised = .valueError := by
  unfold float at failed
  split at failed <;> simp_all

theorem decimal_error {text : String} {raised : Raised} (failed : decimal text = .error raised) :
    raised = .invalidOperation := by
  unfold decimal at failed
  split at failed <;> simp_all

theorem parseBlock_returns (block : Option String) (raised : Raised) : ¬(parseBlock block).Raises raised := by
  cases block with
  | none => simp [parseBlock]
  | some block =>
    intro raises
    simp only [parseBlock,raises_bind,raises_attempt,raises_ite,raises_throw,raises_pure] at raises
    obtain ⟨inner,failed,outcome⟩ | ⟨parsed,_,outcome⟩ := raises
    · simp [int_error failed] at outcome
    · simp at outcome

theorem decimal_returns {refusal : ParseError} {text : String} {raised : Raised} :
    ¬(attempt (decimal text) [.invalidOperation,.valueError,.typeError] (throw refusal : Parser Numerals.Number)).Raises
      raised := by
  intro raises
  obtain ⟨inner,failed,outcome⟩ := (raises_attempt _ _ _ _).mp raises
  simp [decimal_error failed] at outcome

theorem parseAmount_returns (amount : Option String) (raised : Raised) : ¬(parseAmount amount).Raises raised := by
  cases amount with
  | none => simp [parseAmount]
  | some amount =>
    intro raises
    simp only [parseAmount,raises_bind] at raises
    obtain failed | ⟨parsed,_,outcome⟩ := raises
    · exact decimal_returns failed
    · split at outcome <;> simp at outcome

theorem parseIgnorePoolsSegments_returns (segments : List String) (raised : Raised) :
    ¬(parseIgnorePoolsSegments segments).Raises raised := by
  induction segments with
  | nil => simp [parseIgnorePoolsSegments]
  | cons segment segments ih => simp [parseIgnorePoolsSegments,ih]

theorem parseIgnorePools_returns (ignorePools : Option String) (raised : Raised) :
    ¬(parseIgnorePools ignorePools).Raises raised := by
  cases ignorePools <;> simp [parseIgnorePools,parseIgnorePoolsSegments_returns]

theorem parseAmountsSegments_returns (i : Nat) (segments : List String) (raised : Raised) :
    ¬(parseAmountsSegments i segments).Raises raised := by
  induction segments generalizing i with
  | nil => simp [parseAmountsSegments]
  | cons segment segments ih =>
    intro raises
    simp only [parseAmountsSegments,raises_ite,raises_bind,ih,raises_pure] at raises
    obtain ⟨_,outcome⟩ | ⟨_,failed | ⟨parsed,_,outcome⟩⟩ := raises
    · simp at outcome
    · exact decimal_returns failed
    · split at outcome <;> simp [ih] at outcome

theorem parseAmounts_returns (amounts : Option String) (raised : Raised) : ¬(parseAmounts amounts).Raises raised := by
  cases amounts <;> simp [parseAmounts,parseAmountsSegments_returns]

theorem parseTokensSegments_returns (i : Nat) (segments : List String) (raised : Raised) :
    ¬(parseTokensSegments i segments).Raises raised := by
  induction segments generalizing i with
  | nil => simp [parseTokensSegments]
  | cons segment segments ih => simp [parseTokensSegments,ih]

theorem parseTokens_returns (tokens : Option String) (raised : Raised) : ¬(parseTokens tokens).Raises raised := by
  cases tokens <;> simp [parseTokens,parseTokensSegments_returns]

/-- `float` gives a value that `int` does not take and that is not rejected as negative. -/
def NotFinite (text : String) : Prop := float text = .ok .nan ∨ float text = .ok (.infinite false)

/-- The moment that the first matching pattern reads. -/
def isoMoment (value : String) : Option Datetime.Moment :=
  isoPatterns.findSome? fun pattern => (pattern value).toOption

/-- A positive number, or a time in ISO 8601: it is compared with the current time. -/
def Timed (text : String) : Prop :=
  (∃ value, 0 < value ∧ float text = .ok (.finite value)) ∨
    (∃ raised, float text = .error raised) ∧ (isoMoment text).isSome

/-- The last minutes of the year 9999: the current time and the buffer exceed the range of `datetime`. -/
def LastMinutes (now : Datetime.Utc) : Prop :=
  Datetime.microsOfDay 9999 12 31 + 86400 * Datetime.microsecond ≤
    now.micros + timestampFutureBufferSeconds * Datetime.microsecond

def BreaksTimestamp (now : Datetime.Utc) (timestamp : Option String) : Prop :=
  ∃ text ∈ timestamp, text ≠ "" ∧ (NotFinite (strip text) ∨ LastMinutes now ∧ Timed (strip text))

section
variable (now : Datetime.Utc)

theorem maxAllowed_error (raised : Raised) :
    now.add (timestampFutureBufferSeconds * Datetime.microsecond) = .error raised ↔
      .overflowError = raised ∧ LastMinutes now :=
  Datetime.Utc.add_error (by decide)

theorem parseUnixTimestamp_unread {value : String} {inner : Raised} (converted : float value = .error inner) :
    parseUnixTimestamp now value = pure none := by
  have kind := float_error converted
  simp [parseUnixTimestamp,attempt,Functor.map,Except.map,converted,kind]

theorem parseUnixTimestamp_raises (value : String) (raised : Raised) :
    (parseUnixTimestamp now value).Raises raised ↔
      float value = .ok .nan ∧ .valueError = raised ∨
        .overflowError = raised ∧ (float value = .ok (.infinite false) ∨
          LastMinutes now ∧ ∃ number, 0 < number ∧ float value = .ok (.finite number)) := by
  cases converted : float value with
  | error inner => simp [parseUnixTimestamp_unread now converted]
  | ok parsed =>
    cases parsed with
    | nan => simp [parseUnixTimestamp,converted,PyFloat.negative,PyFloat.int]
    | infinite negative =>
      cases negative <;> simp [parseUnixTimestamp,converted,PyFloat.negative,PyFloat.int]
    | finite number =>
      rcases lt_trichotomy number 0 with below | zero | above
      · simp [parseUnixTimestamp,converted,PyFloat.negative,below,below.not_gt]
      · simp [parseUnixTimestamp,converted,PyFloat.negative,zero]
      · simp [parseUnixTimestamp,converted,PyFloat.negative,PyFloat.int,above,above.not_gt,above.ne',
          maxAllowed_error,and_comm]

end

theorem tryPatterns_eq (value : String) (patterns : List (String → Except Raised Datetime.Moment))
    (only : ∀ pattern ∈ patterns, Datetime.OnlyValueError (pattern value)) :
    tryPatterns value patterns = pure (patterns.findSome? fun pattern => (pattern value).toOption) := by
  induction patterns with
  | nil => rfl
  | cons pattern patterns ih =>
    have rest := ih fun other member => only other (List.mem_cons_of_mem _ member)
    rw [tryPatterns,rest]
    cases read : pattern value with
    | ok moment => simp [attempt,Functor.map,Except.map,Except.toOption,read]
    | error raised =>
      have kind := only pattern List.mem_cons_self raised read
      simp [attempt,Functor.map,Except.map,Except.toOption,read,kind]

theorem tryPatterns_isoPatterns (value : String) : tryPatterns value isoPatterns = pure (isoMoment value) := by
  apply tryPatterns_eq
  intro pattern member
  simp only [isoPatterns,List.mem_cons,List.not_mem_nil,or_false] at member
  obtain rfl | rfl := member
  · exact Datetime.strptimeZ_only value
  · exact Datetime.strptimeOffset_only value

section
variable (now : Datetime.Utc)

theorem parseIso8601Timestamp_raises (value : String) (raised : Raised) :
    (parseIso8601Timestamp now value).Raises raised ↔
      .overflowError = raised ∧ LastMinutes now ∧ (isoMoment value).isSome := by
  rw [parseIso8601Timestamp,tryPatterns_isoPatterns,pure_bind]
  cases isoMoment value with
  | none => simp
  | some moment => simp [maxAllowed_error,PyFloat.int,and_comm]

theorem parseUnixTimestamp_none (value : String) :
    (parseUnixTimestamp now value).Yields none ↔ ∃ raised, float value = .error raised := by
  cases converted : float value with
  | error inner => simp [parseUnixTimestamp_unread now converted]
  | ok parsed => simp [parseUnixTimestamp,converted]

theorem parseStripped_raises {text : String} (nonempty : text ≠ "") (raised : Raised) :
    (parseTimestamp now (some text)).Raises raised ↔ (parseUnixTimestamp now (strip text)).Raises raised ∨
      (∃ inner, float (strip text) = .error inner) ∧ (parseIso8601Timestamp now (strip text)).Raises raised := by
  rw [← parseUnixTimestamp_none now]
  simp only [parseTimestamp,nonempty,if_false,raises_bind]
  refine or_congr_right ⟨?_,fun both => ⟨none,both.1,(raises_map _ _ _).mpr both.2⟩⟩
  rintro ⟨parsed,yielded,raises⟩
  cases parsed with
  | none => exact ⟨yielded,(raises_map _ _ _).mp raises⟩
  | some parsed => exact absurd raises (raises_pure _ _)

theorem parseTimestamp_raises (timestamp : Option String) :
    (∃ raised, (parseTimestamp now timestamp).Raises raised) ↔ BreaksTimestamp now timestamp := by
  cases timestamp with
  | none => simp [parseTimestamp,BreaksTimestamp]
  | some text =>
    by_cases empty : text = ""
    · simp [parseTimestamp,BreaksTimestamp,empty]
    · simp only [parseStripped_raises now empty,parseUnixTimestamp_raises,parseIso8601Timestamp_raises,
        BreaksTimestamp,NotFinite,Timed,Option.mem_some_iff,exists_eq_left',ne_eq,empty,not_false_eq_true,true_and]
      constructor
      · rintro ⟨raised,(⟨nan,_⟩ | ⟨_,infinite | timed⟩) | ⟨unread,_,late,moment⟩⟩
        · exact .inl (.inl nan)
        · exact .inl (.inr infinite)
        · exact .inr ⟨timed.1,.inl timed.2⟩
        · exact .inr ⟨late,.inr ⟨unread,moment⟩⟩
      · rintro ((nan | infinite) | ⟨late,number | ⟨unread,moment⟩⟩)
        · exact ⟨_,.inl (.inl ⟨nan,rfl⟩)⟩
        · exact ⟨_,.inl (.inr ⟨rfl,.inl infinite⟩)⟩
        · exact ⟨_,.inl (.inr ⟨rfl,.inr ⟨late,number⟩⟩)⟩
        · exact ⟨_,.inr ⟨unread,rfl,late,moment⟩⟩

/-- The values before the timestamp are accepted by `parse_price_params`. -/
def PriceReaches (token block amount ignorePools : Option String) : Prop :=
  (∃ address ∈ token, address ≠ "" ∧ isValidAddress address) ∧ (∃ parsed, (parseBlock block).Yields parsed) ∧
    (∃ parsed, (parseAmount amount).Yields parsed) ∧ ∃ parsed, (parseIgnorePools ignorePools).Yields parsed

/-- The values before the timestamp are accepted by `parse_batch_params`. -/
def BatchReaches (tokens block amounts : Option String) : Prop :=
  ∃ parsedTokens parsedAmounts, (parseTokens tokens).Yields parsedTokens ∧
    (∃ parsed, (parseBlock block).Yields parsed) ∧ (parseAmounts amounts).Yields parsedAmounts ∧
    ∀ list ∈ parsedAmounts, list.length = parsedTokens.length

theorem parsePriceParams_raises (token block amount ignorePools timestamp : Option String) :
    (∃ raised, (parsePriceParams now token block amount ignorePools timestamp).Raises raised) ↔
      PriceReaches token block amount ignorePools ∧ BreaksTimestamp now timestamp := by
  rw [← parseTimestamp_raises]
  cases token with
  | none => simp [parsePriceParams,PriceReaches]
  | some token =>
    simp only [parsePriceParams,PriceReaches,raises_ite,raises_throw,raises_bind,raises_pure,parseBlock_returns,
      parseAmount_returns,parseIgnorePools_returns,and_false,false_or,or_false,exists_false,Option.mem_some_iff,
      exists_eq_left',Bool.not_eq_true']
    constructor
    · rintro ⟨raised,nonempty,valid,block,yb,amount,ya,pools,yp,raises⟩
      exact ⟨⟨⟨nonempty,by simpa using valid⟩,⟨block,yb⟩,⟨amount,ya⟩,pools,yp⟩,raised,raises⟩
    · rintro ⟨⟨⟨nonempty,valid⟩,⟨block,yb⟩,⟨amount,ya⟩,pools,yp⟩,raised,raises⟩
      exact ⟨raised,nonempty,by simpa using valid,block,yb,amount,ya,pools,yp,raises⟩

theorem parseBatchParams_raises (tokens block amounts timestamp : Option String) :
    (∃ raised, (parseBatchParams now tokens block amounts timestamp).Raises raised) ↔
      BatchReaches tokens block amounts ∧ BreaksTimestamp now timestamp := by
  rw [← parseTimestamp_raises]
  simp only [parseBatchParams,BatchReaches,raises_bind,parseTokens_returns,parseBlock_returns,parseAmounts_returns,
    false_or]
  constructor
  · rintro ⟨raised,tokens,yt,block,yb,amounts,ya,raises⟩
    split at raises
    · rename_i aligned
      simp only [raises_bind,raises_ite,raises_throw,raises_pure,and_false,or_false,exists_false] at raises
      exact ⟨⟨tokens,amounts,yt,⟨block,yb⟩,ya,aligned⟩,raised,raises⟩
    · exact absurd raises (raises_throw _ _)
  · rintro ⟨⟨tokens,amounts,yt,⟨block,yb⟩,ya,aligned⟩,raised,raises⟩
    refine ⟨raised,tokens,yt,block,yb,amounts,ya,?_⟩
    rw [dif_pos aligned]
    exact (raises_bind _ _ _).mpr (.inl raises)

/-- Parsing returns a result or a `ParseError`, unless it comes to a timestamp that breaks it. -/
theorem parse_returns_iff (token block amount ignorePools tokens amounts timestamp : Option String) :
    ((parsePriceParams now token block amount ignorePools timestamp).Returns ↔
      ¬(PriceReaches token block amount ignorePools ∧ BreaksTimestamp now timestamp)) ∧
    ((parseBatchParams now tokens block amounts timestamp).Returns ↔
      ¬(BatchReaches tokens block amounts ∧ BreaksTimestamp now timestamp)) := by
  constructor
  · rw [← parsePriceParams_raises,not_exists,returns_iff]
  · rw [← parseBatchParams_raises,not_exists,returns_iff]

end

/-- 14 November 2023, 22:13:20. -/
def november : Datetime.Utc := ⟨1700000000000000,by decide,by decide⟩

def sampleAddress : String := "0xa0b86991c6218b36c1d19d4a2e9eb0ce3606eb48"

/-- `int(float("nan"))` raises `ValueError` and `int(float("inf"))` raises `OverflowError`. -/
theorem nonfinite_timestamp_raises :
    ¬(parsePriceParams november (some sampleAddress) none none none (some "nan")).Returns ∧
    ¬(parsePriceParams november (some sampleAddress) none none none (some "inf")).Returns ∧
    ¬(parseBatchParams november (some sampleAddress) none none (some "nan")).Returns := by
  refine ⟨Raises.not_returns .valueError rfl,Raises.not_returns .overflowError rfl,
    Raises.not_returns .valueError rfl⟩

end YPriceMagic.Server
