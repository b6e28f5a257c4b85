import YPriceMagic.Frontend.Api
import YPriceMagic.Server.ParamsTotal
import YPriceMagic.Server.Query

/-! What the server reads from the queries that the forms send. -/
namespace YPriceMagic.Frontend
open YPriceMagic.Python YPriceMagic.Python.Call
open YPriceMagic.Server

theorem orUndefined_filter (text : String) : (orUndefined text).filter (· ≠ "") = orUndefined text := by
  unfold orUndefined
  by_cases empty : text = "" <;> simp [empty,Option.filter_some]

namespace URLSearchParams

theorem queryParam_append (params : URLSearchParams) (name value other : String) :
    queryParam (params.append name value).pairs other =
      if name = other then some value else queryParam params.pairs other := by
  rw [append,Server.queryParam_append,queryParam_singleton]
  split <;> rfl

theorem queryParam_appendAll_other (params : URLSearchParams) (values : List String) {name other : String}
    (different : name ≠ other) :
    queryParam (params.appendAll name values).pairs other = queryParam params.pairs other := by
  unfold appendAll
  induction values generalizing params with
  | nil => rfl
  | cons value values ih => rw [List.foldl_cons,ih,queryParam_append,if_neg different]

theorem queryParam_setPairs (pairs : List (String × String)) (name value other : String) :
    queryParam (setPairs name value pairs) other = if name = other then some value else queryParam pairs other := by
  induction pairs with
  | nil => rw [setPairs,queryParam_singleton,queryParam_nil]
  | cons pair pairs ih =>
    unfold setPairs
    by_cases found : pair.1 = name
    · rw [if_pos found,queryParam_cons,queryParam_filter,queryParam_cons,found]
      by_cases same : name = other
      · simp [same]
      · simp [same,Ne.symm same]
    · rw [if_neg found,queryParam_cons,ih,queryParam_cons]
      by_cases same : name = other
      · simp [same]
      · simp [same]

theorem queryParam_setTruthy (params : URLSearchParams) (name other : String) (value : Option String) :
    queryParam (params.setTruthy name value).pairs other =
      if name = other then (value.filter (· ≠ "")).or (queryParam params.pairs other)
      else queryParam params.pairs other := by
  cases value with
  | none => simp [setTruthy]
  | some value =>
    by_cases empty : value = ""
    · simp [setTruthy,empty,Option.filter_some]
    · simp [setTruthy,set,empty,Option.filter_some,queryParam_setPairs]

end URLSearchParams

section
variable (now : Datetime.Utc)

/-! The batch form. -/

/-- The amount that an entry of the batch form stands for. -/
def amountOf (text : String) : Option Rat :=
  if Text.strip text = "" then none else (Numerals.decimalOf text.toList).bind positive

/-- The server reads the tokens, the amounts and the block that were sent. -/
def BatchRoundTrips (tokens : List String) (block : Option Nat) (amounts : Option (List String)) : Prop :=
  ∃ params, (pricesQuery now (fetchBatchPrices tokens (block.map toString) amounts).pairs).Yields params ∧
    params.tokens = tokens ∧ params.block = block ∧ params.amounts = amounts.map (·.map amountOf)

/-- The client sends `token` and `amount`; the endpoint declares `tokens` and `amounts`. -/
theorem queryParam_fetchBatchPrices (tokens : List String) (block : Option String)
    (amounts : Option (List String)) :
    queryParam (fetchBatchPrices tokens block amounts).pairs "tokens" = none := by
  have sent : queryParam (((URLSearchParams.mk []).appendAll "token" tokens).setTruthy "block" block).pairs
      "tokens" = none := by
    rw [URLSearchParams.queryParam_setTruthy,if_neg (by decide),
      URLSearchParams.queryParam_appendAll_other _ _ (by decide),queryParam_nil]
  cases amounts with
  | none => exact sent
  | some amounts =>
    rw [fetchBatchPrices,URLSearchParams.queryParam_appendAll_other _ _ (by decide)]
    exact sent

theorem fetchBatchPrices_refused (tokens : List String) (block : Option String) (amounts : Option (List String)) :
    (pricesQuery now (fetchBatchPrices tokens block amounts).pairs).run =
      .ok (.error ⟨"Missing required parameter: tokens"⟩) := by
  rw [pricesQuery,queryParam_fetchBatchPrices]
  rfl

/-- No batch request of the client is read as it was meant. -/
theorem batch_never_roundTrips (tokens : List String) (block : Option Nat) (amounts : Option (List String)) :
    ¬BatchRoundTrips now tokens block amounts := by
  rintro ⟨params,yielded,_⟩
  rw [Yields,fetchBatchPrices_refused] at yielded
  cases yielded

/-- One token, no block and no amounts. -/
theorem one_token_refused : ¬BatchRoundTrips november [sampleAddress] none none := by
  rintro ⟨params,yielded,_⟩
  rw [Yields,fetchBatchPrices_refused] at yielded
  cases yielded

/-! The quote form. -/

inductive BlockType
  | text
  | datetimeLocal
  deriving DecidableEq, Repr

/-- The block field of the quote form. -/
structure BlockField where
  blockInput : String
  blockType : BlockType

/-- `getTime` is `new Date(text).getTime()` in the browser's time zone, in milliseconds; NaN is `none`. -/
def BlockField.getBlockParam (getTime : String → Option Int) (field : BlockField) : String :=
  if trim field.blockInput = "" then ""
  else match field.blockType with
    | .datetimeLocal =>
      match getTime field.blockInput with
      | some ms => toString (ms / 1000)
      | none => ""
    | .text => trim field.blockInput

/-- The query that `handleSubmit` sends. -/
def BlockField.handleSubmit (getTime : String → Option Int) (field : BlockField) (fromAddr amount : String) :
    URLSearchParams :=
  fetchPrice fromAddr (orUndefined (field.getBlockParam getTime)) (orUndefined (trim amount))

/-- A local time that has passed. -/
def BlockField.Past (getTime : String → Option Int) (field : BlockField) (ms : Int) : Prop :=
  field.blockType = .datetimeLocal ∧ trim field.blockInput ≠ "" ∧ getTime field.blockInput = some ms ∧
    ms * 1000 ≤ now.micros

/-- A block number, in decimal. -/
def BlockField.Number (field : BlockField) (digits : List Char) : Prop :=
  field.blockType = .text ∧ trim field.blockInput = String.ofList digits ∧ digits ≠ [] ∧ ∀ c ∈ digits, c.isDigit = true

/-- The server reads what the form shows. -/
structure QuoteRoundTrips (getTime : String → Option Int) (field : BlockField) (fromAddr amount : String) : Prop where
  empty : trim field.blockInput = "" →
    ∃ params, (priceQuery now (field.handleSubmit getTime fromAddr amount).pairs).Yields params ∧
      params.block = none ∧ params.timestamp = none
  block : ∀ digits, field.Number digits →
    ∃ params, (priceQuery now (field.handleSubmit getTime fromAddr amount).pairs).Yields params ∧
      params.block = some (Numerals.natOf digits) ∧ params.timestamp = none
  date : ∀ ms, field.Past now getTime ms →
    ∃ params, (priceQuery now (field.handleSubmit getTime fromAddr amount).pairs).Yields params ∧
      params.block = none ∧ params.timestamp = some (ms / 1000)

theorem priceQuery_fetchPrice (token : String) (block amount : Option String) :
    priceQuery now (fetchPrice token block amount).pairs =
      parsePriceParams now (some token) (block.filter (· ≠ "")) (amount.filter (· ≠ "")) none none := by
  simp [priceQuery,fetchPrice,URLSearchParams.queryParam_setTruthy,queryParam_singleton]

theorem parsePriceParams_untimed {token : String} (valid : isValidAddress token = true)
    (block amount : Option String) (params : PriceParams) :
    (parsePriceParams now (some token) block amount none none).Yields params ↔
      ∃ parsedBlock parsedAmount, (parseBlock block).Yields parsedBlock ∧ (parseAmount amount).Yields parsedAmount ∧
        ⟨token,parsedBlock,parsedAmount,[],none⟩ = params := by
  have nonempty : token ≠ "" := by
    rintro rfl
    cases valid
  simp [parsePriceParams,nonempty,valid,parseIgnorePools,parseTimestamp]

/-- A decimal number is read where it is a block number and has no more digits than an `int` may have. -/
theorem parseBlock_digits {digits : List Char} (nonempty : digits ≠ []) (numeral : ∀ c ∈ digits, c.isDigit = true)
    (parsed : Option Nat) : (parseBlock (some (String.ofList digits))).Yields parsed ↔
    (digits.length ≤ Numerals.maxStrDigits ∧ 0 < Numerals.natOf digits ∧ (Numerals.natOf digits : Int) ≤ maxBlock) ∧
      parsed = some (Numerals.natOf digits) := by
  rw [parseBlock]
  by_cases short : digits.length ≤ Numerals.maxStrDigits
  · have read : int (String.ofList digits) = .ok (Numerals.natOf digits : Int) := by
      rw [int,String.toList_ofList,Numerals.intOf_digits numeral nonempty short]
    simp [read,short,eq_comm]
  · have unread : int (String.ofList digits) = .error .valueError := by
      rw [int,String.toList_ofList,Numerals.intOf_long numeral (Nat.lt_of_not_le short)]
    simp [unread,short]

theorem parseBlock_repr {n : Nat} (positive : 0 < n) (bounded : (n : Int) ≤ maxBlock) :
    (parseBlock (some n.repr)).Yields (some n) := by
  have short : (Nat.toDigits 10 n).length ≤ Numerals.maxStrDigits := by
    refine le_trans ((Nat.length_toDigits_le_iff (k := 19) (by decide) (by decide)).mpr ?_) (by decide)
    have limit : maxBlock = 9223372036854775808 := by decide
    omega
  have written : n.repr = String.ofList (Nat.toDigits 10 n) := by rw [← Nat.toList_repr,String.ofList_toList]
  have value : Numerals.natOf (Nat.toDigits 10 n) = n := by rw [Numerals.natOf,Nat.ofDigitChars_ten_toDigits]
  rw [written,parseBlock_digits Nat.toDigits_ne_nil (Numerals.numeral_toDigits n),value]
  exact ⟨⟨short,positive,bounded⟩,rfl⟩

variable {getTime : String → Option Int} {field : BlockField} {fromAddr amount : String}

theorem submitted_untimed (valid : isValidAddress fromAddr = true) {params : PriceParams}
    (yielded : (priceQuery now (field.handleSubmit getTime fromAddr amount).pairs).Yields params) :
    params.timestamp = none := by
  rw [BlockField.handleSubmit,priceQuery_fetchPrice,parsePriceParams_untimed now valid] at yielded
  obtain ⟨_,_,_,_,rfl⟩ := yielded
  rfl

theorem submitted_yields (valid : isValidAddress fromAddr = true) {parsedAmount : Option Rat}
    {parsedBlock : Option Nat} (accepted : (parseAmount (orUndefined (trim amount))).Yields parsedAmount)
    (read : (parseBlock (orUndefined (field.getBlockParam getTime))).Yields parsedBlock) :
    (priceQuery now (field.handleSubmit getTime fromAddr amount).pairs).Yields
      ⟨fromAddr,parsedBlock,parsedAmount,[],none⟩ := by
  rw [BlockField.handleSubmit,priceQuery_fetchPrice,parsePriceParams_untimed now valid,orUndefined_filter,
    orUndefined_filter]
  exact ⟨parsedBlock,parsedAmount,read,accepted,rfl⟩

theorem BlockField.Number.sent {digits : List Char} (number : field.Number digits) :
    orUndefined (field.getBlockParam getTime) = some (String.ofList digits) := by
  obtain ⟨text,shown,nonempty,_⟩ := number
  have visible : String.ofList digits ≠ "" := fun empty => nonempty (by simpa using congrArg String.toList empty)
  simp [BlockField.getBlockParam,text,shown,orUndefined,visible]

theorem submitted_block (valid : isValidAddress fromAddr = true) {params : PriceParams}
    (yielded : (priceQuery now (field.handleSubmit getTime fromAddr amount).pairs).Yields params) :
    (parseBlock (orUndefined (field.getBlockParam getTime))).Yields params.block := by
  rw [BlockField.handleSubmit,priceQuery_fetchPrice,parsePriceParams_untimed now valid,orUndefined_filter] at yielded
  obtain ⟨block,_,read,_,rfl⟩ := yielded
  exact read

/-- The quote form is read as it shows, except for a past local time, which is sent as a block, and for a number
that is no block number of the server. -/
theorem quote_roundTrips_iff (valid : isValidAddress fromAddr = true)
    (accepted : ∃ parsed, (parseAmount (orUndefined (trim amount))).Yields parsed) :
    QuoteRoundTrips now getTime field fromAddr amount ↔ (∀ ms, ¬field.Past now getTime ms) ∧
      ∀ digits, field.Number digits →
        digits.length ≤ Numerals.maxStrDigits ∧ 0 < Numerals.natOf digits ∧ (Numerals.natOf digits : Int) ≤ maxBlock := by
  obtain ⟨parsedAmount,accepted⟩ := accepted
  constructor
  · intro roundTrips
    refine ⟨fun ms past => ?_,fun digits number => ?_⟩
    · obtain ⟨params,yielded,_,timestamp⟩ := roundTrips.date ms past
      rw [submitted_untimed now valid yielded] at timestamp
      cases timestamp
    · obtain ⟨params,yielded,_,_⟩ := roundTrips.block digits number
      have read := submitted_block now valid yielded
      rw [number.sent,parseBlock_digits number.2.2.1 number.2.2.2] at read
      exact read.1
  · rintro ⟨noPast,inRange⟩
    refine ⟨fun blank => ?_,fun digits number => ?_,fun ms past => absurd past (noPast ms)⟩
    · have read : (parseBlock (orUndefined (field.getBlockParam getTime))).Yields none := by
        simp [BlockField.getBlockParam,blank,orUndefined,parseBlock]
      exact ⟨_,submitted_yields now valid accepted read,rfl,rfl⟩
    · have read : (parseBlock (orUndefined (field.getBlockParam getTime))).Yields (some (Numerals.natOf digits)) := by
        rw [number.sent,parseBlock_digits number.2.2.1 number.2.2.2]
        exact ⟨inRange digits number,rfl⟩
      exact ⟨_,submitted_yields now valid accepted read,rfl,rfl⟩

end

/-- 14 November 2023, 22:00, in a browser whose time zone is UTC. -/
def tenOClock : BlockField := ⟨"2023-11-14T22:00",.datetimeLocal⟩

def utcTime (text : String) : Option Int :=
  if text = "2023-11-14T22:00" then some 1699999200000 else none

/-- Block 19000000. -/
def nineteenMillion : BlockField := ⟨"19000000",.text⟩

theorem quote_roundTrips_iff_nineteenMillion : QuoteRoundTrips november utcTime nineteenMillion sampleAddress "" := by
  have exactly : QuoteRoundTrips november utcTime nineteenMillion sampleAddress "" ↔ _ :=
    quote_roundTrips_iff november (by decide) ⟨none,rfl⟩
  refine exactly.mpr ⟨fun ms past => (by cases past.1),fun digits number => ?_⟩
  have shown : trim nineteenMillion.blockInput = String.ofList "19000000".toList := by decide
  obtain rfl : "19000000".toList = digits := String.ofList_injective (shown.symm.trans number.2.1)
  decide

/-- The time is read as block 1699999200. -/
theorem date_read_as_block : ¬QuoteRoundTrips november utcTime tenOClock sampleAddress "" := by
  intro roundTrips
  obtain ⟨params,yielded,_,timestamp⟩ := roundTrips.date 1699999200000 ⟨rfl,by decide,rfl,by decide⟩
  rw [submitted_untimed november (by decide) yielded] at timestamp
  cases timestamp

end YPriceMagic.Frontend
