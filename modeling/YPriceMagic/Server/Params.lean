import YPriceMagic.Python.Datetime
import YPriceMagic.Server.Handlers

/-! The parameters of `/price` and `/prices`: validation of their texts. A parser raises, or it
returns what it parsed or a `ParseError`. -/
namespace YPriceMagic.Server
open YPriceMagic.Python
open YPriceMagic.Python.Call (attempt lift)
open YPriceMagic.Python.Text (strip splitOn)

structure ParseError where
  error : String
  deriving DecidableEq, Repr

abbrev Parser := Call ParseError

def int (text : String) : Except Raised Int :=
  match Numerals.intOf text.toList with
  | some value => .ok value
  | none => .error .valueError

/-- The nearest float, or an infinity where the number is too large. -/
def PyFloat.round (value : Rat) : PyFloat :=
  if Binary64.overflows value then .infinite (decide (value < 0)) else .finite (Binary64.nearest value)

def float (text : String) : Except Raised PyFloat :=
  match Numerals.floatOf text.toList with
  | some .nan => .ok .nan
  | some (.infinite negative) => .ok (.infinite negative)
  | some (.finite value) => .ok (.round value)
  | none => .error .valueError

/-- `int` of a float truncates it. -/
def PyFloat.int : PyFloat → Except Raised Int
  | nan => .error .valueError
  | infinite _ => .error .overflowError
  | finite value => .ok (if 0 ≤ value then ⌊value⌋ else ⌈value⌉)

def decimal (text : String) : Except Raised Numerals.Number :=
  match Numerals.decimalOf text.toList with
  | some value => .ok value
  | none => .error .invalidOperation

/-- `^0x[a-fA-F0-9]{40}$`, where `$` also stands before a newline that ends the text. -/
def isValidAddress (address : String) : Bool :=
  "0x".toList.isPrefixOf address.toList &&
    ((address.toList.drop 2).take 40).all (fun c => c.isDigit || ('a' ≤ c && c ≤ 'f') || ('A' ≤ c && c ≤ 'F')) &&
    (address.toList.length == 42 || (address.toList.length == 43 && address.toList.getLast? == some '\n'))

def maxBlock : Int := 2 ^ 63

def timestampFutureBufferSeconds : Int := 300

def maxBatchTokens : Nat := 100

def parseIgnorePoolsSegments : List String → Parser (List String)
  | [] => return []
  | segment::segments => do
    let stripped := strip segment
    if stripped = "" then parseIgnorePoolsSegments segments
    else if isValidAddress stripped then return stripped::(← parseIgnorePoolsSegments segments)
    else throw ⟨"Invalid ignore_pools address: '" ++ stripped ++ "'"⟩

def parseIgnorePools : Option String → Parser (List String)
  | none => return []
  | some value => if value = "" then return [] else parseIgnorePoolsSegments (splitOn ',' value)

section
variable (now : Datetime.Utc)

def parseUnixTimestamp (value : String) : Parser (Option Int) := do
  let parsedFloat ← attempt (some <$> float value) [.valueError] (return none)
  match parsedFloat with
  | none => return none
  | some parsedFloat =>
    if parsedFloat.negative then throw ⟨"Timestamp cannot be negative."⟩
    else if parsedFloat = .finite 0 then throw ⟨"Timestamp cannot be zero."⟩
    else do
      let parsed ← lift parsedFloat.int
      let maxAllowed ← lift (now.add (timestampFutureBufferSeconds * Datetime.microsecond))
      if Datetime.timestamp maxAllowed.micros < parsed then throw ⟨"Timestamp cannot be in the future."⟩
      else return some parsed

/-- `%Y-%m-%dT%H:%M:%SZ` and `%Y-%m-%dT%H:%M:%S%z`. -/
def isoPatterns : List (String → Except Raised Datetime.Moment) := [Datetime.strptimeZ,Datetime.strptimeOffset]

/-- The loop over the patterns, which ends at the first that matches. -/
def tryPatterns (value : String) : List (String → Except Raised Datetime.Moment) → Parser (Option Datetime.Moment)
  | [] => return none
  | pattern::patterns => attempt (some <$> pattern value) [.valueError] (tryPatterns value patterns)

def parseIso8601Timestamp (value : String) : Parser Int := do
  let parsedDt ← tryPatterns value isoPatterns
  match parsedDt with
  | none => throw ⟨"Invalid timestamp format: '" ++ value ++ "'. Expected Unix epoch or ISO 8601."⟩
  | some parsedDt => do
    let parsedDt := if parsedDt.tzinfo.isNone then parsedDt.replaceUtc else parsedDt
    let maxAllowed ← lift (now.add (timestampFutureBufferSeconds * Datetime.microsecond))
    if maxAllowed.micros < parsedDt.instant then throw ⟨"Timestamp cannot be in the future."⟩
    else do
      let epoch ← lift (PyFloat.finite (Datetime.timestamp parsedDt.instant)).int
      if epoch ≤ 0 then throw ⟨"Timestamp cannot be zero or negative."⟩
      else return epoch

def parseTimestamp : Option String → Parser (Option Int)
  | none => return none
  | some value =>
    if value = "" then return none
    else do
      let stripped := strip value
      match ← parseUnixTimestamp now stripped with
      | some parsed => return some parsed
      | none => some <$> parseIso8601Timestamp now stripped

def parseBlock : Option String → Parser (Option Nat)
  | none => return none
  | some block => do
    let parsed ← attempt (int block) [.valueError,.typeError] (throw ⟨"Invalid block number: " ++ block⟩)
    if parsed ≤ 0 ∨ maxBlock < parsed then throw ⟨"Invalid block number: " ++ block⟩
    else return some parsed.toNat

/-- The value of a decimal that is finite and greater than zero. -/
def positive : Numerals.Number → Option Rat
  | .finite value => if 0 < value then some value else none
  | _ => none

def parseAmount : Option String → Parser (Option Rat)
  | none => return none
  | some amount => do
    let parsed ← attempt (decimal amount) [.invalidOperation,.valueError,.typeError]
      (throw ⟨"Invalid amount: " ++ amount⟩)
    match positive parsed with
    | some value => return some value
    | none => throw ⟨"Invalid amount: " ++ amount⟩

def exclusiveMessage : String :=
  "Parameters 'timestamp' and 'block' are mutually exclusive. Provide only one."

def parsePriceParams (token block amount ignorePools timestamp : Option String) : Parser PriceParams :=
  match token with
  | none => throw ⟨"Missing required parameter: token"⟩
  | some token =>
    if token = "" then throw ⟨"Missing required parameter: token"⟩
    else if !isValidAddress token then throw ⟨"Invalid token address: " ++ token⟩
    else do
      let parsedBlock ← parseBlock block
      let parsedAmount ← parseAmount amount
      let parsedIgnorePools ← parseIgnorePools ignorePools
      let parsedTimestamp ← parseTimestamp now timestamp
      if parsedTimestamp.isSome ∧ parsedBlock.isSome then throw ⟨exclusiveMessage⟩
      else return ⟨token,parsedBlock,parsedAmount,parsedIgnorePools,parsedTimestamp⟩

/-- The amounts of the segments, the first of which stands at place `i`. -/
def parseAmountsSegments (i : Nat) : List String → Parser (List (Option Rat))
  | [] => return []
  | segment::segments => do
    let stripped := strip segment
    if stripped = "" then return none::(← parseAmountsSegments (i+1) segments)
    else do
      let invalid := "Invalid amount at position " ++ toString (i+1) ++ ": '" ++ stripped ++ "'"
      let parsed ← attempt (decimal stripped) [.invalidOperation,.valueError,.typeError] (throw ⟨invalid⟩)
      match positive parsed with
      | none => throw ⟨invalid ++ " (must be positive)"⟩
      | some value => return some value::(← parseAmountsSegments (i+1) segments)

def parseAmounts : Option String → Parser (Option (List (Option Rat)))
  | none => return none
  | some value =>
    if value = "" then return none
    else do
      let amounts ← parseAmountsSegments 0 (splitOn ',' value)
      return if amounts = [] then none else some amounts

def parseTokensSegments (i : Nat) : List String → Parser (List String)
  | [] => return []
  | segment::segments => do
    let stripped := strip segment
    if stripped = "" then parseTokensSegments (i+1) segments
    else if isValidAddress stripped then return stripped::(← parseTokensSegments (i+1) segments)
    else throw ⟨"Invalid token address at position " ++ toString (i+1) ++ ": '" ++ stripped ++ "'"⟩

def parseTokens : Option String → Parser (List String)
  | none => throw ⟨"Missing required parameter: tokens"⟩
  | some value =>
    if strip value = "" then throw ⟨"Missing required parameter: tokens"⟩
    else do
      let tokens ← parseTokensSegments 0 (splitOn ',' value)
      if tokens.length = 0 then throw ⟨"No valid token addresses provided."⟩
      else if maxBatchTokens < tokens.length then throw ⟨"Too many tokens: " ++ toString tokens.length ++
        ". Maximum allowed is " ++ toString maxBatchTokens ++ "."⟩
      else return tokens

def parseBatchParams (tokens block amounts timestamp : Option String) : Parser BatchParams := do
  let parsedTokens ← parseTokens tokens
  let parsedBlock ← parseBlock block
  let parsedAmounts ← parseAmounts amounts
  if aligned : ∀ list ∈ parsedAmounts, list.length = parsedTokens.length then do
    let parsedTimestamp ← parseTimestamp now timestamp
    if parsedTimestamp.isSome ∧ parsedBlock.isSome then throw ⟨exclusiveMessage⟩
    else return ⟨parsedTokens,parsedBlock,parsedAmounts,parsedTimestamp,aligned⟩
  else throw ⟨"Amounts count (" ++ toString (parsedAmounts.getD []).length ++
    ") does not match tokens count (" ++ toString parsedTokens.length ++ ")."⟩

end
end YPriceMagic.Server
