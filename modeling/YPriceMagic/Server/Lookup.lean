import YPriceMagic.Async.Coroutine
import YPriceMagic.Server.Cache
import YPriceMagic.Server.Responses

/-! The supervised lookups: a single price, a batch and a classification. Each is a
coroutine over the operations it awaits or performs on shared state. -/
namespace YPriceMagic.Server
open YPriceMagic.Async YPriceMagic.Async.Coroutine

inductive Lookup
  | price (token : String) (block : Nat) (amount : Option Rat) (ignorePools : List String)
  | batch (tokens : List String) (block : Nat) (amounts : Option (List (Option Rat)))
  | classify (token : String)
  deriving DecidableEq, Repr

abbrev TradePath := List TradeStep

abbrev Lookup.Result : Lookup → Type
  | .price _ _ _ _ => Option (PyFloat × Option TradePath × Option Int)
  | .batch _ _ _ => List (Option (PyFloat × Option TradePath))
  | .classify _ => Response

inductive LockName
  | guard
  | token (token : String)
  deriving DecidableEq, Repr

/-- `await` of one query is a plain call, of several an `asyncio.gather`. -/
inductive Op
  | await (queries : List Query)
  | sleep (seconds : Nat)
  | acquire (lock : LockName)
  | release (lock : LockName)
  | getCachedPrice (token : String) (block : Nat)
  | getCachedError (token : String) (block : Nat)
  | setCachedPrice (token : String) (block : Nat) (price : PyFloat) (blockTimestamp : Option Int)
  | setCachedError (token : String) (block : Nat) (error : String)
  | runLookup (lookup : Lookup)
  deriving DecidableEq, Repr

abbrev Reply : Op → Type
  | .await queries => Outcome Exn (Answers queries)
  | .sleep _ | .acquire _ => Outcome Exn Unit
  | .release _ | .setCachedPrice _ _ _ _ | .setCachedError _ _ _ => Unit
  | .getCachedPrice _ _ => Option CachedPrice
  | .getCachedError _ _ => Option String
  | .runLookup lookup => Outcome Exn lookup.Result

abbrev Program (α : Type) := Coroutine Op Reply Exn α

def gather (queries : List Query) : Program (Answers queries) := perform (.await queries) finished

def call (query : Query) : Program (Answer query) := do
  let answers ← gather [query]
  return answers.1

def sleep (seconds : Nat) : Program Unit := perform (.sleep seconds) finished

def acquire (lock : LockName) : Program Unit := perform (.acquire lock) finished

def release (lock : LockName) : Program Unit := perform (.release lock) fun _ => pure ()

def withLock {α : Type} (lock : LockName) (body : Program α) : Program α := do
  acquire lock
  body.tryFinally (release lock)

def getCachedPrice (token : String) (block : Nat) : Program (Option CachedPrice) :=
  perform (.getCachedPrice token block) pure

def getCachedError (token : String) (block : Nat) : Program (Option String) :=
  perform (.getCachedError token block) pure

def setCachedPrice (token : String) (block : Nat) (price : PyFloat) (blockTimestamp : Option Int) : Program Unit :=
  perform (.setCachedPrice token block price blockTimestamp) fun _ => pure ()

def setCachedError (token : String) (block : Nat) (error : String) : Program Unit :=
  perform (.setCachedError token block error) fun _ => pure ()

def serializeTradePath (result : PriceResult) : Option TradePath :=
  match result.path with
  | none | some [] => none
  | some path => some path

def retryable (error : Exn) : Bool := error.isOS && !error.isTimeout

/-- `tenacity.retry`: sleeps and tries again while there are waits left, and wraps the
last exception when there are none. The text of the wrapper shows the attempt by its address. -/
def retrying {α : Type} (attemptText : Exn → String) (attempt : Program α) : List Nat → Program α
  | [] => attempt.tryExcept fun error =>
    if retryable error then raise (.retry ("RetryError[" ++ attemptText error ++ "]") error) else raise error
  | seconds::waits => attempt.tryExcept fun error =>
    if retryable error then do
      sleep seconds
      retrying attemptText attempt waits
    else raise error

section
variable (config : Config)

/-- One attempt of `_fetch_price`. -/
def fetchPriceOnce (token : String) (block : Nat) (amount : Option Rat) (ignorePools : List String) :
    Program (Option (PyFloat × Option TradePath)) := do
  let p : Option PriceResult ← call (.price token block amount ignorePools)
  match p with
  | none => return none
  | some p =>
    if p.value.isnan || p.value.isinf then
      raise (.value ("Invalid price value " ++ p.text ++ " for " ++ token ++ " at block " ++ toString block))
    else if p.value.negative then
      raise (.value ("Negative price " ++ config.floatText p.value ++ " for " ++ token ++ " at block " ++ toString block))
    else return some (p.value,serializeTradePath p)

/-- Two attempts, the second after one second. -/
def fetchPrice (token : String) (block : Nat) (amount : Option Rat) (ignorePools : List String) :
    Program (Option (PyFloat × Option TradePath)) :=
  retrying config.attemptText (fetchPriceOnce config token block amount ignorePools) [1]

def fetchBlockTimestamp (block : Nat) : Program (Option Int) :=
  tryExcept (some <$> call (.blockTimestamp block)) fun _ => return none

def fetchPriceAndCache (token : String) (block : Nat) (amount : Option Rat) (ignorePools : List String) :
    Program (Option (PyFloat × Option TradePath × Option Int)) := do
  let result ← fetchPrice config token block amount ignorePools
  match result with
  | none => return none
  | some (price,tradePath) =>
    let blockTimestamp ← fetchBlockTimestamp block
    (if amount.isNone && ignorePools.isEmpty then setCachedPrice token block price blockTimestamp else pure ())
    return some (price,tradePath,blockTimestamp)

def indicesWhere (amounts : List (Option Rat)) (wanted : Option Rat → Bool) : List Nat :=
  (List.range amounts.length).filter fun i => wanted (amounts.getD i none)

/-- `results[index] = value` for the pairs of two lists. -/
def scatter {α : Type} (results : List α) (indices : List Nat) (values : List α) : List α :=
  (indices.zip values).foldl (fun results entry => results.set entry.1 entry.2) results

@[simp] theorem scatter_length {α : Type} (results : List α) (indices : List Nat) (values : List α) :
    (scatter results indices values).length = results.length := by
  unfold scatter
  induction indices.zip values generalizing results with
  | nil => rfl
  | cons entry rest ih => simpa using ih (results.set entry.1 entry.2)

/-- `get_prices` takes an amount for every token or for none, so a mixed batch is split.
The two lists that are zipped strictly have equal lengths by the type of the answers. -/
def lookupBatchPrices (tokens : List String) (block : Nat) (amounts : Option (List (Option Rat))) :
    Program (List (Option PriceResult)) :=
  match amounts with
  | none => do
    let answers ← call (.prices tokens block none)
    return answers.1
  | some amounts =>
    if amounts.all (·.isNone) then do
      let answers ← call (.prices tokens block none)
      return answers.1
    else if amounts.all (·.isSome) then do
      let answers ← call (.prices tokens block (some (amounts.filterMap id)))
      return answers.1
    else do
      let spotIndices := indicesWhere amounts (·.isNone)
      let quoteIndices := indicesWhere amounts (·.isSome)
      let (spotResults,quoteResults,_) ← gather [
        .prices (spotIndices.map (tokens.getD · "")) block none,
        .prices (quoteIndices.map (tokens.getD · "")) block
          (some (quoteIndices.filterMap (amounts.getD · none)))]
      let results := scatter (List.replicate tokens.length none) spotIndices spotResults.1
      return scatter results quoteIndices quoteResults.1

def validPrice (result : Option PriceResult) : Option (PyFloat × Option TradePath) :=
  result.bind fun p => if p.value.isnan || p.value.isinf || p.value.negative then none
    else some (p.value,serializeTradePath p)

/-- Every exception is logged and passes on. -/
def fetchBatchPrices (tokens : List String) (block : Nat) (amounts : Option (List (Option Rat))) :
    Program (List (Option (PyFloat × Option TradePath))) := do
  let results ← lookupBatchPrices tokens block amounts
  return results.map validPrice

/-- A lock is created once for every spelling of a token. -/
def getTokenLock (token : String) : Program LockName :=
  withLock .guard (return .token token)

def fetchMetadata (token : String) : Program (Option Metadata) :=
  tryExcept (do
    let (symbol,name,decimals,_) ← gather [.symbol token,.name token,.decimals token]
    return some ⟨symbol,name,decimals⟩) fun _ => return none

def classifyToken (token : String) : Program Response := do
  let tokenLock ← getTokenLock token
  withLock tokenLock <| tryExcept (do
    let bucket ← call (.bucket token)
    let metadata ← fetchMetadata token
    return .bucket token config.chainName bucket metadata) fun e =>
      return .error (makeErrorResponse config (if e.isTimeout then 504 else if e.isOS then 502 else 500)
        ("Failed to classify token " ++ token ++ ": " ++ e.text))

def Lookup.program : (lookup : Lookup) → Program lookup.Result
  | .price token block amount ignorePools => fetchPriceAndCache config token block amount ignorePools
  | .batch tokens block amounts => fetchBatchPrices tokens block amounts
  | .classify token => classifyToken config token

end

end YPriceMagic.Server
