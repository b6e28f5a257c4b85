import YPriceMagic.Server.Lookup

/-! The handlers of the pricing endpoints from their parsed parameters on. -/
namespace YPriceMagic.Server
open YPriceMagic.Async YPriceMagic.Async.Coroutine YPriceMagic.Runtime

structure PriceParams where
  token : String
  block : Option Nat
  amount : Option Rat
  ignorePools : List String
  timestamp : Option Int
  deriving DecidableEq, Repr

/-- A parsed batch has an amount for every token or no amounts at all. -/
structure BatchParams where
  tokens : List String
  block : Option Nat
  amounts : Option (List (Option Rat))
  timestamp : Option Int
  aligned : ∀ list ∈ amounts, list.length = tokens.length

def PriceParams.spot (params : PriceParams) : Bool := params.amount.isNone && params.ignorePools.isEmpty

/-- `params.amounts[i] if params.amounts is not None else None`. -/
def BatchParams.amountAt (params : BatchParams) (i : Nat) : Option Rat :=
  params.amounts.bind fun amounts => amounts.getD i none

def runLookup (lookup : Lookup) : Program lookup.Result := perform (.runLookup lookup) finished

section
variable (config : Config)

def resolveBlock (block : Option Nat) (timestamp : Option Int) : Program (Except JSONResponse Nat) :=
  match timestamp with
  | some timestamp =>
    tryExcept (.ok <$> call (.blockAtTimestamp timestamp)) fun e =>
      return .error (makeErrorResponse config (if e.isTimeout then 504 else 502)
        ("Failed to resolve timestamp " ++ toString timestamp ++ " to block: " ++ e.text))
  | none =>
    tryExcept (match block with
      | some block => return .ok block
      | none => .ok <$> call .headBlock) fun error =>
        if error.isTimeout then return .error (makeErrorResponse config 504 "RPC block lookup timed out")
        else if error.isOS then
          return .error (makeErrorResponse config 502 ("RPC connection failed: " ++ error.text))
        else raise error

def resolvePriceBlock (params : PriceParams) : Program (Except JSONResponse Nat) :=
  resolveBlock config params.block params.timestamp

def resolveBatchBlock (params : BatchParams) : Program (Except JSONResponse Nat) :=
  resolveBlock config params.block params.timestamp

def notFoundMessage (token : String) (block : Nat) : String :=
  "No price found for " ++ token ++ " at block " ++ toString block ++ " on " ++ config.chainName

/-- `_handle_price_request` once the cache did not answer. -/
def lookupPrice (params : PriceParams) (actualBlock : Nat) : Program Response :=
  (runLookup (.price params.token actualBlock params.amount params.ignorePools)).andThen fun
    | .raised e => return .error (handlePriceError config e params.token actualBlock)
    | .cancelled => finished .cancelled
    | .returned none => do
      (if params.spot then
        setCachedError params.token actualBlock (notFoundMessage config params.token actualBlock)
        else pure ())
      return .error (makeErrorResponse config 404 (notFoundMessage config params.token actualBlock))
    | .returned (some (price,tradePath,blockTimestamp)) =>
      return .price ⟨params.token,price,actualBlock,config.chainName,blockTimestamp,false,tradePath⟩

def handlePriceRequest (params : PriceParams) (actualBlock : Nat) (force : Bool) : Program Response :=
  if params.spot then do
    let cached ← getCachedPrice params.token actualBlock
    match cached with
    | some cached =>
      return .price ⟨params.token,cached.price,actualBlock,config.chainName,cached.blockTimestamp,true,none⟩
    | none =>
      if force then lookupPrice config params actualBlock
      else do
        let cachedErr ← getCachedError params.token actualBlock
        match cachedErr with
        | some error => return .error (makeErrorResponse config 404
            (notFoundMessage config params.token actualBlock ++ " (cached error: " ++ error ++ ")"))
        | none => lookupPrice config params actualBlock
  else lookupPrice config params actualBlock

def price (params : PriceParams) (force : Bool) : Program Response := do
  let actualBlock ← resolvePriceBlock config params
  match actualBlock with
  | .error response => return .error response
  | .ok actualBlock => handlePriceRequest config params actualBlock force

/-- The results with placeholders, the tokens to fetch and their places, from place `i` on. -/
def prepareBatchCacheCheck (params : BatchParams) (block : Nat) (i : Nat) :
    List String → Program (List (Option BatchItem) × List String × List Nat)
  | [] => return ([],[],[])
  | token::rest => do
    let cached ← (if (params.amountAt i).isNone then getCachedPrice token block else pure none)
    let (results,tokensToFetch,indicesToFetch) ← prepareBatchCacheCheck params block (i+1) rest
    match cached with
    | some cached =>
      return (some ⟨token,block,some cached.price,cached.blockTimestamp,true,none⟩::results,
        tokensToFetch,indicesToFetch)
    | none => return (none::results,token::tokensToFetch,i::indicesToFetch)

def cacheFetched (params : BatchParams) (token : String) (i block : Nat) (blockTimestamp : Option Int) :
    Option (PyFloat × Option TradePath) → Program Unit
  | some (price,_) =>
    if (params.amountAt i).isNone then setCachedPrice token block price blockTimestamp else pure ()
  | none => pure ()

def fillBatchResults (params : BatchParams) (block : Nat) (blockTimestamp : Option Int) :
    List (String × Nat) → List (Option (PyFloat × Option TradePath)) → List (Option BatchItem) →
      Program (List (Option BatchItem))
  | [],_,results => return results
  | _::_,[],_ => raise (.other "list index out of range")
  | (token,i)::fetched,entry::prices,results => do
    cacheFetched params token i block blockTimestamp entry
    fillBatchResults params block blockTimestamp fetched prices
      (results.set i (some ⟨token,block,entry.map (·.1),blockTimestamp,false,some (entry.bind (·.2))⟩))

/-- `prices` from the point where some tokens are to be fetched. -/
def fetchBatch (params : BatchParams) (block : Nat) (results : List (Option BatchItem))
    (tokensToFetch : List String) (indicesToFetch : List Nat) : Program Response :=
  (runLookup (.batch tokensToFetch block
      (params.amounts.map fun amounts => indicesToFetch.map (amounts.getD · none)))).andThen fun
    | .raised (.overloaded _) => return .error makeOverloadResponse
    | .raised error => return .error (
        if error.isTimeout then makeTimeoutResponse config
        else if error.isOS then makeErrorResponse config 502 "RPC connection failed"
        else makeErrorResponse config 500 ("Batch lookup failed: " ++ error.text))
    | .cancelled => finished .cancelled
    | .returned prices => do
      let blockTimestamp ← fetchBlockTimestamp block
      let results ← fillBatchResults params block blockTimestamp (tokensToFetch.zip indicesToFetch) prices results
      return .prices results

def prices (params : BatchParams) : Program Response := do
  let blockResult ← resolveBatchBlock config params
  match blockResult with
  | .error response => return .error response
  | .ok actualBlock =>
    let (results,tokensToFetch,indicesToFetch) ← prepareBatchCacheCheck params actualBlock 0 params.tokens
    if tokensToFetch.isEmpty then return .prices results
    else fetchBatch config params actualBlock results tokensToFetch indicesToFetch

/-- `check_bucket` of a valid address. -/
def checkBucket (token : String) : Program Response :=
  (runLookup (.classify token)).andThen fun
    | .raised (.overloaded _) => return .error makeOverloadResponse
    | .raised error => raise error
    | .cancelled => finished .cancelled
    | .returned response => return response

end

end YPriceMagic.Server
