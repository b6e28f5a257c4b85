import Mathlib.Data.List.Infix
import YPriceMagic.Runtime.DeadlineMiddleware
import YPriceMagic.Server.Upstream

/-! Response bodies and error envelopes of the pricing endpoints. -/
namespace YPriceMagic.Server
open YPriceMagic.Runtime

/-- The deployment's values, and CPython's rendering of a float. -/
structure Config where
  chainName : String
  rpcUrl : String
  etherscanToken : String
  priceTimeout : Rat
  floatText : PyFloat → String
  attemptText : Exn → String

def ethereum : Config := ⟨"ethereum","","",300,fun _ => "",fun _ => ""⟩

/-- `str.replace` on characters; the number counts characters of a match already replaced. -/
def replaceAll (old new : List Char) : Nat → List Char → List Char
  | _,[] => []
  | skipped+1,_::rest => replaceAll old new skipped rest
  | 0,c::rest =>
    if old.isPrefixOf (c::rest) then new ++ replaceAll old new (old.length-1) rest
    else c::replaceAll old new 0 rest

def containsText (needle text : String) : Bool := decide (needle.toList <:+: text.toList)

def replaceText (text old new : String) : String :=
  String.ofList (replaceAll old.toList new.toList 0 text.toList)

def sanitizeErrorMessage (config : Config) (msg : String) : String :=
  let msg := if config.rpcUrl ≠ "" && containsText config.rpcUrl msg then
    replaceText msg config.rpcUrl "[REDACTED_URL]" else msg
  if config.etherscanToken ≠ "" && decide (4 < config.etherscanToken.length) &&
      containsText config.etherscanToken msg then
    replaceText msg config.etherscanToken "[REDACTED]" else msg

structure PriceBody where
  token : String
  price : PyFloat
  block : Nat
  chain : String
  blockTimestamp : Option Int
  cached : Bool
  tradePath : Option (List TradeStep)
  deriving DecidableEq, Repr

/-- An item of a batch; a cached one has no `trade_path`. -/
structure BatchItem where
  token : String
  block : Nat
  price : Option PyFloat
  blockTimestamp : Option Int
  cached : Bool
  tradePath : Option (Option (List TradeStep))
  deriving DecidableEq, Repr

structure Metadata where
  symbol : String
  name : String
  decimals : Int
  deriving DecidableEq, Repr

/-- In a batch `none` is the placeholder `{}`. -/
inductive Response
  | error (response : JSONResponse)
  | price (body : PriceBody)
  | prices (items : List (Option BatchItem))
  | bucket (token chain : String) (bucket : Option String) (metadata : Option Metadata)
  deriving DecidableEq, Repr

def Response.status : Response → Nat
  | error response => response.statusCode
  | _ => 200

variable (config : Config)

def makeErrorResponse (status : Nat) (message : String) : JSONResponse :=
  ⟨status,[],sanitizeErrorMessage config message⟩

def makeOverloadResponse : JSONResponse :=
  ⟨503,[("Retry-After","5")],"Price lookup queue is full or draining"⟩

def makeTimeoutResponse : JSONResponse :=
  makeErrorResponse config 504
    ("Price lookup timed out after " ++ DeadlineMiddleware.formatSeconds config.priceTimeout ++ " seconds")

def handlePriceError (e : Exn) (token : String) (block : Nat) : JSONResponse :=
  let inner := e.inner
  let msg := inner.text
  if containsText "Invalid price value" msg || containsText "Negative price" msg then
    makeErrorResponse config 502
      ("Price source returned invalid value for " ++ token ++ " at block " ++ toString block)
  else match inner with
    | .overloaded _ => makeOverloadResponse
    | .timeout _ => makeTimeoutResponse config
    | .connection _ | .os _ => makeErrorResponse config 502 ("RPC connection failed: " ++ msg)
    | _ => makeErrorResponse config 500
        ("Price lookup failed for " ++ token ++ " at block " ++ toString block ++ ": " ++ msg)

end YPriceMagic.Server
