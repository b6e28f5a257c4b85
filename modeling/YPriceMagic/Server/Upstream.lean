import Mathlib.Algebra.Order.Ring.Rat

/-! What the server asks of the price library and of the chain, and what comes back:
values, answers to queries, and the exceptions the handlers tell apart. -/
namespace YPriceMagic.Server

inductive PyFloat
  | nan
  | infinite (negative : Bool)
  | finite (value : Rat)
  deriving DecidableEq, Repr

namespace PyFloat

def isnan : PyFloat → Bool
  | nan => true
  | _ => false

def isinf : PyFloat → Bool
  | infinite _ => true
  | _ => false

def negative : PyFloat → Bool
  | nan => false
  | infinite negative => negative
  | finite value => decide (value < 0)

def valid (price : PyFloat) : Bool := !(price.isnan || price.isinf || price.negative)

theorem valid_iff (price : PyFloat) : price.valid = true ↔ ∃ value, price = .finite value ∧ 0 ≤ value := by
  cases price <;> simp [valid,isnan,isinf,negative,not_lt]

end PyFloat

/-- One step of a trade path, with `float(step.price)`. -/
structure TradeStep where
  token : String
  price : PyFloat
  source : String
  deriving DecidableEq, Repr

/-- A `PriceResult` or a plain number: `float(p)`, `str(p)` and `getattr(p, "path", None)`. -/
structure PriceResult where
  value : PyFloat
  text : String
  path : Option (List TradeStep)
  deriving DecidableEq, Repr

/-- The exceptions by their classes; `TimeoutError` and `ConnectionError` are `OSError`s. -/
inductive Exn
  | overloaded (message : String)
  | timeout (message : String)
  | connection (message : String)
  | os (message : String)
  | value (message : String)
  | retry (message : String) (last : Exn)
  | other (message : String)
  deriving DecidableEq, Repr

namespace Exn

def isTimeout : Exn → Bool
  | timeout _ => true
  | _ => false

/-- `isinstance(error, (ConnectionError, OSError))`. -/
def isOS : Exn → Bool
  | timeout _ | connection _ | os _ => true
  | _ => false

def text : Exn → String
  | overloaded message | timeout message | connection message | os message | value message
  | retry message _ | other message => message

/-- The exception of the last attempt, where the retries were exhausted. -/
def inner : Exn → Exn
  | retry _ last => last
  | error => error

end Exn

inductive Query
  | headBlock
  | blockAtTimestamp (timestamp : Int)
  | price (token : String) (block : Nat) (amount : Option Rat) (ignorePools : List String)
  | prices (tokens : List String) (block : Nat) (amounts : Option (List Rat))
  | blockTimestamp (block : Nat)
  | bucket (token : String)
  | symbol (token : String)
  | name (token : String)
  | decimals (token : String)
  deriving DecidableEq, Repr

/-- `get_prices` answers once for every token, in order. -/
abbrev Answer : Query → Type
  | .headBlock | .blockAtTimestamp _ => Nat
  | .price _ _ _ _ => Option PriceResult
  | .prices tokens _ _ => {answers : List (Option PriceResult) // answers.length = tokens.length}
  | .blockTimestamp _ | .decimals _ => Int
  | .bucket _ => Option String
  | .symbol _ | .name _ => String

abbrev Answers : List Query → Type
  | [] => Unit
  | query::rest => Answer query × Answers rest

def Answers.toList : (queries : List Query) → Answers queries → List (Sigma Answer)
  | [],_ => []
  | query::rest,answers => ⟨query,answers.1⟩::Answers.toList rest answers.2

/-- A spot query asks for one token's price at a block, with no amount and no ignored
pools; `get_prices` without amounts makes one for every token. -/
def SpotAnswer : (query : Query) → Answer query → String → Nat → Option PriceResult → Prop
  | .price asked at_ amount ignorePools,answer,token,block,result =>
    asked = token ∧ at_ = block ∧ amount = none ∧ ignorePools = [] ∧ answer = result
  | .prices tokens at_ amounts,answers,token,block,result =>
    at_ = block ∧ amounts = none ∧ ∃ i : Nat, tokens[i]? = some token ∧ answers.1[i]? = some result
  | _,_,_,_,_ => False

end YPriceMagic.Server
