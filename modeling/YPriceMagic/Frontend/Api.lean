import YPriceMagic.Python.Text

/-! The query strings of the frontend's requests. -/
namespace YPriceMagic.Frontend

/-- The names and values of a query string, in order. -/
structure URLSearchParams where
  pairs : List (String × String)

namespace URLSearchParams

def append (params : URLSearchParams) (name value : String) : URLSearchParams :=
  ⟨params.pairs ++ [(name,value)]⟩

/-- Replaces the first value of the name and drops the others, or appends. -/
def setPairs (name value : String) : List (String × String) → List (String × String)
  | [] => [(name,value)]
  | pair::rest =>
    if pair.1 = name then (name,value)::rest.filter (·.1 ≠ name) else pair::setPairs name value rest

def set (params : URLSearchParams) (name value : String) : URLSearchParams :=
  ⟨setPairs name value params.pairs⟩

/-- `if (value) params.set(name, value)`; the empty string is falsy. -/
def setTruthy (params : URLSearchParams) (name : String) : Option String → URLSearchParams
  | some value => if value = "" then params else params.set name value
  | none => params

end URLSearchParams

/-- The query of `fetchPrice`. -/
def fetchPrice (token : String) (block amount : Option String) : URLSearchParams :=
  ((URLSearchParams.mk [("token",token)]).setTruthy "block" block).setTruthy "amount" amount

/-- One more value of the name for every element. -/
def URLSearchParams.appendAll (params : URLSearchParams) (name : String) (values : List String) : URLSearchParams :=
  values.foldl (fun (params : URLSearchParams) value => params.append name value) params

/-- The query of `fetchBatchPrices`; an array is truthy, also an empty one. -/
def fetchBatchPrices (tokens : List String) (block : Option String) (amounts : Option (List String)) :
    URLSearchParams :=
  let params := ((URLSearchParams.mk []).appendAll "token" tokens).setTruthy "block" block
  match amounts with
  | some amounts => params.appendAll "amount" amounts
  | none => params

/-- What `String.prototype.trim` removes. -/
def isWhitespace (c : Char) : Bool :=
  let n := c.toNat
  (9 ≤ n && n ≤ 13) || n == 0x20 || n == 0xa0 || n == 0x1680 || (0x2000 ≤ n && n ≤ 0x200a) ||
    n == 0x2028 || n == 0x2029 || n == 0x202f || n == 0x205f || n == 0x3000 || n == 0xfeff

def trim (text : String) : String := String.ofList (Python.Text.stripBy isWhitespace text.toList)

/-- `text || undefined` -/
def orUndefined (text : String) : Option String := if text = "" then none else some text

end YPriceMagic.Frontend
