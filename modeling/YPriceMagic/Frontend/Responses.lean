import YPriceMagic.Frontend.Tokenlist
import YPriceMagic.Python.Binary64
import YPriceMagic.Server.Responses

/-! The answers of `/price` on their way back: the JSON that the server writes, and what the browser
makes of it. -/
namespace YPriceMagic.Frontend
open YPriceMagic.Python YPriceMagic.Server

/-- What `fetch` resolves with; `body` is `none` where the text is no JSON. -/
structure FetchResponse where
  status : Nat
  statusText : String
  body : Option Json

/-- What the program leaves to others to write: the texts that the browser has for statuses and for values that are
no texts, and what the server's JSON has for a float that is not finite, `none` where that raises. -/
structure GivenTexts where
  statusText : Nat → String
  ofValue : Json → String
  stringify : Json → String
  typeError : String
  notFinite : Option Json

section
variable (texts : GivenTexts)

/-- `value?.[key]`, and `none` also where that is null. -/
def Json.present (value : Json) (key : String) : Option Json :=
  match value.get key with
  | .ok (some .null) | .error _ => none
  | .ok found => found

/-- The value in a template literal. -/
def GivenTexts.display : Json → String
  | .string text => text
  | value => texts.ofValue value

/-- The message of a body that can be read once: where `json()` rejects, so does `text()`. -/
def failureMessage (response : FetchResponse) : String :=
  match response.body with
  | some body =>
    match body.present "detail" <|> body.present "error" with
    | some value => texts.display value
    | none => texts.stringify body
  | none => response.statusText

def parseResponse (response : FetchResponse) : Except String Json :=
  if 200 ≤ response.status ∧ response.status ≤ 299 then
    match response.body with
    | some body => .ok body
    | none => .error "Expected JSON response but got: "
  else .error ("HTTP " ++ toString response.status ++ ": " ++ failureMessage texts response)

end

/-- The quote that `fetchPrice` returns: a field that is not there is `none`, and two of them become
null then. -/
structure PriceResponse where
  token : Option Json
  price : Option Json
  block : Option Json
  chain : Option Json
  blockTimestamp : Json
  cached : Option Json
  tradePath : Json

def PriceResponse.ofJson (data : Json) : Except JsError PriceResponse := do
  let token ← data.get "token"
  let price ← data.get "price"
  let block ← data.get "block"
  let chain ← data.get "chain"
  let blockTimestamp ← data.get "block_timestamp"
  let cached ← data.get "cached"
  let tradePath ← data.get "trade_path"
  return ⟨token,price,block,chain,blockTimestamp.getD .null,cached,tradePath.getD .null⟩

/-! What the server writes. -/

/-- A number as the browser reads it. -/
def Json.ofNumber (value : Rat) : Json := .number (Binary64.nearest value)

def Json.ofOption {α : Type} (json : α → Json) : Option α → Json
  | some value => json value
  | none => .null

section
variable (texts : GivenTexts)

def Json.ofFloat : PyFloat → Option Json
  | .finite value => some (.ofNumber value)
  | _ => texts.notFinite

def Json.ofTradeStep (step : TradeStep) : Option Json := do
  let price ← Json.ofFloat texts step.price
  return .object [("token",.string step.token),("price",price),("source",.string step.source)]

def Json.ofTradePath : Option (List TradeStep) → Option Json
  | some steps => Json.array <$> steps.mapM (Json.ofTradeStep texts)
  | none => some .null

def Json.ofPriceBody (body : PriceBody) : Option Json := do
  let price ← Json.ofFloat texts body.price
  let tradePath ← Json.ofTradePath texts body.tradePath
  return .object [("token",.string body.token),("price",price),("block",.ofNumber body.block),("chain",.string body.chain),
    ("block_timestamp",.ofOption (fun time : Int => .ofNumber time) body.blockTimestamp),("cached",.bool body.cached),
    ("trade_path",tradePath)]

def errorPage (response : Runtime.JSONResponse) : FetchResponse :=
  ⟨response.statusCode,texts.statusText response.statusCode,some (.object [("error",.string response.error)])⟩

/-- An exception of the handler, or of the rendering; its text is no JSON. -/
def serverErrorPage : FetchResponse := ⟨500,texts.statusText 500,none⟩

def pricePage (body : PriceBody) : FetchResponse :=
  match Json.ofPriceBody texts body with
  | some json => ⟨200,texts.statusText 200,some json⟩
  | none => serverErrorPage texts

end

/-- The quote of a body that could be written. -/
def PriceResponse.ofBody (body : PriceBody) (price tradePath : Json) : PriceResponse :=
  ⟨some (.string body.token),some price,some (.ofNumber body.block),some (.string body.chain),
    .ofOption (fun time : Int => .ofNumber time) body.blockTimestamp,some (.bool body.cached),tradePath⟩

/-- The quote says what the body says. -/
def PriceResponse.Shows (texts : GivenTexts) (quote : PriceResponse) (body : PriceBody) : Prop :=
  ∃ price tradePath, Json.ofFloat texts body.price = some price ∧ Json.ofTradePath texts body.tradePath = some tradePath ∧
    quote = .ofBody body price tradePath

section
variable {texts : GivenTexts} {response : FetchResponse}

theorem parseResponse_error (failed : 300 ≤ response.status) :
    parseResponse texts response = .error ("HTTP " ++ toString response.status ++ ": " ++ failureMessage texts response) := by
  unfold parseResponse
  rw [if_neg fun fine => absurd (failed.trans fine.2) (by decide)]

theorem failureMessage_errorPage (response : Runtime.JSONResponse) : failureMessage texts (errorPage texts response) = response.error :=
  rfl

theorem parseResponse_errorPage {response : Runtime.JSONResponse} (failed : 300 ≤ response.statusCode) :
    parseResponse texts (errorPage texts response) = .error ("HTTP " ++ toString response.statusCode ++ ": " ++ response.error) := by
  have failed : 300 ≤ (errorPage texts response).status := failed
  rw [parseResponse_error failed,failureMessage_errorPage]
  rfl

theorem parseResponse_serverErrorPage :
    parseResponse texts (serverErrorPage texts) = .error ("HTTP " ++ toString 500 ++ ": " ++ texts.statusText 500) := by
  have failed : 300 ≤ (serverErrorPage texts).status := (by decide : 300 ≤ 500)
  exact parseResponse_error failed

theorem ofPriceBody_shows {body : PriceBody} {json : Json} (written : Json.ofPriceBody texts body = some json) :
    ∃ quote : PriceResponse, PriceResponse.ofJson json = .ok quote ∧ quote.Shows texts body := by
  obtain ⟨price,float,written⟩ := Option.bind_eq_some_iff.mp written
  obtain ⟨tradePath,path,written⟩ := Option.bind_eq_some_iff.mp written
  obtain rfl := Option.some.inj written
  exact ⟨.ofBody body price tradePath,rfl,price,tradePath,float,path,rfl⟩

/-- A price that is answered is shown, or it could not be written. -/
theorem parseResponse_pricePage (body : PriceBody) :
    (∃ data quote, parseResponse texts (pricePage texts body) = .ok data ∧ PriceResponse.ofJson data = .ok quote ∧ quote.Shows texts body) ∨
      pricePage texts body = serverErrorPage texts ∧ Json.ofPriceBody texts body = none := by
  unfold pricePage
  split
  · rename_i json written
    obtain ⟨quote,read,shows⟩ := ofPriceBody_shows written
    exact Or.inl ⟨json,quote,rfl,read,shows⟩
  · rename_i unwritten
    exact Or.inr ⟨rfl,unwritten⟩

end

end YPriceMagic.Frontend
