import YPriceMagic.Server.ErrorEnvelope

/-! Which status the pricing endpoints answer where the lookup calls of the price library raise an
exception: each classifies it with code of its own. -/
namespace YPriceMagic.Server
open YPriceMagic.Async YPriceMagic.Async.Coroutine YPriceMagic.Runtime

/-- What the other calls answer, and the cached prices. -/
structure Surroundings where
  respond : (queries : List Query) → Answers queries
  cached : String → Nat → Option CachedPrice

def Query.looksUp : Query → Bool
  | .price _ _ _ _ | .prices _ _ _ | .bucket _ => true
  | _ => false

def Exn.isOverloaded : Exn → Bool
  | .overloaded _ => true
  | _ => false

/-- 504 for a `TimeoutError`, 502 for every other `ConnectionError` or `OSError`, 500 for the rest. -/
def expectedStatus (error : Exn) : Nat := if error.isTimeout then 504 else if error.isOS then 502 else 500

/-- The texts by which `_handle_price_error` knows the exceptions of `_fetch_price`. -/
def invalidPriceText (text : String) : Bool :=
  containsText "Invalid price value" text || containsText "Negative price" text

/-- The exception is no `OverloadedError`, it wraps no exception with a status of its own, and its
text is not that of an invalid price unless the status is the same. -/
structure Plain (error : Exn) : Prop where
  admitted : error.isOverloaded = false
  unwrapped : error.inner.isOverloaded = false ∧ error.inner.isOS = error.isOS
  text : retryable error = true ∨ invalidPriceText error.inner.text = false

section
variable (config : Config) (around : Surroundings) (error : Exn)

/-- Every lookup call raises the exception, at each attempt. -/
def failingPerform : (op : Op) → Unit → Reply op × Unit
  | .await queries,_ => (if queries.any Query.looksUp then .raised error else .returned (around.respond queries),())
  | .sleep _,_ | .acquire _,_ => (.returned (),())
  | .getCachedPrice token block,_ => (around.cached token block,())
  | .getCachedError _ _,_ => (none,())
  | .release _,_ | .setCachedPrice _ _ _ _,_ | .setCachedError _ _ _,_ => ((),())
  | .runLookup _,_ => (.cancelled,())

/-- The supervisor admits the lookups. -/
def failingServe : (op : Op) → Unit → Reply op × Unit
  | .runLookup lookup,state => (lookup.program config).eval (failingPerform around error) state
  | op,state => failingPerform around error op state

def Endpoint.answer (endpoint : Endpoint) : Outcome Exn Response :=
  ((endpoint.program config).eval (failingServe config around error) ()).1

/-- The cache does not spare the endpoint its lookup. -/
def Endpoint.Misses : Endpoint → Prop
  | .price params _ => params.spot = true → ∀ block, around.cached params.token block = none
  | .prices params => ∃ i token, params.tokens[i]? = some token ∧
      (params.amountAt i ≠ none ∨ ∀ block, around.cached token block = none)
  | .checkBucket _ => True

/-- The exception with which a supervised price lookup ends. -/
def surfaced : Exn :=
  if retryable error then .retry ("RetryError[" ++ config.attemptText error ++ "]") error else error

theorem fetchPriceAndCache_failing (token : String) (block : Nat) (amount : Option Rat) (ignorePools : List String) :
    (fetchPriceAndCache config token block amount ignorePools).eval (failingPerform around error) () =
      (.raised (surfaced config error),()) := by
  have once : (fetchPriceOnce config token block amount ignorePools).eval (failingPerform around error) () =
      (.raised error,()) := rfl
  have last : (retrying config.attemptText (fetchPriceOnce config token block amount ignorePools) []).eval (failingPerform around error) () =
      (.raised (surfaced config error),()) := by
    rw [retrying,eval_tryExcept_raised _ once,surfaced]
    split <;> rfl
  have both : (fetchPrice config token block amount ignorePools).eval (failingPerform around error) () =
      (.raised (surfaced config error),()) := by
    rw [fetchPrice,retrying,eval_tryExcept_raised _ once]
    split
    · exact last
    · rename_i once_only
      rw [surfaced,if_neg once_only]
      rfl
  exact eval_bind_raised _ both

theorem fetchBatchPrices_failing (tokens : List String) (block : Nat) (amounts : Option (List (Option Rat))) :
    (fetchBatchPrices tokens block amounts).eval (failingPerform around error) () = (.raised error,()) := by
  have looked : (lookupBatchPrices tokens block amounts).eval (failingPerform around error) () = (.raised error,()) := by
    unfold lookupBatchPrices
    cases amounts with
    | none => rfl
    | some amounts =>
      dsimp only
      split
      · rfl
      · split <;> rfl
  exact eval_bind_raised _ looked

theorem resolveBlock_failing (block : Option Nat) (timestamp : Option Int) : ∃ height,
    (resolveBlock config block timestamp).eval (failingServe config around error) () = (.returned (.ok height),()) := by
  cases timestamp with
  | some timestamp => exact ⟨(around.respond [.blockAtTimestamp timestamp]).1,rfl⟩
  | none =>
    cases block with
    | some block => exact ⟨block,rfl⟩
    | none => exact ⟨(around.respond [.headBlock]).1,rfl⟩

theorem lookupPrice_failing (params : PriceParams) (block : Nat) :
    (lookupPrice config params block).eval (failingServe config around error) () =
      (.returned (.error (handlePriceError config (surfaced config error) params.token block)),()) := by
  have looked := fetchPriceAndCache_failing config around error params.token block params.amount params.ignorePools
  have ran : (runLookup (.price params.token block params.amount params.ignorePools)).eval
      (failingServe config around error) () = (.raised (surfaced config error),()) := looked
  rw [lookupPrice,eval_andThen,ran]
  rfl

theorem handlePriceRequest_failing {params : PriceParams} {block : Nat}
    (missed : params.spot = true → around.cached params.token block = none) (force : Bool) :
    (handlePriceRequest config params block force).eval (failingServe config around error) () =
      (.returned (.error (handlePriceError config (surfaced config error) params.token block)),()) := by
  have looked := lookupPrice_failing config around error params block
  unfold handlePriceRequest
  split
  · rename_i spot
    have read : (getCachedPrice params.token block).eval (failingServe config around error) () = (.returned none,()) := by
      rw [← missed spot]
      rfl
    rw [eval_bind_returned _ read]
    dsimp only
    split
    · exact looked
    · exact looked
  · exact looked

theorem price_failing {params : PriceParams} {force : Bool} (misses : (Endpoint.price params force).Misses around) :
    ∃ block, (Endpoint.price params force).answer config around error =
      .returned (.error (handlePriceError config (surfaced config error) params.token block)) := by
  obtain ⟨block,resolved⟩ := resolveBlock_failing config around error params.block params.timestamp
  have handled := handlePriceRequest_failing config around error (fun spot => misses spot block) force
  refine ⟨block,?_⟩
  change ((resolveBlock config params.block params.timestamp >>= _).eval _ ()).1 = _
  rw [eval_bind_returned _ resolved]
  exact congrArg Prod.fst handled

/-- A token that misses the cache is fetched. -/
theorem prepareBatchCacheCheck_failing (params : BatchParams) (block i : Nat) (tokens : List String) :
    ∃ results tokensToFetch indicesToFetch,
      (prepareBatchCacheCheck params block i tokens).eval (failingServe config around error) () =
        (.returned (results,tokensToFetch,indicesToFetch),()) ∧
      ∀ j token, tokens[j]? = some token → params.amountAt (i+j) ≠ none ∨ around.cached token block = none →
        tokensToFetch ≠ [] := by
  induction tokens generalizing i with
  | nil => exact ⟨[],[],[],rfl,fun j token found => by cases found⟩
  | cons first rest ih =>
    obtain ⟨results,tokensToFetch,indicesToFetch,prepared,fetched⟩ := ih (i+1)
    have read : (if (params.amountAt i).isNone then getCachedPrice first block else pure none : Program _).eval
        (failingServe config around error) () =
          (.returned (if (params.amountAt i).isNone then around.cached first block else none),()) := by
      split <;> rfl
    rw [prepareBatchCacheCheck,eval_bind_returned _ read,eval_bind_returned _ prepared]
    rcases hit : (if (params.amountAt i).isNone then around.cached first block else none) with _ | cached
    · exact ⟨none::results,first::tokensToFetch,i::indicesToFetch,rfl,fun _ _ _ _ => List.cons_ne_nil _ _⟩
    · refine ⟨_::results,tokensToFetch,indicesToFetch,rfl,fun j token found misses => ?_⟩
      cases j with
      | zero =>
        cases found
        split at hit
        · rename_i blank
          rw [Option.isNone_iff_eq_none] at blank
          rw [hit] at misses
          exact absurd (misses.resolve_left (not_not.mpr blank)) (Option.some_ne_none cached)
        · cases hit
      | succ j => exact fetched j token found (by rwa [Nat.add_right_comm,Nat.add_assoc])

theorem fetchBatch_failing (params : BatchParams) (block : Nat) (results : List (Option BatchItem))
    (tokensToFetch : List String) (indicesToFetch : List Nat) : ∃ response,
    (fetchBatch config params block results tokensToFetch indicesToFetch).eval (failingServe config around error) () =
      (.returned (.error response),()) ∧
    response.statusCode = if error.isOverloaded then 503 else expectedStatus error := by
  have looked := fetchBatchPrices_failing around error tokensToFetch block
    (params.amounts.map fun amounts => indicesToFetch.map (amounts.getD · none))
  have ran : (runLookup (.batch tokensToFetch block (params.amounts.map fun amounts =>
      indicesToFetch.map (amounts.getD · none)))).eval (failingServe config around error) () = (.raised error,()) := looked
  rw [fetchBatch,eval_andThen,ran]
  cases error <;> exact ⟨_,rfl,rfl⟩

theorem prices_failing {params : BatchParams} (misses : (Endpoint.prices params).Misses around) : ∃ response,
    (Endpoint.prices params).answer config around error = .returned (.error response) ∧
      response.statusCode = if error.isOverloaded then 503 else expectedStatus error := by
  obtain ⟨block,resolved⟩ := resolveBlock_failing config around error params.block params.timestamp
  obtain ⟨results,tokensToFetch,indicesToFetch,prepared,fetched⟩ :=
    prepareBatchCacheCheck_failing config around error params block 0 params.tokens
  obtain ⟨response,answered,status⟩ :=
    fetchBatch_failing config around error params block results tokensToFetch indicesToFetch
  obtain ⟨j,token,found,missing⟩ := misses
  have some_token : tokensToFetch.isEmpty = false := by
    rw [List.isEmpty_eq_false_iff]
    exact fetched j token found (by rw [Nat.zero_add]; exact missing.imp_right fun uncached => uncached block)
  refine ⟨response,?_,status⟩
  change ((resolveBlock config params.block params.timestamp >>= _).eval _ ()).1 = _
  rw [eval_bind_returned _ resolved]
  dsimp only
  rw [eval_bind_returned _ prepared]
  dsimp only
  rw [some_token]
  exact congrArg Prod.fst answered

theorem checkBucket_failing (token : String) : ∃ response,
    (Endpoint.checkBucket token).answer config around error = .returned (.error response) ∧
      response.statusCode = expectedStatus error :=
  ⟨_,rfl,rfl⟩

end

theorem surfaced_inner (config : Config) (error : Exn) : (surfaced config error).inner = error.inner := by
  cases error <;> rfl

theorem handlePriceError_statusCode (config : Config) (error : Exn) (token : String) (block : Nat) :
    (handlePriceError config error token block).statusCode =
      if invalidPriceText error.inner.text then 502
      else if error.inner.isOverloaded then 503 else expectedStatus error.inner := by
  unfold handlePriceError
  change (if invalidPriceText error.inner.text = true then _ else _ : JSONResponse).statusCode = _
  split
  · rfl
  · cases error.inner <;> rfl

theorem expectedStatus_other {error : Exn} : expectedStatus error = 500 ↔ error.isOS = false := by
  cases error <;> simp [expectedStatus,Exn.isTimeout,Exn.isOS]

theorem expectedStatus_ne_overload (error : Exn) : expectedStatus error ≠ 503 := by
  unfold expectedStatus
  split
  · decide
  · split <;> decide

/-- For an exception that is no `OverloadedError`, `/price` answers as its class says exactly where
the exception is plain. -/
theorem handlePriceError_plain (config : Config) {error : Exn} (token : String) (block : Nat)
    (admitted : error.isOverloaded = false) :
    (handlePriceError config (surfaced config error) token block).statusCode = expectedStatus error ↔ Plain error := by
  rw [handlePriceError_statusCode,surfaced_inner]
  have parts : Plain error ↔ (error.inner.isOverloaded = false ∧ error.inner.isOS = error.isOS) ∧
      (retryable error = true ∨ invalidPriceText error.inner.text = false) :=
    ⟨fun plain => ⟨plain.unwrapped,plain.text⟩,fun plain => ⟨admitted,plain.1,plain.2⟩⟩
  rw [parts]
  cases error with
  | overloaded message => cases admitted
  | timeout message | connection message | os message | value message | other message =>
    by_cases text : invalidPriceText message = true <;>
      simp [Exn.inner,Exn.text,Exn.isOverloaded,expectedStatus,Exn.isTimeout,Exn.isOS,retryable,text]
  | retry message last =>
    have status : expectedStatus (.retry message last) = 500 := rfl
    have other : (Exn.retry message last).isOS = false := rfl
    have once : retryable (.retry message last) = false := rfl
    simp only [Exn.inner,status,other,once,Bool.false_eq_true,false_or]
    by_cases text : invalidPriceText last.text = true
    · simp [text]
    · by_cases overloaded : last.isOverloaded = true
      · simp [text,overloaded]
      · simp [text,overloaded,expectedStatus_other]

def someAnswer : (query : Query) → Answer query
  | .headBlock | .blockAtTimestamp _ => (1 : Nat)
  | .price _ _ _ _ => none
  | .prices tokens _ _ => ⟨tokens.map fun _ => none,by simp⟩
  | .blockTimestamp _ | .decimals _ => (1 : Int)
  | .bucket _ => none
  | .symbol _ | .name _ => ""

def someAnswers : (queries : List Query) → Answers queries
  | [] => ()
  | query::rest => (someAnswer query,someAnswers rest)

/-- Some answers, and an empty cache. -/
def uncached : Surroundings := ⟨someAnswers,fun _ _ => none⟩

def dai : String := "0x6B175474E89094C44Da98b954EedeAC495271d0F"

def daiPrice : Endpoint := .price ⟨dai,some 1,none,[],none⟩ false

def daiPrices : Endpoint := .prices ⟨[dai],some 1,none,none,by simp⟩

def daiBucket : Endpoint := .checkBucket dai

theorem daiPrice_misses : daiPrice.Misses uncached := fun _ _ => rfl

theorem daiPrices_misses : daiPrices.Misses uncached := ⟨0,dai,rfl,Or.inr fun _ => rfl⟩

/-- The three endpoints answer as the class of the exception says, whatever its text, exactly where
the exception is plain. -/
theorem statuses_agree_iff (config : Config) (error : Exn) :
    (∀ around endpoint, Endpoint.Misses around endpoint → ∃ response,
      endpoint.answer config around error = .returned (.error response) ∧ response.statusCode = expectedStatus error) ↔
      Plain error := by
  constructor
  · intro agree
    have admitted : error.isOverloaded = false := by
      obtain ⟨response,answered,status⟩ := agree uncached daiPrices daiPrices_misses
      obtain ⟨other,same,batch⟩ := prices_failing config uncached error daiPrices_misses
      cases answered.symm.trans same
      by_contra overloaded
      rw [batch,if_pos (Bool.not_eq_false _ ▸ overloaded)] at status
      exact expectedStatus_ne_overload error status.symm
    obtain ⟨response,answered,status⟩ := agree uncached daiPrice daiPrice_misses
    obtain ⟨block,same⟩ := price_failing config uncached error daiPrice_misses
    cases answered.symm.trans same
    exact (handlePriceError_plain config _ block admitted).mp status
  · intro plain around endpoint misses
    cases endpoint with
    | price params force =>
      obtain ⟨block,answered⟩ := price_failing config around error misses
      exact ⟨_,answered,(handlePriceError_plain config params.token block plain.admitted).mpr plain⟩
    | prices params =>
      obtain ⟨response,answered,status⟩ := prices_failing config around error misses
      rw [plain.admitted] at status
      exact ⟨response,answered,status⟩
    | checkBucket token => exact checkBucket_failing config around error token

/-- A contract's error text is taken for the server's own. -/
theorem contract_text_misread : ∃ spot batch bucket : JSONResponse,
    daiPrice.answer ethereum uncached (.value "Negative price") = .returned (.error spot) ∧
    daiPrices.answer ethereum uncached (.value "Negative price") = .returned (.error batch) ∧
    daiBucket.answer ethereum uncached (.value "Negative price") = .returned (.error bucket) ∧
    spot.statusCode = 502 ∧ batch.statusCode = 500 ∧ bucket.statusCode = 500 := by
  obtain ⟨block,spot⟩ := price_failing ethereum uncached (.value "Negative price") daiPrice_misses
  obtain ⟨batch,batched,batchStatus⟩ := prices_failing ethereum uncached (.value "Negative price") daiPrices_misses
  obtain ⟨bucket,classified,bucketStatus⟩ := checkBucket_failing ethereum uncached (.value "Negative price") dai
  refine ⟨_,batch,bucket,spot,batched,classified,?_,batchStatus,bucketStatus⟩
  rw [handlePriceError_statusCode,surfaced_inner,if_pos (by decide)]

end YPriceMagic.Server
