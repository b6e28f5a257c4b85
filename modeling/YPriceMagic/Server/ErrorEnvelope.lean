import YPriceMagic.Async.Replies
import YPriceMagic.Server.Handlers

/-! What becomes of the exceptions of the upstream calls in the handlers of the pricing
endpoints. Lookups run under the supervisor, which only adds that it refuses some. -/
namespace YPriceMagic.Server
open YPriceMagic.Async YPriceMagic.Async.Coroutine YPriceMagic.Runtime

inductive Endpoint
  | price (params : PriceParams) (force : Bool)
  | prices (params : BatchParams)
  | checkBucket (token : String)

/-- The request leaves it to the head block which block is meant. -/
def Endpoint.latest : Endpoint → Bool
  | .price params _ => params.block.isNone && params.timestamp.isNone
  | .prices params => params.block.isNone && params.timestamp.isNone
  | .checkBucket _ => false

/-- What the upstream calls that are awaited together can answer or raise. -/
abbrev Behaviour := (queries : List Query) → Except Exn (Answers queries) → Prop

/-- A JSON object with an error and a status of its own, or a success body. -/
def Enveloped : Outcome Exn Response → Prop
  | .returned (.error response) => 400 ≤ response.statusCode ∧ response.statusCode < 600
  | .returned _ => True
  | .raised _ | .cancelled => False

section
variable (upstream : Behaviour)

/-- Nothing is cancelled, and neither the cache nor a lock nor a sleep raises. -/
def awaits : (op : Op) → Reply op → Prop
  | .await queries,.returned answers => upstream queries (.ok answers)
  | .await queries,.raised error => upstream queries (.error error)
  | .await _,.cancelled => False
  | .sleep _,reply | .acquire _,reply => reply = .returned ()
  | .runLookup _,_ => False
  | .release _,_ | .getCachedPrice _ _,_ | .getCachedError _ _,_ | .setCachedPrice _ _ _ _,_ | .setCachedError _ _ _,_ => True

variable (config : Config)

def replies : (op : Op) → Reply op → Prop
  | .runLookup lookup,reply => (∃ message, reply = .raised (.overloaded message)) ∨
      Ends (awaits upstream) (lookup.program config) reply
  | op,reply => awaits upstream op reply

def Endpoint.program : Endpoint → Program Response
  | .price params force => Server.price config params force
  | .prices params => Server.prices config params
  | .checkBucket token => Server.checkBucket token

end

section
variable {upstream : Behaviour} {config : Config} {possible : (op : Op) → Reply op → Prop}

theorem makeErrorResponse_enveloped {status : Nat} {message : String} (low : 400 ≤ status) (high : status < 600) :
    Enveloped (.returned (.error (makeErrorResponse config status message))) := ⟨low,high⟩

theorem handlePriceError_enveloped (error : Exn) (token : String) (block : Nat) :
    Enveloped (.returned (.error (handlePriceError config error token block))) := by
  unfold handlePriceError
  dsimp only
  split
  · exact makeErrorResponse_enveloped (by decide) (by decide)
  · split
    · exact ⟨by decide,by decide⟩
    · exact makeErrorResponse_enveloped (by decide) (by decide)
    · exact makeErrorResponse_enveloped (by decide) (by decide)
    · exact makeErrorResponse_enveloped (by decide) (by decide)
    · exact makeErrorResponse_enveloped (by decide) (by decide)

section
variable (quiet : ∀ queries, ¬ possible (.await queries) .cancelled)
include quiet

theorem gather_ends {queries : List Query} {outcome : Outcome Exn (Answers queries)} (ended : Ends possible (gather queries) outcome) :
    (∃ answers, outcome = .returned answers) ∨ ∃ error, outcome = .raised error ∧ possible (.await queries) (.raised error) := by
  obtain ⟨reply,could,rfl⟩ := ended
  cases outcome with
  | returned answers => exact Or.inl ⟨answers,rfl⟩
  | raised error => exact Or.inr ⟨error,rfl,could⟩
  | cancelled => exact absurd could (quiet queries)

theorem call_ends {query : Query} {outcome : Outcome Exn (Answer query)} (ended : Ends possible (call query) outcome) :
    (∃ answer, outcome = .returned answer) ∨ ∃ error, outcome = .raised error ∧ possible (.await [query]) (.raised error) := by
  rcases ends_bind.mp ended with ⟨answers,_,rfl⟩ | ⟨error,asked,rfl⟩ | ⟨asked,rfl⟩
  · exact Or.inl ⟨answers.1,rfl⟩
  · rcases gather_ends quiet asked with ⟨_,same⟩ | ⟨_,same,could⟩
    · contradiction
    · cases same
      exact Or.inr ⟨error,rfl,could⟩
  · rcases gather_ends quiet asked with ⟨_,same⟩ | ⟨_,same,_⟩ <;> contradiction

theorem mapped_ends {α : Type} {query : Query} {f : Answer query → α} {outcome : Outcome Exn α}
    (ended : Ends possible (f <$> call query) outcome) :
    (∃ answer, outcome = .returned (f answer)) ∨ ∃ error, outcome = .raised error ∧ possible (.await [query]) (.raised error) := by
  obtain ⟨middle,asked,rfl⟩ := ends_map.mp ended
  rcases call_ends quiet asked with ⟨answer,rfl⟩ | ⟨error,rfl,could⟩
  · exact Or.inl ⟨answer,rfl⟩
  · exact Or.inr ⟨error,rfl,could⟩

end

theorem awaits_quiet (queries : List Query) : ¬ awaits upstream (.await queries) .cancelled := id

theorem replies_quiet (queries : List Query) : ¬ replies upstream config (.await queries) .cancelled := id

/-- How the block is resolved: to a block, to an error, or not at all. -/
theorem resolveBlock_ends {block : Option Nat} {timestamp : Option Int} {outcome : Outcome Exn (Except JSONResponse Nat)}
    (ended : Ends (replies upstream config) (resolveBlock config block timestamp) outcome) :
    (∃ height, outcome = .returned (.ok height)) ∨
    (∃ response, outcome = .returned (.error response) ∧ Enveloped (.returned (.error response))) ∨
    (block = none ∧ timestamp = none ∧ ∃ error, outcome = .raised error ∧ upstream [.headBlock] (.error error) ∧ error.isOS = false) := by
  cases timestamp with
  | some timestamp =>
    rcases ends_tryExcept.mp ended with ⟨height,asked,rfl⟩ | ⟨error,_,rfl⟩ | ⟨asked,rfl⟩
    · rcases mapped_ends replies_quiet asked with ⟨height,same⟩ | ⟨_,same,_⟩
      · exact Or.inl ⟨height,same⟩
      · contradiction
    · refine Or.inr (Or.inl ⟨_,rfl,makeErrorResponse_enveloped ?_ ?_⟩) <;> split <;> decide
    · rcases mapped_ends replies_quiet asked with ⟨_,same⟩ | ⟨_,same,_⟩ <;> contradiction
  | none =>
    cases block with
    | some block =>
      rcases ends_tryExcept.mp ended with ⟨height,asked,rfl⟩ | ⟨error,asked,_⟩ | ⟨asked,_⟩
      · exact Or.inl ⟨block,asked⟩
      · contradiction
      · contradiction
    | none =>
      rcases ends_tryExcept.mp ended with ⟨height,asked,rfl⟩ | ⟨error,asked,handled⟩ | ⟨asked,rfl⟩
      · rcases mapped_ends replies_quiet asked with ⟨height,same⟩ | ⟨_,same,_⟩
        · exact Or.inl ⟨height,same⟩
        · contradiction
      · rcases mapped_ends replies_quiet asked with ⟨_,same⟩ | ⟨_,same,could⟩
        · contradiction
        · cases same
          split at handled
          · cases handled
            exact Or.inr (Or.inl ⟨_,rfl,makeErrorResponse_enveloped (by decide) (by decide)⟩)
          · split at handled
            · cases handled
              exact Or.inr (Or.inl ⟨_,rfl,makeErrorResponse_enveloped (by decide) (by decide)⟩)
            · rename_i other
              cases handled
              exact Or.inr (Or.inr ⟨rfl,rfl,error,rfl,could,by simpa using other⟩)
      · rcases mapped_ends replies_quiet asked with ⟨_,same⟩ | ⟨_,same,_⟩ <;> contradiction

theorem withLock_ends {α : Type} {lock : LockName} {body : Program α} {outcome : Outcome Exn α} :
    Ends (awaits upstream) (withLock lock body) outcome ↔ Ends (awaits upstream) body outcome := by
  have released (ending : Outcome Exn Unit) : Ends (awaits upstream) (release lock) ending ↔ ending = .returned () :=
    ⟨fun ⟨_,_,same⟩ => same,fun same => ⟨(),trivial,same⟩⟩
  refine ends_bind.trans ?_
  constructor
  · rintro (⟨_,_,ended⟩ | ⟨error,acquired,_⟩ | ⟨acquired,_⟩)
    · exact (ends_tryFinally released).mp ended
    · obtain ⟨_,could,same⟩ := acquired
      rw [show _ = Outcome.returned () from could] at same
      contradiction
    · obtain ⟨_,could,same⟩ := acquired
      rw [show _ = Outcome.returned () from could] at same
      contradiction
  · exact fun ended => Or.inl ⟨(),⟨.returned (),rfl,rfl⟩,(ends_tryFinally released).mpr ended⟩

theorem call_uncancelled (quiet : ∀ queries, ¬ possible (.await queries) .cancelled) (query : Query) :
    Uncancelled possible (call query) := by
  intro ended
  rcases call_ends quiet ended with ⟨_,same⟩ | ⟨_,same,_⟩ <;> contradiction

theorem gather_uncancelled (quiet : ∀ queries, ¬ possible (.await queries) .cancelled) (queries : List Query) :
    Uncancelled possible (gather queries) := by
  intro ended
  rcases gather_ends quiet ended with ⟨_,same⟩ | ⟨_,same,_⟩ <;> contradiction

theorem fetchBlockTimestamp_returning (quiet : ∀ queries, ¬ possible (.await queries) .cancelled) (block : Nat) :
    Returning possible (fetchBlockTimestamp block) := by
  intro outcome ended
  rcases ends_tryExcept.mp ended with ⟨time,_,same⟩ | ⟨error,_,same⟩ | ⟨asked,_⟩
  · exact ⟨time,same⟩
  · exact ⟨none,same⟩
  · exact absurd asked ((call_uncancelled quiet _).map some)

theorem retrying_uncancelled {α : Type} {attemptText : Exn → String} {attempt : Program α}
    (tried : Uncancelled (awaits upstream) attempt) (waits : List Nat) :
    Uncancelled (awaits upstream) (retrying attemptText attempt waits) := by
  induction waits with
  | nil =>
    refine tried.tryExcept fun error => ?_
    split <;> exact uncancelled_raise _
  | cons seconds waits ih =>
    refine tried.tryExcept fun error => ?_
    split
    · have slept : Uncancelled (awaits upstream) (sleep seconds) := fun ⟨_,could,same⟩ => by
        rw [show _ = Outcome.returned () from could] at same
        contradiction
      exact slept.bind fun _ => ih
    · exact uncancelled_raise error

theorem fetchPrice_uncancelled (token : String) (block : Nat) (amount : Option Rat) (ignorePools : List String) :
    Uncancelled (awaits upstream) (fetchPrice config token block amount ignorePools) := by
  refine retrying_uncancelled ((call_uncancelled awaits_quiet _).bind fun p => ?_) _
  cases p with
  | none => exact uncancelled_pure none
  | some p =>
    dsimp only
    split
    · exact uncancelled_raise _
    · split
      · exact uncancelled_raise _
      · exact uncancelled_pure _

theorem lookupBatchPrices_ends {tokens : List String} {block : Nat} {amounts : Option (List (Option Rat))}
    {outcome : Outcome Exn (List (Option PriceResult))} (ended : Ends (awaits upstream) (lookupBatchPrices tokens block amounts) outcome) :
    (∃ results, outcome = .returned results ∧ results.length = tokens.length) ∨ ∃ error, outcome = .raised error := by
  have once (amounts : Option (List Rat)) {outcome : Outcome Exn (List (Option PriceResult))}
      (ended : Ends (awaits upstream) (call (.prices tokens block amounts) >>= fun answers => pure answers.1) outcome) :
      (∃ results, outcome = .returned results ∧ results.length = tokens.length) ∨ ∃ error, outcome = .raised error := by
    rcases ends_bind.mp ended with ⟨answers,_,same⟩ | ⟨error,_,same⟩ | ⟨asked,_⟩
    · exact Or.inl ⟨answers.1,same,answers.2⟩
    · exact Or.inr ⟨error,same⟩
    · exact absurd asked (call_uncancelled awaits_quiet _)
  unfold lookupBatchPrices at ended
  cases amounts with
  | none => exact once none ended
  | some amounts =>
    dsimp only at ended
    split at ended
    · exact once none ended
    · split at ended
      · exact once _ ended
      · rcases ends_bind.mp ended with ⟨answers,_,same⟩ | ⟨error,_,same⟩ | ⟨asked,_⟩
        · exact Or.inl ⟨_,same,by simp⟩
        · exact Or.inr ⟨error,same⟩
        · exact absurd asked (gather_uncancelled awaits_quiet _)

theorem fetchBatchPrices_ends {tokens : List String} {block : Nat} {amounts : Option (List (Option Rat))}
    {outcome : Outcome Exn (List (Option (PyFloat × Option TradePath)))}
    (ended : Ends (awaits upstream) (fetchBatchPrices tokens block amounts) outcome) :
    (∃ prices, outcome = .returned prices ∧ prices.length = tokens.length) ∨ ∃ error, outcome = .raised error := by
  obtain ⟨middle,looked,rest⟩ := ends_andThen.mp ended
  rcases lookupBatchPrices_ends looked with ⟨results,rfl,sized⟩ | ⟨error,rfl⟩
  · exact Or.inl ⟨_,rest,by simp [sized]⟩
  · exact Or.inr ⟨error,rest⟩

theorem fetchPriceAndCache_uncancelled (token : String) (block : Nat) (amount : Option Rat) (ignorePools : List String) :
    Uncancelled (awaits upstream) (fetchPriceAndCache config token block amount ignorePools) := by
  refine (fetchPrice_uncancelled token block amount ignorePools).bind fun result => ?_
  rcases result with _ | ⟨price,tradePath⟩
  · exact uncancelled_pure none
  · refine (fetchBlockTimestamp_returning awaits_quiet block).uncancelled.bind fun blockTimestamp => Uncancelled.bind ?_ fun _ =>
      uncancelled_pure _
    split
    · exact uncancelled_perform fun _ _ => uncancelled_pure ()
    · exact uncancelled_pure ()

/-- A classification answers its exceptions itself. -/
theorem classifyToken_ends {token : String} {outcome : Outcome Exn Response}
    (ended : Ends (awaits upstream) (classifyToken config token) outcome) : Enveloped outcome := by
  rcases ends_bind.mp ended with ⟨tokenLock,_,ended⟩ | ⟨error,locked,_⟩ | ⟨locked,_⟩
  · rcases ends_tryExcept.mp (withLock_ends.mp ended) with ⟨response,classified,rfl⟩ | ⟨error,_,rfl⟩ | ⟨classified,_⟩
    · rcases ends_bind.mp classified with ⟨bucket,_,described⟩ | ⟨error,_,same⟩ | ⟨_,same⟩
      · rcases ends_bind.mp described with ⟨metadata,_,same⟩ | ⟨error,_,same⟩ | ⟨_,same⟩
        · cases same
          trivial
        · contradiction
        · contradiction
      · contradiction
      · contradiction
    · refine makeErrorResponse_enveloped ?_ ?_ <;> split <;> (try split) <;> decide
    · refine absurd classified (Uncancelled.bind (call_uncancelled awaits_quiet _) fun bucket => Uncancelled.bind ?_ fun _ => uncancelled_pure _)
      exact ((gather_uncancelled awaits_quiet _).bind fun _ => uncancelled_pure _).tryExcept fun _ => uncancelled_pure none
  · have same := withLock_ends.mp locked
    cases same
  · have same := withLock_ends.mp locked
    cases same

theorem lookupPrice_ends {params : PriceParams} {block : Nat} {outcome : Outcome Exn Response}
    (ended : Ends (replies upstream config) (lookupPrice config params block) outcome) : Enveloped outcome := by
  obtain ⟨reply,could,rest⟩ := ended
  cases reply with
  | raised error =>
    cases rest
    exact handlePriceError_enveloped error params.token block
  | cancelled =>
    rcases could with ⟨_,same⟩ | cancelled
    · contradiction
    · exact absurd cancelled (fetchPriceAndCache_uncancelled _ _ _ _)
  | returned result =>
    rcases result with _ | ⟨price,tradePath,blockTimestamp⟩
    · have stored : Returning (replies upstream config)
          (if params.spot then setCachedError params.token block (notFoundMessage config params.token block) else pure ()) := by
        split
        · exact returning_perform fun _ => returning_pure ()
        · exact returning_pure ()
      obtain ⟨_,_,same⟩ := stored.continues rest
      cases same
      exact makeErrorResponse_enveloped (by decide) (by decide)
    · cases rest
      trivial

theorem handlePriceRequest_ends {params : PriceParams} {block : Nat} {force : Bool} {outcome : Outcome Exn Response}
    (ended : Ends (replies upstream config) (handlePriceRequest config params block force) outcome) : Enveloped outcome := by
  unfold handlePriceRequest at ended
  split at ended
  · obtain ⟨cached,_,ended⟩ := ended
    cases cached with
    | some cached =>
      cases ended
      trivial
    | none =>
      change Ends _ (if force = true then _ else _) _ at ended
      split at ended
      · exact lookupPrice_ends ended
      · obtain ⟨cachedErr,_,ended⟩ := ended
        cases cachedErr with
        | some error =>
          cases ended
          exact makeErrorResponse_enveloped (by decide) (by decide)
        | none => exact lookupPrice_ends ended
  · exact lookupPrice_ends ended

theorem prepareBatchCacheCheck_returning (params : BatchParams) (block i : Nat) (tokens : List String) :
    Returning (replies upstream config) (prepareBatchCacheCheck params block i tokens) := by
  induction tokens generalizing i with
  | nil => exact returning_pure _
  | cons token rest ih =>
    have read : Returning (replies upstream config) (if (params.amountAt i).isNone then getCachedPrice token block else pure none) := by
      split
      · exact returning_perform fun _ => returning_pure _
      · exact returning_pure none
    refine read.bind fun cached => (ih (i+1)).bind fun prepared => ?_
    cases cached <;> exact returning_pure _

theorem fillBatchResults_returning (params : BatchParams) (block : Nat) (blockTimestamp : Option Int) (fetched : List (String × Nat))
    (prices : List (Option (PyFloat × Option TradePath))) (results : List (Option BatchItem)) (sized : fetched.length ≤ prices.length) :
    Returning (replies upstream config) (fillBatchResults params block blockTimestamp fetched prices results) := by
  induction fetched generalizing prices results with
  | nil => cases prices <;> exact returning_pure _
  | cons entry fetched ih =>
    cases prices with
    | nil => simp at sized
    | cons price prices =>
      have stored : Returning (replies upstream config) (cacheFetched params entry.1 entry.2 block blockTimestamp price) := by
        rcases price with _ | ⟨price,_⟩
        · exact returning_pure ()
        · unfold cacheFetched
          dsimp only
          split
          · exact returning_perform fun _ => returning_pure ()
          · exact returning_pure ()
      exact stored.bind fun _ => ih prices _ (by simpa using sized)

theorem fetchBatch_ends {params : BatchParams} {block : Nat} {results : List (Option BatchItem)} {tokensToFetch : List String}
    {indicesToFetch : List Nat} {outcome : Outcome Exn Response}
    (ended : Ends (replies upstream config) (fetchBatch config params block results tokensToFetch indicesToFetch) outcome) :
    Enveloped outcome := by
  obtain ⟨reply,could,rest⟩ := ended
  cases reply with
  | raised error =>
    have other : ∀ error : Exn, Enveloped (.returned (.error (if error.isTimeout then makeTimeoutResponse config
        else if error.isOS then makeErrorResponse config 502 "RPC connection failed"
        else makeErrorResponse config 500 ("Batch lookup failed: " ++ error.text)))) := by
      intro error
      split
      · exact makeErrorResponse_enveloped (by decide) (by decide)
      · split <;> exact makeErrorResponse_enveloped (by decide) (by decide)
    cases error with
    | overloaded message =>
      cases rest
      exact ⟨by decide,by decide⟩
    | timeout | connection | os | value | retry | other =>
      cases rest
      exact other _
  | cancelled =>
    rcases could with ⟨_,same⟩ | cancelled
    · contradiction
    · rcases fetchBatchPrices_ends cancelled with ⟨_,same,_⟩ | ⟨_,same⟩ <;> contradiction
  | returned prices =>
    have sized : prices.length = tokensToFetch.length := by
      rcases could with ⟨_,same⟩ | returned
      · contradiction
      · rcases fetchBatchPrices_ends returned with ⟨_,same,sized⟩ | ⟨_,same⟩
        · cases same
          exact sized
        · contradiction
    have fits : (tokensToFetch.zip indicesToFetch).length ≤ prices.length := by
      rw [sized,List.length_zip]
      exact Nat.min_le_left _ _
    obtain ⟨blockTimestamp,_,rest⟩ := (fetchBlockTimestamp_returning replies_quiet block).continues rest
    obtain ⟨items,_,rest⟩ := (fillBatchResults_returning params block blockTimestamp _ prices results fits).continues rest
    cases rest
    trivial

theorem price_ends {params : PriceParams} {force : Bool} {outcome : Outcome Exn Response}
    (ended : Ends (replies upstream config) (price config params force) outcome) : Enveloped outcome ∨
    (params.block = none ∧ params.timestamp = none ∧ ∃ error, upstream [.headBlock] (.error error) ∧ error.isOS = false) := by
  obtain ⟨resolved,found,rest⟩ := ends_andThen.mp ended
  rcases resolveBlock_ends found with ⟨height,rfl⟩ | ⟨response,rfl,enveloped⟩ | ⟨block,timestamp,error,rfl,could,other⟩
  · exact Or.inl (handlePriceRequest_ends rest)
  · cases rest
    exact Or.inl enveloped
  · exact Or.inr ⟨block,timestamp,error,could,other⟩

theorem prices_ends {params : BatchParams} {outcome : Outcome Exn Response}
    (ended : Ends (replies upstream config) (prices config params) outcome) : Enveloped outcome ∨
    (params.block = none ∧ params.timestamp = none ∧ ∃ error, upstream [.headBlock] (.error error) ∧ error.isOS = false) := by
  obtain ⟨resolved,found,rest⟩ := ends_andThen.mp ended
  rcases resolveBlock_ends found with ⟨height,rfl⟩ | ⟨response,rfl,enveloped⟩ | ⟨block,timestamp,error,rfl,could,other⟩
  · left
    obtain ⟨⟨results,tokensToFetch,indicesToFetch⟩,_,rest⟩ :=
      (prepareBatchCacheCheck_returning params height 0 params.tokens).continues rest
    dsimp only at rest
    split at rest
    · cases rest
      trivial
    · exact fetchBatch_ends rest
  · cases rest
    exact Or.inl enveloped
  · exact Or.inr ⟨block,timestamp,error,could,other⟩

theorem checkBucket_ends {token : String} {outcome : Outcome Exn Response}
    (ended : Ends (replies upstream config) (checkBucket token) outcome) : Enveloped outcome := by
  obtain ⟨reply,could,rest⟩ := ended
  rcases could with ⟨message,rfl⟩ | classified
  · cases rest
    exact ⟨by decide,by decide⟩
  · have enveloped := classifyToken_ends classified
    cases reply with
    | returned response =>
      cases rest
      exact enveloped
    | raised | cancelled => exact enveloped.elim

/-- The head block is read outside of any `except Exception`. -/
theorem headBlock_escapes {block : Option Nat} {timestamp : Option Int} (unblocked : block = none) (untimed : timestamp = none)
    {error : Exn} (could : upstream [.headBlock] (.error error)) (other : error.isOS = false) :
    Ends (replies upstream config) (resolveBlock config block timestamp) (.raised error) := by
  subst unblocked untimed
  have late : error.isTimeout = false := by
    cases error <;> simp_all [Exn.isOS,Exn.isTimeout]
  refine ends_tryExcept.mpr (Or.inr (Or.inl ⟨error,?_,?_⟩))
  · exact ends_map.mpr ⟨.raised error,ends_bind.mpr (Or.inr (Or.inl ⟨error,⟨.raised error,could,rfl⟩,rfl⟩)),rfl⟩
  · simp [late,other]

theorem endpoint_ends {endpoint : Endpoint} {outcome : Outcome Exn Response}
    (ended : Ends (replies upstream config) (endpoint.program config) outcome) : Enveloped outcome ∨
    (endpoint.latest = true ∧ ∃ error, upstream [.headBlock] (.error error) ∧ error.isOS = false) := by
  cases endpoint with
  | price params force =>
    refine (price_ends ended).imp_right fun ⟨block,timestamp,escaped⟩ => ⟨?_,escaped⟩
    simp [Endpoint.latest,block,timestamp]
  | prices params =>
    refine (prices_ends ended).imp_right fun ⟨block,timestamp,escaped⟩ => ⟨?_,escaped⟩
    simp [Endpoint.latest,block,timestamp]
  | checkBucket token => exact Or.inl (checkBucket_ends ended)

theorem endpoint_escapes {endpoint : Endpoint} (latest : endpoint.latest = true) {error : Exn}
    (could : upstream [.headBlock] (.error error)) (other : error.isOS = false) :
    Ends (replies upstream config) (endpoint.program config) (.raised error) := by
  have escapes (block : Option Nat) (timestamp : Option Int) (unpinned : (block.isNone && timestamp.isNone) = true) :
      Ends (replies upstream config) (resolveBlock config block timestamp) (.raised error) := by
    rw [Bool.and_eq_true,Option.isNone_iff_eq_none,Option.isNone_iff_eq_none] at unpinned
    exact headBlock_escapes unpinned.1 unpinned.2 could other
  cases endpoint with
  | price params force => exact ends_bind.mpr (Or.inr (Or.inl ⟨error,escapes _ _ latest,rfl⟩))
  | prices params => exact ends_bind.mpr (Or.inr (Or.inl ⟨error,escapes _ _ latest,rfl⟩))
  | checkBucket token => contradiction

/-- Every exception of an upstream call becomes an error envelope, unless it is one of the head
block that is no `OSError`. -/
theorem enveloped_iff (config : Config) (upstream : Behaviour) (endpoint : Endpoint) :
    (∀ outcome, Ends (replies upstream config) (endpoint.program config) outcome → Enveloped outcome) ↔
      (endpoint.latest = true → ∀ error, upstream [.headBlock] (.error error) → error.isOS = true) := by
  constructor
  · intro enveloped latest error could
    by_contra other
    exact enveloped (.raised error) (endpoint_escapes latest could (by simpa using other))
  · intro known outcome ended
    rcases endpoint_ends ended with enveloped | ⟨latest,error,could,other⟩
    · exact enveloped
    · have os := known latest error could
      rw [other] at os
      contradiction

/-- The chain answers the height of its head with an RPC error. -/
def headless : Behaviour
  | [.headBlock],.error error => error = .value "header not found"
  | _,_ => False

theorem headBlock_error_escapes : ∃ outcome,
    Ends (replies headless ethereum)
      ((Endpoint.price ⟨"0x6B175474E89094C44Da98b954EedeAC495271d0F",none,none,[],none⟩ false).program ethereum) outcome ∧ ¬ Enveloped outcome := by
  exact ⟨.raised (.value "header not found"),endpoint_escapes rfl rfl rfl,id⟩

end
end YPriceMagic.Server
