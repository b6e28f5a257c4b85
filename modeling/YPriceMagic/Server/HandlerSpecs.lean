import YPriceMagic.Server.LookupSpecs

/-! What the two handlers ensure: a batch writes prices its lookup returned, a price
request writes an error only after a miss and an answer without a price, and a price
request that hits the cache does nothing more than reply. -/
namespace YPriceMagic.Server
open YPriceMagic.Async YPriceMagic.Async.Coroutine YPriceMagic.Runtime

def Unhit (history : List Event) : Prop :=
  ∀ token block cached, (⟨.getCachedPrice token block,some cached⟩ : Event) ∉ history

/-- A price that the lookup of a batch returned for a place without an amount. -/
def Returned (history : List Event) (token : String) (block : Nat) (price : PyFloat) : Prop :=
  ∃ tokens amounts prices, (⟨.runLookup (.batch tokens block amounts),.returned prices⟩ : Event) ∈ history ∧
    ∃ (k : Nat) (path : Option TradePath), tokens[k]? = some token ∧ BlankAt amounts k ∧
      prices[k]? = some (some (price,path))

theorem Returned.mono {history later : List Event} {token : String} {block : Nat} {price : PyFloat}
    (returned : Returned history token block price) (kept : history ⊆ later) : Returned later token block price := by
  obtain ⟨tokens,amounts,prices,member,rest⟩ := returned
  exact ⟨tokens,amounts,prices,kept member,rest⟩

def NotFound (history : List Event) (token : String) (block : Nat) : Prop :=
  (⟨.getCachedPrice token block,none⟩ : Event) ∈ history ∧
    (⟨.runLookup (.price token block none []),.returned none⟩ : Event) ∈ history

def handlerAllowed (request : Request) (history : List Event) (op : Op) : Prop :=
  match request with
  | .price _ _ => Unhit history ∧ match op with
    | .setCachedPrice _ _ _ _ => False
    | .setCachedError token block _ => NotFound history token block
    | _ => True
  | .prices _ => match op with
    | .setCachedPrice token block price blockTimestamp =>
      Returned history token block price ∧ StampOf history block blockTimestamp
    | .setCachedError _ _ _ => False
    | _ => True

/-- A price request that hit the cache replies with a price, and a spot request replies 404
only if it has missed. -/
def handlerPost (request : Request) (outcome : Outcome Exn Response) (history : List Event) : Prop :=
  match request with
  | .price params _ =>
    (¬ Unhit history → ∃ response, outcome = .returned response ∧ response.status = 200) ∧
      (params.spot = true → ∀ response, outcome = .returned response → response.status = 404 →
        ∃ block, (⟨.getCachedPrice params.token block,none⟩ : Event) ∈ history)
  | .prices _ => True

/-- The block was resolved with nothing but upstream calls; an error is not a 404. -/
def Resolved (history : List Event) (outcome : Outcome Exn (Except JSONResponse Nat)) (later : List Event) : Prop :=
  (∀ event ∈ later, event ∈ history ∨ ∃ queries reply, event = ⟨.await queries,reply⟩) ∧
    ∀ response, outcome = .returned (.error response) → response.statusCode ≠ 404

section
variable (config : Config) {history : List Event}

theorem resolveBlock_ensures {allowed : List Event → Op → Prop} (head : allowed history (.await [.headBlock]))
    (dated : ∀ timestamp, allowed history (.await [.blockAtTimestamp timestamp])) (block : Option Nat) (timestamp : Option Int) :
    Ensures allowed Sigma.mk (Resolved history) (resolveBlock config block timestamp) history := by
  have asked (query : Query) (reply : Reply (.await [query])) : ∀ event ∈ history++[(⟨.await [query],reply⟩ : Event)],
      event ∈ history ∨ ∃ queries reply, event = ⟨.await queries,reply⟩ := by
    intro event member
    rcases List.mem_append.mp member with old | new
    · exact Or.inl old
    · exact Or.inr ⟨[query],reply,List.mem_singleton.mp new⟩
  unfold resolveBlock
  cases timestamp with
  | some timestamp =>
    refine ⟨dated timestamp,fun reply => ?_⟩
    cases reply with
    | returned answers => exact ⟨asked _ _,fun response same => by simp at same⟩
    | cancelled => exact ⟨asked _ _,fun response same => by simp at same⟩
    | raised error =>
      refine ⟨asked _ _,fun response same => ?_⟩
      cases same
      change (if error.isTimeout then 504 else 502) ≠ 404
      split <;> decide
  | none =>
    cases block with
    | some block => exact ⟨fun event member => Or.inl member,fun response same => by cases same⟩
    | none =>
      refine ⟨head,fun reply => ?_⟩
      cases reply with
      | returned answers => exact ⟨asked _ _,fun response same => by simp at same⟩
      | cancelled => exact ⟨asked _ _,fun response same => by simp at same⟩
      | raised error =>
        change Ensures allowed Sigma.mk _ (if error.isTimeout then _ else if error.isOS then _ else raise error) _
        split
        · refine ⟨asked _ _,fun response same => ?_⟩
          cases same
          simp [makeErrorResponse]
        · split
          · refine ⟨asked _ _,fun response same => ?_⟩
            cases same
            simp [makeErrorResponse]
          · exact ⟨asked _ _,fun response same => by cases same⟩

theorem Unhit.snoc {event : Event} (unhit : Unhit history)
    (other : ∀ token block cached, event ≠ ⟨.getCachedPrice token block,some cached⟩) : Unhit (history++[event]) := by
  intro token block cached member
  rcases List.mem_append.mp member with old | new
  · exact unhit token block cached old
  · exact other token block cached (List.mem_singleton.mp new).symm

theorem Unhit.post {params : PriceParams} {force : Bool} {outcome : Outcome Exn Response} (unhit : Unhit history)
    (missed : params.spot = true → ∃ block, (⟨.getCachedPrice params.token block,none⟩ : Event) ∈ history) :
    handlerPost (.price params force) outcome history :=
  ⟨fun hit => absurd unhit hit,fun spot _ _ _ => missed spot⟩

theorem lookupPrice_ensures (params : PriceParams) (force : Bool) (block : Nat) (unhit : Unhit history)
    (missed : params.spot = true → (⟨.getCachedPrice params.token block,none⟩ : Event) ∈ history) :
    Ensures (handlerAllowed (.price params force)) Sigma.mk (handlerPost (.price params force))
      (lookupPrice config params block) history := by
  refine ⟨⟨unhit,trivial⟩,fun reply => ?_⟩
  have looked : Unhit (history++[(⟨.runLookup (.price params.token block params.amount params.ignorePools),reply⟩ : Event)]) :=
    unhit.snoc (by simp)
  have known (later : List Event) (extended : history <+: later) (spot : params.spot = true) :
      ∃ block, (⟨.getCachedPrice params.token block,none⟩ : Event) ∈ later :=
    ⟨block,extended.subset (missed spot)⟩
  have looking := known _ (List.prefix_append history [(⟨.runLookup (.price params.token block params.amount
    params.ignorePools),reply⟩ : Event)])
  cases reply with
  | raised error => exact looked.post looking
  | cancelled => exact looked.post looking
  | returned value =>
    cases value with
    | some value => exact looked.post looking
    | none =>
      change Ensures _ _ _ ((if params.spot then setCachedError _ _ _ else pure ()) >>= fun _ => pure _) _
      split
      · rename_i spot
        have read := missed spot
        obtain ⟨token,_,amount,ignorePools,_⟩ := params
        simp only [PriceParams.spot,Bool.and_eq_true,Option.isNone_iff_eq_none,List.isEmpty_iff] at spot
        obtain ⟨rfl,rfl⟩ := spot
        refine ⟨⟨looked,List.mem_append_left _ read,List.mem_append_right _ (List.mem_singleton.mpr rfl)⟩,fun _ => ?_⟩
        exact (looked.snoc (by simp)).post (known _ ((List.prefix_append _ _).trans (List.prefix_append _ _)))
      · exact looked.post looking

theorem handlePriceRequest_ensures (params : PriceParams) (force bypass : Bool) (block : Nat) (unhit : Unhit history) :
    Ensures (handlerAllowed (.price params force)) Sigma.mk (handlerPost (.price params force))
      (handlePriceRequest config params block bypass) history := by
  unfold handlePriceRequest
  split
  · refine ⟨⟨unhit,trivial⟩,fun cached => ?_⟩
    cases cached with
    | some cached => exact ⟨fun _ => ⟨_,rfl,rfl⟩,fun _ response same => by cases same; simp [Response.status]⟩
    | none =>
      have missed : Unhit (history++[(⟨.getCachedPrice params.token block,none⟩ : Event)]) := unhit.snoc (by simp)
      have read : (⟨.getCachedPrice params.token block,none⟩ : Event) ∈
          history++[(⟨.getCachedPrice params.token block,none⟩ : Event)] := by simp
      change Ensures _ _ _ (if bypass then _ else _) _
      split
      · exact lookupPrice_ensures config params force block missed fun _ => read
      · refine ⟨⟨missed,trivial⟩,fun cachedErr => ?_⟩
        have again : Unhit ((history++[(⟨.getCachedPrice params.token block,none⟩ : Event)])++
            [(⟨.getCachedError params.token block,cachedErr⟩ : Event)]) := missed.snoc (by simp)
        cases cachedErr with
        | some error => exact again.post fun _ => ⟨block,List.mem_append_left _ read⟩
        | none => exact lookupPrice_ensures config params force block again fun _ => List.mem_append_left _ read
  · rename_i quote
    exact lookupPrice_ensures config params force block unhit fun spot => absurd spot quote

theorem price_ensures (params : PriceParams) (force : Bool) (unhit : Unhit history) :
    Ensures (handlerAllowed (.price params force)) Sigma.mk (handlerPost (.price params force))
      (price config params force) history := by
  have kept {outcome : Outcome Exn (Except JSONResponse Nat)} {later : List Event}
      (resolved : Resolved history outcome later) : Unhit later := by
    intro token block cached member
    rcases resolved.1 _ member with old | ⟨queries,reply,awaited⟩
    · exact unhit token block cached old
    · simp at awaited
  refine (resolveBlock_ensures config ⟨unhit,trivial⟩ (fun _ => ⟨unhit,trivial⟩) params.block params.timestamp).bind ?_ ?_ ?_
  · intro answer later _ resolved
    cases answer with
    | ok block => exact handlePriceRequest_ensures config params force force block (kept resolved)
    | error response =>
      refine ⟨fun hit => absurd (kept resolved) hit,fun _ reply same missing => ?_⟩
      cases same
      exact absurd missing (resolved.2 response rfl)
  · exact fun error later _ resolved => ⟨fun hit => absurd (kept resolved) hit,fun _ reply same => by cases same⟩
  · exact fun later _ resolved => ⟨fun hit => absurd (kept resolved) hit,fun _ reply same => by cases same⟩

theorem handlerAllowed_lenient (params : BatchParams) : Lenient (handlerAllowed (.prices params)) := by
  intro history op plain
  cases op <;> simp_all [handlerAllowed,Op.writes]

theorem prepareBatchCacheCheck_spec (params : BatchParams) (block : Nat) (i : Nat) (tokens : List String)
    (history : List Event) :
    Spec (handlerAllowed (.prices params)) (fun _ _ => True) (prepareBatchCacheCheck params block i tokens) history := by
  induction tokens generalizing i history with
  | nil => exact spec_pure trivial
  | cons token rest ih =>
    have read : Spec (handlerAllowed (.prices params)) (fun _ _ => True)
        (if (params.amountAt i).isNone then getCachedPrice token block else pure none) history := by
      split
      · exact ⟨handlerAllowed_lenient params history _ rfl,fun _ => spec_pure trivial⟩
      · exact spec_pure trivial
    refine read.bind fun cached later _ _ => (ih (i+1) later).bind fun prepared latest _ _ => ?_
    cases cached <;> exact spec_pure trivial

theorem fillBatchResults_spec (params : BatchParams) (block : Nat) (blockTimestamp : Option Int)
    (fetched : List (String × Nat)) (prices : List (Option (PyFloat × Option TradePath)))
    (results : List (Option BatchItem)) (history : List Event)
    (returned : ∀ (k : Nat) token i price path, fetched[k]? = some (token,i) → params.amountAt i = none →
      prices[k]? = some (some (price,path)) → Returned history token block price)
    (stamp : StampOf history block blockTimestamp) :
    Spec (handlerAllowed (.prices params)) (fun _ _ => True)
      (fillBatchResults params block blockTimestamp fetched prices results) history := by
  induction fetched generalizing prices results history with
  | nil => exact spec_pure trivial
  | cons asked fetched ih =>
    obtain ⟨token,i⟩ := asked
    cases prices with
    | nil => exact spec_raise _
    | cons entry prices =>
      have stored : Spec (handlerAllowed (.prices params)) (fun _ _ => True)
          (cacheFetched params token i block blockTimestamp entry) history := by
        cases entry with
        | none => exact spec_pure trivial
        | some found =>
          obtain ⟨price,path⟩ := found
          change Spec _ _ (if (params.amountAt i).isNone then setCachedPrice token block price blockTimestamp else pure ()) _
          split
          · rename_i spot
            have first := returned 0 token i price path rfl (Option.isNone_iff_eq_none.mp spot) rfl
            exact ⟨⟨first,stamp⟩,fun _ => spec_pure trivial⟩
          · exact spec_pure trivial
      refine stored.bind fun _ later extended _ => ih prices _ later ?_ (stamp.mono extended.subset)
      intro k token i price path place blank found
      exact (returned (k+1) token i price path place blank found).mono extended.subset

theorem fetchBatch_spec (params : BatchParams) (block : Nat) (results : List (Option BatchItem))
    (tokensToFetch : List String) (indicesToFetch : List Nat) (history : List Event) :
    Spec (handlerAllowed (.prices params)) (fun _ _ => True)
      (fetchBatch config params block results tokensToFetch indicesToFetch) history := by
  refine ⟨handlerAllowed_lenient params history _ rfl,fun reply => ?_⟩
  cases reply with
  | cancelled => trivial
  | raised error => cases error <;> exact spec_pure trivial
  | returned prices =>
    let amounts := params.amounts.map fun amounts => indicesToFetch.map (amounts.getD · none)
    have member : (⟨.runLookup (.batch tokensToFetch block amounts),.returned prices⟩ : Event) ∈
        history++[(⟨.runLookup (.batch tokensToFetch block amounts),.returned prices⟩ : Event)] := by simp
    refine (fetchBlockTimestamp_spec (handlerAllowed_lenient params _ _ rfl)).bind fun stamp later extended stamped => ?_
    refine (fillBatchResults_spec params block stamp _ prices results later ?_ stamped).bind fun _ _ _ _ =>
      spec_pure trivial
    intro k token i price path place blank found
    obtain ⟨asked,index⟩ := List.getElem?_zip_eq_some.mp place
    refine ⟨tokensToFetch,amounts,prices,extended.subset member,k,path,asked,?_,found⟩
    intro list chosen
    obtain ⟨given,same,rfl⟩ := Option.map_eq_some_iff.mp chosen
    have here : given.getD i none = none := by simpa only [BatchParams.amountAt,same,Option.bind_some] using blank
    rw [List.getElem?_map,index,Option.map_some,here]

theorem prices_ensures (params : BatchParams) (history : List Event) :
    Ensures (handlerAllowed (.prices params)) Sigma.mk (handlerPost (.prices params)) (prices config params) history := by
  have resolved := resolveBlock_ensures config (handlerAllowed_lenient params history _ rfl)
    (fun _ => handlerAllowed_lenient params history _ rfl) params.block params.timestamp
  refine resolved.bind (fun answer later _ _ => ?_) (fun _ _ _ _ => trivial) fun _ _ _ => trivial
  cases answer with
  | error response => trivial
  | ok block =>
    refine Ensures.bind (prepareBatchCacheCheck_spec params block 0 params.tokens later) (fun prepared latest _ _ => ?_)
      (fun _ _ _ _ => trivial) fun _ _ _ => trivial
    dsimp only
    split
    · trivial
    · exact (fetchBatch_spec config params block _ _ _ latest).weaken fun _ _ _ => trivial

/-- Every handler keeps to what its own replies allow, from its first operation on. -/
theorem Request.program_ensures (request : Request) :
    Ensures (handlerAllowed request) Sigma.mk (handlerPost request) (request.program config) [] := by
  cases request with
  | price params force => exact price_ensures config params force (by simp [Unhit])
  | prices params => exact prices_ensures config params []

end

end YPriceMagic.Server
