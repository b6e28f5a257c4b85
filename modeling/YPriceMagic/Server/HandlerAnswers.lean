import YPriceMagic.Server.LookupAnswers

/-! What the handlers reply with. A reply to a request goes back to what the handler has
read from the cache or got from its own lookup, at the block that the request means. -/
namespace YPriceMagic.Server
open YPriceMagic.Async YPriceMagic.Async.Coroutine YPriceMagic.Runtime

/-- The block of a request: the one at its timestamp, the one it names, or the head of the chain. -/
def BlockOf (events : List Event) (block : Option Nat) (timestamp : Option Int) (actual : Nat) : Prop :=
  match timestamp,block with
  | some timestamp,_ => Answered events (.blockAtTimestamp timestamp) actual
  | none,some block => actual = block
  | none,none => Answered events .headBlock actual

theorem BlockOf.mono {events later : List Event} {block : Option Nat} {timestamp : Option Int} {actual : Nat}
    (resolved : BlockOf events block timestamp actual) (kept : events ⊆ later) : BlockOf later block timestamp actual := by
  unfold BlockOf at resolved ⊢
  split
  · exact Answered.mono resolved kept
  · exact resolved
  · exact Answered.mono resolved kept

def BlockFact (block : Option Nat) (timestamp : Option Int) : Except JSONResponse Nat → List Event → Prop
  | .ok actual,events => BlockOf events block timestamp actual
  | .error response,_ => 400 ≤ response.statusCode ∧ response.statusCode ≠ 404

section
variable (config : Config) (history : List Event)

theorem unresolved_answers (block : Option Nat) (timestamp : Option Int) {status : Nat} (message : String) (other : 400 ≤ status ∧ status ≠ 404) :
    Spec Free (BlockFact block timestamp) (pure (.error (makeErrorResponse config status message))) history :=
  spec_pure other

theorem resolveBlock_answers (block : Option Nat) (timestamp : Option Int) :
    Spec Free (BlockFact block timestamp) (resolveBlock config block timestamp) history := by
  cases timestamp with
  | some timestamp =>
    have asked : Spec Free (BlockFact block (some timestamp))
        (call (.blockAtTimestamp timestamp) >>= fun actual => pure (.ok actual)) history :=
      (call_spec trivial).bind fun actual later _ answered => spec_pure (Answered.mono answered (List.Subset.refl _))
    refine Spec.tryExcept asked fun error later _ => unresolved_answers config later block _ _ ?_
    split <;> decide
  | none =>
    refine Spec.tryExcept ?_ fun error later _ => ?_
    · cases block with
      | some block => exact spec_pure (rfl : block = block)
      | none =>
        have asked : Spec Free (BlockFact none none) (call .headBlock >>= fun actual => pure (.ok actual)) history :=
          (call_spec trivial).bind fun actual later _ answered => spec_pure (Answered.mono answered (List.Subset.refl _))
        exact asked
    · split
      · exact unresolved_answers config later block none _ (by decide)
      · split
        · exact unresolved_answers config later block none _ (by decide)
        · exact spec_raise _

/-- A price was read from the cache or returned by the request's lookup, and a 404 repeats a
stored error or a lookup without a price. -/
def PriceReply (params : PriceParams) : Response → List Event → Prop
  | .price body,events => body.token = params.token ∧ body.chain = config.chainName ∧
      BlockOf events params.block params.timestamp body.block ∧ match body.cached with
        | true => params.spot = true ∧ body.tradePath = none ∧
            (⟨.getCachedPrice params.token body.block,some ⟨body.price,body.blockTimestamp⟩⟩ : Event) ∈ events
        | false => (⟨.runLookup (.price params.token body.block params.amount params.ignorePools),
            .returned (some (body.price,body.tradePath,body.blockTimestamp))⟩ : Event) ∈ events
  | .error response,events => 400 ≤ response.statusCode ∧ (response.statusCode = 404 →
      ∃ block, BlockOf events params.block params.timestamp block ∧
        ((⟨.runLookup (.price params.token block params.amount params.ignorePools),.returned none⟩ : Event) ∈ events ∨
          params.spot = true ∧ ∃ error, (⟨.getCachedError params.token block,some error⟩ : Event) ∈ events))
  | _,_ => False

theorem makeErrorResponse_status (status : Nat) (message : String) :
    (makeErrorResponse config status message).statusCode = status := rfl

theorem handlePriceError_found (e : Exn) (token : String) (block : Nat) :
    400 ≤ (handlePriceError config e token block).statusCode ∧ (handlePriceError config e token block).statusCode ≠ 404 := by
  unfold handlePriceError
  dsimp only
  split
  · simp [makeErrorResponse_status]
  · split <;> simp [makeErrorResponse_status,makeTimeoutResponse,makeOverloadResponse]

variable {history} (params : PriceParams) {block : Nat}

theorem lookupPrice_replies (resolved : BlockOf history params.block params.timestamp block) :
    Spec Free (PriceReply config params) (lookupPrice config params block) history := by
  refine ⟨trivial,fun reply => ?_⟩
  have known := resolved.mono (List.subset_append_left history
    [(⟨.runLookup (.price params.token block params.amount params.ignorePools),reply⟩ : Event)])
  cases reply with
  | raised error =>
    have found := handlePriceError_found config error params.token block
    exact ⟨found.1,fun missing => absurd missing found.2⟩
  | cancelled => trivial
  | returned value =>
    cases value with
    | some value => exact spec_pure ⟨rfl,rfl,known,List.mem_append_right _ (List.mem_singleton.mpr rfl)⟩
    | none =>
      change Spec _ _ ((if params.spot then setCachedError _ _ _ else pure ()) >>= fun _ => pure _) _
      let looked := history++[(⟨.runLookup (.price params.token block params.amount params.ignorePools),.returned none⟩ : Event)]
      have stored : Spec Free (fun _ later => looked <+: later) (if params.spot then
          setCachedError params.token block (notFoundMessage config params.token block) else pure ()) looked := by
        split
        · exact ⟨trivial,fun _ => spec_pure (List.prefix_append looked _)⟩
        · exact spec_pure List.prefix_rfl
      refine stored.bind fun _ later _ extended => spec_pure ⟨(by decide : 400 ≤ 404),fun _ => ⟨block,known.mono extended.subset,Or.inl ?_⟩⟩
      exact extended.subset (List.mem_append_right _ (List.mem_singleton.mpr rfl))

theorem handlePriceRequest_replies (force : Bool) (resolved : BlockOf history params.block params.timestamp block) :
    Spec Free (PriceReply config params) (handlePriceRequest config params block force) history := by
  unfold handlePriceRequest
  split
  · rename_i spot
    refine ⟨trivial,fun cached => ?_⟩
    have known := resolved.mono (List.subset_append_left history [(⟨.getCachedPrice params.token block,cached⟩ : Event)])
    cases cached with
    | some cached => exact spec_pure ⟨rfl,rfl,known,spot,rfl,List.mem_append_right _ (List.mem_singleton.mpr rfl)⟩
    | none =>
      change Spec _ _ (if force then _ else _) _
      split
      · exact lookupPrice_replies config params known
      · refine ⟨trivial,fun cachedErr => ?_⟩
        have again := known.mono (List.subset_append_left _ [(⟨.getCachedError params.token block,cachedErr⟩ : Event)])
        cases cachedErr with
        | some error =>
          refine spec_pure ⟨(by decide : 400 ≤ 404),fun _ => ⟨block,again,Or.inr ⟨spot,error,?_⟩⟩⟩
          exact List.mem_append_right _ (List.mem_singleton.mpr rfl)
        | none => exact lookupPrice_replies config params again
  · exact lookupPrice_replies config params resolved

variable (history)

theorem price_replies (force : Bool) : Spec Free (PriceReply config params) (price config params force) history := by
  refine (resolveBlock_answers config history params.block params.timestamp).bind fun answer later _ resolved => ?_
  cases answer with
  | error response => exact spec_pure ⟨resolved.1,fun missing => absurd missing resolved.2⟩
  | ok block => exact handlePriceRequest_replies config params force resolved

end

section
variable (params : BatchParams) (block : Nat)

/-- The lookup of the batch returned this for some place with the token and the amount. -/
def BatchReturned (events : List Event) (token : String) (amount : Option Rat) (entry : Option (PyFloat × Option TradePath)) : Prop :=
  ∃ tokens amounts prices, Aligned tokens amounts ∧ (⟨.runLookup (.batch tokens block amounts),.returned prices⟩ : Event) ∈ events ∧
    ∃ k : Nat, tokens[k]? = some token ∧ amounts.bind (·.getD k none) = amount ∧ prices[k]? = some entry

/-- An item is a cached price for a place without an amount, or what the lookup returned for its place. -/
def ItemReply (events : List Event) (token : String) (i : Nat) (item : BatchItem) : Prop :=
  (∃ cached, params.amountAt i = none ∧ item = cachedItem block token cached ∧
      (⟨.getCachedPrice token block,some cached⟩ : Event) ∈ events) ∨
    ∃ blockTimestamp entry, item = fetchedItem block blockTimestamp token entry ∧
      BatchReturned block events token (params.amountAt i) entry ∧ StampOf events block blockTimestamp

def Replied (events : List Event) (token : String) (i : Nat) (entry : Option (Option BatchItem)) : Prop :=
  ∃ item, entry = some (some item) ∧ ItemReply params block events token i item

variable {params block}

theorem BatchReturned.mono {events later : List Event} {token : String} {amount : Option Rat}
    {entry : Option (PyFloat × Option TradePath)} (returned : BatchReturned block events token amount entry)
    (kept : events ⊆ later) : BatchReturned block later token amount entry := by
  obtain ⟨tokens,amounts,prices,aligned,member,place⟩ := returned
  exact ⟨tokens,amounts,prices,aligned,kept member,place⟩

theorem Replied.mono {events later : List Event} {token : String} {i : Nat} {entry : Option (Option BatchItem)}
    (replied : Replied params block events token i entry) (kept : events ⊆ later) : Replied params block later token i entry := by
  obtain ⟨item,here,sound⟩ := replied
  refine ⟨item,here,?_⟩
  rcases sound with ⟨cached,spot,same,member⟩ | ⟨blockTimestamp,entry,same,returned,stamp⟩
  · exact Or.inl ⟨cached,spot,same,kept member⟩
  · exact Or.inr ⟨blockTimestamp,entry,same,returned.mono kept,stamp.mono kept⟩

variable (params block)

/-- From place `i` on, every token has its item already or waits to be fetched. -/
structure Prepared (i : Nat) (tokens : List String) (prepared : List (Option BatchItem) × List String × List Nat)
    (events : List Event) : Prop where
  size : prepared.1.length = tokens.length
  paired : prepared.2.1.length = prepared.2.2.length
  fetched : ∀ entry ∈ prepared.2.1.zip prepared.2.2, i ≤ entry.2 ∧ tokens[entry.2-i]? = some entry.1
  covered : ∀ (j : Nat) token, tokens[j]? = some token →
    Replied params block events token (i+j) prepared.1[j]? ∨ (token,i+j) ∈ prepared.2.1.zip prepared.2.2

variable {params block}

theorem Prepared.later {i : Nat} {tokens : List String} {results : List (Option BatchItem)} {tokensToFetch : List String}
    {indicesToFetch : List Nat} {events : List Event} {token : String} {item : Option BatchItem} {more : List (String × Nat)}
    (prepared : Prepared params block (i+1) tokens (results,tokensToFetch,indicesToFetch) events)
    (first : Replied params block events token i (some item) ∨ (token,i) ∈ more)
    (kept : ∀ entry ∈ tokensToFetch.zip indicesToFetch, entry ∈ more) (j : Nat) {other : String}
    (found : (token::tokens)[j]? = some other) :
    Replied params block events other (i+j) (item::results)[j]? ∨ (other,i+j) ∈ more := by
  cases j with
  | zero =>
    cases Option.some.inj found
    exact first
  | succ j =>
    have place : i+(j+1) = i+1+j := by omega
    rw [place]
    exact (prepared.covered j other found).imp_right (kept _)

theorem Prepared.place {i : Nat} {tokens : List String} {prepared : List (Option BatchItem) × List String × List Nat}
    {events : List Event} (known : Prepared params block (i+1) tokens prepared events) (token : String)
    (entry : String × Nat) (member : entry ∈ prepared.2.1.zip prepared.2.2) :
    i ≤ entry.2 ∧ (token::tokens)[entry.2-i]? = some entry.1 := by
  obtain ⟨bound,here⟩ := known.fetched entry member
  have place : entry.2-i = entry.2-(i+1)+1 := by omega
  exact ⟨by omega,by rw [place]; exact here⟩

variable (params block)

theorem prepareBatchCacheCheck_prepares (i : Nat) (tokens : List String) (history : List Event) :
    Spec Free (Prepared params block i tokens) (prepareBatchCacheCheck params block i tokens) history := by
  induction tokens generalizing i history with
  | nil => exact spec_pure ⟨rfl,rfl,by simp,by simp⟩
  | cons token rest ih =>
    have read : Spec Free (fun cached later => ∀ value, cached = some value → params.amountAt i = none ∧
        (⟨.getCachedPrice token block,some value⟩ : Event) ∈ later)
        (if (params.amountAt i).isNone then getCachedPrice token block else pure none) history := by
      split
      · rename_i spot
        refine ⟨trivial,fun cached => spec_pure fun value same => ⟨Option.isNone_iff_eq_none.mp spot,?_⟩⟩
        rw [← same]
        exact List.mem_append_right _ (List.mem_singleton.mpr rfl)
      · exact spec_pure fun value same => by simp at same
    refine read.bind fun cached later _ known => (ih (i+1) later).bind fun prepared latest extended held => ?_
    obtain ⟨results,tokensToFetch,indicesToFetch⟩ := prepared
    cases cached with
    | some cached =>
      obtain ⟨spot,member⟩ := known cached rfl
      refine spec_pure ⟨congrArg Nat.succ held.size,held.paired,fun entry among => held.place token entry among,?_⟩
      exact held.later (Or.inl ⟨_,rfl,Or.inl ⟨cached,spot,rfl,extended.subset member⟩⟩) fun _ among => among
    | none =>
      refine spec_pure ⟨congrArg Nat.succ held.size,congrArg Nat.succ held.paired,?_,?_⟩
      · intro entry among
        rcases List.mem_cons.mp among with rfl | tail
        · exact ⟨le_rfl,by simp⟩
        · exact held.place token entry tail
      · exact held.later (Or.inr List.mem_cons_self) fun _ among => List.mem_cons_of_mem _ among

theorem cacheFetched_extends (token : String) (i : Nat) (blockTimestamp : Option Int) (entry : Option (PyFloat × Option TradePath))
    (history : List Event) :
    Spec Free (fun _ later => history <+: later) (cacheFetched params token i block blockTimestamp entry) history := by
  unfold cacheFetched
  split
  · split
    · exact ⟨trivial,fun _ => spec_pure (List.prefix_append history _)⟩
    · exact spec_pure List.prefix_rfl
  · exact spec_pure List.prefix_rfl

def Complete (results : List (Option BatchItem)) (events : List Event) : Prop :=
  results.length = params.tokens.length ∧
    ∀ (j : Nat) token, params.tokens[j]? = some token → Replied params block events token j results[j]?

/-- Each round answers one place, with what the lookup returned for it. -/
theorem fillBatchResults_completes (blockTimestamp : Option Int) (fetched : List (String × Nat))
    (prices : List (Option (PyFloat × Option TradePath))) (results : List (Option BatchItem)) (history : List Event)
    (size : results.length = params.tokens.length)
    (covered : ∀ (j : Nat) token, params.tokens[j]? = some token →
      Replied params block history token j results[j]? ∨ (token,j) ∈ fetched)
    (placed : ∀ entry ∈ fetched, params.tokens[entry.2]? = some entry.1)
    (returned : ∀ (k : Nat) asked entry, fetched[k]? = some asked → prices[k]? = some entry →
      BatchReturned block history asked.1 (params.amountAt asked.2) entry)
    (stamp : StampOf history block blockTimestamp) :
    Spec Free (Complete params block) (fillBatchResults params block blockTimestamp fetched prices results) history := by
  induction fetched generalizing prices results history with
  | nil =>
    refine spec_pure ⟨size,fun j token found => ?_⟩
    exact (covered j token found).resolve_right (by simp)
  | cons asked fetched ih =>
    obtain ⟨token,i⟩ := asked
    cases prices with
    | nil => exact spec_raise _
    | cons entry prices =>
      refine (cacheFetched_extends params block token i blockTimestamp entry history).bind fun _ later _ extended => ?_
      have kept := extended.subset
      refine ih prices _ later (by rw [List.length_set,size]) ?_ (fun other member => placed other (List.mem_cons_of_mem _ member))
        (fun k other entry found priced => (returned (k+1) other entry found priced).mono kept) (stamp.mono kept)
      intro j other found
      by_cases here : j = i
      · subst here
        have inside : j < results.length := by rw [size]; exact (List.getElem?_eq_some_iff.mp found).1
        have named : params.tokens[j]? = some token := placed (token,j) List.mem_cons_self
        rw [found] at named
        cases Option.some.inj named
        refine Or.inl ⟨fetchedItem block blockTimestamp token entry,by simp [inside,fetchedItem],Or.inr ⟨blockTimestamp,entry,rfl,?_,stamp.mono kept⟩⟩
        exact (returned 0 (token,j) entry rfl rfl).mono kept
      · rw [List.getElem?_set_ne fun same => here same.symm]
        rcases covered j other found with done | waiting
        · exact Or.inl (done.mono kept)
        · rcases List.mem_cons.mp waiting with first | rest
          · exact absurd (Prod.mk.inj first).2 here
          · exact Or.inr rest

def BatchReply (params : BatchParams) : Response → List Event → Prop
  | .prices items,events => ∃ block, BlockOf events params.block params.timestamp block ∧ Complete params block items events
  | .error response,_ => response.statusCode ≠ 404
  | _,_ => False

variable (config : Config)

theorem fetchBatch_replies {results : List (Option BatchItem)} {tokensToFetch : List String} {indicesToFetch : List Nat}
    {history : List Event} (resolved : BlockOf history params.block params.timestamp block)
    (prepared : Prepared params block 0 params.tokens (results,tokensToFetch,indicesToFetch) history) :
    Spec Free (BatchReply params) (fetchBatch config params block results tokensToFetch indicesToFetch) history := by
  refine ⟨trivial,fun reply => ?_⟩
  cases reply with
  | cancelled => trivial
  | raised error =>
    cases error with
    | overloaded message => exact spec_pure (by decide : (503 : Nat) ≠ 404)
    | _ =>
      refine spec_pure (?_ : JSONResponse.statusCode _ ≠ 404)
      simp [Exn.isTimeout,Exn.isOS,makeTimeoutResponse,makeErrorResponse_status]
  | returned prices =>
    let amounts := params.amounts.map fun amounts => indicesToFetch.map (amounts.getD · none)
    let looked := history++[(⟨.runLookup (.batch tokensToFetch block amounts),.returned prices⟩ : Event)]
    have member : (⟨.runLookup (.batch tokensToFetch block amounts),.returned prices⟩ : Event) ∈ looked := by simp [looked]
    have aligned : Aligned tokensToFetch amounts := by
      intro list chosen
      obtain ⟨given,_,rfl⟩ := Option.map_eq_some_iff.mp chosen
      rw [List.length_map]
      exact prepared.paired.symm
    refine (fetchBlockTimestamp_spec trivial).bind fun stamp later extended stamped => ?_
    have kept : history ⊆ later := ((List.prefix_append history _).trans extended).subset
    refine (fillBatchResults_completes params block stamp _ prices results later prepared.size ?_ ?_ ?_ stamped).bind
      fun items latest further complete => spec_pure ⟨block,resolved.mono (List.Subset.trans kept further.subset),complete⟩
    · intro j token found
      have held := prepared.covered j token found
      rw [Nat.zero_add] at held
      exact held.imp_left fun replied => replied.mono kept
    · intro entry among
      exact (prepared.fetched entry among).2
    · intro k asked entry place priced
      obtain ⟨token,index⟩ := List.getElem?_zip_eq_some.mp place
      refine ⟨tokensToFetch,amounts,prices,aligned,extended.subset member,k,token,?_,priced⟩
      cases given : params.amounts with
      | none => simp [amounts,given,BatchParams.amountAt]
      | some list => simp [amounts,given,BatchParams.amountAt,index]

theorem prices_replies (history : List Event) : Spec Free (BatchReply params) (prices config params) history := by
  refine (resolveBlock_answers config history params.block params.timestamp).bind fun answer later _ resolved => ?_
  cases answer with
  | error response => exact spec_pure resolved.2
  | ok block =>
    refine (prepareBatchCacheCheck_prepares params block 0 params.tokens later).bind fun found latest extended prepared => ?_
    obtain ⟨results,tokensToFetch,indicesToFetch⟩ := found
    have known := BlockOf.mono resolved extended.subset
    dsimp only
    split
    · rename_i empty
      have none_left : tokensToFetch = [] := List.isEmpty_iff.mp empty
      refine spec_pure ⟨block,known,prepared.size,fun j token found => ?_⟩
      have held := prepared.covered j token found
      rw [Nat.zero_add,none_left] at held
      exact held.resolve_right (by simp)
    · exact fetchBatch_replies params block config known prepared

end

def RequestReply (config : Config) : Request → Response → List Event → Prop
  | .price params _ => PriceReply config params
  | .prices params => BatchReply params

/-- Every reply is backed by what its own request has read and looked up. -/
theorem Request.program_replies (config : Config) (request : Request) :
    Spec Free (RequestReply config request) (request.program config) [] := by
  cases request with
  | price params force => exact price_replies config [] params force
  | prices params => exact prices_replies params config []

end YPriceMagic.Server
