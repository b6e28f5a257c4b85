import YPriceMagic.Server.Addresses
import YPriceMagic.Server.ErrorEnvelope
import YPriceMagic.Server.HandlerSpecs

/-! The addresses that a request hands on: to the price library, to the supervised lookups, to the
locks and to the keys of the cache. -/
namespace YPriceMagic.Server
open YPriceMagic.Async YPriceMagic.Async.Coroutine YPriceMagic.Runtime

def Query.addresses : Query → List String
  | .price token _ _ ignorePools => token::ignorePools
  | .prices tokens _ _ => tokens
  | .bucket token | .symbol token | .name token | .decimals token => [token]
  | .headBlock | .blockAtTimestamp _ | .blockTimestamp _ => []

def Lookup.addresses : Lookup → List String
  | .price token _ _ ignorePools => token::ignorePools
  | .batch tokens _ _ => tokens
  | .classify token => [token]

def Op.addresses : Op → List String
  | .await queries => queries.flatMap Query.addresses
  | .acquire (.token token) | .release (.token token) => [token]
  | .getCachedPrice token _ | .getCachedError token _ | .setCachedPrice token _ _ _ | .setCachedError token _ _ => [token]
  | .runLookup lookup => lookup.addresses
  | .sleep _ | .acquire .guard | .release .guard => []

def Endpoint.addresses : Endpoint → List String
  | .price params _ => params.token::params.ignorePools
  | .prices params => params.tokens
  | .checkBucket token => [token]

/-- Some replies bring the program to the operation. -/
def Performs {α : Type} (op : Op) : Program α → Prop
  | .finished _ => False
  | .perform next resume => op = next ∨ ∃ reply, Performs op (resume reply)

/-- An operation of the request, or of a lookup it starts, carries the address. -/
def Endpoint.HandsOn (config : Config) (endpoint : Endpoint) (address : String) : Prop :=
  ∃ op : Op, address ∈ op.addresses ∧ (Performs op (endpoint.program config) ∨
    ∃ lookup, Performs (.runLookup lookup) (endpoint.program config) ∧ Performs op (lookup.program config))

/-- The amounts of a batch are those of its tokens. -/
def Lookup.Aligned : Lookup → Prop
  | .batch tokens _ amounts => ∀ list ∈ amounts, list.length = tokens.length
  | _ => True

/-- An operation carries no other addresses, and a lookup that it starts is aligned. -/
def Carries (addresses : List String) (_ : List Event) : Op → Prop
  | .runLookup lookup => lookup.addresses ⊆ addresses ∧ lookup.Aligned
  | op => op.addresses ⊆ addresses

theorem Carries.addresses {addresses : List String} {history : List Event} {op : Op}
    (carries : Carries addresses history op) : op.addresses ⊆ addresses := by
  cases op with
  | runLookup lookup => exact carries.1
  | _ => exact carries

theorem Spec.performs {α : Type} {addresses : List String} {fact : α → List Event → Prop} {program : Program α}
    {history : List Event} {op : Op} (spec : Spec (Carries addresses) fact program history)
    (performed : Performs op program) : Carries addresses [] op := by
  induction program generalizing history with
  | finished outcome => exact performed.elim
  | perform next resume ih =>
    obtain rfl | ⟨reply,later⟩ := performed
    · exact spec.1
    · exact ih reply (spec.2 reply) later

section
variable {addresses : List String} {history : List Event} {α : Type}

theorem carries_plain {op : Op} (plain : op.isLookup = false) (carried : op.addresses ⊆ addresses) :
    Carries addresses history op := by
  cases op with
  | runLookup lookup => cases plain
  | _ => exact carried

theorem carries_none {op : Op} (bare : op.addresses = []) (plain : op.isLookup = false) : Carries addresses history op := by
  refine carries_plain plain ?_
  rw [bare]
  exact List.nil_subset addresses

theorem carries_one {token : String} (member : token ∈ addresses) : [token] ⊆ addresses :=
  List.cons_subset.mpr ⟨member,List.nil_subset addresses⟩

theorem awaits_one {query : Query} (carried : query.addresses ⊆ addresses) : Carries addresses history (.await [query]) := by
  change [query].flatMap Query.addresses ⊆ addresses
  rwa [List.flatMap_singleton]

theorem fetchBlockTimestamp_carries (block : Nat) :
    Spec (Carries addresses) (fun _ _ => True) (fetchBlockTimestamp block) history :=
  (fetchBlockTimestamp_spec (carries_none rfl rfl)).weaken fun outcome _ _ => by cases outcome <;> trivial

variable (config : Config)

theorem fetchPriceAndCache_carries {token : String} {block : Nat} {amount : Option Rat} {ignorePools : List String}
    (carried : token::ignorePools ⊆ addresses) :
    Spec (Carries addresses) (fun _ _ => True) (fetchPriceAndCache config token block amount ignorePools) history := by
  have once (history : List Event) : Spec (Carries addresses) (fun _ _ => True)
      (fetchPriceOnce config token block amount ignorePools) history := by
    refine (call_spec (awaits_one carried)).bind fun p later _ _ => ?_
    cases p with
    | none => exact spec_pure trivial
    | some p =>
      dsimp only
      split
      · exact spec_raise _
      · split
        · exact spec_raise _
        · exact spec_pure trivial
  refine (retrying_spec (fun _ _ => carries_none rfl rfl) once [1] history).bind fun result later _ _ => ?_
  rcases result with _ | ⟨price,tradePath⟩
  · exact spec_pure trivial
  · refine (fetchBlockTimestamp_carries block).bind fun blockTimestamp latest _ _ => ?_
    have stored : Spec (Carries addresses) (fun _ _ => True) (if amount.isNone && ignorePools.isEmpty then
        setCachedPrice token block price blockTimestamp else pure ()) latest := by
      split
      · exact ⟨carries_one (carried List.mem_cons_self),fun _ => spec_pure trivial⟩
      · exact spec_pure trivial
    exact stored.bind fun _ _ _ _ => spec_pure trivial

theorem chosen_subset {tokens : List String} {amounts : List (Option Rat)} (sized : amounts.length = tokens.length)
    (wanted : Option Rat → Bool) : (indicesWhere amounts wanted).map (tokens.getD · "") ⊆ tokens := by
  intro token member
  obtain ⟨i,chosen,rfl⟩ := List.mem_map.mp member
  have inside : i < tokens.length := sized ▸ (mem_indicesWhere.mp chosen).1
  simp [inside]

theorem fetchBatchPrices_carries {tokens : List String} {block : Nat} {amounts : Option (List (Option Rat))}
    (carried : tokens ⊆ addresses) (aligned : ∀ list ∈ amounts, list.length = tokens.length) :
    Spec (Carries addresses) (fun _ _ => True) (fetchBatchPrices tokens block amounts) history := by
  have once (amounts : Option (List Rat)) : Spec (Carries addresses) (fun _ _ => True)
      (call (.prices tokens block amounts) >>= fun answers => pure answers.1) history :=
    (call_spec (awaits_one carried)).bind fun _ _ _ _ => spec_pure trivial
  have looked : Spec (Carries addresses) (fun _ _ => True) (lookupBatchPrices tokens block amounts) history := by
    unfold lookupBatchPrices
    cases amounts with
    | none => exact once none
    | some amounts =>
      have sized := aligned amounts rfl
      dsimp only
      split
      · exact once none
      · split
        · exact once _
        · refine (gather_spec ?_).bind fun answers later _ _ => spec_pure trivial
          have spots := List.Subset.trans (chosen_subset sized (·.isNone)) carried
          have quotes := List.Subset.trans (chosen_subset sized (·.isSome)) carried
          simpa [Carries,Op.addresses,Query.addresses] using ⟨spots,quotes⟩
  exact looked.bind fun _ _ _ _ => spec_pure trivial

theorem classifyToken_carries {token : String} (carried : token ∈ addresses) :
    Spec (Carries addresses) (fun _ _ => True) (classifyToken config token) history := by
  have one := carries_one carried
  have named (query : Query) (asks : query.addresses = [token]) (events : List Event) :
      Carries addresses events (.await [query]) := awaits_one (asks ▸ one)
  have metadata (events : List Event) : Spec (Carries addresses) (fun _ _ => True) (fetchMetadata token) events := by
    refine ((gather_spec ?_).bind fun _ _ _ _ => spec_pure trivial).tryExcept fun _ _ _ => spec_pure trivial
    simpa [Carries,Op.addresses,Query.addresses] using carried
  have locked : Spec (Carries addresses) (fun lock _ => lock = .token token) (getTokenLock token) history := by
    refine ⟨carries_none rfl rfl,fun reply => ?_⟩
    cases reply with
    | returned _ => exact ⟨carries_none rfl rfl,fun _ => rfl⟩
    | raised error => trivial
    | cancelled => trivial
  refine locked.bind fun tokenLock later _ same => ?_
  subst same
  refine withLock_spec (fun _ => one) (fun _ => one) (fun events => Spec.tryExcept ?_ fun _ _ _ => spec_pure trivial) later
  refine (call_spec (named _ rfl events)).bind fun bucket latest _ _ => ?_
  exact (metadata latest).bind fun _ _ _ _ => spec_pure trivial

theorem lookup_carries {lookup : Lookup} (carried : lookup.addresses ⊆ addresses) (aligned : lookup.Aligned) :
    Spec (Carries addresses) (fun _ _ => True) (lookup.program config) [] := by
  cases lookup with
  | price token block amount ignorePools => exact fetchPriceAndCache_carries config carried
  | batch tokens block amounts => exact fetchBatchPrices_carries carried aligned
  | classify token => exact classifyToken_carries config (carried List.mem_cons_self)

theorem resolveBlock_carries (block : Option Nat) (timestamp : Option Int) :
    Spec (Carries addresses) (fun _ _ => True) (resolveBlock config block timestamp) history :=
  (resolveBlock_ensures config (carries_none rfl rfl) (fun _ => carries_none rfl rfl) block timestamp).weaken
    fun outcome _ _ => by cases outcome <;> trivial

theorem lookupPrice_carries {params : PriceParams} {block : Nat} (carried : params.token::params.ignorePools ⊆ addresses) :
    Spec (Carries addresses) (fun _ _ => True) (lookupPrice config params block) history := by
  refine ⟨⟨carried,trivial⟩,fun reply => ?_⟩
  cases reply with
  | raised error => trivial
  | cancelled => trivial
  | returned result =>
    rcases result with _ | ⟨price,tradePath,blockTimestamp⟩
    · change Spec _ _ ((if params.spot then setCachedError _ _ _ else pure ()) >>= fun _ => pure _) _
      split
      · exact ⟨carries_one (carried List.mem_cons_self),fun _ => spec_pure trivial⟩
      · exact spec_pure trivial
    · exact spec_pure trivial

theorem handlePriceRequest_carries {params : PriceParams} {block : Nat} {force : Bool}
    (carried : params.token::params.ignorePools ⊆ addresses) :
    Spec (Carries addresses) (fun _ _ => True) (handlePriceRequest config params block force) history := by
  have token := carries_one (carried List.mem_cons_self)
  unfold handlePriceRequest
  split
  · refine ⟨token,fun cached => ?_⟩
    cases cached with
    | some cached => exact spec_pure trivial
    | none =>
      change Spec _ _ (if force then _ else _) _
      split
      · exact lookupPrice_carries config carried
      · refine ⟨token,fun cachedErr => ?_⟩
        cases cachedErr with
        | some error => exact spec_pure trivial
        | none => exact lookupPrice_carries config carried
  · exact lookupPrice_carries config carried

theorem prepareBatchCacheCheck_carries (params : BatchParams) (block i : Nat) {tokens : List String}
    (carried : tokens ⊆ addresses) :
    Spec (Carries addresses) (fun prepared _ => prepared.2.1 ⊆ addresses ∧ prepared.2.1.length = prepared.2.2.length)
      (prepareBatchCacheCheck params block i tokens) history := by
  induction tokens generalizing i history with
  | nil => exact spec_pure ⟨List.nil_subset addresses,rfl⟩
  | cons token rest ih =>
    obtain ⟨member,rest⟩ := List.cons_subset.mp carried
    have read : Spec (Carries addresses) (fun _ _ => True)
        (if (params.amountAt i).isNone then getCachedPrice token block else pure none) history := by
      split
      · exact ⟨carries_one member,fun _ => spec_pure trivial⟩
      · exact spec_pure trivial
    refine read.bind fun cached later _ _ => (ih (i+1) rest).bind fun prepared latest _ known => ?_
    cases cached with
    | some cached => exact spec_pure known
    | none => exact spec_pure ⟨List.cons_subset.mpr ⟨member,known.1⟩,congrArg (· + 1) known.2⟩

theorem fillBatchResults_carries (params : BatchParams) (block : Nat) (blockTimestamp : Option Int)
    {fetched : List (String × Nat)} (carried : ∀ asked ∈ fetched, asked.1 ∈ addresses)
    (prices : List (Option (PyFloat × Option TradePath))) (results : List (Option BatchItem)) :
    Spec (Carries addresses) (fun _ _ => True)
      (fillBatchResults params block blockTimestamp fetched prices results) history := by
  induction fetched generalizing prices results history with
  | nil => exact spec_pure trivial
  | cons asked fetched ih =>
    obtain ⟨token,i⟩ := asked
    obtain ⟨member,rest⟩ := List.forall_mem_cons.mp carried
    cases prices with
    | nil => exact spec_raise _
    | cons entry prices =>
      have stored : Spec (Carries addresses) (fun _ _ => True)
          (cacheFetched params token i block blockTimestamp entry) history := by
        rcases entry with _ | ⟨price,path⟩
        · exact spec_pure trivial
        · change Spec _ _ (if (params.amountAt i).isNone then setCachedPrice token block price blockTimestamp else pure ()) _
          split
          · exact ⟨carries_one member,fun _ => spec_pure trivial⟩
          · exact spec_pure trivial
      exact stored.bind fun _ later _ _ => ih rest prices _

theorem prices_carries {params : BatchParams} (carried : params.tokens ⊆ addresses) :
    Spec (Carries addresses) (fun _ _ => True) (prices config params) history := by
  refine (resolveBlock_carries config params.block params.timestamp).bind fun resolved later _ _ => ?_
  cases resolved with
  | error response => exact spec_pure trivial
  | ok block =>
    refine (prepareBatchCacheCheck_carries params block 0 carried).bind fun prepared latest _ known => ?_
    obtain ⟨results,tokensToFetch,indicesToFetch⟩ := prepared
    dsimp only
    split
    · exact spec_pure trivial
    · refine ⟨⟨known.1,?_⟩,fun reply => ?_⟩
      · intro list chosen
        obtain ⟨amounts,_,rfl⟩ := Option.map_eq_some_iff.mp chosen
        rw [List.length_map]
        exact known.2.symm
      · cases reply with
        | cancelled => trivial
        | raised error => cases error <;> exact spec_pure trivial
        | returned prices =>
          refine (fetchBlockTimestamp_carries block).bind fun stamp _ _ _ => ?_
          refine (fillBatchResults_carries params block stamp ?_ prices results).bind fun _ _ _ _ => spec_pure trivial
          exact fun asked member => known.1 (List.of_mem_zip member).1

theorem Endpoint.carries (endpoint : Endpoint) :
    Spec (Carries endpoint.addresses) (fun _ _ => True) (endpoint.program config) [] := by
  cases endpoint with
  | price params force =>
    refine (resolveBlock_carries config params.block params.timestamp).bind fun resolved later _ _ => ?_
    cases resolved with
    | error response => exact spec_pure trivial
    | ok block => exact handlePriceRequest_carries config (List.Subset.refl _)
  | prices params => exact prices_carries config (List.Subset.refl _)
  | checkBucket token =>
    refine ⟨⟨List.Subset.refl _,trivial⟩,fun reply => ?_⟩
    cases reply with
    | returned response => exact spec_pure trivial
    | cancelled => trivial
    | raised error => cases error <;> trivial

/-- A request hands on no address but its own. -/
theorem Endpoint.HandsOn.own {config : Config} {endpoint : Endpoint} {address : String}
    (handed : endpoint.HandsOn config address) : address ∈ endpoint.addresses := by
  obtain ⟨op,member,performed | ⟨lookup,starts,performed⟩⟩ := handed
  · exact ((endpoint.carries config).performs performed).addresses member
  · obtain ⟨carried,aligned⟩ := (endpoint.carries config).performs starts
    exact ((lookup_carries config carried aligned).performs performed).addresses member

theorem handlePriceRequest_handsOn (params : PriceParams) (block : Nat) (force : Bool) :
    ∃ op : Op, params.token ∈ op.addresses ∧ Performs op (handlePriceRequest config params block force) := by
  unfold handlePriceRequest
  split
  · exact ⟨_,List.mem_cons_self,Or.inl rfl⟩
  · exact ⟨.runLookup (.price params.token block params.amount params.ignorePools),List.mem_cons_self,Or.inl rfl⟩

theorem price_handsOn (params : PriceParams) (force : Bool) : (Endpoint.price params force).HandsOn config params.token := by
  -- some block is found, whatever the request says of it
  have found : ∃ block, ∀ op, Performs op (handlePriceRequest config params block force) →
      Performs op (price config params force) := by
    obtain ⟨token,block,amount,ignorePools,timestamp⟩ := params
    cases timestamp with
    | some timestamp => exact ⟨0,fun op performed => Or.inr ⟨.returned (0,()),performed⟩⟩
    | none =>
      cases block with
      | some block => exact ⟨block,fun op performed => performed⟩
      | none => exact ⟨0,fun op performed => Or.inr ⟨.returned (0,()),performed⟩⟩
  obtain ⟨block,reaches⟩ := found
  obtain ⟨op,member,performed⟩ := handlePriceRequest_handsOn config params block force
  exact ⟨op,member,Or.inl (reaches op performed)⟩

theorem checkBucket_handsOn (token : String) : (Endpoint.checkBucket token).HandsOn config token :=
  ⟨.runLookup (.classify token),List.mem_cons_self,Or.inl (Or.inl rfl)⟩

end

/-- A request of the endpoints that take addresses, with the texts of its parameters. -/
inductive AddressRequest
  | price (token block amount ignorePools timestamp : Option String) (force : Bool)
  | prices (tokens block amounts timestamp : Option String)
  | checkBucket (token : Option String)

namespace AddressRequest

/-- The validation with which each endpoint begins. -/
def accept (now : Python.Datetime.Utc) : AddressRequest → Parser Endpoint
  | price token block amount ignorePools timestamp force => do
    let params ← parsePriceParams now token block amount ignorePools timestamp
    return .price params force
  | prices tokens block amounts timestamp => do
    let params ← parseBatchParams now tokens block amounts timestamp
    return .prices params
  | checkBucket token => do
    let token ← checkBucketToken token
    return .checkBucket token

/-- The text that is checked without being trimmed first. -/
def untrimmed : AddressRequest → Option String
  | price token _ _ _ _ _ => token
  | prices _ _ _ _ => none
  | checkBucket token => token

end AddressRequest

section
open YPriceMagic.Python.Call
variable {now : Python.Datetime.Utc}

theorem checkBucketToken_yields {token : Option String} {address : String}
    (accepted : (checkBucketToken token).Yields address) : token = some address ∧ isValidAddress address = true := by
  cases token with
  | none => simp [checkBucketToken] at accepted
  | some token =>
    simp only [checkBucketToken,yields_ite,yields_throw,yields_pure,and_false,false_or,Bool.not_eq_true'] at accepted
    obtain ⟨_,valid,rfl⟩ := accepted
    exact ⟨rfl,by simpa using valid⟩

theorem parsePriceParams_yields {token block amount ignorePools timestamp : Option String} {params : PriceParams}
    (accepted : (parsePriceParams now token block amount ignorePools timestamp).Yields params) :
    token = some params.token ∧ isValidAddress params.token = true ∧ ∀ pool ∈ params.ignorePools, ExactAddress pool := by
  cases token with
  | none => simp [parsePriceParams] at accepted
  | some token =>
    simp only [parsePriceParams,yields_ite,yields_throw,yields_bind,yields_pure,and_false,false_or,
      Bool.not_eq_true'] at accepted
    obtain ⟨_,valid,_,_,_,_,pools,read,_,_,_,rfl⟩ := accepted
    exact ⟨rfl,by simpa using valid,parseIgnorePools_exact read⟩

theorem parseBatchParams_tokens {tokens block amounts timestamp : Option String} {params : BatchParams}
    (accepted : (parseBatchParams now tokens block amounts timestamp).Yields params) :
    (parseTokens tokens).Yields params.tokens := by
  simp only [parseBatchParams,yields_bind] at accepted
  obtain ⟨parsed,read,_,_,_,_,accepted⟩ := accepted
  split at accepted
  · simp only [yields_bind,yields_ite,yields_throw,yields_pure,and_false,false_or] at accepted
    obtain ⟨_,_,_,rfl⟩ := accepted
    exact read
  · exact absurd accepted (yields_throw _ _)

/-- What an accepted request hands on is an address and nothing else, unless a text that was not
trimmed ends in a newline. -/
theorem handed_exact_iff (now : Python.Datetime.Utc) (config : Config) (request : AddressRequest) (endpoint : Endpoint)
    (accepted : (request.accept now).Yields endpoint) :
    (∀ address, endpoint.HandsOn config address → ExactAddress address) ↔
      ∀ text ∈ request.untrimmed, ¬EndsInNewline text := by
  cases request with
  | price token block amount ignorePools timestamp force =>
    obtain ⟨params,parsed,same⟩ := (yields_bind _ _ _).mp accepted
    cases (yields_pure _ _).mp same
    obtain ⟨rfl,valid,pools⟩ := parsePriceParams_yields parsed
    have trimmed := exactAddress_iff valid
    constructor
    · intro sound text read
      cases read
      exact trimmed.mp (sound _ (price_handsOn config params force))
    · intro clean address handed
      obtain rfl | pool := List.mem_cons.mp handed.own
      · exact trimmed.mpr (clean _ rfl)
      · exact pools address pool
  | prices tokens block amounts timestamp =>
    obtain ⟨params,parsed,same⟩ := (yields_bind _ _ _).mp accepted
    cases (yields_pure _ _).mp same
    have all := parseTokens_exact (parseBatchParams_tokens parsed)
    exact ⟨fun _ text absent => (Option.not_mem_none text absent).elim,fun _ address handed => all address handed.own⟩
  | checkBucket token =>
    obtain ⟨address,parsed,same⟩ := (yields_bind _ _ _).mp accepted
    cases (yields_pure _ _).mp same
    obtain ⟨rfl,valid⟩ := checkBucketToken_yields parsed
    have trimmed := exactAddress_iff valid
    constructor
    · intro sound text read
      cases read
      exact trimmed.mp (sound _ (checkBucket_handsOn config address))
    · intro clean other handed
      rw [List.mem_singleton.mp handed.own]
      exact trimmed.mpr (clean _ rfl)

theorem handed_exact_sample :
    (∀ address, (Endpoint.checkBucket sampleAddress).HandsOn ethereum address → ExactAddress address) ↔
      ∀ text ∈ some sampleAddress, ¬EndsInNewline text :=
  handed_exact_iff november ethereum (.checkBucket (some sampleAddress)) (.checkBucket sampleAddress) rfl

/-- An address and a newline: `$` matches before it, and nothing trims it. -/
def newlineAddress : String := sampleAddress ++ "\n"

theorem newline_handed_on :
    (((AddressRequest.price (some newlineAddress) none none none none false).accept november).Yields
      (.price ⟨newlineAddress,none,none,[],none⟩ false) ∧
      (Endpoint.price ⟨newlineAddress,none,none,[],none⟩ false).HandsOn ethereum newlineAddress) ∧
    (((AddressRequest.checkBucket (some newlineAddress)).accept november).Yields (.checkBucket newlineAddress) ∧
      (Endpoint.checkBucket newlineAddress).HandsOn ethereum newlineAddress) ∧
    ¬ExactAddress newlineAddress := by
  refine ⟨⟨rfl,price_handsOn ethereum _ false⟩,⟨rfl,checkBucket_handsOn ethereum newlineAddress⟩,?_⟩
  exact fun sound => sound.no_newline (by decide)

end
end YPriceMagic.Server
