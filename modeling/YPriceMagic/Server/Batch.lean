import YPriceMagic.Async.Entries
import YPriceMagic.Server.Handlers

/-! `/prices` against pricing one token at a time. The upstream answers every spot query
and every quote on its own, so a whole request is a computation on the cache. -/
namespace YPriceMagic.Server
open YPriceMagic.Async YPriceMagic.Async.Coroutine

/-- An upstream that answers pointwise, and whose price queries never fail. -/
structure Upstream where
  spot : String → Nat → Option PriceResult
  quote : String → Nat → Rat → Option PriceResult
  headBlock : Except Exn Nat
  blockAtTimestamp : Int → Except Exn Nat
  blockTimestamp : Nat → Except Exn Int
  bucket : String → Except Exn (Option String)
  metadata : String → Except Exn Metadata

def outcomeOf {α : Type} : Except Exn α → Outcome Exn α
  | .ok value => .returned value
  | .error error => .raised error

namespace Upstream

variable (upstream : Upstream)

def answerQuery : (query : Query) → Outcome Exn (Answer query)
  | .headBlock => outcomeOf upstream.headBlock
  | .blockAtTimestamp timestamp => outcomeOf (upstream.blockAtTimestamp timestamp)
  | .price token block none _ => .returned (upstream.spot token block)
  | .price token block (some amount) _ => .returned (upstream.quote token block amount)
  | .prices tokens block none => .returned ⟨tokens.map (upstream.spot · block),by simp⟩
  | .prices tokens block (some amounts) =>
    .returned ⟨tokens.mapIdx fun i token => upstream.quote token block (amounts.getD i 0),by simp⟩
  | .blockTimestamp block => outcomeOf (upstream.blockTimestamp block)
  | .bucket token => outcomeOf (upstream.bucket token)
  | .symbol token => outcomeOf ((upstream.metadata token).map (·.symbol))
  | .name token => outcomeOf ((upstream.metadata token).map (·.name))
  | .decimals token => outcomeOf ((upstream.metadata token).map (·.decimals))

def answerAll : (queries : List Query) → Outcome Exn (Answers queries)
  | [] => .returned ()
  | query::rest =>
    match upstream.answerQuery query,answerAll rest with
    | .returned answer,.returned answers => .returned (answer,answers)
    | .raised error,_ | _,.raised error => .raised error
    | _,_ => .cancelled

def perform (op : Op) (cache : Cache) : Reply op × Cache :=
  match op with
  | .await queries => (upstream.answerAll queries,cache)
  | .sleep _ | .acquire _ => (.returned (),cache)
  | .release _ => ((),cache)
  | .getCachedPrice token block => (cache.getCachedPrice token block,cache)
  | .getCachedError token block => (cache.getCachedError token block,cache)
  | .setCachedPrice token block price blockTimestamp => ((),cache.setCachedPrice token block price blockTimestamp)
  | .setCachedError token block error => ((),cache.setCachedError token block error)
  | .runLookup _ => (.raised (.other "a lookup runs no lookup"),cache)

/-- The operations of a handler: a lookup runs to its end. -/
def serve (config : Config) (op : Op) (cache : Cache) : Reply op × Cache :=
  match op with
  | .runLookup lookup => (lookup.program config).eval upstream.perform cache
  | op => upstream.perform op cache

def asked (block : Nat) (token : String) : Option Rat → Option PriceResult
  | none => upstream.spot token block
  | some amount => upstream.quote token block amount

end Upstream

section
variable (upstream : Upstream)

theorem eval_call {σ : Type} {answers : (op : Op) → σ → Reply op × σ} {query : Query} {state after : σ}
    {answer : Answer query} (answered : answers (.await [query]) state = (.returned (answer,()),after)) :
    (call query).eval answers state = (.returned answer,after) := by
  have gathered : (gather [query]).eval answers state = (.returned (answer,()),after) := by
    rw [gather,eval_perform,answered]
    rfl
  rw [call,eval_bind_returned answers gathered]
  rfl

theorem mem_indicesWhere {amounts : List (Option Rat)} {wanted : Option Rat → Bool} {i : Nat} :
    i ∈ indicesWhere amounts wanted ↔ i < amounts.length ∧ wanted (amounts.getD i none) = true := by
  simp [indicesWhere]

theorem scatter_getElem? {α : Type} (results : List α) (indices : List Nat) (value : Nat → α) (i : Nat) :
    (scatter results indices (indices.map value))[i]? =
      if i ∈ indices then results[i]?.map (fun _ => value i) else results[i]? := by
  have pairs : indices.zip (indices.map value) = indices.map fun i => (i,value i) :=
    List.map_prod_left_eq_zip.symm
  have written := foldl_set_getElem? indices id value results (i := i) (fun write _ here => congrArg value here)
  rw [scatter,pairs,List.foldl_map]
  simpa using written

theorem filterMap_isSome {ι : Type} (items : List ι) (amount : ι → Option Rat)
    (present : ∀ item ∈ items, (amount item).isSome = true) :
    items.filterMap amount = items.map fun item => (amount item).getD 0 := by
  induction items with
  | nil => rfl
  | cons item rest ih =>
    obtain ⟨value,here⟩ := Option.isSome_iff_exists.mp (present item List.mem_cons_self)
    rw [List.filterMap_cons,here,List.map_cons,here,ih fun other member => present other (List.mem_cons_of_mem _ member)]
    rfl

theorem quotes_eq (tokens : List String) (block : Nat) (amounts : List (Option Rat)) (indices : List Nat)
    (present : ∀ i ∈ indices, (amounts.getD i none).isSome = true) :
    ((indices.map (tokens.getD · "")).mapIdx fun k token =>
        upstream.quote token block ((indices.filterMap (amounts.getD · none)).getD k 0)) =
      indices.map fun i => upstream.asked block (tokens.getD i "") (amounts.getD i none) := by
  rw [filterMap_isSome indices (amounts.getD · none) present]
  apply List.ext_getElem?
  intro k
  cases found : indices[k]? with
  | none => simp [found]
  | some i =>
    obtain ⟨amount,here⟩ := Option.isSome_iff_exists.mp (present i (List.mem_of_getElem? found))
    simp only [List.getElem?_mapIdx,List.getElem?_map,found,Option.map_some,List.getD_eq_getElem?_getD] at here ⊢
    simp [here,Upstream.asked]

theorem spots_eq (tokens : List String) (block : Nat) (amount : Nat → Option Rat)
    (blank : ∀ i < tokens.length, amount i = none) :
    tokens.map (upstream.spot · block) = tokens.mapIdx fun i token => upstream.asked block token (amount i) := by
  apply List.ext_getElem?
  intro i
  rw [List.getElem?_map,List.getElem?_mapIdx]
  rcases Nat.lt_or_ge i tokens.length with inside | beyond
  · rw [blank i inside]
    rfl
  · simp [List.getElem?_eq_none beyond]

/-- What a mixed batch puts together from its two halves. -/
theorem scattered_eq (tokens : List String) (block : Nat) (amounts : List (Option Rat))
    (size : amounts.length = tokens.length) :
    scatter (scatter (List.replicate tokens.length none) (indicesWhere amounts (·.isNone))
        ((indicesWhere amounts (·.isNone)).map fun i => upstream.spot (tokens.getD i "") block))
      (indicesWhere amounts (·.isSome))
      ((indicesWhere amounts (·.isSome)).map fun i => upstream.asked block (tokens.getD i "") (amounts.getD i none)) =
      tokens.mapIdx fun i token => upstream.asked block token (amounts.getD i none) := by
  apply List.ext_getElem?
  intro i
  rw [scatter_getElem?,scatter_getElem?,List.getElem?_mapIdx]
  simp only [mem_indicesWhere,List.getElem?_replicate,size]
  rcases Nat.lt_or_ge i tokens.length with inside | beyond
  · have token : tokens.getD i "" = tokens[i] := by simp [inside]
    cases amount : amounts.getD i none with
    | none => simp [inside,Upstream.asked]
    | some value => simp [inside,Upstream.asked]
  · simp [Nat.not_lt.mpr beyond]

/-- A batch is answered token by token, however it is split. -/
theorem eval_lookupBatchPrices (tokens : List String) (block : Nat) (amounts : Option (List (Option Rat)))
    (aligned : ∀ list ∈ amounts, list.length = tokens.length) (cache : Cache) :
    (lookupBatchPrices tokens block amounts).eval upstream.perform cache =
      (.returned (tokens.mapIdx fun i token => upstream.asked block token (amounts.bind (·.getD i none))),cache) := by
  have spots : (call (.prices tokens block none) : Program _).eval upstream.perform cache =
      (.returned ⟨tokens.map (upstream.spot · block),by simp⟩,cache) := eval_call rfl
  let answered (answers : List (Option PriceResult)) : Outcome Exn (List (Option PriceResult)) × Cache :=
    (.returned answers,cache)
  unfold lookupBatchPrices
  cases amounts with
  | none =>
    dsimp only
    rw [eval_bind_returned _ spots]
    exact congrArg answered (spots_eq upstream tokens block (fun _ => none) fun _ _ => rfl)
  | some amounts =>
    have size := aligned amounts rfl
    dsimp only
    split
    · rename_i blank
      rw [eval_bind_returned _ spots]
      refine congrArg answered (spots_eq upstream tokens block (amounts.getD · none) fun i inside => ?_)
      have here : i < amounts.length := by omega
      simpa [here] using List.all_eq_true.mp blank _ (List.getElem_mem here)
    · split
      · rename_i full
        have quotes : (call (.prices tokens block (some (amounts.filterMap id))) : Program _).eval upstream.perform cache =
            (.returned ⟨tokens.mapIdx fun i token => upstream.quote token block ((amounts.filterMap id).getD i 0),
              by simp⟩,cache) := eval_call rfl
        rw [eval_bind_returned _ quotes]
        refine congrArg answered (List.ext_getElem? fun i => ?_)
        have present := filterMap_isSome amounts id fun amount member => List.all_eq_true.mp full amount member
        simp only [List.getElem?_mapIdx,present]
        rcases Nat.lt_or_ge i tokens.length with inside | beyond
        · have here : i < amounts.length := by omega
          obtain ⟨amount,value⟩ := Option.isSome_iff_exists.mp (List.all_eq_true.mp full _ (List.getElem_mem here))
          simp [here,value,Upstream.asked]
        · simp [List.getElem?_eq_none beyond]
      · -- the two halves come back in one gather and are scattered over the places they were taken from
        have present : ∀ i ∈ indicesWhere amounts (·.isSome), (amounts.getD i none).isSome = true :=
          fun i member => (mem_indicesWhere.mp member).2
        refine congrArg answered (Eq.trans ?_ (scattered_eq upstream tokens block amounts size))
        refine congrArg₂ (fun spots quotes => scatter (scatter _ _ spots) _ quotes) ?_
          (quotes_eq upstream tokens block amounts _ present)
        exact List.map_map

def Upstream.requestBlock (params : BatchParams) : Except Exn Nat :=
  match params.timestamp with
  | some timestamp => upstream.blockAtTimestamp timestamp
  | none => match params.block with
    | some block => .ok block
    | none => upstream.headBlock

def Upstream.timestampOf (block : Nat) : Option Int := (upstream.blockTimestamp block).toOption

variable (config : Config) (params : BatchParams) (block : Nat) (cache : Cache)

theorem eval_call_serve (query : Query) :
    (call query).eval (upstream.serve config) cache = (upstream.answerQuery query,cache) := by
  have gathered : (gather [query]).eval (upstream.serve config) cache = (upstream.answerAll [query],cache) := rfl
  rw [call,eval_bind,gathered]
  cases answered : upstream.answerQuery query <;> simp [Upstream.answerAll,answered,onValue]

theorem eval_resolveBatchBlock (resolved : upstream.requestBlock params = .ok block) :
    (resolveBatchBlock config params).eval (upstream.serve config) cache = (.returned (.ok block),cache) := by
  unfold Upstream.requestBlock at resolved
  unfold resolveBatchBlock resolveBlock
  cases stamp : params.timestamp with
  | some timestamp =>
    simp only [stamp] at resolved
    have called := eval_call_serve upstream config cache (.blockAtTimestamp timestamp)
    rw [Upstream.answerQuery,resolved] at called
    exact eval_tryExcept_returned _ (eval_bind_returned _ called)
  | none =>
    simp only [stamp] at resolved
    refine eval_tryExcept_returned _ ?_
    cases given : params.block with
    | some given =>
      simp only [given,Except.ok.injEq] at resolved
      subst resolved
      rfl
    | none =>
      simp only [given] at resolved
      have called := eval_call_serve upstream config cache .headBlock
      rw [Upstream.answerQuery,resolved] at called
      exact eval_bind_returned _ called

theorem eval_fetchBlockTimestamp :
    (fetchBlockTimestamp block).eval (upstream.serve config) cache = (.returned (upstream.timestampOf block),cache) := by
  have mapped : (some <$> call (.blockTimestamp block) : Program (Option Int)) =
      call (.blockTimestamp block) >>= fun timestamp => pure (some timestamp) := rfl
  unfold fetchBlockTimestamp tryExcept Upstream.timestampOf
  rw [eval_andThen,mapped,eval_bind,eval_call_serve,Upstream.answerQuery]
  cases upstream.blockTimestamp block <;> rfl

def BatchParams.hit (entry : String × Nat) : Option CachedPrice :=
  if (params.amountAt entry.2).isNone then cache.getCachedPrice entry.1 block else none

def cachedItem (token : String) (cached : CachedPrice) : BatchItem :=
  ⟨token,block,some cached.price,cached.blockTimestamp,true,none⟩

theorem eval_prepareBatchCacheCheck (i : Nat) (tokens : List String) :
    (prepareBatchCacheCheck params block i tokens).eval (upstream.serve config) cache =
      (.returned ((tokens.zipIdx i).map (fun entry => (params.hit block cache entry).map (cachedItem block entry.1)),
        ((tokens.zipIdx i).filter fun entry => (params.hit block cache entry).isNone).map (·.1),
        ((tokens.zipIdx i).filter fun entry => (params.hit block cache entry).isNone).map (·.2)),cache) := by
  induction tokens generalizing i with
  | nil => rfl
  | cons token rest ih =>
    have read : (if (params.amountAt i).isNone then getCachedPrice token block else pure none : Program _).eval
        (upstream.serve config) cache = (.returned (params.hit block cache (token,i)),cache) := by
      unfold BatchParams.hit
      split <;> rfl
    unfold prepareBatchCacheCheck
    rw [eval_bind_returned _ read,eval_bind_returned _ (ih (i+1))]
    simp only [List.zipIdx_cons,List.map_cons,List.filter_cons]
    cases hit : params.hit block cache (token,i) with
    | none => simp
    | some cached => simp [cachedItem]

def fetchedItem (blockTimestamp : Option Int) (token : String) (entry : Option (PyFloat × Option TradePath)) : BatchItem :=
  ⟨token,block,entry.map (·.1),blockTimestamp,false,some (entry.bind (·.2))⟩

def BatchParams.store (blockTimestamp : Option Int) (cache : Cache) (entry : String × Nat) :
    Option (PyFloat × Option TradePath) → Cache
  | some (price,_) =>
    if (params.amountAt entry.2).isNone then cache.setCachedPrice entry.1 block price blockTimestamp else cache
  | none => cache

theorem eval_fillBatchResults (blockTimestamp : Option Int) (fetched : List (String × Nat))
    (priced : String × Nat → Option (PyFloat × Option TradePath)) (results : List (Option BatchItem)) :
    (fillBatchResults params block blockTimestamp fetched (fetched.map priced) results).eval (upstream.serve config) cache =
      (.returned (fetched.foldl (fun results entry =>
          results.set entry.2 (some (fetchedItem block blockTimestamp entry.1 (priced entry)))) results),
        fetched.foldl (fun cache entry => params.store block blockTimestamp cache entry (priced entry)) cache) := by
  induction fetched generalizing results cache with
  | nil => rfl
  | cons entry rest ih =>
    obtain ⟨token,i⟩ := entry
    have stored : (cacheFetched params token i block blockTimestamp (priced (token,i))).eval (upstream.serve config) cache =
        (.returned (),params.store block blockTimestamp cache (token,i) (priced (token,i))) := by
      unfold cacheFetched BatchParams.store
      cases priced (token,i) with
      | none => rfl
      | some found =>
        dsimp only
        split <;> rfl
    rw [List.map_cons,fillBatchResults,eval_bind_returned _ stored,ih]
    rfl

theorem fetched_answers (fetched : List (String × Nat)) :
    ((fetched.map (·.1)).mapIdx fun k token => upstream.asked block token
        ((params.amounts.map fun amounts => (fetched.map (·.2)).map (amounts.getD · none)).bind (·.getD k none))) =
      fetched.map fun entry => upstream.asked block entry.1 (params.amountAt entry.2) := by
  apply List.ext_getElem?
  intro k
  rw [List.getElem?_mapIdx,List.getElem?_map,List.getElem?_map]
  cases found : fetched[k]? with
  | none => rfl
  | some entry => cases amounts : params.amounts <;> simp [BatchParams.amountAt,amounts,found]

theorem eval_fetchBatch (fetched : List (String × Nat)) (results : List (Option BatchItem)) :
    (fetchBatch config params block results (fetched.map (·.1)) (fetched.map (·.2))).eval (upstream.serve config) cache =
      (.returned (.prices (fetched.foldl (fun results entry => results.set entry.2 (some
          (fetchedItem block (upstream.timestampOf block) entry.1
            (validPrice (upstream.asked block entry.1 (params.amountAt entry.2)))))) results)),
        fetched.foldl (fun cache entry => params.store block (upstream.timestampOf block) cache entry
          (validPrice (upstream.asked block entry.1 (params.amountAt entry.2)))) cache) := by
  have aligned : ∀ list ∈ params.amounts.map fun amounts => (fetched.map (·.2)).map (amounts.getD · none),
      list.length = (fetched.map (·.1)).length := by
    intro list member
    obtain ⟨amounts,_,rfl⟩ := Option.map_eq_some_iff.mp member
    simp
  have looked := eval_lookupBatchPrices upstream (fetched.map (·.1)) block _ aligned cache
  rw [fetched_answers] at looked
  have ran : (runLookup (.batch (fetched.map (·.1)) block
      (params.amounts.map fun amounts => (fetched.map (·.2)).map (amounts.getD · none)))).eval (upstream.serve config) cache =
        (.returned (fetched.map fun entry => validPrice (upstream.asked block entry.1 (params.amountAt entry.2))),cache) := by
    have batch : (fetchBatchPrices (fetched.map (·.1)) block _).eval upstream.perform cache =
        (.returned ((fetched.map fun entry => upstream.asked block entry.1 (params.amountAt entry.2)).map validPrice),
          cache) := eval_bind_returned _ looked
    rw [List.map_map] at batch
    exact batch
  have zipped : (fetched.map (·.1)).zip (fetched.map (·.2)) = fetched := by
    rw [← List.unzip_fst,← List.unzip_snd,List.zip_unzip]
  unfold fetchBatch
  rw [eval_andThen,ran]
  dsimp only
  rw [eval_bind_returned _ (eval_fetchBlockTimestamp upstream config block cache),zipped,
    eval_bind_returned _ (eval_fillBatchResults upstream config params block cache _ fetched _ results)]
  rfl

/-- What one token of a batch costs on its own: its cached price where it has no amount
and is cached, else the answer to it, where that is a valid price. -/
def Upstream.pointwisePrice (amount : Option Rat) (token : String) : Option PyFloat :=
  match amount,cache.getCachedPrice token block with
  | none,some cached => some cached.price
  | amount,_ => ((upstream.asked block token amount).map (·.value)).filter PyFloat.valid

def Upstream.spotWrites : List (String × PyFloat) :=
  params.tokens.zipIdx.filterMap fun entry =>
    if params.amountAt entry.2 = none ∧ cache.getCachedPrice entry.1 block = none then
      (upstream.pointwisePrice block cache none entry.1).map (entry.1,·)
    else none

theorem validPrice_price (result : Option PriceResult) :
    (validPrice result).map (·.1) = (result.map (·.value)).filter PyFloat.valid := by
  cases result with
  | none => rfl
  | some p =>
    cases value : p.value <;>
      simp [validPrice,Option.filter_some,PyFloat.valid,PyFloat.isnan,PyFloat.isinf,PyFloat.negative,value,apply_ite]

def Upstream.pricedItem (entry : String × Nat) : BatchItem :=
  match params.hit block cache entry with
  | some cached => cachedItem block entry.1 cached
  | none => fetchedItem block (upstream.timestampOf block) entry.1
      (validPrice (upstream.asked block entry.1 (params.amountAt entry.2)))

theorem pricedItem_price (entry : String × Nat) :
    (upstream.pricedItem params block cache entry).price =
      upstream.pointwisePrice block cache (params.amountAt entry.2) entry.1 := by
  unfold Upstream.pricedItem Upstream.pointwisePrice BatchParams.hit
  cases amount : params.amountAt entry.2 with
  | some amount => simpa [fetchedItem] using validPrice_price _
  | none =>
    cases cached : cache.getCachedPrice entry.1 block with
    | some cached => simp [cachedItem]
    | none => simpa [fetchedItem,cached] using validPrice_price _

/-- The whole item of one token on its own. -/
def Upstream.pointwiseItem (amount : Option Rat) (token : String) : BatchItem :=
  match amount,cache.getCachedPrice token block with
  | none,some cached => ⟨token,block,some cached.price,cached.blockTimestamp,true,none⟩
  | amount,_ => ⟨token,block,upstream.pointwisePrice block cache amount token,upstream.timestampOf block,false,
      some ((validPrice (upstream.asked block token amount)).bind (·.2))⟩

theorem pricedItem_eq (entry : String × Nat) :
    upstream.pricedItem params block cache entry = upstream.pointwiseItem block cache (params.amountAt entry.2) entry.1 := by
  have fetched (amount : Option Rat) :
      fetchedItem block (upstream.timestampOf block) entry.1 (validPrice (upstream.asked block entry.1 amount)) =
        ⟨entry.1,block,((upstream.asked block entry.1 amount).map (·.value)).filter PyFloat.valid,
          upstream.timestampOf block,false,some ((validPrice (upstream.asked block entry.1 amount)).bind (·.2))⟩ := by
    rw [← validPrice_price]
    rfl
  unfold Upstream.pricedItem Upstream.pointwiseItem BatchParams.hit Upstream.pointwisePrice
  cases amount : params.amountAt entry.2 with
  | some value => exact fetched (some value)
  | none =>
    cases cached : cache.getCachedPrice entry.1 block with
    | some cached => rfl
    | none => exact fetched none

theorem pricedItem_token (entry : String × Nat) :
    (upstream.pricedItem params block cache entry).token = entry.1 := by
  unfold Upstream.pricedItem
  split <;> rfl

theorem filled_eq :
    (params.tokens.zipIdx.filter fun entry => (params.hit block cache entry).isNone).foldl
        (fun results entry => results.set entry.2 (some (fetchedItem block (upstream.timestampOf block) entry.1
          (validPrice (upstream.asked block entry.1 (params.amountAt entry.2))))))
        (params.tokens.zipIdx.map fun entry => (params.hit block cache entry).map (cachedItem block entry.1)) =
      params.tokens.zipIdx.map fun entry => some (upstream.pricedItem params block cache entry) := by
  let fetched (entry : String × Nat) : Option BatchItem := some (fetchedItem block (upstream.timestampOf block) entry.1
    (validPrice (upstream.asked block entry.1 (params.amountAt entry.2))))
  have placed (i : Nat) (entry : String × Nat) (member : entry ∈ params.tokens.zipIdx) (place : entry.2 = i) :
      params.tokens[i]? = some entry.1 := by
    obtain ⟨token,_⟩ := entry
    subst place
    exact List.mem_zipIdx_iff_getElem?.mp member
  apply List.ext_getElem?
  intro i
  cases here : params.tokens[i]? with
  | none =>
    have agree : ∀ entry ∈ params.tokens.zipIdx.filter fun entry => (params.hit block cache entry).isNone,
        entry.2 = i → fetched entry = none := by
      intro entry member place
      simp [placed i entry (List.mem_of_mem_filter member) place] at here
    rw [foldl_set_getElem? _ _ fetched _ agree]
    simp [here]
  | some token =>
    have agree : ∀ entry ∈ params.tokens.zipIdx.filter fun entry => (params.hit block cache entry).isNone,
        entry.2 = i → fetched entry = fetched (token,i) := by
      intro entry member place
      have found := placed i entry (List.mem_of_mem_filter member) place
      obtain rfl : token = entry.1 := Option.some.inj (here.symm.trans found)
      rw [← place]
    have itself : (token,i) ∈ params.tokens.zipIdx := List.mem_zipIdx_iff_getElem?.mpr here
    rw [foldl_set_getElem? _ _ fetched _ agree]
    simp only [List.getElem?_map,List.getElem?_zipIdx,here,Option.map_some,Nat.zero_add]
    cases hit : params.hit block cache (token,i) with
    | none =>
      rw [if_pos ⟨(token,i),List.mem_filter.mpr ⟨itself,by simp [hit]⟩,rfl⟩,Upstream.pricedItem,hit]
    | some cached =>
      rw [if_neg,Upstream.pricedItem,hit]
      · rfl
      · rintro ⟨entry,member,place⟩
        have found := placed i entry (List.mem_of_mem_filter member) place
        have same : entry = (token,i) := Prod.ext (Option.some.inj (found.symm.trans here)) place
        simp [same,hit] at member

theorem stored_eq :
    (params.tokens.zipIdx.filter fun entry => (params.hit block cache entry).isNone).foldl
        (fun cache entry => params.store block (upstream.timestampOf block) cache entry
          (validPrice (upstream.asked block entry.1 (params.amountAt entry.2)))) cache =
      (upstream.spotWrites params block cache).foldl
        (fun cache write => cache.setCachedPrice write.1 block write.2 (upstream.timestampOf block)) cache := by
  rw [Upstream.spotWrites,List.foldl_filter,List.foldl_filterMap]
  refine congrArg (fun step => List.foldl step cache _) (funext fun after => funext fun entry => ?_)
  unfold BatchParams.hit
  cases amount : params.amountAt entry.2 with
  | some value => cases validPrice (upstream.asked block entry.1 (some value)) <;> simp [BatchParams.store,amount]
  | none =>
    cases cached : cache.getCachedPrice entry.1 block with
    | some cached => simp
    | none =>
      have priced := validPrice_price (upstream.asked block entry.1 none)
      unfold Upstream.pointwisePrice
      rw [cached]
      dsimp only
      rw [← priced]
      cases validPrice (upstream.asked block entry.1 none) <;> simp [BatchParams.store,amount]

/-- `/prices` is pointwise pricing: one item for every token in request order, each the one that its token
and amount have on their own, and the valid spot answers that were fetched
are written to the cache in request order. -/
theorem prices_pointwise (resolved : upstream.requestBlock params = .ok block) :
    ∃ items : List BatchItem,
      (prices config params).eval (upstream.serve config) cache = (.returned (.prices (items.map some)),
        (upstream.spotWrites params block cache).foldl
          (fun cache write => cache.setCachedPrice write.1 block write.2 (upstream.timestampOf block)) cache) ∧
      items.map (·.token) = params.tokens ∧
      ∀ (i : Nat) (item : BatchItem), items[i]? = some item →
        item.price = upstream.pointwisePrice block cache (params.amountAt i) item.token ∧
        item = upstream.pointwiseItem block cache (params.amountAt i) item.token := by
  refine ⟨params.tokens.zipIdx.map (upstream.pricedItem params block cache),?_,?_,?_⟩
  · unfold prices
    rw [eval_bind_returned _ (eval_resolveBatchBlock upstream config params block cache resolved)]
    dsimp only
    rw [eval_bind_returned _ (eval_prepareBatchCacheCheck upstream config params block cache 0 params.tokens)]
    dsimp only
    have items : (params.tokens.zipIdx.map (upstream.pricedItem params block cache)).map some = _ :=
      List.map_map.trans (filled_eq upstream params block cache).symm
    rw [items,← stored_eq]
    split
    · rename_i none
      have complete : (params.tokens.zipIdx.filter fun entry => (params.hit block cache entry).isNone) = [] := by
        simpa using none
      rw [complete]
      rfl
    · exact eval_fetchBatch upstream config params block cache _ _
  · rw [List.map_map]
    refine Eq.trans (List.map_congr_left fun entry _ => pricedItem_token upstream params block cache entry) ?_
    exact List.zipIdx_map_fst 0 params.tokens
  · intro i item found
    rw [List.getElem?_map,List.getElem?_zipIdx] at found
    obtain ⟨entry,here,rfl⟩ := Option.map_eq_some_iff.mp found
    obtain ⟨token,_,rfl⟩ := Option.map_eq_some_iff.mp here
    rw [pricedItem_price,pricedItem_token,pricedItem_eq,Nat.zero_add]
    exact ⟨rfl,rfl⟩

def mixedBatch : BatchParams := ⟨["0xaa","0xbb","0xaa"],some 5,some [none,some 2,none],none,by simp⟩

def mixedUpstream : Upstream where
  spot _ _ := some ⟨.finite 1,"1",none⟩
  quote _ _ _ := some ⟨.nan,"nan",none⟩
  headBlock := .ok 9
  blockAtTimestamp _ := .error (.timeout "")
  blockTimestamp _ := .ok 1700000000
  bucket _ := .ok none
  metadata _ := .error (.timeout "")

theorem prices_pointwise_mixed :
    ∃ items : List BatchItem,
      ((prices ethereum mixedBatch).eval (mixedUpstream.serve ethereum) ∅).1 = .returned (.prices (items.map some)) ∧
      items.map (·.token) = ["0xaa","0xbb","0xaa"] ∧ ∀ item, items[1]? = some item → item.price = none := by
  obtain ⟨items,replied,tokens,priced⟩ := prices_pointwise mixedUpstream ethereum mixedBatch 5 ∅ rfl
  exact ⟨items,by rw [replied],tokens,fun item found => (priced 1 item found).1.trans rfl⟩

end

end YPriceMagic.Server
