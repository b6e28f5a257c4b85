import YPriceMagic.Server.CacheSoundness
import YPriceMagic.Server.HandlerAnswers

/-! What clients are told, over whole runs. Whichever requests and lookups overlap, a reply
goes back to upstream answers: to those of the request's own lookup, or to earlier ones, through
the cache. -/
namespace YPriceMagic.Server
open YPriceMagic.Async YPriceMagic.Async.Coroutine

/-- The cache held the price at first, or the upstream has answered with it since. -/
def Sourced (cache : Cache) (events : List Event) (token : String) (block : Nat) (cached : CachedPrice) : Prop :=
  cache.getCachedPrice token block = some cached ∨ PriceBacked events token block cached

/-- The cache held an error at first, or the upstream has answered since that there is no price. -/
def Unpriced (cache : Cache) (events : List Event) (token : String) (block : Nat) : Prop :=
  (∃ error, cache.getCachedError token block = some error) ∨ NoPriceBacked events token block

theorem PriceBacked.mono {events later : List Event} {token : String} {block : Nat} {cached : CachedPrice}
    (backed : PriceBacked events token block cached) (kept : events ⊆ later) : PriceBacked later token block cached := by
  obtain ⟨asked,query,answer,result,same,answered,spot⟩ := backed.answered
  exact ⟨backed.value,⟨asked,query,answer,result,same,answered.mono kept,spot⟩,
    fun time stamped => (backed.stamp time stamped).mono kept⟩

theorem Sourced.mono {cache : Cache} {events later : List Event} {token : String} {block : Nat} {cached : CachedPrice}
    (sourced : Sourced cache events token block cached) (kept : events ⊆ later) : Sourced cache later token block cached :=
  sourced.imp_right (·.mono kept)

theorem Unpriced.mono {cache : Cache} {events later : List Event} {token : String} {block : Nat}
    (unpriced : Unpriced cache events token block) (kept : events ⊆ later) : Unpriced cache later token block := by
  refine unpriced.imp_right ?_
  rintro ⟨asked,query,answer,same,answered,spot⟩
  exact ⟨asked,query,answer,same,answered.mono kept,spot⟩

/-- What a cache read replied with has a source. -/
def ReadBacked (cache : Cache) (earlier : List Logged) (entry : Logged) : Prop :=
  match entry.event with
  | ⟨.getCachedPrice token block,some cached⟩ => Sourced cache (eventsOf earlier) token block cached
  | ⟨.getCachedError token block,some _⟩ => Unpriced cache (eventsOf earlier) token block
  | _ => True

/-- The request read this price in the cache, which held it at first, or the upstream had answered with
it before. -/
def ReadPrice (cache : Cache) (log : List Logged) (id : Nat) (token : String) (block : Nat) (cached : CachedPrice) : Prop :=
  ∃ earlier request, earlier++[⟨id,request,false,⟨.getCachedPrice token block,some cached⟩⟩] <+: log ∧
    Sourced cache (eventsOf earlier) token block cached

/-- The request read an error in the cache, which held one at first, or the upstream had answered before
that there is no price. -/
def ReadError (cache : Cache) (log : List Logged) (id : Nat) (token : String) (block : Nat) : Prop :=
  ∃ earlier request error, earlier++[⟨id,request,false,⟨.getCachedError token block,some error⟩⟩] <+: log ∧
    Unpriced cache (eventsOf earlier) token block

/-- The price answers the request: at the block it means, and from the upstream's answer to the request's
own lookup, or from the cache for the same token and block. -/
def Genuine (config : Config) (cache : Cache) (log : List Logged) (id : Nat) (params : PriceParams) (body : PriceBody) : Prop :=
  body.token = params.token ∧ body.chain = config.chainName ∧
    BlockOf (history log id false) params.block params.timestamp body.block ∧
    if body.cached then params.spot = true ∧ body.tradePath = none ∧
      ReadPrice cache log id params.token body.block ⟨body.price,body.blockTimestamp⟩
    else Quoted (history log id true) params.token body.block params.amount params.ignorePools body.price body.tradePath ∧
      StampOf (history log id true) body.block body.blockTimestamp

/-- The upstream has said that there is no price: to the request's own lookup, or before, where the error
was stored. -/
def Missing (cache : Cache) (log : List Logged) (id : Nat) (params : PriceParams) : Prop :=
  ∃ block, BlockOf (history log id false) params.block params.timestamp block ∧
    (Answered (history log id true) (.price params.token block params.amount params.ignorePools) none ∨
      params.spot = true ∧ ReadError cache log id params.token block)

def LookupTold (config : Config) (earlier : List Logged) (entry : Logged) : Prop :=
  entry.supervised = false → ∀ (lookup : Lookup) (value : lookup.Result), entry.event = ⟨.runLookup lookup,.returned value⟩ →
    Leads (lookup.program config) (history earlier entry.id true) (finished (.returned value))

theorem Op.written_error {op : Op} {key error : String} {value : Value} (written : op.written = some (key,value))
    (marked : Cache.errorOf value = some error) : Cache.priceOf value = none := by
  cases op with
  | setCachedPrice token block price blockTimestamp =>
    cases Option.some.inj written
    simp [Cache.errorOf] at marked
  | setCachedError token block text =>
    cases Option.some.inj written
    rfl
  | _ => simp [Op.written] at written

namespace Backend
variable {config : Config} {cache : Cache} {s next : Backend}

theorem Sound.stored_backed (sound : s.Sound) (remembered : Remembered cache s) {token : String} {block : Nat} {stored : Stored}
    (held : s.cache.lookup (makeKey token block) = some stored) :
    cache.lookup (makeKey token block) = some stored ∨ ∃ earlier entry, eventsOf earlier ⊆ eventsOf s.log ∧
      entry.event.1.written = some (makeKey token block,stored.value) ∧ Backed earlier entry token block stored.value := by
  refine (remembered _ stored held).imp_right ?_
  rintro ⟨entry,member,written⟩
  obtain ⟨earlier,within,permitted⟩ := sound.permitted.of_mem member
  refine ⟨earlier,entry,List.map_subset _ ((List.prefix_append earlier [entry]).trans within).subset,written,?_⟩
  exact permitted_backed permitted (sound.supported.before within) written

theorem Sound.price_sourced (sound : s.Sound) (remembered : Remembered cache s) {token : String} {block : Nat} {cached : CachedPrice}
    (held : s.cache.getCachedPrice token block = some cached) : Sourced cache (eventsOf s.log) token block cached := by
  obtain ⟨stored,found,priced⟩ := Option.bind_eq_some_iff.mp held
  rcases sound.stored_backed remembered found with first | ⟨earlier,entry,kept,_,backed⟩
  · left
    rw [Cache.getCachedPrice,Cache.priceAt,first]
    exact priced
  · rcases backed with ⟨other,same,backed⟩ | ⟨⟨error,missing,_⟩,_⟩
    · rw [priced] at same
      cases Option.some.inj same
      exact Or.inr (backed.mono kept)
    · simp [priced] at missing

theorem Sound.error_sourced (sound : s.Sound) (remembered : Remembered cache s) {token : String} {block : Nat} {error : String}
    (held : s.cache.getCachedError token block = some error) : Unpriced cache (eventsOf s.log) token block := by
  obtain ⟨stored,found,marked⟩ := Option.bind_eq_some_iff.mp held
  rcases sound.stored_backed remembered found with first | ⟨earlier,entry,kept,written,backed⟩
  · left
    rw [Cache.getCachedError,first]
    exact ⟨error,marked⟩
  · rcases backed with ⟨cached,priced,_⟩ | ⟨_,_,unpriced⟩
    · simp [Op.written_error written marked] at priced
    · have unpriced : Unpriced cache (eventsOf earlier) token block := Or.inr unpriced
      exact unpriced.mono kept

theorem Sound.read_backed (sound : s.Sound) (remembered : Remembered cache s) (entry : Logged) {after : Cache}
    (served : shared s.cache entry.event.1 entry.event.2 = some after) : ReadBacked cache s.log entry := by
  obtain ⟨id,request,supervised,⟨op,reply⟩⟩ := entry
  cases op with
  | getCachedPrice token block =>
    simp only [shared,Option.ite_none_right_eq_some] at served
    cases reply with
    | none => trivial
    | some cached => exact sound.price_sourced remembered served.1.symm
  | getCachedError token block =>
    simp only [shared,Option.ite_none_right_eq_some] at served
    cases reply with
    | none => trivial
    | some error => exact sound.error_sourced remembered served.1.symm
  | _ => trivial

/-- Every coroutine is where its own history has led it, and what it was told is backed. -/
structure Told (config : Config) (cache : Cache) (s : Backend) : Prop where
  handlers : ∀ (id : Nat) process, s.processes[id]? = some process →
    Leads (process.request.program config) (history s.log id false) process.handler
  lookups : ∀ (id : Nat) process (lookup : Lookup) (program : Program lookup.Result), s.processes[id]? = some process →
    process.lookup = some ⟨lookup,program⟩ → Leads (lookup.program config) (history s.log id true) program
  unstarted : ∀ (id : Nat) process, s.processes[id]? = some process → process.lookup = none → history s.log id true = []
  returned : EachEntry (LookupTold config) s.log
  reads : EachEntry (ReadBacked cache) s.log

theorem start_told (cache : Cache) : (start cache).Told config cache where
  handlers := by simp [start]
  lookups := by simp [start]
  unstarted := by simp [start]
  returned := EachEntry.nil
  reads := EachEntry.nil

theorem Told.request (told : s.Told config cache) (sound : s.Sound) (request : Request) :
    ({s with processes := s.processes++[⟨request,request.program config,none⟩]} : Backend).Told config cache where
  handlers id process found := by
    rcases mem_snoc_table found with old | ⟨rfl,rfl⟩
    · exact told.handlers id process old
    · rw [sound.fresh]
      exact .here _
  lookups id process lookup program found running := by
    rcases mem_snoc_table found with old | ⟨rfl,rfl⟩
    · exact told.lookups id process lookup program old running
    · simp at running
  unstarted id process found absent := by
    rcases mem_snoc_table found with old | ⟨rfl,rfl⟩
    · exact told.unstarted id process old absent
    · exact sound.fresh true
  returned := told.returned
  reads := told.reads

theorem Told.started (told : s.Told config cache) {id : Nat} {process : Process} (found : s.processes[id]? = some process)
    (absent : process.lookup = none) (lookup : Lookup) :
    ({s with processes := s.processes.set id {process with lookup := some ⟨lookup,lookup.program config⟩}} : Backend).Told
      config cache where
  handlers other now present := by
    rcases mem_set_table present with ⟨rfl,rfl⟩ | ⟨_,old⟩
    · exact told.handlers other process found
    · exact told.handlers other now old
  lookups other now kind program present running := by
    rcases mem_set_table present with ⟨rfl,rfl⟩ | ⟨_,old⟩
    · cases running
      rw [told.unstarted other process found absent]
      exact .here _
    · exact told.lookups other now kind program old running
  unstarted other now present missing := by
    rcases mem_set_table present with ⟨rfl,rfl⟩ | ⟨_,old⟩
    · simp at missing
    · exact told.unstarted other now old missing
  returned := told.returned
  reads := told.reads

theorem Told.handled (told : s.Told config cache) {id : Nat} {process : Process} {op : Op} {resume : Reply op → Program Response}
    {reply : Reply op} (found : s.processes[id]? = some process) (performed : process.handler = perform op resume)
    (looked : LookupReply process ⟨op,reply⟩) (read : ReadBacked cache s.log ⟨id,process.request,false,⟨op,reply⟩⟩) (after : Cache) :
    (⟨after,s.processes.set id {process with handler := resume reply},
      s.log++[⟨id,process.request,false,⟨op,reply⟩⟩]⟩ : Backend).Told config cache := by
  let entry : Logged := ⟨id,process.request,false,⟨op,reply⟩⟩
  have own : history (s.log++[entry]) id false = history s.log id false++[⟨op,reply⟩] := history_own s.log entry
  have lookups (other : Nat) : history (s.log++[entry]) other true = history s.log other true :=
    history_other s.log entry fun same => by simp [entry] at same
  refine ⟨fun other now present => ?_,fun other now kind program present running => ?_,fun other now present absent => ?_,
    told.returned.snoc ?_,told.reads.snoc read⟩
  · rcases mem_set_table present with ⟨rfl,rfl⟩ | ⟨different,old⟩
    · have led := told.handlers other process found
      rw [performed] at led
      rw [own]
      exact led.answered reply
    · rw [history_other s.log entry fun same => different same.1.symm]
      exact told.handlers other now old
  · rw [lookups]
    rcases mem_set_table present with ⟨rfl,rfl⟩ | ⟨_,old⟩
    · exact told.lookups other process kind program found running
    · exact told.lookups other now kind program old running
  · rw [lookups]
    rcases mem_set_table present with ⟨rfl,rfl⟩ | ⟨_,old⟩
    · exact told.unstarted other process found absent
    · exact told.unstarted other now old absent
  · rintro _ lookup value same
    cases same
    exact told.lookups id process lookup _ found (looked value rfl)

theorem Told.lookedUp (told : s.Told config cache) {id : Nat} {process : Process} {lookup : Lookup} {op : Op}
    {resume : Reply op → Program lookup.Result} {reply : Reply op} (found : s.processes[id]? = some process)
    (performed : process.lookup = some ⟨lookup,perform op resume⟩)
    (read : ReadBacked cache s.log ⟨id,process.request,true,⟨op,reply⟩⟩) (after : Cache) :
    (⟨after,s.processes.set id {process with lookup := some ⟨lookup,resume reply⟩},
      s.log++[⟨id,process.request,true,⟨op,reply⟩⟩]⟩ : Backend).Told config cache := by
  let entry : Logged := ⟨id,process.request,true,⟨op,reply⟩⟩
  have own : history (s.log++[entry]) id true = history s.log id true++[⟨op,reply⟩] := history_own s.log entry
  refine ⟨fun other now present => ?_,fun other now kind program present running => ?_,fun other now present absent => ?_,
    told.returned.snoc ?_,told.reads.snoc read⟩
  · rw [history_other s.log entry fun same => by simp [entry] at same]
    rcases mem_set_table present with ⟨rfl,rfl⟩ | ⟨_,old⟩
    · exact told.handlers other process found
    · exact told.handlers other now old
  · rcases mem_set_table present with ⟨rfl,rfl⟩ | ⟨different,old⟩
    · cases running
      rw [own]
      exact (told.lookups other process lookup _ found performed).answered reply
    · rw [history_other s.log entry fun same => different same.1.symm]
      exact told.lookups other now kind program old running
  · rcases mem_set_table present with ⟨rfl,rfl⟩ | ⟨different,old⟩
    · simp at absent
    · rw [history_other s.log entry fun same => different same.1.symm]
      exact told.unstarted other now old absent
  · intro handler
    cases handler

/-- What is known of every state of a run. -/
structure Traced (config : Config) (cache : Cache) (s : Backend) : Prop where
  sound : s.Sound
  remembered : Remembered cache s
  told : s.Told config cache

theorem step_traced {action : Action} (traced : s.Traced config cache) (stepped : s.step config action = some next) :
    next.Traced config cache := by
  obtain ⟨sound,remembered,told⟩ := traced
  refine ⟨step_sound sound stepped,step_remembered remembered stepped,?_⟩
  cases step_stepped stepped with
  | request request => exact told.request sound request
  | handler found performed served looked acted =>
    exact told.handled found performed looked (sound.read_backed remembered ⟨_,_,_,⟨_,_⟩⟩ served) _
  | started found absent waiting => exact told.started found absent _
  | lookup found performed served =>
    exact told.lookedUp found performed (sound.read_backed remembered ⟨_,_,_,⟨_,_⟩⟩ served) _
  | expired gone => exact ⟨told.handlers,told.lookups,told.unstarted,told.returned,told.reads⟩

theorem run_traced {actions : List Action} {final : Backend} (ran : run (step config) (start cache) actions = some final) :
    final.Traced config cache :=
  run_preserves (Traced config cache) (fun _ _ _ traced stepped => step_traced traced stepped)
    ⟨start_sound cache,fun _ _ held => Or.inl held,start_told cache⟩ ran

theorem Told.event_backed (told : s.Told config cache) {id : Nat} {event : Event} (member : event ∈ history s.log id false) :
    ∃ earlier request, earlier++[⟨id,request,false,event⟩] <+: s.log ∧ ReadBacked cache earlier ⟨id,request,false,event⟩ ∧
      LookupTold config earlier ⟨id,request,false,event⟩ := by
  obtain ⟨⟨_,request,_,_⟩,logged,rfl,rfl,rfl⟩ := mem_history member
  obtain ⟨earlier,within,read⟩ := told.reads.of_mem logged
  exact ⟨earlier,request,within,read,told.returned earlier _ within⟩

/-- What the handler was told of its lookup is what the lookup's own events amount to. -/
theorem Told.lookup_fact (told : s.Told config cache) {id : Nat} {lookup : Lookup} {value : lookup.Result}
    (member : (⟨.runLookup lookup,.returned value⟩ : Event) ∈ history s.log id false) :
    LookupFact lookup value (history s.log id true) := by
  obtain ⟨earlier,request,within,_,led⟩ := told.event_backed member
  have fact : LookupFact lookup value (history earlier id true) :=
    (program_answers config lookup []).leads (led rfl lookup value rfl)
  exact fact.mono (history_extends ((List.prefix_append earlier _).trans within) id true).subset

theorem Told.price_fact (told : s.Told config cache) {id : Nat} {token : String} {block : Nat} {cached : CachedPrice}
    (member : (⟨.getCachedPrice token block,some cached⟩ : Event) ∈ history s.log id false) :
    ReadPrice cache s.log id token block cached := by
  obtain ⟨earlier,request,within,read,_⟩ := told.event_backed member
  exact ⟨earlier,request,within,read⟩

theorem Told.error_fact (told : s.Told config cache) {id : Nat} {token error : String} {block : Nat}
    (member : (⟨.getCachedError token block,some error⟩ : Event) ∈ history s.log id false) :
    ReadError cache s.log id token block := by
  obtain ⟨earlier,request,within,read,_⟩ := told.event_backed member
  exact ⟨earlier,request,error,within,read⟩

theorem Told.price_genuine (told : s.Told config cache) {id : Nat} {params : PriceParams} {body : PriceBody}
    (reply : PriceReply config params (.price body) (history s.log id false)) : Genuine config cache s.log id params body := by
  obtain ⟨named,chained,resolved,source⟩ := reply
  refine ⟨named,chained,resolved,?_⟩
  cases cached : body.cached with
  | true =>
    rw [cached] at source
    exact ⟨source.1,source.2.1,told.price_fact source.2.2⟩
  | false =>
    rw [cached] at source
    exact told.lookup_fact source

theorem Told.not_found_genuine (told : s.Told config cache) {id : Nat} {params : PriceParams} {response : Runtime.JSONResponse}
    (reply : PriceReply config params (.error response) (history s.log id false)) (missing : response.statusCode = 404) :
    Missing cache s.log id params := by
  obtain ⟨block,resolved,source⟩ := reply.2 missing
  refine ⟨block,resolved,?_⟩
  rcases source with looked | ⟨spot,error,read⟩
  · exact Or.inl (told.lookup_fact looked)
  · exact Or.inr ⟨spot,told.error_fact read⟩

/-- A process keeps its request, and the answer that it has given. -/
theorem step_process {action : Action} (stepped : s.step config action = some next) {id : Nat} {process : Process}
    (found : s.processes[id]? = some process) : ∃ later, next.processes[id]? = some later ∧ later.request = process.request ∧
      ∀ outcome, process.handler = finished outcome → later.handler = finished outcome := by
  have replaced {other : Nat} {old new : Process} (there : s.processes[other]? = some old) (same : new.request = old.request)
      (kept : ∀ outcome, old.handler = finished outcome → new.handler = finished outcome) :
      ∃ later, (s.processes.set other new)[id]? = some later ∧ later.request = process.request ∧
        ∀ outcome, process.handler = finished outcome → later.handler = finished outcome := by
    by_cases here : other = id
    · subst here
      obtain rfl := Option.some.inj (found.symm.trans there)
      exact ⟨new,List.getElem?_set_self (List.getElem?_eq_some_iff.mp found).1,same,kept⟩
    · exact ⟨process,by rw [List.getElem?_set_ne here]; exact found,rfl,fun _ ended => ended⟩
  cases step_stepped stepped with
  | request request =>
    refine ⟨process,?_,rfl,fun _ ended => ended⟩
    rw [List.getElem?_append_left (List.getElem?_eq_some_iff.mp found).1]
    exact found
  | handler there performed =>
    refine replaced there rfl fun outcome ended => ?_
    rw [performed] at ended
    cases ended
  | started there => exact replaced there rfl fun _ ended => ended
  | lookup there => exact replaced there rfl fun _ ended => ended
  | expired gone => exact ⟨process,found,rfl,fun _ ended => ended⟩

variable {actions : List Action} {final : Backend} {id : Nat} {process : Process}

theorem reply_backed (ran : run (step config) (start cache) actions = some final) (found : final.processes[id]? = some process)
    {response : Response} (replied : process.handler = finished (.returned response)) :
    final.Told config cache ∧ RequestReply config process.request response (history final.log id false) := by
  have told := (run_traced ran).told
  have led := told.handlers id process found
  rw [replied] at led
  exact ⟨told,(process.request.program_replies config).leads led⟩

/-- Whatever overlaps, a price that is served answers this request: at the block it means, and from the
upstream's answer to the request's own lookup, or from the cache, where the price for the same token and
block was at first, or was answered before the request read it. -/
theorem served_price_genuine (ran : run (step config) (start cache) actions = some final)
    (found : final.processes[id]? = some process) {params : PriceParams} {force : Bool} {body : PriceBody}
    (asked : process.request = .price params force) (replied : process.handler = finished (.returned (.price body))) :
    body.token = params.token ∧ body.chain = config.chainName ∧
      BlockOf (history final.log id false) params.block params.timestamp body.block ∧
      if body.cached then params.spot = true ∧ body.tradePath = none ∧
        ReadPrice cache final.log id params.token body.block ⟨body.price,body.blockTimestamp⟩
      else Quoted (history final.log id true) params.token body.block params.amount params.ignorePools body.price
          body.tradePath ∧
        StampOf (history final.log id true) body.block body.blockTimestamp := by
  obtain ⟨told,reply⟩ := reply_backed ran found replied
  rw [asked] at reply
  exact told.price_genuine reply

/-- A price that one request fetches, and another finds under a different spelling. -/
def servedRun : List Action := [
  .request (.price ⟨"0xAB",some 5,none,[],none⟩ false),
  .request (.price ⟨"0xab",none,none,[],none⟩ true),
  .handlerStep 0 (.getCachedPrice "0xAB" 5) none,
  .handlerStep 0 (.getCachedError "0xAB" 5) none,
  .startLookup 0,
  .handlerStep 1 (.await [.headBlock]) (.returned ((5 : Nat),())),
  .lookupStep 0 (.await [.price "0xAB" 5 none []]) (.returned (some ⟨.finite 2,"2",none⟩,())),
  .lookupStep 0 (.await [.blockTimestamp 5]) (.returned ((1700000000 : Int),())),
  .lookupStep 0 (.setCachedPrice "0xAB" 5 (.finite 2) (some 1700000000)) (),
  .handlerStep 1 (.getCachedPrice "0xab" 5) (some ⟨.finite 2,some 1700000000⟩)]

theorem served_price_genuine_cached : ∃ final, run (step ethereum) (start ∅) servedRun = some final ∧
    Answered (history final.log 1 false) .headBlock 5 ∧
      ReadPrice ∅ final.log 1 "0xab" 5 ⟨.finite 2,some 1700000000⟩ := by
  have shown : ((run (step ethereum) (start ∅) servedRun).bind fun final =>
      final.processes[1]?.map fun process => (process.request,process.handler)) =
      some (.price ⟨"0xab",none,none,[],none⟩ true,
        finished (.returned (.price ⟨"0xab",.finite 2,5,"ethereum",some 1700000000,true,none⟩))) := by rfl
  obtain ⟨final,ran,shown⟩ := Option.bind_eq_some_iff.mp shown
  obtain ⟨process,found,same⟩ := Option.map_eq_some_iff.mp shown
  obtain ⟨asked,replied⟩ := Prod.mk.inj same
  obtain ⟨_,_,resolved,_,_,sourced⟩ := served_price_genuine ran found asked replied
  exact ⟨final,ran,resolved,sourced⟩

/-- A request is told that there is no price only where the upstream has said so: to the request's own
lookup, or, for the same token and block, before the request read the error that was stored. -/
theorem served_not_found_genuine (ran : run (step config) (start cache) actions = some final)
    (found : final.processes[id]? = some process) {params : PriceParams} {force : Bool} {response : Runtime.JSONResponse}
    (asked : process.request = .price params force) (replied : process.handler = finished (.returned (.error response)))
    (missing : response.statusCode = 404) :
    ∃ block, BlockOf (history final.log id false) params.block params.timestamp block ∧
      (Answered (history final.log id true) (.price params.token block params.amount params.ignorePools) none ∨
        params.spot = true ∧ ReadError cache final.log id params.token block) := by
  obtain ⟨told,reply⟩ := reply_backed ran found replied
  rw [asked] at reply
  exact told.not_found_genuine reply missing

def unpricedRun : List Action := [
  .request (.price ⟨"0xAB",some 5,none,[],none⟩ false),
  .handlerStep 0 (.getCachedPrice "0xAB" 5) none,
  .handlerStep 0 (.getCachedError "0xAB" 5) none,
  .startLookup 0,
  .lookupStep 0 (.await [.price "0xAB" 5 none []]) (.returned (none,())),
  .lookupDone 0,
  .handlerStep 0 (.setCachedError "0xAB" 5 "No price found for 0xAB at block 5 on ethereum") (),
  .request (.price ⟨"0xab",some 5,none,[],none⟩ false),
  .handlerStep 1 (.getCachedPrice "0xab" 5) none,
  .handlerStep 1 (.getCachedError "0xab" 5) (some "No price found for 0xAB at block 5 on ethereum")]

theorem served_not_found_genuine_cached : ∃ final, run (step ethereum) (start ∅) unpricedRun = some final ∧
    history final.log 1 true = [] ∧ ReadError ∅ final.log 1 "0xab" 5 := by
  have shown : ((run (step ethereum) (start ∅) unpricedRun).bind fun final =>
      final.processes[1]?.map fun process => (history final.log 1 true,process.request,process.handler)) =
      some ([],.price ⟨"0xab",some 5,none,[],none⟩ false,finished (.returned (.error ⟨404,[],
        "No price found for 0xab at block 5 on ethereum (cached error: No price found for 0xAB at block 5 on ethereum)"⟩))) := by
    rfl
  obtain ⟨final,ran,shown⟩ := Option.bind_eq_some_iff.mp shown
  obtain ⟨process,found,same⟩ := Option.map_eq_some_iff.mp shown
  obtain ⟨unlooked,same⟩ := Prod.mk.inj same
  obtain ⟨asked,replied⟩ := Prod.mk.inj same
  obtain ⟨block,resolved,source⟩ := served_not_found_genuine ran found asked replied rfl
  obtain rfl : block = 5 := resolved
  refine ⟨final,ran,unlooked,(source.resolve_left ?_).2⟩
  rintro ⟨_,_,told,_⟩
  rw [unlooked] at told
  cases told

/-- A batch is answered place by place, in the order of its tokens. -/
theorem served_batch_genuine (ran : run (step config) (start cache) actions = some final)
    (found : final.processes[id]? = some process) {params : BatchParams} {items : List (Option BatchItem)}
    (asked : process.request = .prices params) (replied : process.handler = finished (.returned (.prices items))) :
    ∃ block, BlockOf (history final.log id false) params.block params.timestamp block ∧ items.length = params.tokens.length ∧
      ∀ (i : Nat) token, params.tokens[i]? = some token → ∃ item, items[i]? = some (some item) ∧
        item.token = token ∧ item.block = block ∧
        if item.cached then params.amountAt i = none ∧ ∃ price, item.price = some price ∧
          ReadPrice cache final.log id token block ⟨price,item.blockTimestamp⟩
        else (∃ result, AnsweredFor (history final.log id true) token block (params.amountAt i) result ∧
            item.price = (validPrice result).map (·.1) ∧ item.tradePath = some ((validPrice result).bind (·.2))) ∧
          StampOf (history final.log id false) block item.blockTimestamp := by
  obtain ⟨told,reply⟩ := reply_backed ran found replied
  rw [asked] at reply
  obtain ⟨block,resolved,size,complete⟩ := reply
  refine ⟨block,resolved,size,fun i token place => ?_⟩
  obtain ⟨item,here,source⟩ := complete i token place
  refine ⟨item,here,?_⟩
  rcases source with ⟨cached,spot,rfl,read⟩ | ⟨blockTimestamp,entry,rfl,returned,stamp⟩
  · exact ⟨rfl,rfl,spot,cached.price,rfl,told.price_fact read⟩
  · obtain ⟨tokens,amounts,prices,aligned,looked,k,asks,amount,priced⟩ := returned
    obtain ⟨_,known⟩ := told.lookup_fact looked aligned
    obtain ⟨result,taken,answered⟩ := known k token asks
    rw [priced] at taken
    cases Option.some.inj taken
    rw [amount] at answered
    exact ⟨rfl,rfl,⟨result,answered,rfl,rfl⟩,stamp⟩

def mixedBatch : BatchParams := ⟨["0xAB","0xCD"],some 5,some [none,some 3],none,by simp⟩

def mixedRun : List Action := [
  .request (.prices mixedBatch),
  .handlerStep 0 (.getCachedPrice "0xAB" 5) none,
  .startLookup 0,
  .lookupStep 0 (.await [.prices ["0xAB"] 5 none,.prices ["0xCD"] 5 (some [3])])
    (.returned (⟨[some ⟨.finite 2,"2",none⟩],rfl⟩,⟨[some ⟨.finite (-1),"-1",none⟩],rfl⟩,())),
  .lookupDone 0,
  .handlerStep 0 (.await [.blockTimestamp 5]) (.returned ((1700000000 : Int),())),
  .handlerStep 0 (.setCachedPrice "0xAB" 5 (.finite 2) (some 1700000000)) ()]

theorem served_batch_genuine_mixed : ∃ final, run (step ethereum) (start ∅) mixedRun = some final ∧
    ∃ result, AnsweredFor (history final.log 0 true) "0xCD" 5 (some 3) result ∧ validPrice result = none := by
  have shown : ((run (step ethereum) (start ∅) mixedRun).bind fun final =>
      final.processes[0]?.map fun process => (process.request,process.handler)) =
      some (.prices mixedBatch,finished (.returned (.prices [
        some ⟨"0xAB",5,some (.finite 2),some 1700000000,false,some none⟩,
        some ⟨"0xCD",5,none,some 1700000000,false,some none⟩]))) := by rfl
  obtain ⟨final,ran,shown⟩ := Option.bind_eq_some_iff.mp shown
  obtain ⟨process,found,same⟩ := Option.map_eq_some_iff.mp shown
  obtain ⟨asked,replied⟩ := Prod.mk.inj same
  obtain ⟨block,resolved,_,placed⟩ := served_batch_genuine ran found asked replied
  obtain ⟨item,here,_,_,source⟩ := placed 1 "0xCD" rfl
  cases Option.some.inj (Option.some.inj here)
  cases resolved
  obtain ⟨⟨result,answered,priced,_⟩,_⟩ := source
  exact ⟨final,ran,result,answered,Option.map_eq_none_iff.mp priced.symm⟩

end Backend

end YPriceMagic.Server
