import YPriceMagic.Async.Log
import YPriceMagic.Server.HandlerSpecs

/-! What the cache holds, over whole runs: every write is backed by upstream answers that
were logged before it, whichever requests and lookups overlap. -/
namespace YPriceMagic.Server
open YPriceMagic.Async YPriceMagic.Async.Coroutine

def eventsOf (log : List Logged) : List Event := log.map (·.event)

def history (log : List Logged) (id : Nat) (supervised : Bool) : List Event :=
  (log.filter fun entry => decide (entry.id = id ∧ entry.supervised = supervised)).map (·.event)

theorem history_own (log : List Logged) (entry : Logged) :
    history (log++[entry]) entry.id entry.supervised = history log entry.id entry.supervised++[entry.event] := by
  simp [history]

theorem history_other (log : List Logged) (entry : Logged) {id : Nat} {supervised : Bool}
    (other : ¬(entry.id = id ∧ entry.supervised = supervised)) :
    history (log++[entry]) id supervised = history log id supervised := by
  simp [history,other]

theorem history_subset (log : List Logged) (id : Nat) (supervised : Bool) : history log id supervised ⊆ eventsOf log :=
  List.map_subset _ List.filter_sublist.subset

theorem history_extends {earlier log : List Logged} (within : earlier <+: log) (id : Nat) (supervised : Bool) :
    history earlier id supervised <+: history log id supervised :=
  (within.filter _).map _

theorem mem_history {log : List Logged} {id : Nat} {supervised : Bool} {event : Event}
    (member : event ∈ history log id supervised) :
    ∃ entry ∈ log, entry.id = id ∧ entry.supervised = supervised ∧ entry.event = event := by
  obtain ⟨entry,kept,same⟩ := List.mem_map.mp member
  obtain ⟨logged,mine⟩ := List.mem_filter.mp kept
  exact ⟨entry,logged,(of_decide_eq_true mine).1,(of_decide_eq_true mine).2,same⟩

def Permitted (earlier : List Logged) (entry : Logged) : Prop :=
  match entry.supervised with
  | true => lookupAllowed (history earlier entry.id true) entry.event.1
  | false => handlerAllowed entry.request (history earlier entry.id false) entry.event.1

def Supported (earlier : List Logged) (entry : Logged) : Prop :=
  entry.supervised = false → ∀ (lookup : Lookup) (value : lookup.Result),
    entry.event = ⟨.runLookup lookup,.returned value⟩ → lookupFact lookup value (eventsOf earlier)

namespace Backend

/-- Every coroutine keeps to its specification from its own history on, and every logged
event was allowed when it happened. -/
structure Sound (s : Backend) : Prop where
  bounded : ∀ entry ∈ s.log, entry.id < s.processes.length
  handlers : ∀ (id : Nat) process, s.processes[id]? = some process →
    Ensures (handlerAllowed process.request) Sigma.mk (handlerPost process.request) process.handler
      (history s.log id false)
  lookups : ∀ (id : Nat) process (lookup : Lookup) (program : Program lookup.Result),
    s.processes[id]? = some process → process.lookup = some ⟨lookup,program⟩ →
      Spec lookupAllowed (lookupFact lookup) program (history s.log id true)
  permitted : EachEntry Permitted s.log
  supported : EachEntry Supported s.log

variable {config : Config} {s next : Backend}

theorem start_sound (cache : Cache) : (start cache).Sound where
  bounded := by simp [start]
  handlers := by simp [start]
  lookups := by simp [start]
  permitted := EachEntry.nil
  supported := EachEntry.nil

theorem Sound.fresh (sound : s.Sound) (supervised : Bool) : history s.log s.processes.length supervised = [] := by
  rw [history,List.map_eq_nil_iff,List.filter_eq_nil_iff]
  intro entry member
  have inside := sound.bounded entry member
  simp only [decide_eq_true_eq,not_and]
  intro same
  omega

theorem Sound.request (sound : s.Sound) (request : Request) :
    ({s with processes := s.processes++[⟨request,request.program config,none⟩]} : Backend).Sound where
  bounded entry member := by
    have inside := sound.bounded entry member
    rw [List.length_append]
    exact Nat.lt_add_right 1 inside
  handlers id process found := by
    rcases mem_snoc_table found with old | ⟨rfl,rfl⟩
    · exact sound.handlers id process old
    · rw [sound.fresh]
      exact request.program_ensures config
  lookups id process lookup program found running := by
    rcases mem_snoc_table found with old | ⟨rfl,rfl⟩
    · exact sound.lookups id process lookup program old running
    · simp at running
  permitted := sound.permitted
  supported := sound.supported

theorem Sound.started (sound : s.Sound) {id : Nat} {process : Process} (found : s.processes[id]? = some process)
    (lookup : Lookup) :
    ({s with processes := s.processes.set id {process with lookup := some ⟨lookup,lookup.program config⟩}} : Backend).Sound where
  bounded entry member := by
    rw [List.length_set]
    exact sound.bounded entry member
  handlers other now present := by
    rcases mem_set_table present with ⟨rfl,rfl⟩ | ⟨_,old⟩
    · exact sound.handlers other process found
    · exact sound.handlers other now old
  lookups other now kind program present running := by
    rcases mem_set_table present with ⟨rfl,rfl⟩ | ⟨_,old⟩
    · cases running
      exact program_spec config lookup _
    · exact sound.lookups other now kind program old running
  permitted := sound.permitted
  supported := sound.supported

theorem Sound.record (sound : s.Sound) (entry : Logged) {process after : Process}
    (found : s.processes[entry.id]? = some process)
    (handler : Ensures (handlerAllowed after.request) Sigma.mk (handlerPost after.request) after.handler
      (history (s.log++[entry]) entry.id false))
    (lookup : ∀ (lookup : Lookup) (program : Program lookup.Result), after.lookup = some ⟨lookup,program⟩ →
      Spec lookupAllowed (lookupFact lookup) program (history (s.log++[entry]) entry.id true))
    (permitted : Permitted s.log entry) (supported : Supported s.log entry) (cache : Cache) :
    (⟨cache,s.processes.set entry.id after,s.log++[entry]⟩ : Backend).Sound where
  bounded other member := by
    rw [List.length_set]
    rcases List.mem_append.mp member with old | new
    · exact sound.bounded other old
    · rw [List.mem_singleton.mp new]
      exact (List.getElem?_eq_some_iff.mp found).1
  handlers id now present := by
    rcases mem_set_table present with ⟨rfl,rfl⟩ | ⟨other,old⟩
    · exact handler
    · rw [history_other _ _ fun same => other same.1.symm]
      exact sound.handlers id now old
  lookups id now kind program present running := by
    rcases mem_set_table present with ⟨rfl,rfl⟩ | ⟨other,old⟩
    · exact lookup kind program running
    · rw [history_other _ _ fun same => other same.1.symm]
      exact sound.lookups id now kind program old running
  permitted := sound.permitted.snoc permitted
  supported := sound.supported.snoc supported

theorem Sound.handled (sound : s.Sound) {id : Nat} {process : Process} {op : Op} {resume : Reply op → Program Response}
    {reply : Reply op} (found : s.processes[id]? = some process) (performed : process.handler = perform op resume)
    (looked : LookupReply process ⟨op,reply⟩) (cache : Cache) :
    (⟨cache,s.processes.set id {process with handler := resume reply},
      s.log++[⟨id,process.request,false,⟨op,reply⟩⟩]⟩ : Backend).Sound := by
  let entry : Logged := ⟨id,process.request,false,⟨op,reply⟩⟩
  have ensured := sound.handlers id process found
  rw [performed] at ensured
  have own : history (s.log++[entry]) id false = history s.log id false++[⟨op,reply⟩] := history_own s.log entry
  refine sound.record entry found ?_ ?_ ensured.1 ?_ cache
  · rw [own]
    exact ensured.2 reply
  · intro lookup program running
    rw [history_other s.log entry fun same => by simp [entry] at same]
    exact sound.lookups id process lookup program found running
  · rintro _ lookup value same
    cases same
    have held := sound.lookups id process lookup _ found (looked value rfl)
    exact lookupFact_mono held (history_subset s.log id true)

theorem Sound.lookedUp (sound : s.Sound) {id : Nat} {process : Process} {lookup : Lookup} {op : Op}
    {resume : Reply op → Program lookup.Result} {reply : Reply op} (found : s.processes[id]? = some process)
    (performed : process.lookup = some ⟨lookup,perform op resume⟩) (cache : Cache) :
    (⟨cache,s.processes.set id {process with lookup := some ⟨lookup,resume reply⟩},
      s.log++[⟨id,process.request,true,⟨op,reply⟩⟩]⟩ : Backend).Sound := by
  let entry : Logged := ⟨id,process.request,true,⟨op,reply⟩⟩
  have spec := sound.lookups id process lookup _ found performed
  have own : history (s.log++[entry]) id true = history s.log id true++[⟨op,reply⟩] := history_own s.log entry
  refine sound.record entry found ?_ ?_ spec.1 ?_ cache
  · rw [history_other s.log entry fun same => by simp [entry] at same]
    exact sound.handlers id process found
  · intro kind program running
    cases running
    rw [own]
    exact spec.2 reply
  · intro handler
    simp [entry] at handler

theorem step_sound {action : Action} (sound : s.Sound) (stepped : s.step config action = some next) : next.Sound := by
  cases step_stepped stepped with
  | request request => exact sound.request request
  | handler found performed served looked acted => exact sound.handled found performed looked _
  | started found absent waiting => exact sound.started found _
  | lookup found performed served => exact sound.lookedUp found performed _
  | expired gone => exact ⟨sound.bounded,sound.handlers,sound.lookups,sound.permitted,sound.supported⟩

theorem run_sound {cache : Cache} {actions : List Action} {final : Backend}
    (ran : run (step config) (start cache) actions = some final) : final.Sound :=
  run_preserves Sound (fun _ _ _ sound stepped => step_sound sound stepped) (start_sound cache) ran

end Backend

def Op.written : Op → Option (String × Value)
  | .setCachedPrice token block price blockTimestamp =>
    some (makeKey token block,.dict ⟨some price,blockTimestamp,none,none⟩)
  | .setCachedError token block error => some (makeKey token block,.dict ⟨none,none,some "no_price",some error⟩)
  | _ => none

theorem shared_stored {cache after : Cache} {op : Op} {reply : Reply op} (served : shared cache op reply = some after)
    {key : String} {stored : Stored} (held : after.lookup key = some stored) :
    cache.lookup key = some stored ∨ op.written = some (key,stored.value) := by
  have inserted (place : String) (value : Stored) (present : (cache.insert place value).lookup key = some stored) :
      cache.lookup key = some stored ∨ (place = key ∧ value = stored) := by
    by_cases same : key = place
    · subst same
      rw [AList.lookup_insert] at present
      exact Or.inr ⟨rfl,Option.some.inj present⟩
    · rw [AList.lookup_insert_ne same] at present
      exact Or.inl present
  rw [shared_some served] at held
  cases op with
  | setCachedPrice token block price blockTimestamp =>
    refine (inserted _ _ held).imp_right ?_
    rintro ⟨rfl,rfl⟩
    rfl
  | setCachedError token block error =>
    refine (inserted _ _ held).imp_right ?_
    rintro ⟨rfl,rfl⟩
    rfl
  | _ => exact Or.inl held

structure PriceBacked (events : List Event) (token : String) (block : Nat) (cached : CachedPrice) : Prop where
  value : ∃ value, cached.price = .finite value ∧ 0 ≤ value
  answered : ∃ asked query answer result, lower asked = lower token ∧ Answered events query answer ∧
    SpotAnswer query answer asked block (some result) ∧ result.value = cached.price
  stamp : ∀ time, cached.blockTimestamp = some time → Answered events (.blockTimestamp block) time

def NoPriceBacked (events : List Event) (token : String) (block : Nat) : Prop :=
  ∃ asked query answer, lower asked = lower token ∧ Answered events query answer ∧
    SpotAnswer query answer asked block none

/-- A stored value is a backed price, or an error that a price request wrote after the
upstream answered that there is no price. -/
def Backed (earlier : List Logged) (entry : Logged) (token : String) (block : Nat) (value : Value) : Prop :=
  (∃ cached, Cache.priceOf value = some cached ∧ PriceBacked (eventsOf earlier) token block cached) ∨
    ((∃ error, Cache.priceOf value = none ∧ Cache.errorOf value = some error) ∧
      (∃ params force, entry.request = .price params force) ∧ NoPriceBacked (eventsOf earlier) token block)

theorem ValidSpot.backed {events : List Event} {token asked : String} {block : Nat} {price : PyFloat}
    {blockTimestamp : Option Int} (valid : ValidSpot events asked block price) (stamp : StampOf events block blockTimestamp)
    (same : lower asked = lower token) : PriceBacked events token block ⟨price,blockTimestamp⟩ := by
  obtain ⟨accepted,query,answer,result,answered,spot,priced⟩ := valid
  exact ⟨(PyFloat.valid_iff price).mp accepted,⟨asked,query,answer,result,same,answered,spot,priced⟩,stamp⟩

theorem Returned.valid {earlier : List Logged} (supported : EachEntry Supported earlier) {id : Nat} {token : String}
    {block : Nat} {price : PyFloat} (returned : Returned (history earlier id false) token block price) :
    ValidSpot (eventsOf earlier) token block price := by
  obtain ⟨tokens,amounts,prices,member,k,path,asked,blank,found⟩ := returned
  obtain ⟨entry,logged,_,handler,event⟩ := mem_history member
  obtain ⟨first,within,rests⟩ := supported.of_mem logged
  have held := rests handler (.batch tokens block amounts) prices event
  have kept : eventsOf first ⊆ eventsOf earlier :=
    List.map_subset _ ((List.prefix_append first [entry]).trans within).subset
  exact (held k token price path asked blank found).mono kept

theorem NotFound.answered {earlier : List Logged} (supported : EachEntry Supported earlier) {id : Nat} {token : String}
    {block : Nat} (missing : NotFound (history earlier id false) token block) :
    Answered (eventsOf earlier) (.price token block none []) none := by
  obtain ⟨entry,logged,_,handler,event⟩ := mem_history missing.2
  obtain ⟨first,within,rests⟩ := supported.of_mem logged
  have held := rests handler (.price token block none []) none event
  exact Answered.mono held (List.map_subset _ ((List.prefix_append first [entry]).trans within).subset)

theorem permitted_backed {earlier : List Logged} {entry : Logged} (permitted : Permitted earlier entry)
    (supported : EachEntry Supported earlier) {token : String} {block : Nat} {value : Value}
    (written : entry.event.1.written = some (makeKey token block,value)) : Backed earlier entry token block value := by
  obtain ⟨id,request,supervised,⟨op,reply⟩⟩ := entry
  cases op with
  | setCachedPrice asked at_ price blockTimestamp =>
    obtain ⟨key,rfl⟩ := Prod.mk.inj (Option.some.inj written)
    obtain ⟨same,rfl⟩ := makeKey_injective key
    refine Or.inl ⟨⟨price,blockTimestamp⟩,rfl,?_⟩
    cases supervised with
    | true =>
      obtain ⟨valid,stamp⟩ := permitted
      exact (valid.mono (history_subset _ _ _)).backed (stamp.mono (history_subset _ _ _)) same
    | false =>
      cases request with
      | price params force => exact permitted.2.elim
      | prices params =>
        obtain ⟨returned,stamp⟩ := permitted
        exact (returned.valid supported).backed (stamp.mono (history_subset _ _ _)) same
  | setCachedError asked at_ error =>
    obtain ⟨key,rfl⟩ := Prod.mk.inj (Option.some.inj written)
    obtain ⟨same,rfl⟩ := makeKey_injective key
    cases supervised with
    | true => exact permitted.elim
    | false =>
      cases request with
      | prices params => exact permitted.elim
      | price params force =>
        have answered := permitted.2.answered supported
        exact Or.inr ⟨⟨error,rfl,rfl⟩,⟨params,force,rfl⟩,asked,_,_,same,answered,rfl,rfl,rfl,rfl,rfl⟩
  | _ => simp [Op.written] at written

namespace Backend

variable {config : Config} {s next : Backend}

/-- What the cache holds was there at first or has been written since. -/
def Remembered (cache : Cache) (s : Backend) : Prop :=
  ∀ key stored, s.cache.lookup key = some stored →
    cache.lookup key = some stored ∨ ∃ entry ∈ s.log, entry.event.1.written = some (key,stored.value)

theorem Remembered.record {cache after : Cache} (remembered : Remembered cache s) (entry : Logged)
    (served : shared s.cache entry.event.1 entry.event.2 = some after) (processes : List Process) :
    Remembered cache ⟨after,processes,s.log++[entry]⟩ := by
  intro key stored present
  rcases shared_stored served present with old | new
  · refine (remembered key stored old).imp_right ?_
    rintro ⟨other,member,written⟩
    exact ⟨other,List.mem_append_left _ member,written⟩
  · exact Or.inr ⟨entry,List.mem_append_right _ (List.mem_singleton.mpr rfl),new⟩

theorem step_remembered {cache : Cache} {action : Action} (remembered : Remembered cache s)
    (stepped : s.step config action = some next) : Remembered cache next := by
  cases step_stepped stepped with
  | request request => exact remembered
  | handler found performed served looked acted => exact remembered.record ⟨_,_,_,⟨_,_⟩⟩ served _
  | started found absent waiting => exact remembered
  | lookup found performed served => exact remembered.record ⟨_,_,_,⟨_,_⟩⟩ served _
  | @expired expiring after gone =>
    obtain ⟨stored,_,_,rfl⟩ := Cache.expire_some gone
    intro key value present
    by_cases same : key = expiring
    · subst same
      simp at present
    · rw [AList.lookup_erase_ne same] at present
      exact remembered key value present

/-- Every value ever stored is backed by upstream answers that came before it, and the
cache holds nothing but stored values. -/
theorem cache_sound {cache : Cache} {actions : List Action} {final : Backend}
    (ran : run (step config) (start cache) actions = some final) :
    (∀ earlier entry, earlier++[entry] <+: final.log → ∀ token block value,
      entry.event.1.written = some (makeKey token block,value) → Backed earlier entry token block value) ∧
    ∀ key stored, final.cache.lookup key = some stored →
      cache.lookup key = some stored ∨ ∃ entry ∈ final.log, entry.event.1.written = some (key,stored.value) := by
  have sound := run_sound ran
  constructor
  · intro earlier entry within token block value written
    exact permitted_backed (sound.permitted earlier entry within) (sound.supported.before within) written
  · exact run_preserves (Remembered cache) (fun _ _ _ remembered stepped => step_remembered remembered stepped)
      (fun _ _ held => Or.inl held) ran

def pricedRun : List Action := [
  .request (.price ⟨"0xAB",some 5,none,[],none⟩ false),
  .handlerStep 0 (.getCachedPrice "0xAB" 5) none,
  .handlerStep 0 (.getCachedError "0xAB" 5) none,
  .startLookup 0,
  .lookupStep 0 (.await [.price "0xAB" 5 none []]) (.returned (some ⟨.finite 2,"2",none⟩,())),
  .lookupStep 0 (.await [.blockTimestamp 5]) (.returned ((1700000000 : Int),())),
  .lookupStep 0 (.setCachedPrice "0xAB" 5 (.finite 2) (some 1700000000)) (),
  .lookupDone 0]

theorem cache_sound_priced :
    ∃ final, run (step ethereum) (start ∅) pricedRun = some final ∧
      final.cache.getCachedPrice "0xab" 5 = some ⟨.finite 2,some 1700000000⟩ ∧
      ∃ earlier, PriceBacked (eventsOf earlier) "0xab" 5 ⟨.finite 2,some 1700000000⟩ := by
  have stored : (run (step ethereum) (start ∅) pricedRun).map (fun final => final.cache.lookup (makeKey "0xab" 5)) =
      some (some ⟨.dict ⟨some (.finite 2),some 1700000000,none,none⟩,false⟩) := by rfl
  obtain ⟨final,ran,held⟩ := Option.map_eq_some_iff.mp stored
  obtain ⟨writes,remembered⟩ := cache_sound ran
  refine ⟨final,ran,by rw [Cache.getCachedPrice,Cache.priceAt,held]; rfl,?_⟩
  rcases remembered _ _ held with first | ⟨entry,member,written⟩
  · simp at first
  · obtain ⟨earlier,later,split⟩ := List.append_of_mem member
    rcases writes earlier entry ⟨later,by simp [split]⟩ "0xab" 5 _ written with ⟨cached,same,backed⟩ | ⟨⟨error,missing,_⟩,_⟩
    · cases Option.some.inj same
      exact ⟨earlier,backed⟩
    · simp [Cache.priceOf] at missing

end Backend

end YPriceMagic.Server
