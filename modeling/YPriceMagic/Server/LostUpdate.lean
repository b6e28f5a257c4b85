import YPriceMagic.Server.CacheSoundness

/-! Prices in the cache against the errors of overlapping requests. A price request reads,
looks up and writes in separate steps, so its error may meet a price stored in between. -/
namespace YPriceMagic.Server
open YPriceMagic.Async YPriceMagic.Async.Coroutine

def Cache.holdsPrice (cache : Cache) (key : String) : Bool := (cache.priceAt key).isSome

def Op.pricesKey (key : String) : Op → Bool
  | .setCachedPrice token block _ _ => decide (makeKey token block = key)
  | _ => false

def MissedRead (key : String) (entry : Logged) : Prop :=
  ∃ token block, makeKey token block = key ∧ entry.event = ⟨.getCachedPrice token block,none⟩

/-- Since the handler of the request missed the key, a price has been stored there. -/
def Overtaken (log : List Logged) (id : Nat) (key : String) : Prop :=
  ∃ earlier read later, log = earlier++read::later ∧ read.id = id ∧ read.supervised = false ∧
    MissedRead key read ∧ ∃ entry ∈ later, entry.event.1.pricesKey key = true

section
variable {cache after : Cache} {op : Op} {reply : Reply op}

theorem shared_permanent (served : shared cache op reply = some after) (permanent : cache.PricesPermanent) :
    after.PricesPermanent := by
  rw [shared_some served]
  cases op with
  | setCachedPrice token block price blockTimestamp => exact permanent.setCachedPrice token block price blockTimestamp
  | setCachedError token block error => exact permanent.setCachedError token block error
  | _ => exact permanent

theorem shared_keeps (served : shared cache op reply = some after)
    (plain : ∀ token block error, op ≠ .setCachedError token block error) {key : String}
    (held : cache.holdsPrice key = true) : after.holdsPrice key = true := by
  rw [shared_some served]
  cases op with
  | setCachedPrice token block price blockTimestamp =>
    rw [Op.store,Cache.holdsPrice,Cache.priceAt_setCachedPrice]
    split
    · rfl
    · exact held
  | setCachedError token block error => exact absurd rfl (plain token block error)
  | _ => exact held

theorem shared_brings (served : shared cache op reply = some after) {key : String}
    (held : after.holdsPrice key = true) : cache.holdsPrice key = true ∨ op.pricesKey key = true := by
  rw [shared_some served] at held
  cases op with
  | setCachedPrice token block price blockTimestamp =>
    rw [Op.store,Cache.holdsPrice,Cache.priceAt_setCachedPrice] at held
    split at held
    · rename_i same
      exact Or.inr (decide_eq_true same.symm)
    · exact Or.inl held
  | setCachedError token block error =>
    rw [Op.store,Cache.holdsPrice,Cache.priceAt_setCachedError] at held
    split at held
    · simp at held
    · exact Or.inl held
  | _ => exact Or.inl held

theorem shared_prices (served : shared cache op reply = some after) {key : String}
    (stored : op.pricesKey key = true) : after.holdsPrice key = true := by
  rw [shared_some served]
  cases op with
  | setCachedPrice token block price blockTimestamp =>
    rw [Op.store,Cache.holdsPrice,Cache.priceAt_setCachedPrice,if_pos (of_decide_eq_true stored).symm]
    rfl
  | _ => simp [Op.pricesKey] at stored

end

theorem MissedRead.absent {key : String} {entry : Logged} {cache after : Cache} (missed : MissedRead key entry)
    (served : shared cache entry.event.1 entry.event.2 = some after) :
    cache.holdsPrice key = false ∧ after.holdsPrice key = false := by
  obtain ⟨id,request,supervised,event⟩ := entry
  obtain ⟨token,block,rfl,event⟩ := missed
  cases event
  simp only [shared,Option.ite_none_right_eq_some] at served
  obtain ⟨absent,same⟩ := served
  cases Option.some.inj same
  rw [Cache.holdsPrice,← Cache.getCachedPrice,← absent]
  exact ⟨rfl,rfl⟩

namespace Backend

def Timely (s : Backend) : Prop :=
  ∀ key earlier read later, s.log = earlier++read::later → MissedRead key read →
    s.cache.holdsPrice key = true → ∃ entry ∈ later, entry.event.1.pricesKey key = true

def Retained (s : Backend) : Prop :=
  ∀ entry ∈ s.log, ∀ key, entry.event.1.pricesKey key = true → s.cache.holdsPrice key = true

variable {config : Config} {s next : Backend}

theorem Timely.record {after : Cache} (timely : s.Timely) (entry : Logged)
    (served : shared s.cache entry.event.1 entry.event.2 = some after) (processes : List Process) :
    Timely ⟨after,processes,s.log++[entry]⟩ := by
  intro key earlier read later split missed held
  rcases List.eq_nil_or_concat later with rfl | ⟨middle,last,rfl⟩
  · obtain ⟨_,same⟩ := List.append_inj' split rfl
    cases same
    simp [(missed.absent served).2] at held
  · have moved : s.log++[entry] = (earlier++read::middle)++[last] := by simpa using split
    obtain ⟨before,same⟩ := List.append_inj' moved rfl
    cases same
    rcases shared_brings served held with old | new
    · obtain ⟨write,member,stored⟩ := timely key earlier read middle before missed old
      exact ⟨write,by simp [member],stored⟩
    · exact ⟨entry,by simp,new⟩

structure Consistent (s : Backend) : Prop where
  sound : s.Sound
  permanent : s.cache.PricesPermanent
  timely : s.Timely

theorem start_consistent {cache : Cache} (permanent : cache.PricesPermanent) : (start cache).Consistent :=
  ⟨start_sound cache,permanent,fun key earlier read later split => by simp [start] at split⟩

theorem step_consistent {action : Action} (consistent : s.Consistent) (stepped : s.step config action = some next) :
    next.Consistent := by
  have sound := step_sound consistent.sound stepped
  cases step_stepped stepped with
  | request request => exact ⟨sound,consistent.permanent,consistent.timely⟩
  | handler found performed served looked acted =>
    exact ⟨sound,shared_permanent served consistent.permanent,consistent.timely.record ⟨_,_,_,⟨_,_⟩⟩ served _⟩
  | started found absent waiting => exact ⟨sound,consistent.permanent,consistent.timely⟩
  | lookup found performed served =>
    exact ⟨sound,shared_permanent served consistent.permanent,consistent.timely.record ⟨_,_,_,⟨_,_⟩⟩ served _⟩
  | expired gone =>
    refine ⟨sound,consistent.permanent.expire gone,fun key earlier read later split missed held => ?_⟩
    rw [Cache.holdsPrice,Cache.priceAt_expire consistent.permanent gone] at held
    exact consistent.timely key earlier read later split missed held

/-- No price was stored for a request's key while the request was between its miss and its error. -/
def Unraced (s : Backend) : Action → Prop
  | .handlerStep id (.setCachedError token block _) _ => ¬ Overtaken s.log id (makeKey token block)
  | _ => True

/-- An error goes to a key that its own request has missed. -/
theorem Sound.error_missed (sound : s.Sound) {id : Nat} {process : Process} {token error : String} {block : Nat}
    {resume : Reply (.setCachedError token block error) → Program Response}
    (found : s.processes[id]? = some process) (performed : process.handler = perform (.setCachedError token block error) resume) :
    ∃ earlier read later, s.log = earlier++read::later ∧ read.id = id ∧ read.supervised = false ∧
      MissedRead (makeKey token block) read := by
  have ensured := sound.handlers id process found
  rw [performed] at ensured
  have allowed := ensured.1
  cases request : process.request with
  | prices params =>
    rw [request] at allowed
    exact allowed.elim
  | price params force =>
    rw [request] at allowed
    obtain ⟨read,member,mine,handler,event⟩ := mem_history allowed.2.1
    obtain ⟨earlier,later,split⟩ := List.append_of_mem member
    exact ⟨earlier,read,later,split,mine,handler,token,block,rfl,event⟩

theorem step_keeps {action : Action} (consistent : s.Consistent) (unraced : Unraced s action)
    (stepped : s.step config action = some next) {key : String} (held : s.cache.holdsPrice key = true) :
    next.cache.holdsPrice key = true := by
  cases step_stepped stepped with
  | request request => exact held
  | started found absent waiting => exact held
  | expired gone => rwa [Cache.holdsPrice,Cache.priceAt_expire consistent.permanent gone]
  | @lookup id process lookup op resume reply after found performed served =>
    refine shared_keeps served ?_ held
    rintro token block error rfl
    exact (consistent.sound.lookups id process lookup _ found performed).1
  | @handler id process op resume reply after found performed served looked acted =>
    by_cases writes : ∃ token block error, op = .setCachedError token block error
    · obtain ⟨token,block,error,rfl⟩ := writes
      obtain rfl := acted rfl
      obtain ⟨earlier,read,later,split,mine,handler,missed⟩ := consistent.sound.error_missed found performed
      have other : key ≠ makeKey token block := by
        rintro rfl
        obtain ⟨write,member,stored⟩ := consistent.timely _ earlier read later split missed held
        exact unraced ⟨earlier,read,later,split,mine,handler,missed,write,member,stored⟩
      rw [shared_some served,Cache.holdsPrice,Op.store,Cache.priceAt_setCachedError,if_neg other]
      exact held
    · exact shared_keeps served (fun token block error same => writes ⟨token,block,error,same⟩) held

/-- While nothing is lost, a step that a price has overtaken loses one. -/
theorem step_loses {action : Action} (retained : s.Retained) (raced : ¬ Unraced s action)
    (stepped : s.step config action = some next) :
    ∃ key, s.cache.holdsPrice key = true ∧ next.cache.holdsPrice key = false := by
  unfold Unraced at raced
  split at raced
  · rename_i id token block error reply
    obtain ⟨earlier,read,later,split,_,_,_,entry,member,stored⟩ := not_not.mp raced
    obtain ⟨process,found,handled⟩ := Option.bind_eq_some_iff.mp stepped
    obtain ⟨resume,cache,performed,served,rfl⟩ := handle_some handled
    -- the price that was stored after the miss is still there, and the error goes to its key
    refine ⟨makeKey token block,retained entry (by simp [split,member]) _ stored,?_⟩
    rw [shared_some served,Op.store,Cache.holdsPrice,Cache.priceAt_setCachedError,if_pos rfl]
    rfl
  · exact absurd trivial raced

theorem step_retained {action : Action} (consistent : s.Consistent) (retained : s.Retained) (unraced : Unraced s action)
    (stepped : s.step config action = some next) : next.Retained := by
  have kept (key : String) (held : s.cache.holdsPrice key = true) : next.cache.holdsPrice key = true :=
    step_keeps consistent unraced stepped held
  have recorded {after : Cache} {processes : List Process} (entry : Logged)
      (served : shared s.cache entry.event.1 entry.event.2 = some after)
      (kept : ∀ key, s.cache.holdsPrice key = true → after.holdsPrice key = true) :
      Retained ⟨after,processes,s.log++[entry]⟩ := by
    intro other member key stored
    rcases List.mem_append.mp member with old | new
    · exact kept key (retained other old key stored)
    · rw [List.mem_singleton.mp new] at stored
      exact shared_prices served stored
  cases step_stepped stepped with
  | request request => exact retained
  | handler found performed served looked acted => exact recorded ⟨_,_,_,⟨_,_⟩⟩ served kept
  | started found absent waiting => exact retained
  | lookup found performed served => exact recorded ⟨_,_,_,⟨_,_⟩⟩ served kept
  | expired gone => exact fun entry member key stored => kept key (retained entry member key stored)

/-- Later spot requests are not told that a key has no price: one that answers 404 has looked
up its own token, and found no price under another key. -/
def Undenied (middle final : Backend) (key : String) : Prop :=
  ∀ (id : Nat) process params force response, middle.processes.length ≤ id → final.processes[id]? = some process →
    process.request = .price params force → params.spot = true →
    process.handler = finished (.returned response) → response.status = 404 →
      (∃ block, (⟨.getCachedPrice params.token block,none⟩ : Event) ∈ history final.log id false) ∧
      ∀ block, (⟨.getCachedPrice params.token block,none⟩ : Event) ∈ history final.log id false →
        makeKey params.token block ≠ key

/-- From any state of a run to any later one, every price stays and is not denied. -/
def PricesKept (config : Config) (initial : Backend) (actions : List Action) : Prop :=
  ∀ first second third middle final, actions = first++second++third → run (step config) initial first = some middle →
    run (step config) middle second = some final → ∀ key, middle.cache.holdsPrice key = true →
      final.cache.holdsPrice key = true ∧ Undenied middle final key

structure Holding (middle : Backend) (key : String) (s : Backend) : Prop where
  held : s.cache.holdsPrice key = true
  hits : ∀ entry ∈ s.log, middle.processes.length ≤ entry.id → ¬ MissedRead key entry

theorem Holding.step {middle : Backend} {key : String} {action : Action} (holding : Holding middle key s)
    (held : next.cache.holdsPrice key = true) (stepped : s.step config action = some next) : Holding middle key next := by
  have recorded {after : Cache} (entry : Logged) (served : shared s.cache entry.event.1 entry.event.2 = some after) :
      ∀ other ∈ s.log++[entry], middle.processes.length ≤ other.id → ¬ MissedRead key other := by
    intro other member later missed
    rcases List.mem_append.mp member with old | new
    · exact holding.hits other old later missed
    · rw [List.mem_singleton.mp new] at missed
      exact absurd holding.held (by simp [(missed.absent served).1])
  refine ⟨held,?_⟩
  cases step_stepped stepped with
  | request request => exact holding.hits
  | handler found performed served looked acted => exact recorded ⟨_,_,_,⟨_,_⟩⟩ served
  | started found absent waiting => exact holding.hits
  | lookup found performed served => exact recorded ⟨_,_,_,⟨_,_⟩⟩ served
  | expired gone => exact holding.hits

theorem Holding.undenied {middle final : Backend} {key : String} (holding : Holding middle key final)
    (sound : final.Sound) : Undenied middle final key := by
  intro id process params force response later found request spot replied missing
  have ensured := sound.handlers id process found
  rw [replied,request] at ensured
  refine ⟨ensured.2 spot response rfl missing,fun block member same => ?_⟩
  obtain ⟨entry,logged,mine,_,event⟩ := mem_history member
  exact holding.hits entry logged (by rw [mine]; exact later) ⟨_,_,same,event⟩

theorem run_consistent {actions : List Action} {final : Backend} (consistent : s.Consistent)
    (ran : run (step config) s actions = some final) : final.Consistent :=
  run_preserves Consistent (fun _ _ _ consistent stepped => step_consistent consistent stepped) consistent ran

theorem run_holding {middle final : Backend} {actions : List Action} {key : String} (consistent : middle.Consistent)
    (held : middle.cache.holdsPrice key = true) (unraced : Throughout (step config) Unraced middle actions)
    (ran : run (step config) middle actions = some final) : Holding middle key final := by
  have fresh : ∀ entry ∈ middle.log, middle.processes.length ≤ entry.id → ¬ MissedRead key entry :=
    fun entry member later => absurd (consistent.sound.bounded entry member) (not_lt.mpr later)
  refine (run_preserves_throughout (fun s => s.Consistent ∧ Holding middle key s) Unraced ?_
    ⟨consistent,held,fresh⟩ unraced ran).2
  rintro before action after ⟨consistent,holding⟩ unraced stepped
  have stays := step_keeps consistent unraced stepped holding.held
  exact ⟨step_consistent consistent stepped,holding.step stays stepped⟩

theorem unraced_kept {cache : Cache} (permanent : cache.PricesPermanent) {actions : List Action}
    (unraced : Throughout (step config) Unraced (start cache) actions) : PricesKept config (start cache) actions := by
  rintro first second third middle final rfl before after key held
  rw [List.append_assoc] at unraced
  have later := (throughout_append.mp ((throughout_append.mp unraced).2 middle before)).1
  have consistent := run_consistent (start_consistent permanent) before
  have holding := run_holding consistent held later after
  exact ⟨holding.held,holding.undenied (run_consistent consistent after).sound⟩

theorem run_retained {cache : Cache} (permanent : cache.PricesPermanent) {actions : List Action} {final : Backend}
    (unraced : Throughout (step config) Unraced (start cache) actions)
    (ran : run (step config) (start cache) actions = some final) : final.Retained := by
  have initial : (start cache).Retained := fun entry member => by simp [start] at member
  refine (run_preserves_throughout (fun s => s.Consistent ∧ s.Retained) Unraced ?_
    ⟨start_consistent permanent,initial⟩ unraced ran).2
  rintro before action after ⟨consistent,retained⟩ unraced stepped
  exact ⟨step_consistent consistent stepped,step_retained consistent retained unraced stepped⟩

theorem PricesKept.before {initial : Backend} {first second : List Action} (kept : PricesKept config initial (first++second)) :
    PricesKept config initial first := by
  rintro before between after middle final rfl
  exact kept before between (after++second) middle final (by simp)

/-- Prices are kept in exactly the runs in which no error is written to a key at which a
price was stored after the request had missed it. -/
theorem prices_kept_iff {cache : Cache} (permanent : cache.PricesPermanent) {actions : List Action} {final : Backend}
    (ran : run (step config) (start cache) actions = some final) :
    PricesKept config (start cache) actions ↔ Throughout (step config) Unraced (start cache) actions := by
  refine ⟨fun kept => ?_,unraced_kept permanent⟩
  -- from the end: up to the first step that a price overtakes nothing is lost, and that step loses a price
  refine run_history (fun actions _ => PricesKept config (start cache) actions →
    Throughout (step config) Unraced (start cache) actions) (fun _ => trivial) ?_ ran kept
  intro actions middle action last before ih stepped kept
  have unraced := ih kept.before
  refine throughout_append.mpr ⟨unraced,fun other same => ?_⟩
  obtain rfl : middle = other := Option.some.inj (before.symm.trans same)
  refine ⟨by_contra fun raced => ?_,fun _ _ => trivial⟩
  obtain ⟨key,held,lost⟩ := step_loses (run_retained permanent unraced before) raced stepped
  have lastStep : run (step config) middle [action] = some last := run_snoc (run_nil middle) stepped
  have stays := (kept actions [action] [] middle last (by simp) before lastStep key held).1
  simp [lost] at stays

def spotRequest : Action := .request (.price ⟨"0xaa",some 5,none,[],none⟩ false)

/-- Two requests miss the same key, and one of them is told that there is no price. -/
def errorComes : List Action := [
  spotRequest,
  spotRequest,
  .handlerStep 0 (.getCachedPrice "0xaa" 5) none,
  .handlerStep 1 (.getCachedPrice "0xaa" 5) none,
  .handlerStep 0 (.getCachedError "0xaa" 5) none,
  .handlerStep 1 (.getCachedError "0xaa" 5) none,
  .startLookup 0,
  .startLookup 1,
  .lookupStep 1 (.await [.price "0xaa" 5 none []]) (.returned (none,())),
  .lookupDone 1]

/-- Its error is stored, then the price of the other, which a third request is served. -/
def priceFollows : List Action := [
  .handlerStep 1 (.setCachedError "0xaa" 5 "No price found for 0xaa at block 5 on ethereum") (),
  .lookupStep 0 (.await [.price "0xaa" 5 none []]) (.returned (some ⟨.finite 2,"2",none⟩,())),
  .lookupStep 0 (.await [.blockTimestamp 5]) (.returned ((1700000000 : Int),())),
  .lookupStep 0 (.setCachedPrice "0xaa" 5 (.finite 2) (some 1700000000)) (),
  spotRequest,
  .handlerStep 2 (.getCachedPrice "0xaa" 5) (some ⟨.finite 2,some 1700000000⟩)]

theorem prices_kept_iff_priced : PricesKept ethereum (start ∅) (errorComes++priceFollows) ∧
    ∃ final, run (step ethereum) (start ∅) (errorComes++priceFollows) = some final ∧
      final.cache.holdsPrice (makeKey "0xaa" 5) = true := by
  have completes : (run (step ethereum) (start ∅) (errorComes++priceFollows)).map (·.cache.holdsPrice (makeKey "0xaa" 5)) =
      some true := by rfl
  obtain ⟨final,ran,held⟩ := Option.map_eq_some_iff.mp completes
  refine ⟨(prices_kept_iff (by simp [Cache.PricesPermanent]) ran).mpr ?_,final,ran,held⟩
  refine throughout_append.mpr ⟨by simp [errorComes,spotRequest,Throughout,Unraced],fun middle before => ?_⟩
  have unpriced : ∀ entry ∈ middle.log, entry.event.1.pricesKey (makeKey "0xaa" 5) = false := by
    have logged : ((run (step ethereum) (start ∅) errorComes).map fun middle =>
        middle.log.all fun entry => !entry.event.1.pricesKey (makeKey "0xaa" 5)) = some true := by rfl
    rw [before,Option.map_some,Option.some.injEq,List.all_eq_true] at logged
    exact fun entry member => by simpa using logged entry member
  refine ⟨?_,fun _ _ => by simp [spotRequest,Throughout,Unraced]⟩
  rintro ⟨earlier,read,later,split,_,_,_,entry,member,stored⟩
  have absent := unpriced entry (by simp [split,member])
  rw [stored] at absent
  cases absent

/-- Two requests miss the same key, and the price of one of them is stored. -/
def bothMiss : List Action := [
  spotRequest,
  spotRequest,
  .handlerStep 0 (.getCachedPrice "0xaa" 5) none,
  .handlerStep 1 (.getCachedPrice "0xaa" 5) none,
  .handlerStep 0 (.getCachedError "0xaa" 5) none,
  .handlerStep 1 (.getCachedError "0xaa" 5) none,
  .startLookup 0,
  .startLookup 1,
  .lookupStep 0 (.await [.price "0xaa" 5 none []]) (.returned (some ⟨.finite 2,"2",none⟩,())),
  .lookupStep 0 (.await [.blockTimestamp 5]) (.returned ((1700000000 : Int),())),
  .lookupStep 0 (.setCachedPrice "0xaa" 5 (.finite 2) (some 1700000000)) ()]

/-- The other is answered that there is none, and a third request is told so. -/
def errorFollows : List Action := [
  .lookupStep 1 (.await [.price "0xaa" 5 none []]) (.returned (none,())),
  .lookupDone 1,
  .handlerStep 1 (.setCachedError "0xaa" 5 "No price found for 0xaa at block 5 on ethereum") (),
  spotRequest,
  .handlerStep 2 (.getCachedPrice "0xaa" 5) none,
  .handlerStep 2 (.getCachedError "0xaa" 5) (some "No price found for 0xaa at block 5 on ethereum")]

def statusOf (s : Backend) (id : Nat) : Option Nat :=
  s.processes[id]?.bind fun process => match process.handler with
    | .finished (.returned response) => some response.status
    | _ => none

theorem price_lost :
    ∃ middle final, run (step ethereum) (start ∅) bothMiss = some middle ∧
      run (step ethereum) middle errorFollows = some final ∧ middle.cache.holdsPrice (makeKey "0xaa" 5) = true ∧
      final.cache.holdsPrice (makeKey "0xaa" 5) = false ∧ middle.processes.length ≤ 2 ∧ statusOf final 2 = some 404 ∧
      ¬ PricesKept ethereum (start ∅) (bothMiss++errorFollows) := by
  have stored : (run (step ethereum) (start ∅) bothMiss).map (fun middle =>
      (middle.cache.holdsPrice (makeKey "0xaa" 5),middle.processes.length)) = some (true,2) := by rfl
  have lost : (run (step ethereum) (start ∅) (bothMiss++errorFollows)).map (fun final =>
      (final.cache.holdsPrice (makeKey "0xaa" 5),statusOf final 2)) = some (false,some 404) := by rfl
  obtain ⟨middle,before,held⟩ := Option.map_eq_some_iff.mp stored
  obtain ⟨final,ran,gone⟩ := Option.map_eq_some_iff.mp lost
  obtain ⟨other,same,after⟩ := run_append_some ran
  obtain rfl : middle = other := Option.some.inj (before.symm.trans same)
  obtain ⟨held,two⟩ := Prod.mk.inj held
  obtain ⟨gone,status⟩ := Prod.mk.inj gone
  refine ⟨middle,final,before,after,held,gone,two.le,status,fun kept => ?_⟩
  have stays := (kept bothMiss errorFollows [] middle final (by simp) before after _ held).1
  simp [gone] at stays

end Backend

end YPriceMagic.Server
