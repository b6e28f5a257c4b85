import YPriceMagic.Server.LostUpdate

/-! What a retry of stored errors leaves in the cache. Each key is requested once and with
`force`, so a price that a retry reports is stored, and no price that was there is touched. -/
namespace YPriceMagic.Scripts
open YPriceMagic.Async YPriceMagic.Async.Coroutine YPriceMagic.Server

abbrev Priced := Option (PyFloat × Option TradePath × Option Int)

/-- What a lookup leaves at its key, where it alone writes there. -/
def Tracks {α : Type} (key : String) (post : Outcome Exn α → Option CachedPrice → Prop) : Program α → Option CachedPrice → Prop
  | .finished outcome,now => post outcome now
  | .perform (.setCachedPrice token block price blockTimestamp) resume,_ =>
    makeKey token block = key ∧ Tracks key post (resume ()) (some ⟨price,blockTimestamp⟩)
  | .perform (.setCachedError _ _ _) _,_ => False
  | .perform (.runLookup _) _,_ => False
  | .perform _ resume,now => ∀ reply, Tracks key post (resume reply) now

section
variable {α β : Type} {key : String} {post : Outcome Exn α → Option CachedPrice → Prop}
  {final : Outcome Exn β → Option CachedPrice → Prop} {now : Option CachedPrice}

theorem Tracks.andThen {first : Program α} {next : Outcome Exn α → Program β} (tracks : Tracks key post first now)
    (continued : ∀ outcome later, post outcome later → Tracks key final (next outcome) later) :
    Tracks key final (first.andThen next) now := by
  induction first generalizing now with
  | finished outcome => exact continued outcome now tracks
  | perform op resume ih =>
    cases op with
    | setCachedPrice token block price blockTimestamp => exact ⟨tracks.1,ih () tracks.2⟩
    | setCachedError token block error => exact tracks
    | runLookup lookup => exact tracks
    | _ => exact fun reply => ih reply (tracks reply)

theorem Tracks.bind {first : Program α} {next : α → Program β} (tracks : Tracks key post first now)
    (continued : ∀ value later, post (.returned value) later → Tracks key final (next value) later)
    (failed : ∀ error later, post (.raised error) later → final (.raised error) later)
    (cancelled : ∀ later, post .cancelled later → final .cancelled later) : Tracks key final (first >>= next) now := by
  refine tracks.andThen fun outcome later held => ?_
  cases outcome with
  | returned value => exact continued value later held
  | raised error => exact failed error later held
  | cancelled => exact cancelled later held

/-- The program leaves its key alone. -/
abbrev Leaves (key : String) (program : Program α) (now : Option CachedPrice) : Prop := Tracks key (fun _ later => later = now) program now

theorem Leaves.bind {first : Program α} {next : α → Program β} (leaves : Leaves key first now)
    (continued : ∀ value, Leaves key (next value) now) : Leaves key (first >>= next) now :=
  Tracks.bind leaves (fun value _ same => same ▸ continued value) (fun _ _ same => same) fun _ same => same

theorem Leaves.tryExcept {body : Program α} {handler : Exn → Program α} (leaves : Leaves key body now)
    (handled : ∀ error, Leaves key (handler error) now) : Leaves key (body.tryExcept handler) now := by
  refine Tracks.andThen leaves fun outcome later same => ?_
  subst same
  cases outcome with
  | raised error => exact handled error
  | returned value => exact (rfl : later = later)
  | cancelled => exact (rfl : later = later)

theorem leaves_pure (value : α) : Leaves key (pure value) now := (rfl : now = now)

theorem leaves_raise (error : Exn) : Leaves key (raise error : Program α) now := (rfl : now = now)

theorem call_leaves (query : Query) : Leaves key (call query) now :=
  (show Leaves key (gather [query]) now from fun reply => by cases reply <;> exact (rfl : now = now)).bind fun _ => leaves_pure _

theorem retrying_leaves {attemptText : Exn → String} {attempt : Program α} (leaves : Leaves key attempt now) (waits : List Nat) :
    Leaves key (retrying attemptText attempt waits) now := by
  induction waits with
  | nil =>
    refine Leaves.tryExcept leaves fun error => ?_
    split <;> exact leaves_raise _
  | cons seconds rest ih =>
    refine Leaves.tryExcept leaves fun error => ?_
    split
    · have slept : Leaves key (sleep seconds) now := fun reply => by cases reply <;> exact (rfl : now = now)
      exact slept.bind fun _ => ih
    · exact leaves_raise _

end

/-- A lookup that returns has stored its price, or found none and stored nothing. -/
def Landed (outcome : Outcome Exn Priced) (now : Option CachedPrice) : Prop :=
  match outcome with
  | .returned (some (price,_,blockTimestamp)) => now = some ⟨price,blockTimestamp⟩
  | .returned none => now = none
  | _ => True

section
variable (config : Config) (token : String) (block : Nat) (now : Option CachedPrice)

theorem fetchPrice_leaves : Leaves (makeKey token block) (fetchPrice config token block none []) now := by
  refine retrying_leaves (Leaves.bind (call_leaves _) fun p => ?_) [1]
  cases p with
  | none => exact leaves_pure _
  | some p =>
    dsimp only
    split
    · exact leaves_raise _
    · split
      · exact leaves_raise _
      · exact leaves_pure _

theorem fetchBlockTimestamp_leaves {key : String} : Leaves key (fetchBlockTimestamp block) now := by
  have read : Leaves key (call (.blockTimestamp block) >>= fun time => pure (some time)) now :=
    Leaves.bind (call_leaves _) fun _ => leaves_pure _
  exact Leaves.tryExcept read fun _ => leaves_pure _

theorem fetchPriceAndCache_lands : Tracks (makeKey token block) Landed (fetchPriceAndCache config token block none []) none := by
  refine Tracks.bind (fetchPrice_leaves config token block none) (fun result later same => ?_) (fun _ _ _ => trivial) fun _ _ => trivial
  cases result with
  | none => exact same
  | some found =>
    obtain ⟨price,tradePath⟩ := found
    refine Tracks.bind (fetchBlockTimestamp_leaves block later) (fun stamp last kept => ?_) (fun _ _ _ => trivial) fun _ _ => trivial
    exact ⟨rfl,rfl⟩

end

def retryParams (token : String) (block : Nat) : PriceParams := ⟨token,some block,none,[],none⟩

/-- What `_retry_one` asks for. -/
def retryRequest (entry : String × Nat) : Request := .price (retryParams entry.1 entry.2) true

def retryKey (entry : String × Nat) : String := makeKey entry.1 entry.2

abbrev Looking := Option ((lookup : Lookup) × Program lookup.Result)

/-- A price in an answer is in the cache. -/
def Reported (token : String) (block : Nat) (outcome : Outcome Exn Response) (now : Option CachedPrice) : Prop :=
  ∀ body, outcome = .returned (.price body) → body.token = token ∧ body.block = block ∧ now = some ⟨body.price,body.blockTimestamp⟩

section
variable (config : Config) (token : String) (block : Nat)

def Quiet (lookup : Looking) : Prop :=
  lookup = none ∨ ∃ outcome, lookup = some ⟨.price token block none [],.finished outcome⟩

/-- How far a retry has come: its handler, its lookup and the price at its key, where `was` was
there before. The lookup of a caller that was cancelled may still store a price. -/
inductive Stage (was : Option CachedPrice) : Program Response → Looking → Option CachedPrice → Prop
  | fresh : Stage was ((retryRequest (token,block)).program config) none was
  | missed (absent : was = none) : Stage was (lookupPrice config (retryParams token block) block) none none
  | looking {program : Program Priced} {now : Option CachedPrice} (absent : was = none)
      (tracks : Tracks (makeKey token block) Landed program now) :
      Stage was (lookupPrice config (retryParams token block) block) (some ⟨.price token block none [],program⟩) now
  | storing {error : String} {response : Runtime.JSONResponse} {lookup : Looking} (absent : was = none) (quiet : Quiet token block lookup) :
      Stage was (perform (.setCachedError token block error) fun _ => finished (.returned (.error response))) lookup none
  | answered {outcome : Outcome Exn Response} {lookup : Looking} {now : Option CachedPrice} (quiet : Quiet token block lookup)
      (reported : Reported token block outcome now) (kept : ∀ cached, was = some cached → now = some cached) :
      Stage was (finished outcome) lookup now
  | abandoned {outcome : Outcome Exn Response} {program : Program Priced} {now : Option CachedPrice} (absent : was = none)
      (tracks : Tracks (makeKey token block) Landed program now) (priceless : ∀ body, outcome ≠ .returned (.price body)) :
      Stage was (finished outcome) (some ⟨.price token block none [],program⟩) now

theorem retry_program : (retryRequest (token,block)).program config = perform (.getCachedPrice token block) fun cached =>
    match cached with
    | some cached => finished (.returned (.price ⟨token,cached.price,block,config.chainName,cached.blockTimestamp,true,none⟩))
    | none => lookupPrice config (retryParams token block) block := by
  change perform _ _ = perform _ _
  congr 1
  funext cached
  cases cached <;> rfl

end

section
variable {config : Config} {token : String} {block : Nat} {was now : Option CachedPrice} {handler : Program Response} {lookup : Looking}
  {cache after : Cache} {op : Op} {reply : Reply op}

theorem Stage.kept (stage : Stage config token block was handler lookup now) {cached : CachedPrice} (held : was = some cached) :
    now = some cached := by
  cases stage with
  | fresh => exact held
  | answered quiet reported kept => exact kept cached held
  | missed absent | looking absent | storing absent | abandoned absent =>
    rw [absent] at held
    cases held

theorem Stage.reported {outcome : Outcome Exn Response} (stage : Stage config token block was (finished outcome) lookup now) :
    Reported token block outcome now := by
  generalize ended : finished outcome = program at stage
  cases stage with
  | fresh =>
    rw [retry_program] at ended
    cases ended
  | missed => cases ended
  | looking => cases ended
  | storing => cases ended
  | answered quiet reported =>
    cases ended
    exact reported
  | abandoned absent tracks priceless =>
    cases ended
    exact fun body priced => absurd priced (priceless body)

/-- A handler that has no price leaves its lookup to go on, if there is one. -/
theorem Stage.leave {outcome : Outcome Exn Response} (absent : was = none) (priceless : ∀ body, outcome ≠ .returned (.price body))
    (running : lookup = none ∨ ∃ program, lookup = some ⟨.price token block none [],program⟩ ∧ Tracks (makeKey token block) Landed program now) :
    Stage config token block was (finished outcome) lookup now := by
  have unreported : Reported token block outcome now := fun body priced => absurd priced (priceless body)
  rcases running with rfl | ⟨program,rfl,tracks⟩
  · refine .answered (Or.inl rfl) unreported fun cached held => ?_
    rw [absent] at held
    cases held
  · exact .abandoned absent tracks priceless

theorem Stage.handlerStep {process : Process} {resume : Reply op → Program Response}
    (stage : Stage config token block was process.handler process.lookup (cache.priceAt (makeKey token block)))
    (performed : process.handler = perform op resume) (served : shared cache op reply = some after)
    (looked : Backend.LookupReply process ⟨op,reply⟩) :
    Stage config token block was (resume reply) process.lookup (after.priceAt (makeKey token block)) ∧
      ∀ other, other ≠ makeKey token block → after.priceAt other = cache.priceAt other := by
  obtain ⟨request,handler,lookup⟩ := process
  dsimp only at stage performed
  generalize present : cache.priceAt (makeKey token block) = now at stage
  cases stage with
  | fresh =>
    rw [retry_program] at performed
    cases performed
    simp only [shared,Option.ite_none_right_eq_some] at served
    obtain ⟨answer,same⟩ := served
    cases Option.some.inj same
    refine ⟨?_,fun _ _ => rfl⟩
    rw [Cache.getCachedPrice,present] at answer
    rw [present]
    cases reply with
    | none =>
      obtain rfl : none = was := answer
      exact .missed rfl
    | some cached =>
      obtain rfl : some cached = was := answer
      refine .answered (Or.inl rfl) (fun body priced => ?_) fun _ held => held
      cases priced
      exact ⟨rfl,rfl,rfl⟩
  | missed absent =>
    cases performed
    cases Option.some.inj served
    refine ⟨?_,fun _ _ => rfl⟩
    rw [present]
    cases reply with
    | returned value => cases looked value rfl
    | raised error => exact .leave absent (fun body priced => by cases priced) (Or.inl rfl)
    | cancelled => exact .leave absent (fun body priced => by cases priced) (Or.inl rfl)
  | looking absent tracks =>
    cases performed
    cases Option.some.inj served
    refine ⟨?_,fun _ _ => rfl⟩
    rw [present]
    cases reply with
    | returned value =>
      have ended := looked value rfl
      cases ended
      cases value with
      | none =>
        obtain rfl : now = none := tracks
        exact .storing absent (Or.inr ⟨_,rfl⟩)
      | some found =>
        obtain ⟨price,tradePath,blockTimestamp⟩ := found
        obtain rfl : now = some ⟨price,blockTimestamp⟩ := tracks
        refine .answered (Or.inr ⟨_,rfl⟩) (fun body priced => ?_) fun cached held => ?_
        · cases priced
          exact ⟨rfl,rfl,rfl⟩
        · rw [absent] at held
          cases held
    | raised error => exact .leave absent (fun body priced => by cases priced) (Or.inr ⟨_,rfl,tracks⟩)
    | cancelled => exact .leave absent (fun body priced => by cases priced) (Or.inr ⟨_,rfl,tracks⟩)
  | storing absent quiet =>
    cases performed
    cases Option.some.inj served
    refine ⟨.answered quiet (fun body priced => by cases priced) fun cached held => ?_,fun other different => ?_⟩
    · rw [absent] at held
      cases held
    · rw [Cache.priceAt_setCachedError,if_neg different]
  | answered => cases performed
  | abandoned => cases performed

/-- A lookup that still runs goes on, and one that has ended has nothing to do. -/
theorem Stage.lookupStep {ran : Lookup} {resume : Reply op → Program ran.Result}
    (stage : Stage config token block was handler lookup (cache.priceAt (makeKey token block)))
    (performed : lookup = some ⟨ran,perform op resume⟩) (served : shared cache op reply = some after) :
    Stage config token block was handler (some ⟨ran,resume reply⟩) (after.priceAt (makeKey token block)) ∧
      ∀ other, other ≠ makeKey token block → after.priceAt other = cache.priceAt other := by
  have busy (quiet : Quiet token block lookup) : False := by
    rcases quiet with rfl | ⟨outcome,rfl⟩ <;> cases performed
  have tracked {resume : Reply op → Program Priced} {now : Option CachedPrice} (present : cache.priceAt (makeKey token block) = now)
      (tracks : Tracks (makeKey token block) Landed (perform op resume) now) :
      Tracks (makeKey token block) Landed (resume reply) (after.priceAt (makeKey token block)) ∧
        ∀ other, other ≠ makeKey token block → after.priceAt other = cache.priceAt other := by
    rw [shared_some served]
    cases op with
    | setCachedPrice other number price blockTimestamp =>
      obtain ⟨same,later⟩ := tracks
      refine ⟨?_,fun key different => ?_⟩
      · rw [Op.store,Cache.priceAt_setCachedPrice,if_pos same.symm]
        exact later
      · rw [Op.store,Cache.priceAt_setCachedPrice,if_neg (same ▸ different)]
    | setCachedError other number error => exact tracks.elim
    | runLookup inner => exact tracks.elim
    | _ => exact ⟨present ▸ tracks reply,fun _ _ => rfl⟩
  generalize present : cache.priceAt (makeKey token block) = now at stage
  cases stage with
  | fresh => cases performed
  | missed => cases performed
  | looking absent tracks =>
    cases performed
    obtain ⟨later,elsewhere⟩ := tracked present tracks
    exact ⟨.looking absent later,elsewhere⟩
  | storing absent quiet => exact (busy quiet).elim
  | answered quiet => exact (busy quiet).elim
  | abandoned absent tracks priceless =>
    cases performed
    obtain ⟨later,elsewhere⟩ := tracked present tracks
    exact ⟨.abandoned absent later priceless,elsewhere⟩

theorem Stage.started {ran : Lookup} {resume : Reply (.runLookup ran) → Program Response} {now : Option CachedPrice}
    (stage : Stage config token block was handler none now) (waiting : handler = perform (.runLookup ran) resume) :
    Stage config token block was handler (some ⟨ran,ran.program config⟩) now := by
  generalize unstarted : (none : Looking) = lookup at stage
  cases stage with
  | fresh =>
    rw [retry_program] at waiting
    cases waiting
  | missed absent =>
    cases waiting
    exact .looking absent (fetchPriceAndCache_lands config token block)
  | looking => cases unstarted
  | storing => cases waiting
  | answered => cases waiting
  | abandoned => cases waiting

end

/-- A run whose requests are the retries of `wanted`, over what was in the cache before. -/
structure Landing (config : Config) (initial : Cache) (wanted : List (String × Nat)) (s : Backend) : Prop where
  requests : s.processes.map (·.request) = wanted.map retryRequest
  permanent : s.cache.PricesPermanent
  stages : ∀ (id : Nat) entry process, wanted[id]? = some entry → s.processes[id]? = some process →
    Stage config entry.1 entry.2 (initial.priceAt (retryKey entry)) process.handler process.lookup (s.cache.priceAt (retryKey entry))
  elsewhere : ∀ key, (∀ entry ∈ wanted, retryKey entry ≠ key) → s.cache.priceAt key = initial.priceAt key

def requested (actions : List Backend.Action) : List Request := actions.filterMap fun
  | .request request => some request
  | _ => none

section
variable {config : Config} {initial : Cache} {wanted : List (String × Nat)} {s : Backend}

theorem other_key (distinct : (wanted.map retryKey).Nodup) {id other : Nat} {entry another : String × Nat}
    (found : wanted[id]? = some entry) (present : wanted[other]? = some another) (different : id ≠ other) :
    retryKey another ≠ retryKey entry := by
  intro same
  have inside : id < (wanted.map retryKey).length := by
    simpa using (List.getElem?_eq_some_iff.mp found).1
  refine different ((List.getElem?_inj inside distinct).mp ?_)
  rw [List.getElem?_map,List.getElem?_map,found,present,Option.map_some,Option.map_some,same]

theorem Landing.entry (landing : Landing config initial wanted s) {id : Nat} {process : Process}
    (found : s.processes[id]? = some process) : ∃ entry, wanted[id]? = some entry := by
  have inside := (List.getElem?_eq_some_iff.mp found).1
  have size : s.processes.length = wanted.length := by simpa using congrArg List.length landing.requests
  exact ⟨wanted[id],List.getElem?_eq_getElem (size ▸ inside)⟩

/-- A request moves on and changes no price but at its own key. -/
theorem Landing.advance (landing : Landing config initial wanted s) (distinct : (wanted.map retryKey).Nodup) {id : Nat}
    {process : Process} (later : Process) {entry : String × Nat} {after : Cache} (found : s.processes[id]? = some process)
    (mine : wanted[id]? = some entry) (same : later.request = process.request) (permanent : after.PricesPermanent)
    (stage : Stage config entry.1 entry.2 (initial.priceAt (retryKey entry)) later.handler later.lookup (after.priceAt (retryKey entry)))
    (kept : ∀ other, other ≠ retryKey entry → after.priceAt other = s.cache.priceAt other) (log : List Logged) :
    Landing config initial wanted ⟨after,s.processes.set id later,log⟩ := by
  refine ⟨?_,permanent,fun other another running wants present => ?_,fun key unwanted => ?_⟩
  · have place : (s.processes.map (·.request))[id]? = some process.request := by simp [found]
    obtain ⟨inside,here⟩ := List.getElem?_eq_some_iff.mp place
    have unmoved := landing.requests
    rw [← List.set_getElem_self inside,here,← same,← List.map_set] at unmoved
    exact unmoved
  · by_cases here : other = id
    · subst here
      cases Option.some.inj (mine.symm.trans wants)
      rw [List.getElem?_set_self (List.getElem?_eq_some_iff.mp found).1] at present
      cases Option.some.inj present
      exact stage
    · rw [List.getElem?_set_ne (Ne.symm here)] at present
      rw [kept _ (other_key distinct mine wants (Ne.symm here))]
      exact landing.stages other another running wants present
  · rw [kept key (unwanted entry (List.mem_of_getElem? mine)).symm]
    exact landing.elsewhere key unwanted

/-- A request that arrives finds its key as it was before. -/
theorem Landing.arrive {entry : String × Nat} (landing : Landing config initial wanted s)
    (fresh : ∀ other ∈ wanted, retryKey other ≠ retryKey entry) :
    Landing config initial (wanted++[entry])
      {s with processes := s.processes++[⟨retryRequest entry,(retryRequest entry).program config,none⟩]} := by
  have size : s.processes.length = wanted.length := by simpa using congrArg List.length landing.requests
  refine ⟨by simp [landing.requests],landing.permanent,fun id another process wants present => ?_,fun key unwanted => ?_⟩
  · by_cases old : id < wanted.length
    · rw [List.getElem?_append_left old] at wants
      rw [List.getElem?_append_left (size ▸ old)] at present
      exact landing.stages id another process wants present
    · have last : id = wanted.length := by
        have inside := (List.getElem?_eq_some_iff.mp wants).1
        simp only [List.length_append,List.length_singleton] at inside
        omega
      subst last
      rw [List.getElem?_concat_length] at wants
      rw [← size,List.getElem?_concat_length] at present
      cases Option.some.inj wants
      cases Option.some.inj present
      rw [landing.elsewhere _ fresh]
      exact .fresh
  · exact landing.elsewhere key fun other member => unwanted other (by simp [member])

theorem handle_length {next : Backend} {id : Nat} {process : Process} {op : Op} {reply : Reply op}
    (handled : s.handle id process op reply = some next) : next.processes.length = s.processes.length := by
  obtain ⟨resume,cache,performed,served,rfl⟩ := Backend.handle_some handled
  exact List.length_set

theorem step_length {next : Backend} {action : Backend.Action} (stepped : s.step config action = some next)
    (plain : requested [action] = []) : next.processes.length = s.processes.length := by
  cases action with
  | request request => cases plain
  | expire key =>
    obtain ⟨cache,gone,rfl⟩ := Option.map_eq_some_iff.mp stepped
    rfl
  | lookupStep id op reply =>
    obtain ⟨process,found,stepped⟩ := Option.bind_eq_some_iff.mp stepped
    obtain ⟨running,_,stepped⟩ := Option.bind_eq_some_iff.mp stepped
    obtain ⟨program,_,stepped⟩ := Option.bind_eq_some_iff.mp stepped
    obtain ⟨cache,_,stepped⟩ := Option.bind_eq_some_iff.mp stepped
    cases Option.some.inj stepped
    exact List.length_set
  | startLookup id =>
    obtain ⟨process,found,stepped⟩ := Option.bind_eq_some_iff.mp stepped
    split at stepped
    · cases Option.some.inj stepped
      exact List.length_set
    · cases stepped
  | handlerStep id op reply =>
    obtain ⟨process,found,stepped⟩ := Option.bind_eq_some_iff.mp stepped
    split at stepped
    · cases stepped
    · exact handle_length stepped
  | lookupDone id | refuseLookup id message | cancelCaller id =>
    obtain ⟨process,found,stepped⟩ := Option.bind_eq_some_iff.mp stepped
    split at stepped
    · exact handle_length stepped
    · cases stepped

theorem Landing.step {next : Backend} {action : Backend.Action} (landing : Landing config initial wanted s)
    (distinct : (wanted.map retryKey).Nodup) (stepped : s.step config action = some next)
    (plain : requested [action] = []) : Landing config initial wanted next := by
  cases Backend.step_stepped stepped with
  | request request =>
    have size := step_length stepped plain
    simp at size
  | @handler id process op resume reply after found performed served looked =>
    obtain ⟨entry,mine⟩ := landing.entry found
    obtain ⟨stage,kept⟩ := (landing.stages id entry process mine found).handlerStep performed served looked
    exact landing.advance distinct {process with handler := resume reply} found mine rfl
      (shared_permanent served landing.permanent) stage kept _
  | @started id process lookup resume found absent waiting =>
    obtain ⟨entry,mine⟩ := landing.entry found
    have stage := landing.stages id entry process mine found
    rw [absent] at stage
    exact landing.advance distinct {process with lookup := some ⟨lookup,lookup.program config⟩} found mine rfl landing.permanent
      (stage.started waiting) (fun _ _ => rfl) _
  | @lookup id process lookup op resume reply after found performed served =>
    obtain ⟨entry,mine⟩ := landing.entry found
    obtain ⟨stage,kept⟩ := (landing.stages id entry process mine found).lookupStep performed served
    exact landing.advance distinct {process with lookup := some ⟨lookup,resume reply⟩} found mine rfl
      (shared_permanent served landing.permanent) stage kept _
  | @expired key after gone =>
    have same := Cache.priceAt_expire landing.permanent gone
    refine ⟨landing.requests,landing.permanent.expire gone,fun id entry process mine found => ?_,fun other unwanted => ?_⟩
    · rw [same]
      exact landing.stages id entry process mine found
    · rw [same]
      exact landing.elsewhere other unwanted

theorem run_landing {actions : List Backend.Action} {final : Backend} (permanent : initial.PricesPermanent)
    (ran : run (Backend.step config) (Backend.start initial) actions = some final) :
    ∀ wanted, requested actions = wanted.map retryRequest → (wanted.map retryKey).Nodup → Landing config initial wanted final := by
  refine run_history (fun actions final => ∀ wanted, requested actions = wanted.map retryRequest → (wanted.map retryKey).Nodup →
    Landing config initial wanted final) ?_ ?_ ran
  · intro wanted asked _
    obtain rfl : wanted = [] := List.map_eq_nil_iff.mp asked.symm
    exact ⟨rfl,permanent,fun id entry process mine => by simp at mine,fun _ _ => rfl⟩
  · intro actions before action after _ ih stepped wanted asked distinct
    have parts : requested (actions++[action]) = requested actions++requested [action] := List.filterMap_append
    rw [parts] at asked
    by_cases plain : requested [action] = []
    · rw [plain,List.append_nil] at asked
      exact (ih wanted asked distinct).step distinct stepped plain
    · cases action with
      | request request =>
        obtain ⟨earlier,last,rfl,old,new⟩ := List.append_eq_map_iff.mp asked
        obtain ⟨entry,rest,rfl,rfl,nothing⟩ := List.map_eq_cons_iff.mp new
        obtain rfl := List.map_eq_nil_iff.mp nothing
        rw [List.map_append] at distinct
        cases Option.some.inj stepped
        refine (ih earlier old.symm (List.nodup_append.mp distinct).1).arrive fun other member => ?_
        exact (List.nodup_append.mp distinct).2.2 _ (List.mem_map_of_mem member) _ (by simp)
      | _ => exact absurd rfl plain

/-- Every price that a retry reports is in the cache in the end, at the key that was asked for.
No price that was there before is touched, and nothing is priced that was not asked for. -/
theorem retries_land {actions : List Backend.Action} {final : Backend} (permanent : initial.PricesPermanent)
    (ran : run (Backend.step config) (Backend.start initial) actions = some final)
    (asked : requested actions = wanted.map retryRequest) (distinct : (wanted.map retryKey).Nodup) :
    (∀ process ∈ final.processes, ∀ body, process.handler = finished (.returned (.price body)) →
      final.cache.getCachedPrice body.token body.block = some ⟨body.price,body.blockTimestamp⟩) ∧
    (∀ key cached, initial.priceAt key = some cached → final.cache.priceAt key = some cached) ∧
    ∀ key, (∀ entry ∈ wanted, retryKey entry ≠ key) → final.cache.priceAt key = initial.priceAt key := by
  have landing := run_landing permanent ran wanted asked distinct
  refine ⟨fun process member body priced => ?_,fun key cached held => ?_,landing.elsewhere⟩
  · obtain ⟨id,found⟩ := List.mem_iff_getElem?.mp member
    obtain ⟨entry,mine⟩ := landing.entry found
    have stage := landing.stages id entry process mine found
    rw [priced] at stage
    obtain ⟨token,block,stored⟩ := stage.reported body rfl
    rw [token,block]
    exact stored
  · by_cases asking : ∃ entry ∈ wanted, retryKey entry = key
    · obtain ⟨entry,member,rfl⟩ := asking
      obtain ⟨id,mine⟩ := List.mem_iff_getElem?.mp member
      have size : final.processes.length = wanted.length := by simpa using congrArg List.length landing.requests
      have inside := (List.getElem?_eq_some_iff.mp mine).1
      exact (landing.stages id entry _ mine (List.getElem?_eq_getElem (size ▸ inside))).kept held
    · rw [landing.elsewhere key fun entry member same => asking ⟨entry,member,same⟩]
      exact held

/-- Two retries that overlap: to the first error the library now knows a price, to the second it does not. -/
def retriedErrors : List Backend.Action := [
  .request (retryRequest ("0xaa",5)),
  .request (retryRequest ("0xbb",7)),
  .handlerStep 0 (.getCachedPrice "0xaa" 5) none,
  .handlerStep 1 (.getCachedPrice "0xbb" 7) none,
  .startLookup 1,
  .startLookup 0,
  .lookupStep 1 (.await [.price "0xbb" 7 none []]) (.returned (none,())),
  .lookupStep 0 (.await [.price "0xaa" 5 none []]) (.returned (some ⟨.finite 2,"2",none⟩,())),
  .lookupStep 0 (.await [.blockTimestamp 5]) (.returned ((1700000000 : Int),())),
  .lookupDone 1,
  .lookupStep 0 (.setCachedPrice "0xaa" 5 (.finite 2) (some 1700000000)) (),
  .handlerStep 1 (.setCachedError "0xbb" 7 "No price found for 0xbb at block 7 on ethereum") (),
  .lookupDone 0]

def erredCache : Cache :=
  Cache.setCachedError (Cache.setCachedError ∅ "0xaa" 5 "No price found for 0xaa at block 5 on ethereum") "0xbb" 7
    "No price found for 0xbb at block 7 on ethereum"

theorem retries_land_once :
    ∃ final, run (Backend.step ethereum) (Backend.start erredCache) retriedErrors = some final ∧
      final.cache.getCachedPrice "0xaa" 5 = some ⟨.finite 2,some 1700000000⟩ ∧
      ∀ key, key ≠ makeKey "0xaa" 5 → key ≠ makeKey "0xbb" 7 → final.cache.priceAt key = erredCache.priceAt key := by
  have completes : ((run (Backend.step ethereum) (Backend.start erredCache) retriedErrors).bind fun final =>
      final.processes[0]?.map (·.handler)) =
      some (finished (.returned (.price ⟨"0xaa",.finite 2,5,"ethereum",some 1700000000,false,none⟩))) := by rfl
  obtain ⟨final,ran,replied⟩ := Option.bind_eq_some_iff.mp completes
  obtain ⟨process,found,priced⟩ := Option.map_eq_some_iff.mp replied
  have permanent : erredCache.PricesPermanent :=
    Cache.PricesPermanent.setCachedError _ _ (Cache.PricesPermanent.setCachedError _ _ (by simp [Cache.PricesPermanent]) _) _
  have asked : requested retriedErrors = [("0xaa",5),("0xbb",7)].map retryRequest := rfl
  obtain ⟨landed,_,elsewhere⟩ := retries_land permanent ran asked (by decide)
  have stored := landed process (List.mem_of_getElem? found) _ priced
  refine ⟨final,ran,stored,fun key first second => elsewhere key fun entry member => ?_⟩
  simp only [List.mem_cons,List.not_mem_nil,or_false] at member
  rcases member with rfl | rfl
  · exact fun same => first same.symm
  · exact fun same => second same.symm

end

end YPriceMagic.Scripts
