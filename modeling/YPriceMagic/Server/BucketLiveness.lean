import YPriceMagic.Async.LockWaiters
import YPriceMagic.Server.BucketLocks

/-! Classifications never block each other for good. A process asks for a lock only while it
holds none, so whoever is waited for can go on. -/
namespace YPriceMagic.Server
open YPriceMagic.Async YPriceMagic.Async.Coroutine

def Unnested (history : List Event) : Op → Prop
  | .acquire _ => heldBy history = []
  | _ => True

section
variable {α β : Type} {history : List Event}

abbrev Asks (program : Program α) (history : List Event) : Prop := Ensures Unnested Sigma.mk (fun _ _ => True) program history

theorem Asks.bind {program : Program α} {next : α → Program β} (asks : Asks program history)
    (continued : ∀ value later, Asks (next value) later) : Asks (program >>= next) history :=
  Ensures.bind asks (fun value later _ _ => continued value later) (fun _ _ _ _ => trivial) fun _ _ _ => trivial

theorem Asks.tryExcept {body : Program α} {handler : Exn → Program α} (asks : Asks body history)
    (handled : ∀ error later, Asks (handler error) later) : Asks (body.tryExcept handler) history :=
  Ensures.tryExcept asks (fun _ _ _ _ => trivial) (fun error later _ _ => handled error later) fun _ _ _ => trivial

theorem asks_pure (value : α) : Asks (pure value : Program α) history := trivial

theorem gather_asks (queries : List Query) : Asks (gather queries) history := ⟨trivial,fun _ => trivial⟩

theorem call_asks (query : Query) : Asks (call query) history := (gather_asks [query]).bind fun _ _ => asks_pure _

theorem fetchMetadata_asks (token : String) : Asks (fetchMetadata token) history :=
  ((gather_asks _).bind fun _ _ => asks_pure _).tryExcept fun _ _ => asks_pure _

theorem withLock_asks {lock : LockName} {body : Program α} (same : heldBy history = []) (asks : ∀ later, Asks body later) :
    Asks (withLock lock body) history := by
  refine ⟨same,fun reply => ?_⟩
  cases reply with
  | raised error => trivial
  | cancelled => trivial
  | returned _ =>
    change Ensures _ _ _ (body.tryFinally (release lock)) _
    exact Ensures.andThen (asks _) fun _ _ _ _ => ⟨trivial,fun _ => trivial⟩

/-- The guard is given back before the lock of the token is asked for, and under that lock none is. -/
theorem classifyToken_asks (config : Config) (token : String) : Asks (classifyToken config token) [] := by
  have body (later : List Event) : Asks (tryExcept (do
      let bucket ← call (.bucket token)
      let metadata ← fetchMetadata token
      return Response.bucket token config.chainName bucket metadata) fun e =>
        return .error (makeErrorResponse config (if e.isTimeout then 504 else if e.isOS then 502 else 500)
          ("Failed to classify token " ++ token ++ ": " ++ e.text)) : Program Response) later := by
    refine Asks.tryExcept ?_ fun _ _ => asks_pure _
    exact (call_asks _).bind fun _ _ => (fetchMetadata_asks token).bind fun _ _ => asks_pure _
  refine ⟨rfl,fun reply => ?_⟩
  cases reply with
  | raised error => trivial
  | cancelled => trivial
  | returned _ => exact ⟨trivial,fun _ => withLock_asks rfl body⟩

end

namespace Classifications

/-- Every lock has an owner while it is taken, and who waits for it is a process that asks for it. -/
structure Lively (config : Config) (s : Classifications) (owner : LockName → Option Nat) : Prop where
  exclusive : Exclusive config s owner
  manned : ∀ name, (s.locks name).Manned (owner name)
  waiting : ∀ name (id : Nat), id ∈ (s.locks name).names →
    ∃ process, s.processes[id]? = some process ∧ process.program.pending = some (.acquire name)

section
variable {config : Config} {s next : Classifications} {owner : LockName → Option Nat} {id : Nat} {name : LockName}

theorem start_lively (config : Config) : Lively config start fun _ => none :=
  ⟨start_exclusive config,fun _ => Lock.manned_free,fun _ _ member => by simp [start,Lock.names] at member⟩

theorem setLock_manned {lock : Lock} {new : Option Nat} (manned : ∀ name, (s.locks name).Manned (owner name))
    (here : lock.Manned new) (other : LockName) : ((s.setLock name lock).locks other).Manned (Function.update owner name new other) := by
  by_cases same : other = name
  · subst same
    simpa [setLock] using here
  · simpa [setLock,Function.update_of_ne same] using manned other

theorem setLock_kept {lock : Lock} (manned : ∀ name, (s.locks name).Manned (owner name)) (here : lock.Manned (owner name))
    (other : LockName) : ((s.setLock name lock).locks other).Manned (owner other) := by
  have kept : ((s.setLock name lock).locks other).Manned (Function.update owner name (owner name) other) :=
    setLock_manned manned here other
  rwa [Function.update_eq_self] at kept

theorem setLock_names {lock : Lock} {other : LockName} {place : Nat} (member : place ∈ ((s.setLock name lock).locks other).names) :
    (other = name ∧ place ∈ lock.names) ∨ (other ≠ name ∧ place ∈ (s.locks other).names) := by
  by_cases same : other = name
  · subst same
    simp only [setLock,Function.update_self] at member
    exact Or.inl ⟨rfl,member⟩
  · simp only [setLock,Function.update_of_ne same] at member
    exact Or.inr ⟨same,member⟩

/-- A process waits at no lock but the one it asks for. -/
theorem Lively.asked (lively : Lively config s owner) {process : Classification} {op : Op} {resume : Reply op → Program Response}
    (found : s.processes[id]? = some process) (performed : process.program = perform op resume)
    (member : id ∈ (s.locks name).names) : op = .acquire name := by
  obtain ⟨same,present,waits⟩ := lively.waiting name id member
  cases Option.some.inj (found.symm.trans present)
  rw [performed] at waits
  exact Option.some.inj waits

/-- The process that goes on has left the deques, and the others still ask for their locks. -/
theorem Lively.proceeded {locks : LockName → Lock} {op : Op} {reply : Reply op} (lively : Lively config s owner)
    (proceeded : ({s with locks} : Classifications).proceed id op reply = some next)
    (fewer : ∀ name place, place ∈ (locks name).names → place ∈ (s.locks name).names ∧ place ≠ id) :
    ∀ name (place : Nat), place ∈ (next.locks name).names →
      ∃ process, next.processes[place]? = some process ∧ process.program.pending = some (.acquire name) := by
  obtain ⟨process,resume,found,performed,rfl⟩ := proceed_some proceeded
  intro name place member
  obtain ⟨stayed,other⟩ := fewer name place member
  obtain ⟨waiter,present,waits⟩ := lively.waiting name place stayed
  exact ⟨waiter,by rw [List.getElem?_set_ne (Ne.symm other)]; exact present,waits⟩

theorem Lively.passes {lock : Lock} {op : Op} {reply : Reply op} (lively : Lively config s owner)
    (proceeded : (s.setLock name lock).proceed id op reply = some next) (mine : ∀ other, op = .acquire other → other = name)
    (left : ∀ place ∈ lock.names, place ∈ (s.locks name).names ∧ place ≠ id) :
    ∀ name (place : Nat), place ∈ (next.locks name).names →
      ∃ process, next.processes[place]? = some process ∧ process.program.pending = some (.acquire name) := by
  obtain ⟨process,resume,found,performed,_⟩ := proceed_some proceeded
  refine lively.proceeded proceeded fun other place member => ?_
  rcases setLock_names member with ⟨rfl,waits⟩ | ⟨apart,waits⟩
  · exact left place waits
  · refine ⟨waits,fun same => apart ?_⟩
    exact mine other (lively.asked found performed (same ▸ waits))

theorem proceed_locks {locks : LockName → Lock} {op : Op} {reply : Reply op}
    (proceeded : ({s with locks} : Classifications).proceed id op reply = some next) : next.locks = locks := by
  obtain ⟨_,_,_,_,rfl⟩ := proceed_some proceeded
  rfl

/-- Whoever is in a deque of the new lock was in the old one, or asks for it now. -/
theorem Lively.idle {lock : Lock} (lively : Lively config s owner) (manned : lock.Manned (owner name))
    (waits : ∀ place ∈ lock.names, place ∈ (s.locks name).names ∨
      ∃ process, s.processes[place]? = some process ∧ process.program.pending = some (.acquire name)) :
    Lively config (s.setLock name lock) owner := by
  have kept := setLock_kept lively.manned manned
  refine ⟨⟨fun other => (kept other).owned,lively.exclusive.known,lively.exclusive.led⟩,kept,fun other place member => ?_⟩
  rcases setLock_names member with ⟨rfl,queued⟩ | ⟨_,queued⟩
  · exact (waits place queued).elim (lively.waiting other place) fun asks => asks
  · exact lively.waiting other place queued

theorem Lively.taken {lock : Lock} (lively : Lively config s owner) (taken : owner name = none ∧ lock.Manned (some id))
    (proceeded : (s.setLock name lock).proceed id (.acquire name) (.returned ()) = some next)
    (left : ∀ place ∈ lock.names, place ∈ (s.locks name).names ∧ place ≠ id) : ∃ later, Lively config next later := by
  refine ⟨_,taken_exclusive lively.exclusive ⟨taken.1,taken.2.owned⟩ proceeded,?_,lively.passes proceeded ?_ left⟩
  · rw [proceed_locks proceeded]
    exact setLock_manned lively.manned taken.2
  · exact fun other same => (Op.acquire.inj same).symm

theorem erased {waiters left : List Nat} (distinct : waiters.Nodup) (same : left = waiters.erase id) :
    ∀ place ∈ left, place ∈ waiters ∧ place ≠ id := by
  intro place member
  rw [same] at member
  exact ⟨List.mem_of_mem_erase member,fun mine => distinct.not_mem_erase (mine ▸ member)⟩

theorem step_lively {action : Action} (lively : Lively config s owner) (stepped : step config s action = some next) :
    ∃ later, Lively config next later := by
  cases action with
  | request token =>
    simp only [step] at stepped
    split at stepped
    · rename_i accepted known
      cases Option.some.inj stepped
      refine ⟨owner,request_exclusive lively.exclusive accepted,lively.manned,fun name id member => ?_⟩
      obtain ⟨process,found,waits⟩ := lively.waiting name id member
      exact ⟨process,by rw [List.getElem?_append_left (List.getElem?_eq_some_iff.mp found).1]; exact found,waits⟩
    · cases Option.some.inj stepped
      exact ⟨owner,lively⟩
  | acquire id name =>
    obtain ⟨process,found,stepped⟩ := Option.bind_eq_some_iff.mp stepped
    split at stepped
    · rename_i ready
      have absent : id ∉ (s.locks name).names := by
        intro member
        obtain ⟨grant,status⟩ := Lock.status_of_name member
        simp [ready.2] at status
      split at stepped
      · rename_i taken acquired
        obtain ⟨_,_,here⟩ := Lock.tryAcquire_some acquired
        have same : taken.names = (s.locks name).names := by
          rw [here]
          rfl
        refine lively.taken ((lively.manned name).tryAcquire acquired id) stepped fun place member => ?_
        rw [same] at member
        exact ⟨member,fun mine => absent (mine ▸ member)⟩
      · rename_i refused
        cases Option.some.inj stepped
        refine ⟨owner,lively.idle ((lively.manned name).enqueue refused absent) fun place member => ?_⟩
        have joined : ((s.locks name).enqueue id).names = (s.locks name).names++[id] := by simp [Lock.names,Lock.enqueue]
        rw [joined] at member
        rcases List.mem_append.mp member with old | new
        · exact Or.inl old
        · rw [List.mem_singleton.mp new]
          exact Or.inr ⟨process,found,ready.1⟩
    · cases stepped
  | resume id name =>
    simp only [step] at stepped
    split at stepped
    · rename_i granted
      have distinct := (lively.manned name).distinct
      exact lively.taken ((lively.manned name).resumeGranted granted) stepped (erased distinct (Lock.remove_names distinct id))
    · cases stepped
  | cancel id name =>
    cases Option.some.inj stepped
    refine ⟨owner,lively.idle ((lively.manned name).cancelWaiter id) fun place member => ?_⟩
    rw [Lock.cancelWaiter_names] at member
    exact Or.inl member
  | unwind id name =>
    simp only [step] at stepped
    split at stepped
    · have distinct := (lively.manned name).distinct
      have kept := setLock_kept lively.manned ((lively.manned name).resumeCancelled id)
      refine ⟨owner,?_,?_,lively.passes stepped ?_ (erased distinct (Lock.resumeCancelled_names distinct id))⟩
      · exact proceed_exclusive lively.exclusive stepped (fun other => (kept other).owned) (fun _ _ _ => Iff.rfl) fun _ holds => holds
      · rw [proceed_locks stepped]
        exact kept
      · exact fun other same => (Op.acquire.inj same).symm
    · cases stepped
  | release id name =>
    obtain ⟨freed,released,stepped⟩ := Option.bind_eq_some_iff.mp stepped
    have manned := (lively.manned name).release released
    refine ⟨_,freed_exclusive lively.exclusive manned.owned stepped,?_,lively.passes stepped ?_ fun place member => ?_⟩
    · rw [proceed_locks stepped]
      exact setLock_manned lively.manned manned
    · exact fun other same => by cases same
    · rw [Lock.release_names released] at member
      refine ⟨member,fun mine => ?_⟩
      obtain ⟨_,resume,present,performed,_⟩ := proceed_some stepped
      cases lively.asked present performed (mine ▸ member)
  | reply id op reply =>
    simp only [step] at stepped
    split at stepped
    · cases stepped
    · rename_i locking
      have neutral : op.locks = false := by simpa using locking
      refine ⟨owner,?_,?_,lively.proceeded stepped fun other place member => ⟨member,fun mine => ?_⟩⟩
      · refine proceed_exclusive lively.exclusive stepped lively.exclusive.owned (fun _ _ _ => Iff.rfl) fun held holds name => ?_
        rw [hold_neutral neutral]
        exact holds name
      · rw [proceed_locks stepped]
        exact lively.manned
      · obtain ⟨_,resume,present,performed,_⟩ := proceed_some stepped
        cases lively.asked present performed (mine ▸ member)
        cases neutral

theorem run_lively {actions : List Action} (ran : run (step config) start actions = some s) :
    ∃ owner, Lively config s owner :=
  run_preserves (fun s => ∃ owner, Lively config s owner)
    (fun _ _ _ before stepped => before.elim fun _ lively => step_lively lively stepped) ⟨_,start_lively config⟩ ran

/-- No process can go on: none can ask for its lock, take it, leave it, give one back or be answered. -/
def Stuck (config : Config) (s : Classifications) : Prop :=
  ∀ id name, step config s (.acquire id name) = none ∧ step config s (.resume id name) = none ∧
    step config s (.unwind id name) = none ∧ step config s (.release id name) = none ∧
    ∀ op reply, step config s (.reply id op reply) = none

theorem proceed_isSome (locks : LockName → Lock) {process : Classification} {op : Op} {resume : Reply op → Program Response}
    (found : s.processes[id]? = some process) (performed : process.program = perform op resume) (reply : Reply op) :
    ∃ later, ({s with locks} : Classifications).proceed id op reply = some later := by
  simp [proceed,found,performed,answer]

theorem reply_nonempty (op : Op) : Nonempty (Reply op) := by
  cases op with
  | await queries => exact ⟨.cancelled⟩
  | sleep seconds => exact ⟨.cancelled⟩
  | acquire lock => exact ⟨.cancelled⟩
  | runLookup lookup => exact ⟨.cancelled⟩
  | getCachedPrice token block => exact ⟨(none : Option CachedPrice)⟩
  | getCachedError token block => exact ⟨(none : Option String)⟩
  | release lock => exact ⟨()⟩
  | setCachedPrice token block price blockTimestamp => exact ⟨()⟩
  | setCachedError token block error => exact ⟨()⟩

/-- Where nothing moves, a process that is not over waits for a lock, and nobody has woken it. -/
theorem Stuck.waits (stuck : s.Stuck config) (lively : Lively config s owner) {process : Classification} {op : Op}
    {resume : Reply op → Program Response} (found : s.processes[id]? = some process) (performed : process.program = perform op resume) :
    ∃ name, op = .acquire name ∧ (s.locks name).status id = some .pending := by
  have unanswered : op.locks = true := by
    by_contra neutral
    obtain ⟨reply⟩ := reply_nonempty op
    obtain ⟨later,moved⟩ := proceed_isSome s.locks found performed reply
    have idle := (stuck id .guard).2.2.2.2 op reply
    simp only [step,if_neg neutral] at idle
    rw [moved] at idle
    cases idle
  cases op with
  | acquire name =>
    refine ⟨name,rfl,?_⟩
    obtain ⟨unasked,_,unwound,_⟩ := stuck id name
    cases status : (s.locks name).status id with
    | none =>
      simp only [step,found,performed,pending,status,Option.bind_eq_bind,Option.bind_some,and_self,if_true] at unasked
      split at unasked
      · rename_i taken acquired
        obtain ⟨later,moved⟩ := proceed_isSome (s.setLock name taken).locks found performed (.returned ())
        exact absurd (unasked.symm.trans moved) (by simp)
      · cases unasked
    | some grant =>
      by_contra other
      have woken : grant = .cancelled ∨ grant = .granted := by cases grant <;> simp_all
      obtain ⟨later,moved⟩ := proceed_isSome (s.setLock name ((s.locks name).resumeCancelled id)).locks found performed .cancelled
      simp only [step,status,Option.some.injEq,if_pos woken] at unwound
      exact absurd (unwound.symm.trans moved) (by simp)
  | release name =>
    obtain ⟨history,held,holds⟩ := lively.exclusive.careful found performed
    have owned := (holds name).mp held
    have locked : (s.locks name).locked = true := (lively.manned name).owned.taken (by simp [owned])
    obtain ⟨freed,released⟩ : ∃ freed, (s.locks name).release = some freed := by simp [Lock.release,locked]
    obtain ⟨later,moved⟩ := proceed_isSome (s.setLock name freed).locks found performed ()
    have idle := (stuck id name).2.2.2.1
    simp only [step,released,Option.bind_eq_bind,Option.bind_some] at idle
    exact absurd (idle.symm.trans moved) (by simp)
  | _ => cases unanswered

/-- A process that has gone as far as to wait holds nothing. -/
theorem Lively.holds_nothing (lively : Lively config s owner) {process : Classification} {name : LockName}
    {resume : Reply (.acquire name) → Program Response} (found : s.processes[id]? = some process)
    (performed : process.program = perform (.acquire name) resume) (other : LockName) : owner other ≠ some id := by
  obtain ⟨history,leads,holds⟩ := lively.exclusive.led id process found
  have ensured := (classifyToken_asks config process.token).leads leads
  rw [performed] at ensured
  have nothing : heldBy history = [] := ensured.1
  intro has
  have held := (holds other).mpr has
  rw [nothing] at held
  cases held

/-- A process that is over holds nothing either. -/
theorem Lively.over_holds_nothing (lively : Lively config s owner) {process : Classification} {outcome : Outcome Exn Response}
    (found : s.processes[id]? = some process) (ended : process.program = finished outcome) (other : LockName) :
    owner other ≠ some id := by
  obtain ⟨history,leads,holds⟩ := lively.exclusive.led id process found
  have ensured := (classifyToken_guarded config process.token).leads leads
  rw [ended] at ensured
  have nothing : heldBy history = [] := ensured.1
  intro has
  have held := (holds other).mpr has
  rw [nothing] at held
  cases held

/-- However requests, answers and cancellations interleave, the locks of the classifications
never leave a process waiting for good: where no process can go on, all are over. -/
theorem classifications_never_stuck {actions : List Action} (ran : run (step config) start actions = some s)
    (stuck : s.Stuck config) : ∀ process ∈ s.processes, ∃ outcome, process.program = finished outcome := by
  obtain ⟨owner,lively⟩ := run_lively ran
  intro process member
  obtain ⟨id,found⟩ := List.mem_iff_getElem?.mp member
  cases performed : process.program with
  | finished outcome => exact ⟨outcome,rfl⟩
  | perform op resume =>
    exfalso
    obtain ⟨name,rfl,waits⟩ := stuck.waits lively found performed
    -- whoever owns the lock would have to wait for another one, and holds none then
    have unowned : owner name = none := by
      rw [Option.eq_none_iff_forall_ne_some]
      intro holder has
      have known := lively.exclusive.known name holder has
      cases busy : s.processes[holder].program with
      | finished outcome => exact lively.over_holds_nothing (List.getElem?_eq_getElem known) busy name has
      | perform op resume =>
        obtain ⟨other,rfl,_⟩ := stuck.waits lively (List.getElem?_eq_getElem known) busy
        exact lively.holds_nothing (List.getElem?_eq_getElem known) busy name has
    have free : (s.locks name).locked = false := by
      by_contra taken
      have has := (lively.manned name).taken (by simpa using taken)
      rw [unowned] at has
      cases has
    -- a free lock has woken the waiter at its front, and that process can go on
    cases waiters : (s.locks name).waiters with
    | nil => simp [Lock.status,waiters] at waits
    | cons front rest =>
      obtain ⟨place,grant⟩ := front
      have status := Lock.status_front waiters
      obtain ⟨waiter,present,asks⟩ := lively.waiting name place (Lock.name_of_status status)
      have pending : (s.locks name).status place = some .pending := by
        cases busy : waiter.program with
        | finished outcome => simp [busy,Coroutine.pending] at asks
        | perform op resume =>
          obtain ⟨other,rfl,asleep⟩ := stuck.waits lively present busy
          rw [busy] at asks
          cases asks
          exact asleep
      rw [status] at pending
      cases Option.some.inj pending
      exact (lively.manned name).wakeful free place rest waiters

end

theorem stuck_of_over {config : Config} {s : Classifications} (idle : ∀ name, s.locks name = {})
    (ended : ∀ (id : Nat) process, s.processes[id]? = some process → process.program.pending = none) : s.Stuck config := by
  have unanswered (locks : LockName → Lock) (id : Nat) (op : Op) (reply : Reply op) :
      ({s with locks} : Classifications).proceed id op reply = none := by
    rw [Option.eq_none_iff_forall_ne_some]
    intro next proceeded
    obtain ⟨process,resume,found,performed,_⟩ := proceed_some proceeded
    have nothing := ended id process found
    rw [performed] at nothing
    cases nothing
  intro id name
  refine ⟨?_,by simp [step,idle,Lock.status],by simp [step,idle,Lock.status],by simp [step,idle,Lock.release],fun op reply => ?_⟩
  · cases found : s.processes[id]? with
    | none => simp [step,found]
    | some process => simp [step,found,ended id process found]
  · simp only [step]
    split
    · rfl
    · exact unanswered s.locks id op reply

/-- One request is cancelled while it asks the price library, the other while it waits for the guard. -/
def cancelledWhileWaiting : List Action := [
  .request (some sampleAddress),.request (some sampleAddress),
  .acquire 0 .guard,.acquire 1 .guard,.cancel 1 .guard,.release 0 .guard,.unwind 1 .guard,
  .acquire 0 (.token sampleAddress),.reply 0 (.await [.bucket sampleAddress]) .cancelled,.release 0 (.token sampleAddress)]

theorem classifications_never_stuck_cancelled :
    ∃ s, run (step ethereum) start cancelledWhileWaiting = some s ∧ s.processes.length = 2 ∧
      ∀ process ∈ s.processes, ∃ outcome, process.program = finished outcome := by
  have completes : ∃ s, run (step ethereum) start cancelledWhileWaiting = some s ∧ s.processes.map (·.program.pending) = [none,none] ∧
      ∀ name, s.locks name = {} := by
    refine ⟨_,rfl,rfl,fun name => ?_⟩
    by_cases guard : name = .guard
    · subst guard
      rfl
    · by_cases token : name = .token sampleAddress
      · subst token
        rfl
      · simp only [setLock,start,Function.update_of_ne guard,Function.update_of_ne token]
  obtain ⟨s,ran,ended,idle⟩ := completes
  have two : s.processes.length = 2 := by simpa using congrArg List.length ended
  refine ⟨s,ran,two,classifications_never_stuck ran (stuck_of_over idle fun id process found => ?_)⟩
  have here := congrArg (·[id]?) ended
  simp only [List.getElem?_map,found,Option.map_some] at here
  have member : process.program.pending ∈ [none,none] := List.mem_of_getElem? here.symm
  simpa using member

end Classifications

end YPriceMagic.Server
