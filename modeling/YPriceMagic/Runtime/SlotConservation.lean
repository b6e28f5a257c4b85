import YPriceMagic.Runtime.LookupSupervisor

/-! Slot and queue conservation of `LookupSupervisor`. Every step is balanced against
the calls that hold a slot in the middle of that step, and a whole schedule is
balanced between its steps. -/
namespace YPriceMagic.Runtime.LookupSupervisor
open YPriceMagic.Async

variable {Env ε α : Type} {s next : LookupSupervisor Env ε α} {hooks : Hooks Env} {id : Nat}

/-- `held` counts the calls that have left `acquire` with a slot but are not in `tasks` yet. -/
structure Balanced (active held : Nat) (s : LookupSupervisor Env ε α) : Prop where
  slots : s.slots.available + s.tasks.card + held = active
  nonneg : 0 ≤ s.slots.value
  served : s.slots.Served
  queue : s.queued = s.slots.waiters.length
  suspended : s.suspended = s.slots.waiters.length + held
  bounded : s.queued ≤ s.maxQueued
  owned : ∀ id, id ∈ s.tasks ↔ ∃ call, s.calls[id]? = some call ∧ owns call = true
  unowned : ∀ call ∈ s.calls, call.stage = .acquiring → call.task = none

theorem init_balanced (active maxQueued : Nat) (env : Env) :
    (init active maxQueued env : LookupSupervisor Env ε α).Balanced active 0 := by
  refine ⟨?_,?_,?_,?_,?_,?_,?_,?_⟩ <;>
    simp [init,Semaphore.available,Semaphore.granted,Semaphore.Served,LookupSupervisor.suspended]

theorem owned_set {calls : List (Call ε α)} {tasks changed : Finset Nat} {call replaced : Call ε α}
    (owned : ∀ other, other ∈ tasks ↔ ∃ call, calls[other]? = some call ∧ owns call = true)
    (found : calls[id]? = some call) (others : ∀ other, other ≠ id → (other ∈ changed ↔ other ∈ tasks))
    (here : id ∈ changed ↔ owns replaced = true) :
    ∀ other, other ∈ changed ↔ ∃ call, (calls.set id replaced)[other]? = some call ∧ owns call = true := by
  intro other
  have inside := (List.getElem?_eq_some_iff.mp found).1
  by_cases same : other = id
  · subst same
    simp [inside,here]
  · rw [others other same,owned other,List.getElem?_set_ne (Ne.symm same)]

theorem unowned_set {calls : List (Call ε α)} {replaced : Call ε α}
    (unowned : ∀ call ∈ calls, call.stage = .acquiring → call.task = none)
    (here : replaced.stage = .acquiring → replaced.task = none) :
    ∀ call ∈ calls.set id replaced, call.stage = .acquiring → call.task = none := by
  intro call member
  rcases List.mem_or_eq_of_mem_set member with old | rfl
  · exact unowned call old
  · exact here

theorem Balanced.resumeWhenIdle {active : Nat} (balanced : s.Balanced active 0) :
    (s.resumeWhenIdle hooks).Balanced active 0 := by
  rcases s.resumeWhenIdle_cases hooks with ⟨_,_,_,idle⟩ | ⟨_,busy⟩
  · rw [idle]
    exact ⟨balanced.slots,balanced.nonneg,balanced.served,balanced.queue,balanced.suspended,
      balanced.bounded,balanced.owned,balanced.unowned⟩
  · rwa [busy]

theorem Balanced.proceed {active : Nat} {call : Call ε α} (balanced : s.Balanced active 1)
    (found : s.calls[id]? = some call) (waiting : call.stage = .acquiring) :
    (s.proceed hooks id call).Balanced active 0 := by
  have absent := balanced.unowned call (List.mem_of_getElem? found) waiting
  have fresh : id ∉ s.tasks := by
    rw [balanced.owned id]
    rintro ⟨other,same,owning⟩
    cases Option.some.inj (found.symm.trans same)
    simp [owns,absent] at owning
  have left (replaced : Call ε α) (moved : replaced.stage.isAcquiring = false) :
      (s.calls.set id replaced).countP (·.stage.isAcquiring) = s.slots.waiters.length := by
    have dropped := countP_set_drop s.calls (·.stage.isAcquiring) found (by simp [waiting]) moved
    have before := balanced.suspended
    unfold LookupSupervisor.suspended at before
    omega
  rcases s.proceed_cases hooks id call with ⟨_,closed⟩ | ⟨_,opened⟩
  · rw [closed]
    refine ⟨?_,s.slots.release_nonneg balanced.nonneg,s.slots.release_served,?_,?_,balanced.bounded,?_,?_⟩
    · simpa [add_right_comm] using balanced.slots
    · simpa using balanced.queue
    · simpa [LookupSupervisor.suspended] using left {call with stage := .ended .overloaded} rfl
    · exact owned_set balanced.owned found (fun _ _ => Iff.rfl) (by simp [fresh,owns,absent])
    · exact unowned_set balanced.unowned (by simp)
  · rw [opened]
    refine ⟨?_,balanced.nonneg,balanced.served,balanced.queue,?_,balanced.bounded,?_,?_⟩
    · have before := balanced.slots
      simp only [Finset.card_insert_of_notMem fresh]
      push_cast at before ⊢
      omega
    · simpa [LookupSupervisor.suspended] using left {call with stage := .shielded,task := some {}} rfl
    · exact owned_set balanced.owned found (fun other different => by simp [different]) (by simp [owns])
    · exact unowned_set balanced.unowned (by simp)

theorem owned_append {calls : List (Call ε α)} {tasks : Finset Nat} {joined : Call ε α}
    (owned : ∀ other, other ∈ tasks ↔ ∃ call, calls[other]? = some call ∧ owns call = true)
    (absent : joined.task = none) :
    ∀ other, other ∈ tasks ↔ ∃ call, (calls++[joined])[other]? = some call ∧ owns call = true := by
  intro other
  rw [owned other]
  constructor
  · rintro ⟨call,found,owning⟩
    have inside := (List.getElem?_eq_some_iff.mp found).1
    exact ⟨call,by rwa [List.getElem?_append_left inside],owning⟩
  · rintro ⟨call,found,owning⟩
    rcases Nat.lt_or_ge other calls.length with inside | beyond
    · exact ⟨call,by rwa [List.getElem?_append_left inside] at found,owning⟩
    · rw [List.getElem?_append_right beyond] at found
      have joinedHere := List.mem_of_getElem? found
      rw [List.mem_singleton] at joinedHere
      simp [owns,joinedHere,absent] at owning

theorem unowned_append {calls : List (Call ε α)} {joined : Call ε α}
    (unowned : ∀ call ∈ calls, call.stage = .acquiring → call.task = none) (absent : joined.task = none) :
    ∀ call ∈ calls++[joined], call.stage = .acquiring → call.task = none := by
  intro call member waiting
  rcases List.mem_append.mp member with old | new
  · exact unowned call old waiting
  · rw [List.mem_singleton.mp new]
    exact absent

theorem Balanced.call {active : Nat} (balanced : s.Balanced active 0) : (s.call hooks).Balanced active 0 := by
  rcases s.call_cases hooks with ⟨_,refused⟩ | ⟨_,free,taken⟩ | ⟨_,busy,room,queued⟩
  · rw [refused]
    refine ⟨balanced.slots,balanced.nonneg,balanced.served,balanced.queue,?_,balanced.bounded,
      owned_append balanced.owned rfl,unowned_append balanced.unowned rfl⟩
    simpa [LookupSupervisor.suspended] using balanced.suspended
  · rw [taken]
    have positive : 0 < s.slots.value := by
      have := s.slots.unlocked_value free
      have := balanced.nonneg
      omega
    have pending := s.slots.unlocked_pending free
    refine Balanced.proceed ?_ (by simp) rfl
    refine ⟨?_,by change 0 ≤ s.slots.value-1; omega,?_,balanced.queue,?_,balanced.bounded,
      owned_append balanced.owned rfl,unowned_append balanced.unowned rfl⟩
    · have before := balanced.slots
      simp only [Semaphore.available,Semaphore.granted] at before ⊢
      omega
    · intro waiter member ungranted
      exact absurd ungranted (pending waiter member)
    · simpa [LookupSupervisor.suspended] using balanced.suspended
  · rw [queued]
    refine ⟨?_,balanced.nonneg,s.slots.enqueue_served _ busy balanced.served,?_,?_,?_,
      owned_append balanced.owned rfl,unowned_append balanced.unowned rfl⟩
    · simpa using balanced.slots
    · simp [balanced.queue]
    · simpa [LookupSupervisor.suspended] using balanced.suspended
    · change s.queued+1 ≤ s.maxQueued
      omega

theorem Balanced.setCall {active : Nat} {call replaced : Call ε α} (balanced : s.Balanced active 0)
    (found : s.calls[id]? = some call) (stage : replaced.stage.isAcquiring = call.stage.isAcquiring)
    (owning : owns replaced = owns call)
    (unowned : replaced.stage = .acquiring → replaced.task = none) :
    ({s with calls := s.calls.set id replaced} : LookupSupervisor Env ε α).Balanced active 0 := by
  refine ⟨balanced.slots,balanced.nonneg,balanced.served,balanced.queue,?_,balanced.bounded,?_,
    unowned_set balanced.unowned unowned⟩
  · rw [← balanced.suspended]
    exact countP_set_same s.calls (·.stage.isAcquiring) found stage
  · refine owned_set balanced.owned found (fun _ _ => Iff.rfl) ?_
    rw [balanced.owned id,owning]
    simp [found]

theorem Balanced.cancelCaller {active : Nat} (balanced : s.Balanced active 0)
    (stepped : s.cancelCaller id = some next) : next.Balanced active 0 := by
  obtain ⟨call,found,⟨waiting,rfl⟩ | ⟨_,rfl⟩⟩ := cancelCaller_cases stepped
  · have absent := balanced.unowned call (List.mem_of_getElem? found) waiting
    have moved : ({s with calls := s.calls.set id {call with cancelled := true}} :
        LookupSupervisor Env ε α).Balanced active 0 := balanced.setCall found rfl rfl fun _ => absent
    refine ⟨?_,moved.nonneg,s.slots.cancelWaiter_served id balanced.served,?_,?_,moved.bounded,
      moved.owned,moved.unowned⟩
    · simpa [Semaphore.available] using moved.slots
    · simpa using moved.queue
    · rw [s.slots.cancelWaiter_length id]
      exact moved.suspended
  · exact balanced.setCall found rfl rfl (balanced.unowned call (List.mem_of_getElem? found))

theorem Balanced.resume {active : Nat} (balanced : s.Balanced active 0)
    (stepped : s.resume hooks id = some next) : next.Balanced active 0 := by
  obtain ⟨call,found,⟨waiting,grant,here,_,_,rfl⟩ | ⟨waiting,here,_,rfl⟩ | ⟨away,task,owned,rest⟩⟩ :=
    resume_cases stepped
  · -- a cancelled waiter leaves the deque and gives back the slot it was granted
    obtain ⟨size,kept⟩ := s.slots.resumeCancelled_counts id here
    have absent := balanced.unowned call (List.mem_of_getElem? found) waiting
    have dropped : (s.calls.set id {call with stage := .ended (.outcome .cancelled)}).countP
        (·.stage.isAcquiring) + 1 = s.suspended :=
      countP_set_drop s.calls (·.stage.isAcquiring) found (by simp [waiting]) rfl
    have counted := balanced.suspended
    have queued := balanced.queue
    have bounded := balanced.bounded
    refine Balanced.resumeWhenIdle ⟨?_,s.slots.resumeCancelled_nonneg id balanced.nonneg,
      s.slots.resumeCancelled_served id here balanced.served,?_,?_,?_,?_,
      unowned_set balanced.unowned (by simp)⟩
    · simpa [kept] using balanced.slots
    · change s.queued-1 = ((s.slots.resumeCancelled id).waiters.length : Int)
      omega
    · change (s.calls.set id _).countP (·.stage.isAcquiring) = (s.slots.resumeCancelled id).waiters.length + 0
      omega
    · change s.queued-1 ≤ s.maxQueued
      omega
    · refine owned_set balanced.owned found (fun _ _ => Iff.rfl) ?_
      rw [balanced.owned id]
      simp [found,owns,absent]
  · -- a granted waiter leaves the deque and carries its slot on
    obtain ⟨size,carried⟩ := s.slots.resumeGranted_counts id here
    have queued := balanced.queue
    have counted := balanced.suspended
    have slots := balanced.slots
    have bounded := balanced.bounded
    refine Balanced.proceed ⟨?_,s.slots.resumeGranted_nonneg id balanced.nonneg,
      s.slots.resumeGranted_served id balanced.nonneg,?_,?_,?_,balanced.owned,balanced.unowned⟩ found waiting
    · dsimp only
      omega
    · change s.queued-1 = ((s.slots.resumeGranted id).waiters.length : Int)
      omega
    · change s.suspended = (s.slots.resumeGranted id).waiters.length + 1
      omega
    · change s.queued-1 ≤ s.maxQueued
      omega
  · rcases rest with ⟨_,rfl⟩ | ⟨_,outcome,_,rfl⟩
    · exact balanced.setCall found (by simp [away]) (by simp [owns,owned]) (by simp)
    · exact balanced.setCall found (by simp [away]) rfl (by simp)

theorem Balanced.workStep {active : Nat} {ending : Option (Outcome ε α)} (balanced : s.Balanced active 0)
    (stepped : s.workStep id ending = some next) : next.Balanced active 0 := by
  obtain ⟨call,task,after,found,owned,worked,rfl⟩ := workStep_cases stepped
  refine balanced.setCall found rfl (by simp [owns,owned,Task.step_calledBack worked]) fun waiting => ?_
  have absent := balanced.unowned call (List.mem_of_getElem? found) waiting
  simp [owned] at absent

theorem Balanced.finished {active : Nat} (balanced : s.Balanced active 0)
    (stepped : s.finished hooks id = some next) : next.Balanced active 0 := by
  obtain ⟨call,task,found,owned,_,waiting,rfl⟩ := finished_cases stepped
  have member : id ∈ s.tasks := (balanced.owned id).mpr ⟨call,found,by simp [owns,owned,waiting]⟩
  have away : call.stage ≠ .acquiring := fun stage => by
    have absent := balanced.unowned call (List.mem_of_getElem? found) stage
    simp [owned] at absent
  have size := Finset.card_erase_add_one member
  have slots := balanced.slots
  refine Balanced.resumeWhenIdle ⟨?_,s.slots.release_nonneg balanced.nonneg,s.slots.release_served,
    ?_,?_,balanced.bounded,?_,unowned_set balanced.unowned (fun stage => absurd stage away)⟩
  · simp only [Semaphore.release_available]
    omega
  · simpa using balanced.queue
  · change (s.calls.set id _).countP (·.stage.isAcquiring) = s.slots.release.waiters.length + 0
    rw [countP_set_same s.calls (·.stage.isAcquiring) found,s.slots.release_length]
    · exact balanced.suspended
    · rfl
  · exact owned_set balanced.owned found (fun other different => by simp [different]) (by simp [owns])

theorem Balanced.cancel {active : Nat} (balanced : s.Balanced active 0) : s.cancel.Balanced active 0 := by
  have mapped {β : Type} (f : Call ε α → β)
      (same : ∀ call : Call ε α, f {call with task := call.task.map Task.cancel} = f call) :
      s.cancel.calls.map f = s.calls.map f := by
    apply List.ext_getElem?
    intro i
    rw [List.getElem?_map,List.getElem?_map,LookupSupervisor.cancel,List.getElem?_mapIdx]
    cases s.calls[i]? with
    | none => rfl
    | some call => by_cases member : i ∈ s.tasks <;> simp [member,same]
  have owning := mapped owns fun call => by cases task : call.task <;> simp [owns,task]
  refine ⟨balanced.slots,balanced.nonneg,balanced.served,balanced.queue,?_,balanced.bounded,?_,?_⟩
  · exact (countP_of_map (mapped (·.stage.isAcquiring) fun _ => rfl)).trans balanced.suspended
  · intro other
    have same := congrArg (·[other]?) owning
    simp only [List.getElem?_map] at same
    change other ∈ s.tasks ↔ _
    rw [balanced.owned other]
    simp only [← Option.map_eq_some_iff]
    rw [same]
  · intro call member waiting
    obtain ⟨i,inside,rfl⟩ := List.mem_mapIdx.mp member
    split at waiting <;> split <;> simp_all [balanced.unowned]

theorem step_balanced {active : Nat} (hooks : Hooks Env) (s : LookupSupervisor Env ε α) (action : Action ε α)
    (next : LookupSupervisor Env ε α) (balanced : s.Balanced active 0)
    (stepped : s.step hooks action = some next) : next.Balanced active 0 := by
  cases action with
  | call =>
    cases Option.some.inj stepped
    exact balanced.call
  | cancelCaller id => exact balanced.cancelCaller stepped
  | resume id => exact balanced.resume stepped
  | workStep id ending => exact balanced.workStep stepped
  | finished id => exact balanced.finished stepped
  | cancel =>
    cases Option.some.inj stepped
    exact balanced.cancel

theorem run_balanced (hooks : Hooks Env) (active maxQueued : Nat) (env : Env) (actions : List (Action ε α))
    (reached : run (step hooks) (init active maxQueued env) actions = some s) : s.Balanced active 0 :=
  run_preserves (fun s => s.Balanced active 0) (step_balanced hooks) (init_balanced active maxQueued env) reached

/-- The limit of the queue stays as it is, and only `cancel()` closes the supervisor. -/
theorem step_settings {action : Action ε α} (stepped : s.step hooks action = some next) :
    next.maxQueued = s.maxQueued ∧ (action ≠ .cancel → next.closing = s.closing) := by
  have idle (s : LookupSupervisor Env ε α) : (s.resumeWhenIdle hooks).maxQueued = s.maxQueued ∧
      (s.resumeWhenIdle hooks).closing = s.closing := by
    rcases s.resumeWhenIdle_cases hooks with ⟨_,_,_,same⟩ | ⟨_,same⟩ <;> rw [same] <;> exact ⟨rfl,rfl⟩
  have proceeded (s : LookupSupervisor Env ε α) (id : Nat) (call : Call ε α) :
      (s.proceed hooks id call).maxQueued = s.maxQueued ∧ (s.proceed hooks id call).closing = s.closing := by
    rcases s.proceed_cases hooks id call with ⟨_,same⟩ | ⟨_,same⟩ <;> rw [same] <;> exact ⟨rfl,rfl⟩
  cases action with
  | call =>
    cases Option.some.inj stepped
    rcases s.call_cases hooks with ⟨_,same⟩ | ⟨_,_,same⟩ | ⟨_,_,_,same⟩ <;> rw [same]
    · exact ⟨rfl,fun _ => rfl⟩
    · exact ⟨(proceeded _ _ _).1,fun _ => (proceeded _ _ _).2⟩
    · exact ⟨rfl,fun _ => rfl⟩
  | cancelCaller id =>
    obtain ⟨_,_,⟨_,rfl⟩ | ⟨_,rfl⟩⟩ := cancelCaller_cases stepped <;> exact ⟨rfl,fun _ => rfl⟩
  | resume id =>
    obtain ⟨_,_,⟨_,_,_,_,_,rfl⟩ | ⟨_,_,_,rfl⟩ | ⟨_,_,_,⟨_,rfl⟩ | ⟨_,_,_,rfl⟩⟩⟩ := resume_cases stepped
    · exact ⟨(idle _).1,fun _ => (idle _).2⟩
    · exact ⟨(proceeded _ _ _).1,fun _ => (proceeded _ _ _).2⟩
    · exact ⟨rfl,fun _ => rfl⟩
    · exact ⟨rfl,fun _ => rfl⟩
  | workStep id ending =>
    obtain ⟨_,_,_,_,_,_,rfl⟩ := workStep_cases stepped
    exact ⟨rfl,fun _ => rfl⟩
  | finished id =>
    obtain ⟨_,_,_,_,_,_,rfl⟩ := finished_cases stepped
    exact ⟨(idle _).1,fun _ => (idle _).2⟩
  | cancel =>
    cases Option.some.inj stepped
    exact ⟨rfl,fun other => absurd rfl other⟩

theorem run_maxQueued (hooks : Hooks Env) (active maxQueued : Nat) (env : Env) (actions : List (Action ε α))
    (reached : run (step hooks) (init active maxQueued env) actions = some s) : s.maxQueued = maxQueued :=
  run_preserves (fun s : LookupSupervisor Env ε α => s.maxQueued = maxQueued)
    (fun _ _ _ same stepped => (step_settings stepped).1.trans same)
    rfl reached

/-- The supervisor owns no task once every done callback has run. -/
theorem Balanced.untasked {active : Nat} (balanced : s.Balanced active 0)
    (calledBack : ∀ call ∈ s.calls, ∀ task ∈ call.task, task.calledBack = true) : s.tasks = ∅ := by
  rw [Finset.eq_empty_iff_forall_notMem]
  intro id member
  obtain ⟨call,found,owning⟩ := (balanced.owned id).mp member
  have returned := calledBack call (List.mem_of_getElem? found)
  cases task : call.task with
  | none => simp [owns,task] at owning
  | some task' => simp [owns,task,returned task' task] at owning

theorem Balanced.drained {active : Nat} (balanced : s.Balanced active 0)
    (ended : ∀ call ∈ s.calls, call.stage.isEnded = true)
    (finished : ∀ call ∈ s.calls, ∀ task ∈ call.task, task.calledBack = true) :
    s.slots.value = active ∧ s.queued = 0 := by
  have noneSuspended : s.suspended = 0 := by
    rw [LookupSupervisor.suspended,List.countP_eq_zero]
    intro call member acquiring
    have left := ended call member
    cases stage : call.stage <;> simp [stage,Stage.isEnded] at left acquiring
  have empty := balanced.untasked finished
  have waiting := balanced.suspended
  have short := s.slots.granted_le_length
  have slots := balanced.slots
  have queue := balanced.queue
  simp only [Semaphore.available,empty,Finset.card_empty] at slots
  constructor <;> omega

/-- Slot and queue conservation over every schedule of calls, completions,
cancellations and `cancel()`. -/
theorem run_conserves_slots (hooks : Hooks Env) (active maxQueued : Nat) (env : Env) (actions : List (Action ε α))
    (s : LookupSupervisor Env ε α) (reached : run (step hooks) (init active maxQueued env) actions = some s) :
    (0 ≤ s.slots.value ∧ s.slots.value + s.slots.granted + s.tasks.card = active) ∧
    (s.queued = s.suspended ∧ s.queued ≤ maxQueued) ∧
    (∀ waiter ∈ s.slots.waiters, waiter.2 = .pending → s.slots.value = 0 ∨ 0 < s.slots.granted) ∧
    ((∀ call ∈ s.calls, call.stage.isEnded = true ∧ ∀ task ∈ call.task, task.done = true ∧ task.calledBack = true) →
      s.slots.value = active ∧ s.queued = 0) := by
  have balanced := run_balanced hooks active maxQueued env actions reached
  have limit := run_maxQueued hooks active maxQueued env actions reached
  have slots := balanced.slots
  have queue := balanced.queue
  have suspended := balanced.suspended
  have bounded := balanced.bounded
  refine ⟨⟨balanced.nonneg,?_⟩,⟨?_,?_⟩,balanced.served,fun quiet => ?_⟩
  · simpa [Semaphore.available] using slots
  · omega
  · omega
  · exact balanced.drained (fun call member => (quiet call member).1)
      fun call member task owned => ((quiet call member).2 task owned).2

def abandoned : List (Action Unit Unit) :=
  [.call,.workStep 0 none,.cancelCaller 0,.resume 0,.workStep 0 (some .cancelled)]

theorem run_conserves_slots_abandoned :
    ∃ s : LookupSupervisor Unit Unit Unit, run (step ⟨none,none⟩) (init 1 0 ()) (abandoned++[.finished 0]) = some s ∧
      s.slots.value = 1 ∧ s.queued = 0 := by
  refine ⟨_,rfl,?_⟩
  exact (run_conserves_slots ⟨none,none⟩ 1 0 () (abandoned++[.finished 0]) _ rfl).2.2.2 (by decide)

/-- Until its done callback runs, a task that is done still owns its slot. -/
theorem done_task_keeps_slot :
    ¬ ∀ (actions : List (Action Unit Unit)) (s : LookupSupervisor Unit Unit Unit),
      run (step ⟨none,none⟩) (init 1 0 ()) actions = some s →
      (∀ call ∈ s.calls, call.stage.isEnded = true ∧ ∀ task ∈ call.task, task.done = true) →
      s.slots.value = 1 ∧ s.queued = 0 := by
  intro claimed
  have freed := (claimed abandoned _ rfl (by decide)).1
  exact absurd freed (by decide)

end YPriceMagic.Runtime.LookupSupervisor
