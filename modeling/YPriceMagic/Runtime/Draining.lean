import YPriceMagic.Runtime.RunningTasks

/-! After `cancel()` a supervisor drains: nothing new is entered, and queued calls end. -/
namespace YPriceMagic.Runtime.LookupSupervisor
open YPriceMagic.Async

variable {Env ε α : Type} {s next : LookupSupervisor Env ε α} {hooks : Hooks Env} {id : Nat}

/-- The call has entered its work. -/
def Call.entered (call : Call ε α) : Bool := call.task.any (·.entered)

/-- A call that makes no request of its own: what a `run()` after `cancel()` leaves behind. -/
def refused : Call ε α := {stage := .ended .overloaded}

/-- What a call may have come to, if it was `first` when `cancel()` ran. -/
structure Settled (first call : Call ε α) : Prop where
  requested : ∀ task ∈ call.task, task.done = false → task.cancelRequested = true
  entered : Call.entered call = true → Call.entered first = true
  queued : first.stage = .acquiring → call.task = none ∧
    (call.stage = .acquiring ∨ call.stage = .ended .overloaded ∨ call.stage = .ended (.outcome .cancelled))

/-- `base` lists the calls as they were when `cancel()` ran. -/
structure Draining (base : List (Call ε α)) (s : LookupSupervisor Env ε α) : Prop where
  closing : s.closing = true
  length : base.length ≤ s.calls.length
  settled : ∀ (id : Nat) (call : Call ε α), s.calls[id]? = some call → Settled (base[id]?.getD refused) call

theorem proceed_closing (closing : s.closing = true) (id : Nat) (call : Call ε α) :
    s.proceed hooks id call = {s with
      slots := s.slots.release
      calls := s.calls.set id {call with stage := .ended .overloaded}} := by
  rcases s.proceed_cases hooks id call with ⟨_,same⟩ | ⟨opened,_⟩
  · exact same
  · rw [closing] at opened
    cases opened

theorem Settled.refuse {first call : Call ε α} (settled : Settled first call) {ending : Ending ε α}
    (kind : ending = .overloaded ∨ ending = .outcome .cancelled) :
    Settled first {call with stage := .ended ending} := by
  refine ⟨settled.requested,settled.entered,fun waiting => ⟨(settled.queued waiting).1,?_⟩⟩
  rcases kind with rfl | rfl
  · exact .inr (.inl rfl)
  · exact .inr (.inr rfl)

theorem Settled.cancelTask {first call : Call ε α} (settled : Settled first call) :
    Settled first {call with task := call.task.map Task.cancel} := by
  refine ⟨?_,?_,?_⟩
  · intro task member unfinished
    obtain ⟨old,owned,rfl⟩ := Option.mem_map.mp member
    exact old.cancel_requested (by simpa using unfinished)
  · intro entered
    refine settled.entered ?_
    cases task : call.task <;> simp_all [Call.entered]
  · intro waiting
    obtain ⟨untasked,stage⟩ := settled.queued waiting
    exact ⟨by simp [untasked],stage⟩

theorem Changed.settled {action : Action ε α} {first call after : Call ε α} (changes : Changed s action id call after)
    (closing : s.closing = true) (settled : Settled first call) : Settled first after := by
  cases changes with
  | kept => exact settled
  | cancelling asked => exact ⟨settled.requested,settled.entered,settled.queued⟩
  | unwound waiting why => exact settled.refuse (.inr rfl)
  | turnedAway waiting closed => exact settled.refuse (.inl rfl)
  | started waiting opened =>
    rw [closing] at opened
    cases opened
  | left task owned cancelled =>
    have cancelling := settled.cancelTask
    rw [owned,Option.map_some] at cancelling
    exact cancelling.refuse (.inr rfl)
  | returned task outcome owned complete =>
    refine ⟨settled.requested,settled.entered,fun waiting => ?_⟩
    rw [(settled.queued waiting).1] at owned
    cases owned
  | worked task stepped ending owned worked asked =>
    have request := settled.requested task owned (Task.step_cases worked).1
    refine ⟨?_,?_,?_⟩
    · rintro _ ⟨⟩ _
      rcases (Task.step_cases worked).2 with ⟨_,_,rfl⟩ | ⟨_,rfl⟩ <;> exact request
    · intro entered
      refine settled.entered ?_
      rcases (Task.step_cases worked).2 with ⟨_,_,rfl⟩ | ⟨live,_⟩
      · simpa [Call.entered,owned] using entered
      · rcases live with already | unrequested
        · simpa [Call.entered,owned] using already
        · rw [request] at unrequested
          cases unrequested
    · intro waiting
      rw [(settled.queued waiting).1] at owned
      cases owned
  | calledBack task owned complete =>
    refine ⟨?_,?_,?_⟩
    · rintro _ ⟨⟩ unfinished
      exact settled.requested task owned unfinished
    · intro entered
      exact settled.entered (by simpa [Call.entered,owned] using entered)
    · intro waiting
      rw [(settled.queued waiting).1] at owned
      cases owned
  | shut asked => exact settled.cancelTask

theorem step_draining (hooks : Hooks Env) (base : List (Call ε α)) (s : LookupSupervisor Env ε α)
    (action : Action ε α) (next : LookupSupervisor Env ε α) (draining : s.Draining base)
    (stepped : s.step hooks action = some next) : next.Draining base := by
  refine ⟨?_,draining.length.trans (step_length stepped),fun id after found => ?_⟩
  · by_cases again : action = .cancel
    · subst again
      cases Option.some.inj stepped
      rfl
    · exact ((step_settings stepped).2 again).trans draining.closing
  · rcases step_origin stepped found with ⟨call,here,changes⟩ | ⟨beyond,rfl | ⟨opened,_⟩⟩
    · exact changes.settled draining.closing (draining.settled id call here)
    · rw [List.getElem?_eq_none (draining.length.trans beyond),Option.getD_none]
      exact ⟨by simp,fun entered => entered,fun waiting => by cases waiting⟩
    · rw [draining.closing] at opened
      cases opened

theorem cancel_draining {active : Nat} (balanced : s.Balanced active 0)
    (sound : ∀ call ∈ s.calls, honest call = true) : s.cancel.Draining s.calls := by
  refine ⟨rfl,by simp [LookupSupervisor.cancel],?_⟩
  intro id call found
  simp only [LookupSupervisor.cancel,List.getElem?_mapIdx,Option.map_eq_some_iff] at found
  obtain ⟨old,here,rfl⟩ := found
  rw [here,Option.getD_some]
  have untasked := balanced.unowned old (List.mem_of_getElem? here)
  by_cases member : id ∈ s.tasks
  · rw [if_pos member]
    refine ⟨?_,?_,fun waiting => ⟨by simp [untasked waiting],.inl waiting⟩⟩
    · intro task owned unfinished
      obtain ⟨before,_,rfl⟩ := Option.mem_map.mp owned
      exact before.cancel_requested (by simpa using unfinished)
    · intro entered
      cases task : old.task <;> simp_all [Call.entered]
  · rw [if_neg member]
    refine ⟨?_,fun entered => entered,fun waiting => ⟨untasked waiting,.inl waiting⟩⟩
    -- a task that no longer belongs to the supervisor has been called back, so it is done
    intro task owned unfinished
    rw [Option.mem_def] at owned
    have kept := sound old (List.mem_of_getElem? here)
    simp only [honest,owned,Option.all_some,unfinished,Bool.false_or,Bool.not_eq_true'] at kept
    exact absurd ((balanced.owned id).mpr ⟨old,here,by simp [owns,owned,kept]⟩) member

theorem run_honest (hooks : Hooks Env) (active maxQueued : Nat) (env : Env) (actions : List (Action ε α))
    (reached : run (step hooks) (init active maxQueued env) actions = some s) :
    ∀ call ∈ s.calls, honest call = true :=
  run_preserves (fun s : LookupSupervisor Env ε α => ∀ call ∈ s.calls, honest call = true)
    (fun _ _ _ sound stepped => step_honest sound stepped) (by simp [init]) reached

theorem Balanced.freed {active : Nat} (balanced : s.Balanced active 0) (positive : 0 < active)
    (calledBack : ∀ call ∈ s.calls, ∀ task ∈ call.task, task.calledBack = true) (resumed : s.slots.granted = 0) :
    ∀ waiter ∈ s.slots.waiters, waiter.2 = .cancelled := by
  have empty : s.tasks = ∅ := balanced.untasked calledBack
  have slots := balanced.slots
  simp only [Semaphore.available,empty,Finset.card_empty,resumed] at slots
  intro waiter member
  cases grant : waiter.2 with
  | cancelled => rfl
  | granted =>
    have counted := List.countP_eq_zero.mp resumed waiter member
    simp [grant] at counted
  | pending =>
    rcases balanced.served waiter member grant with zero | some_
    · omega
    · omega

/-- A queued call that obtains a slot while the supervisor is closing gives it back. -/
theorem resume_refused {call : Call ε α} (closing : s.closing = true) (found : s.calls[id]? = some call)
    (waiting : call.stage = .acquiring) (granted : s.slots.status id = some .granted)
    (undisturbed : call.cancelled = false) (stepped : s.resume hooks id = some next) :
    next = {s with
      slots := (s.slots.resumeGranted id).release
      queued := s.queued-1
      calls := s.calls.set id {call with stage := .ended .overloaded}} := by
  obtain ⟨same,present,⟨_,grant,here,_,interrupted,rfl⟩ | ⟨_,_,_,rfl⟩ | ⟨away,_⟩⟩ := resume_cases stepped <;>
    obtain rfl : call = same := Option.some.inj (found.symm.trans present)
  · rw [granted] at here
    cases here
    simp [undisturbed] at interrupted
  · rw [proceed_closing (by exact closing)]
  · rw [waiting] at away
    cases away

/-- Draining starts no work, refuses every queued call that obtains a slot, has every unfinished
task cancelled, and leaves nobody waiting for one of the slots once the tasks are done and called back. -/
theorem draining_starts_no_work (hooks : Hooks Env) (active maxQueued : Nat) (env : Env)
    (before after : List (Action ε α)) (s drained : LookupSupervisor Env ε α)
    (reached : run (step hooks) (init active maxQueued env) before = some s)
    (continued : run (step hooks) s.cancel after = some drained) :
    (∀ (id : Nat) (call : Call ε α), drained.calls[id]? = some call → Call.entered call = true →
      ∃ first, s.calls[id]? = some first ∧ Call.entered first = true) ∧
    (∀ (id : Nat) (first : Call ε α), s.calls[id]? = some first → first.stage = .acquiring →
      ∃ call, drained.calls[id]? = some call ∧ call.task = none ∧ (call.stage = .acquiring ∨
        call.stage = .ended .overloaded ∨ call.stage = .ended (.outcome .cancelled))) ∧
    (∀ (id : Nat) (call : Call ε α) (next : LookupSupervisor Env ε α), drained.calls[id]? = some call →
      call.stage = .acquiring → drained.slots.status id = some .granted → call.cancelled = false →
      drained.resume hooks id = some next → next = {drained with
        slots := (drained.slots.resumeGranted id).release
        queued := drained.queued-1
        calls := drained.calls.set id {call with stage := .ended .overloaded}}) ∧
    (∀ call ∈ drained.calls, ∀ task ∈ call.task, task.done = false → task.cancelRequested = true) ∧
    (0 < active → (∀ call ∈ drained.calls, ∀ task ∈ call.task, task.done = true ∧ task.calledBack = true) →
      drained.slots.granted = 0 → ∀ waiter ∈ drained.slots.waiters, waiter.2 = .cancelled) := by
  have balanced := run_balanced hooks active maxQueued env before reached
  have sound := run_honest hooks active maxQueued env before reached
  have draining : drained.Draining s.calls :=
    run_preserves (fun drained => drained.Draining s.calls) (step_draining hooks s.calls)
      (cancel_draining balanced sound) continued
  have kept : drained.Balanced active 0 :=
    run_preserves (fun drained => drained.Balanced active 0) (step_balanced hooks) balanced.cancel continued
  refine ⟨?_,?_,?_,?_,?_⟩
  · intro id call found entered
    have first := (draining.settled id call found).entered entered
    cases here : s.calls[id]? with
    | none => simp [here,refused,Call.entered] at first
    | some first' => exact ⟨first',rfl,by simpa [here] using first⟩
  · intro id first here waiting
    have inside : id < drained.calls.length :=
      lt_of_lt_of_le (List.getElem?_eq_some_iff.mp here).1 draining.length
    have settled := draining.settled id _ (List.getElem?_eq_getElem inside)
    rw [here,Option.getD_some] at settled
    exact ⟨_,List.getElem?_eq_getElem inside,settled.queued waiting⟩
  · intro id call next found waiting granted undisturbed stepped
    exact resume_refused draining.closing found waiting granted undisturbed stepped
  · intro call member task owned
    obtain ⟨id,found⟩ := List.mem_iff_getElem?.mp member
    exact (draining.settled id call found).requested task owned
  · intro positive quiet
    exact kept.freed positive fun call member task owned => (quiet call member task owned).2

def twoCalls : List (Action Unit Unit) := [.call,.call]

theorem draining_starts_no_work_twoCalls :
    ∃ s drained : LookupSupervisor Unit Unit Unit, run (step ⟨none,none⟩) (init 1 1 ()) twoCalls = some s ∧
      run (step ⟨none,none⟩) s.cancel [.workStep 0 none,.finished 0,.resume 1] = some drained ∧
      drained.calls.all (!Call.entered ·) ∧ ∀ waiter ∈ drained.slots.waiters, waiter.2 = .cancelled := by
  refine ⟨_,_,rfl,rfl,by decide,?_⟩
  exact (draining_starts_no_work ⟨none,none⟩ 1 1 () twoCalls
    [.workStep 0 none,.finished 0,.resume 1] _ _ rfl rfl).2.2.2.2 (by decide) (by decide) (by decide)

/-- A task that is done keeps the next call waiting until its done callback runs. -/
theorem done_task_keeps_waiter :
    ¬ ∀ (before after : List (Action Unit Unit)) (s drained : LookupSupervisor Unit Unit Unit),
      run (step ⟨none,none⟩) (init 1 1 ()) before = some s → run (step ⟨none,none⟩) s.cancel after = some drained →
      (∀ call ∈ drained.calls, ∀ task ∈ call.task, task.done = true) → drained.slots.granted = 0 →
      ∀ waiter ∈ drained.slots.waiters, waiter.2 = .cancelled := by
  intro claimed
  have left := claimed twoCalls [.workStep 0 none] _ _ rfl rfl (by decide) (by decide) (1,.pending) (by decide)
  cases left

end YPriceMagic.Runtime.LookupSupervisor
