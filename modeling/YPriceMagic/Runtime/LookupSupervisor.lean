import Mathlib.Data.Finset.Card
import YPriceMagic.Async.Entries
import YPriceMagic.Async.Run
import YPriceMagic.Async.Semaphore
import YPriceMagic.Async.Task

/-! `LookupSupervisor`: every `run()` call with its caller, its slot and its task.
The two callbacks act on an environment of their own. A step is what the event loop
does without interruption, so an order of steps is a schedule of actions. -/
namespace YPriceMagic.Runtime
open YPriceMagic.Async

inductive Ending (ε α : Type)
  | overloaded
  | outcome (outcome : Outcome ε α)
  deriving DecidableEq, Repr

inductive Stage (ε α : Type)
  | acquiring
  | shielded
  | ended (ending : Ending ε α)
  deriving DecidableEq, Repr

def Stage.isAcquiring {ε α : Type} : Stage ε α → Bool
  | .acquiring => true
  | _ => false

def Stage.isEnded {ε α : Type} : Stage ε α → Bool
  | .ended _ => true
  | _ => false

@[simp] theorem Stage.isAcquiring_acquiring {ε α : Type} : (Stage.acquiring : Stage ε α).isAcquiring = true := rfl

@[simp] theorem Stage.isAcquiring_shielded {ε α : Type} : (Stage.shielded : Stage ε α).isAcquiring = false := rfl

@[simp] theorem Stage.isAcquiring_ended {ε α : Type} (ending : Ending ε α) :
    (Stage.ended ending).isAcquiring = false := rfl

/-- One `run()` call: `cancelled` is a cancellation of its caller not yet delivered. -/
structure Call (ε α : Type) where
  stage : Stage ε α
  cancelled : Bool := false
  task : Option (Task ε α) := none
  deriving DecidableEq, Repr

structure Hooks (Env : Type) where
  onActive : Option (Env → Env)
  onIdle : Option (Env → Env)

/-- A `run()` call, its waiter and its task are named by the place in `calls`. -/
structure LookupSupervisor (Env ε α : Type) where
  slots : Semaphore
  maxQueued : Nat
  queued : Int
  tasks : Finset Nat
  closing : Bool
  calls : List (Call ε α)
  env : Env

namespace LookupSupervisor

variable {Env ε α : Type}

def init (active maxQueued : Nat) (env : Env) : LookupSupervisor Env ε α :=
  ⟨⟨active,[]⟩,maxQueued,0,∅,false,[],env⟩

def setCall (s : LookupSupervisor Env ε α) (id : Nat) (call : Call ε α) : LookupSupervisor Env ε α :=
  {s with calls := s.calls.set id call}

def resumeWhenIdle (hooks : Hooks Env) (s : LookupSupervisor Env ε α) : LookupSupervisor Env ε α :=
  if !s.closing && decide (s.tasks = ∅) && s.queued == 0 then
    {s with env := (hooks.onIdle.getD (fun env => env)) s.env}
  else s

/-- `run` from the point where it holds a slot and is no longer queued. -/
def proceed (hooks : Hooks Env) (s : LookupSupervisor Env ε α) (id : Nat) (call : Call ε α) :
    LookupSupervisor Env ε α :=
  if s.closing then {s with slots := s.slots.release}.setCall id {call with stage := .ended .overloaded}
  else {s with
    env := (hooks.onActive.getD (fun env => env)) s.env
    tasks := insert id s.tasks}.setCall id {call with stage := .shielded,task := some {}}

def call (hooks : Hooks Env) (s : LookupSupervisor Env ε α) : LookupSupervisor Env ε α :=
  let id := s.calls.length
  if s.closing || (s.slots.locked && decide (s.queued ≥ s.maxQueued)) then
    {s with calls := s.calls ++ [{stage := .ended .overloaded}]}
  else
    let entered : LookupSupervisor Env ε α := {s with queued := s.queued+1,calls := s.calls ++ [{stage := .acquiring}]}
    match s.slots.tryAcquire with
    | some slots => proceed hooks {entered with slots,queued := entered.queued-1} id {stage := .acquiring}
    | none => {entered with slots := s.slots.enqueue id}

def cancelCaller (s : LookupSupervisor Env ε α) (id : Nat) : Option (LookupSupervisor Env ε α) := do
  let call ← s.calls[id]?
  match call.stage with
  | .acquiring => some ({s with slots := s.slots.cancelWaiter id}.setCall id {call with cancelled := true})
  | .shielded => some (s.setCall id {call with cancelled := true})
  | .ended _ => none

def resume (hooks : Hooks Env) (s : LookupSupervisor Env ε α) (id : Nat) :
    Option (LookupSupervisor Env ε α) := do
  let call ← s.calls[id]?
  match call.stage with
  | .acquiring =>
    let grant ← s.slots.status id
    if grant = .pending then none
    else if grant = .cancelled ∨ call.cancelled = true then
      some (resumeWhenIdle hooks ({s with
        slots := s.slots.resumeCancelled id
        queued := s.queued-1}.setCall id {call with stage := .ended (.outcome .cancelled)}))
    else some (proceed hooks {s with slots := s.slots.resumeGranted id,queued := s.queued-1} id call)
  | .shielded =>
    let task ← call.task
    if call.cancelled = true then
      some (s.setCall id {call with stage := .ended (.outcome .cancelled),task := some task.cancel})
    else
      -- a task that ended cancelled reaches the same handler, where cancelling it again does nothing
      let outcome ← task.outcome
      some (s.setCall id {call with stage := .ended (.outcome outcome)})
  | .ended _ => none

def workStep (s : LookupSupervisor Env ε α) (id : Nat) (ending : Option (Outcome ε α)) :
    Option (LookupSupervisor Env ε α) := do
  let call ← s.calls[id]?
  let task ← call.task
  let task ← task.step ending
  some (s.setCall id {call with task := some task})

def finished (hooks : Hooks Env) (s : LookupSupervisor Env ε α) (id : Nat) :
    Option (LookupSupervisor Env ε α) := do
  let call ← s.calls[id]?
  let task ← call.task
  let task ← task.callback
  some (resumeWhenIdle hooks ({s with
    tasks := s.tasks.erase id
    slots := s.slots.release}.setCall id {call with task := some task}))

def cancel (s : LookupSupervisor Env ε α) : LookupSupervisor Env ε α :=
  {s with
    closing := true
    calls := s.calls.mapIdx fun id call =>
      if id ∈ s.tasks then {call with task := call.task.map Task.cancel} else call}

/-- `close()` is `cancel` followed by waiting, which changes nothing here. -/
inductive Action (ε α : Type)
  | call
  | cancelCaller (id : Nat)
  | resume (id : Nat)
  | workStep (id : Nat) (ending : Option (Outcome ε α))
  | finished (id : Nat)
  | cancel
  deriving DecidableEq, Repr

def step (hooks : Hooks Env) (s : LookupSupervisor Env ε α) : Action ε α → Option (LookupSupervisor Env ε α)
  | .call => some (s.call hooks)
  | .cancelCaller id => s.cancelCaller id
  | .resume id => s.resume hooks id
  | .workStep id ending => s.workStep id ending
  | .finished id => s.finished hooks id
  | .cancel => some s.cancel

def suspended (s : LookupSupervisor Env ε α) : Nat := s.calls.countP (·.stage.isAcquiring)

def owns (call : Call ε α) : Bool := call.task.any (!·.calledBack)

variable {s next : LookupSupervisor Env ε α} {hooks : Hooks Env} {id : Nat}

/-- Everything `run` can do with its slot: give it back, or start the task that owns it. -/
theorem proceed_cases (hooks : Hooks Env) (s : LookupSupervisor Env ε α) (id : Nat) (call : Call ε α) :
    (s.closing = true ∧ s.proceed hooks id call =
      {s with
        slots := s.slots.release
        calls := s.calls.set id {call with stage := .ended .overloaded}}) ∨
    (s.closing = false ∧ s.proceed hooks id call =
      {s with
        env := (hooks.onActive.getD (fun env => env)) s.env
        tasks := insert id s.tasks
        calls := s.calls.set id {call with stage := .shielded,task := some {}}}) := by
  unfold proceed
  cases closing : s.closing
  · exact Or.inr ⟨rfl,rfl⟩
  · exact Or.inl ⟨rfl,rfl⟩

theorem resumeWhenIdle_cases (hooks : Hooks Env) (s : LookupSupervisor Env ε α) :
    (s.closing = false ∧ s.tasks = ∅ ∧ s.queued = 0 ∧
      s.resumeWhenIdle hooks = {s with env := (hooks.onIdle.getD (fun env => env)) s.env}) ∨
    ((s.closing = true ∨ s.tasks ≠ ∅ ∨ s.queued ≠ 0) ∧ s.resumeWhenIdle hooks = s) := by
  unfold resumeWhenIdle
  split
  · rename_i idle
    simp only [Bool.and_eq_true,Bool.not_eq_true',decide_eq_true_eq,beq_iff_eq] at idle
    exact Or.inl ⟨idle.1.1,idle.1.2,idle.2,rfl⟩
  · rename_i busy
    simp only [Bool.and_eq_true,Bool.not_eq_true',decide_eq_true_eq,beq_iff_eq,not_and_or,
      Bool.not_eq_false,or_assoc] at busy
    exact Or.inr ⟨busy,rfl⟩

theorem call_cases (hooks : Hooks Env) (s : LookupSupervisor Env ε α) :
    ((s.closing = true ∨ (s.slots.locked = true ∧ s.queued ≥ s.maxQueued)) ∧
      s.call hooks = {s with calls := s.calls ++ [{stage := .ended .overloaded}]}) ∨
    (s.closing = false ∧ s.slots.locked = false ∧
      s.call hooks = proceed hooks {s with
        slots := {s.slots with value := s.slots.value-1}
        calls := s.calls ++ [{stage := .acquiring}]} s.calls.length {stage := .acquiring}) ∨
    (s.closing = false ∧ s.slots.locked = true ∧ s.queued < s.maxQueued ∧
      s.call hooks = {s with
        slots := s.slots.enqueue s.calls.length
        queued := s.queued+1
        calls := s.calls ++ [{stage := .acquiring}]}) := by
  unfold call
  dsimp only
  split
  · rename_i refused
    simp only [Bool.or_eq_true,Bool.and_eq_true,decide_eq_true_eq] at refused
    exact Or.inl ⟨refused,rfl⟩
  · rename_i admitted
    simp only [Bool.or_eq_true,Bool.and_eq_true,decide_eq_true_eq,not_or,Bool.not_eq_true,not_and] at admitted
    cases acquired : s.slots.tryAcquire with
    | some slots =>
      obtain ⟨free,rfl⟩ := s.slots.tryAcquire_some acquired
      refine Or.inr (Or.inl ⟨admitted.1,free,?_⟩)
      simp only [Int.add_sub_cancel]
    | none =>
      have busy := s.slots.tryAcquire_none acquired
      have room := admitted.2 busy
      exact Or.inr (Or.inr ⟨admitted.1,busy,by omega,rfl⟩)

/-- How a new `run()` begins: refused, with a task of its own, or in the queue. -/
theorem call_calls (hooks : Hooks Env) (s : LookupSupervisor Env ε α) :
    ∃ begun, (s.call hooks).calls = s.calls++[begun] ∧
      (((s.closing = true ∨ (s.slots.locked = true ∧ s.queued ≥ s.maxQueued)) ∧ begun = {stage := .ended .overloaded}) ∨
       (s.closing = false ∧ s.slots.locked = false ∧ begun = {stage := .shielded,task := some {}}) ∨
       (s.closing = false ∧ s.queued < s.maxQueued ∧ begun = {stage := .acquiring})) := by
  rcases s.call_cases hooks with ⟨refused,same⟩ | ⟨opened,free,same⟩ | ⟨opened,_,room,same⟩
  · exact ⟨_,by rw [same],Or.inl ⟨refused,rfl⟩⟩
  · refine ⟨{stage := .shielded,task := some {}},?_,Or.inr (Or.inl ⟨opened,free,rfl⟩)⟩
    rw [same]
    unfold proceed
    simp [opened,setCall]
  · exact ⟨_,by rw [same],Or.inr (Or.inr ⟨opened,room,rfl⟩)⟩

theorem cancelCaller_cases (stepped : s.cancelCaller id = some next) :
    ∃ call, s.calls[id]? = some call ∧
      ((call.stage = .acquiring ∧ next = {s with
          slots := s.slots.cancelWaiter id
          calls := s.calls.set id {call with cancelled := true}}) ∨
       (call.stage = .shielded ∧ next = {s with calls := s.calls.set id {call with cancelled := true}})) := by
  obtain ⟨call,found,stepped⟩ := Option.bind_eq_some_iff.mp stepped
  refine ⟨call,found,?_⟩
  cases stage : call.stage with
  | acquiring =>
    simp only [stage] at stepped
    exact Or.inl ⟨rfl,(Option.some.inj stepped).symm⟩
  | shielded =>
    simp only [stage] at stepped
    exact Or.inr ⟨rfl,(Option.some.inj stepped).symm⟩
  | ended ending => simp [stage] at stepped

theorem resume_cases (stepped : s.resume hooks id = some next) :
    ∃ call, s.calls[id]? = some call ∧
      ((call.stage = .acquiring ∧ ∃ grant, s.slots.status id = some grant ∧ grant ≠ .pending ∧
          (grant = .cancelled ∨ call.cancelled = true) ∧ next = resumeWhenIdle hooks {s with
            slots := s.slots.resumeCancelled id
            queued := s.queued-1
            calls := s.calls.set id {call with stage := .ended (.outcome .cancelled)}}) ∨
       (call.stage = .acquiring ∧ s.slots.status id = some .granted ∧ call.cancelled = false ∧
          next = proceed hooks {s with slots := s.slots.resumeGranted id,queued := s.queued-1} id call) ∨
       (call.stage = .shielded ∧ ∃ task, call.task = some task ∧
          ((call.cancelled = true ∧ next = {s with
              calls := s.calls.set id {call with stage := .ended (.outcome .cancelled),task := some task.cancel}}) ∨
           (call.cancelled = false ∧ ∃ outcome, task.outcome = some outcome ∧ next = {s with
              calls := s.calls.set id {call with stage := .ended (.outcome outcome)}})))) := by
  obtain ⟨call,found,stepped⟩ := Option.bind_eq_some_iff.mp stepped
  refine ⟨call,found,?_⟩
  cases stage : call.stage with
  | acquiring =>
    simp only [stage] at stepped
    obtain ⟨grant,waiting,stepped⟩ := Option.bind_eq_some_iff.mp stepped
    split at stepped
    · simp at stepped
    · rename_i live
      split at stepped
      · rename_i interrupted
        exact Or.inl ⟨rfl,grant,waiting,live,interrupted,(Option.some.inj stepped).symm⟩
      · rename_i undisturbed
        simp only [not_or,Bool.not_eq_true] at undisturbed
        have granted : grant = .granted := by cases grant <;> simp_all
        exact Or.inr (Or.inl ⟨rfl,granted ▸ waiting,undisturbed.2,(Option.some.inj stepped).symm⟩)
  | shielded =>
    simp only [stage] at stepped
    obtain ⟨task,owned,stepped⟩ := Option.bind_eq_some_iff.mp stepped
    refine Or.inr (Or.inr ⟨rfl,task,owned,?_⟩)
    split at stepped
    · rename_i cancelled
      exact Or.inl ⟨cancelled,(Option.some.inj stepped).symm⟩
    · rename_i undisturbed
      obtain ⟨outcome,ended,stepped⟩ := Option.bind_eq_some_iff.mp stepped
      exact Or.inr ⟨by simpa using undisturbed,outcome,ended,(Option.some.inj stepped).symm⟩
  | ended ending => simp [stage] at stepped

theorem workStep_cases {ending : Option (Outcome ε α)} (stepped : s.workStep id ending = some next) :
    ∃ call task after, s.calls[id]? = some call ∧ call.task = some task ∧ task.step ending = some after ∧
      next = {s with calls := s.calls.set id {call with task := some after}} := by
  obtain ⟨call,found,stepped⟩ := Option.bind_eq_some_iff.mp stepped
  obtain ⟨task,owned,stepped⟩ := Option.bind_eq_some_iff.mp stepped
  obtain ⟨after,worked,stepped⟩ := Option.bind_eq_some_iff.mp stepped
  exact ⟨call,task,after,found,owned,worked,(Option.some.inj stepped).symm⟩

theorem finished_cases (stepped : s.finished hooks id = some next) :
    ∃ call task, s.calls[id]? = some call ∧ call.task = some task ∧ task.done = true ∧
      task.calledBack = false ∧ next = resumeWhenIdle hooks {s with
        tasks := s.tasks.erase id
        slots := s.slots.release
        calls := s.calls.set id {call with task := some {task with calledBack := true}}} := by
  obtain ⟨call,found,stepped⟩ := Option.bind_eq_some_iff.mp stepped
  obtain ⟨task,owned,stepped⟩ := Option.bind_eq_some_iff.mp stepped
  obtain ⟨after,called,stepped⟩ := Option.bind_eq_some_iff.mp stepped
  obtain ⟨ended,waiting,rfl⟩ := Task.callback_cases called
  exact ⟨call,task,found,owned,ended,waiting,(Option.some.inj stepped).symm⟩

end LookupSupervisor

end YPriceMagic.Runtime
