import Mathlib.Logic.Basic

/-! `asyncio.Task` as its owner sees it. A task that is cancelled before its first
step never enters its coroutine; one that is cancelled later may still end any way.
Its done callback is a step of its own, some time after the task is done. -/
namespace YPriceMagic.Async

inductive Outcome (ε α : Type)
  | returned (value : α)
  | raised (error : ε)
  | cancelled
  deriving DecidableEq, Repr

def Outcome.isCancelled {ε α : Type} : Outcome ε α → Bool
  | .cancelled => true
  | _ => false

def Outcome.map {ε α β : Type} (f : α → β) : Outcome ε α → Outcome ε β
  | .returned value => .returned (f value)
  | .raised error => .raised error
  | .cancelled => .cancelled

structure Task (ε α : Type) where
  entered : Bool := false
  cancelRequested : Bool := false
  outcome : Option (Outcome ε α) := none
  calledBack : Bool := false
  deriving DecidableEq, Repr

namespace Task

variable {ε α : Type}

def done (task : Task ε α) : Bool := task.outcome.isSome

/-- `Task.cancel`, without effect on a task that is done. -/
def cancel (task : Task ε α) : Task ε α :=
  if task.done then task else {task with cancelRequested := true}

/-- One step of the wrapped coroutine; `ending` is `none` when it suspends again. -/
def step (task : Task ε α) (ending : Option (Outcome ε α)) : Option (Task ε α) :=
  if task.done then none
  else if !task.entered && task.cancelRequested then some {task with outcome := some .cancelled}
  else some {task with entered := true,outcome := ending}

def callback (task : Task ε α) : Option (Task ε α) :=
  if task.done && !task.calledBack then some {task with calledBack := true} else none

def inProgress (task : Task ε α) : Bool := task.entered && !task.done

def completed (task : Task ε α) : Bool := task.outcome.any (!·.isCancelled)

variable (task : Task ε α)

@[simp] theorem cancel_outcome : task.cancel.outcome = task.outcome := by
  unfold cancel
  split <;> rfl

@[simp] theorem cancel_done : task.cancel.done = task.done := by simp [done]

@[simp] theorem cancel_entered : task.cancel.entered = task.entered := by
  unfold cancel
  split <;> rfl

@[simp] theorem cancel_calledBack : task.cancel.calledBack = task.calledBack := by
  unfold cancel
  split <;> rfl

@[simp] theorem cancel_inProgress : task.cancel.inProgress = task.inProgress := by simp [inProgress]

@[simp] theorem cancel_completed : task.cancel.completed = task.completed := by simp [completed]

theorem cancel_requested (unfinished : task.done = false) : task.cancel.cancelRequested = true := by
  simp [cancel,unfinished]

theorem cancel_still_requested (asked : task.cancelRequested = true) : task.cancel.cancelRequested = true := by
  unfold cancel
  split
  · exact asked
  · rfl

theorem step_cases {task next : Task ε α} {ending : Option (Outcome ε α)}
    (stepped : task.step ending = some next) :
    task.done = false ∧
    ((task.entered = false ∧ task.cancelRequested = true ∧ next = {task with outcome := some .cancelled}) ∨
     ((task.entered = true ∨ task.cancelRequested = false) ∧
      next = {task with entered := true,outcome := ending})) := by
  unfold step at stepped
  split at stepped
  · simp at stepped
  · rename_i unfinished
    refine ⟨by simpa using unfinished,?_⟩
    split at stepped
    · rename_i early
      simp only [Bool.and_eq_true,Bool.not_eq_true'] at early
      exact Or.inl ⟨early.1,early.2,(Option.some.inj stepped).symm⟩
    · rename_i live
      refine Or.inr ⟨?_,(Option.some.inj stepped).symm⟩
      cases entered : task.entered <;> simp_all

theorem step_calledBack {task next : Task ε α} {ending : Option (Outcome ε α)}
    (stepped : task.step ending = some next) : next.calledBack = task.calledBack := by
  rcases (step_cases stepped).2 with ⟨_,_,rfl⟩ | ⟨_,rfl⟩ <;> rfl

theorem callback_cases {task next : Task ε α} (called : task.callback = some next) :
    task.done = true ∧ task.calledBack = false ∧ next = {task with calledBack := true} := by
  unfold callback at called
  split at called
  · rename_i ready
    simp only [Bool.and_eq_true,Bool.not_eq_true'] at ready
    exact ⟨ready.1,ready.2,(Option.some.inj called).symm⟩
  · simp at called

end Task

end YPriceMagic.Async
