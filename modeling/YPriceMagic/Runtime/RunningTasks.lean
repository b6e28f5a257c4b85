import YPriceMagic.Runtime.CallSteps
import YPriceMagic.Runtime.SlotConservation

/-! Tasks that are inside their coroutine. Nothing but the coroutine itself takes a task
out of it, and until then the task keeps its slot. -/
namespace YPriceMagic.Runtime.LookupSupervisor
open YPriceMagic.Async

variable {Env ε α : Type} {s next : LookupSupervisor Env ε α} {hooks : Hooks Env} {id other : Nat}

def busy (call : Call ε α) : Bool := call.task.any (·.inProgress)

def Busy (s : LookupSupervisor Env ε α) (id : Nat) : Prop := ∃ call, s.calls[id]? = some call ∧ busy call = true

theorem Changed.busy {action : Action ε α} {call after : Call ε α} (changes : Changed s action id call after)
    (outside : ∀ id ending, action ≠ .workStep id ending) (fresh : call.stage = .acquiring → call.task = none)
    (working : busy call = true) : busy after = true := by
  cases changes with
  | started waiting opened => simp [LookupSupervisor.busy,fresh waiting] at working
  | left task owned cancelled => simpa [LookupSupervisor.busy,owned] using working
  | worked task stepped ending owned worked asked => exact absurd asked (outside _ _)
  | calledBack task owned complete => simp [LookupSupervisor.busy,owned,Task.inProgress,complete] at working
  | shut asked =>
    cases owned : call.task with
    | none => simp [LookupSupervisor.busy,owned] at working
    | some task => simpa [LookupSupervisor.busy,owned] using working
  | _ => exact working

/-- Only its own coroutine ends the work of a task. -/
theorem Busy.step {active : Nat} {action : Action ε α} (balanced : s.Balanced active 0)
    (outside : ∀ id ending, action ≠ .workStep id ending) (working : s.Busy other)
    (stepped : s.step hooks action = some next) : next.Busy other := by
  obtain ⟨call,found,working⟩ := working
  obtain ⟨after,there,changes⟩ := step_changed stepped found
  exact ⟨after,there,changes.busy outside (balanced.unowned call (List.mem_of_getElem? found)) working⟩

theorem Busy.workStep {ending : Option (Outcome ε α)} (working : s.Busy other) (different : other ≠ id)
    (stepped : s.workStep id ending = some next) : next.Busy other := by
  obtain ⟨call,task,after,found,owned,_,rfl⟩ := workStep_cases stepped
  obtain ⟨present,here,working⟩ := working
  exact ⟨present,by rw [List.getElem?_set_ne different.symm]; exact here,working⟩

theorem workStep_busy {task : Task ε α} (found : s.calls[id]?.bind (·.task) = some task)
    (live : task.entered = true ∨ task.cancelRequested = false) (stepped : s.workStep id none = some next) :
    next.Busy id := by
  obtain ⟨call,same,after,present,owned,worked,rfl⟩ := workStep_cases stepped
  obtain rfl : same = task := by simpa [present,owned] using found
  refine ⟨{call with task := some after},by simp [(List.getElem?_eq_some_iff.mp present).1],?_⟩
  rcases (Task.step_cases worked).2 with ⟨early,cancelled,_⟩ | ⟨_,rfl⟩
  · simp [early,cancelled] at live
  · rfl

def honest (call : Call ε α) : Bool := call.task.all fun task => task.done || !task.calledBack

theorem Changed.honest {action : Action ε α} {call after : Call ε α} (changes : Changed s action id call after)
    (sound : honest call = true) : honest after = true := by
  cases changes with
  | started waiting opened => rfl
  | left task owned cancelled => simpa [LookupSupervisor.honest,owned] using sound
  | worked task stepped ending owned worked asked =>
    have unfinished := (Task.step_cases worked).1
    simp only [LookupSupervisor.honest,owned,Option.all_some,unfinished,Bool.false_or] at sound
    simp only [LookupSupervisor.honest,Option.all_some,Task.step_calledBack worked,sound,Bool.or_true]
  | calledBack task owned complete => simpa [LookupSupervisor.honest,Task.done] using complete
  | shut asked =>
    cases owned : call.task with
    | none => simp [LookupSupervisor.honest]
    | some task => simpa [LookupSupervisor.honest,owned] using sound
  | _ => exact sound

theorem step_honest {action : Action ε α} (sound : ∀ call ∈ s.calls, honest call = true)
    (stepped : s.step hooks action = some next) : ∀ call ∈ next.calls, honest call = true := by
  intro after member
  obtain ⟨id,found⟩ := List.mem_iff_getElem?.mp member
  rcases step_origin stepped found with ⟨call,here,changes⟩ | ⟨_,rfl | ⟨_,rfl | rfl⟩⟩
  · exact changes.honest (sound call (List.mem_of_getElem? here))
  · rfl
  · rfl
  · rfl

theorem workStep_honest {ending : Option (Outcome ε α)} (sound : ∀ call ∈ s.calls, honest call = true)
    (stepped : s.workStep id ending = some next) : ∀ call ∈ next.calls, honest call = true :=
  (step_honest sound (show s.step ⟨none,none⟩ (.workStep id ending) = some next from stepped) :)

/-- The task of a busy call holds a slot, and its done callback cannot run. -/
theorem Busy.owned {active : Nat} (hooks : Hooks Env) (balanced : s.Balanced active 0)
    (sound : ∀ call ∈ s.calls, honest call = true) (working : s.Busy id) : id ∈ s.tasks ∧ s.finished hooks id = none := by
  obtain ⟨call,found,working⟩ := working
  have here := sound call (List.mem_of_getElem? found)
  cases task : call.task with
  | none => simp [busy,task] at working
  | some task' =>
    simp only [busy,task,Option.any_some,Task.inProgress,Bool.and_eq_true,Bool.not_eq_true'] at working
    have waiting : task'.calledBack = false := by simpa [honest,task,working.2] using here
    refine ⟨(balanced.owned id).mpr ⟨call,found,by simp [owns,task,waiting]⟩,?_⟩
    cases stepped : s.finished hooks id with
    | none => rfl
    | some next =>
      obtain ⟨same,complete,present,owned,ended,_⟩ := finished_cases stepped
      cases Option.some.inj (found.symm.trans present)
      cases Option.some.inj (task.symm.trans owned)
      simp [working.2] at ended

end YPriceMagic.Runtime.LookupSupervisor
