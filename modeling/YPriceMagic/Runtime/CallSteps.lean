import YPriceMagic.Runtime.LookupSupervisor

/-! What a step of the supervisor makes of each `run()` call, whatever else it changes. -/
namespace YPriceMagic.Runtime.LookupSupervisor
open YPriceMagic.Async

variable {Env ε α : Type} {s next : LookupSupervisor Env ε α} {hooks : Hooks Env} {id : Nat} {action : Action ε α}
  {call after : Call ε α}

/-- Everything a step can make of a call. -/
inductive Changed (s : LookupSupervisor Env ε α) (action : Action ε α) (id : Nat) : Call ε α → Call ε α → Prop
  | kept (call : Call ε α) : Changed s action id call call
  | cancelling (call : Call ε α) (asked : action = .cancelCaller id) : Changed s action id call {call with cancelled := true}
  | unwound (call : Call ε α) (waiting : call.stage = .acquiring)
      (why : s.slots.status id = some .cancelled ∨ call.cancelled = true) :
    Changed s action id call {call with stage := .ended (.outcome .cancelled)}
  | turnedAway (call : Call ε α) (waiting : call.stage = .acquiring) (closed : s.closing = true) :
    Changed s action id call {call with stage := .ended .overloaded}
  | started (call : Call ε α) (waiting : call.stage = .acquiring) (opened : s.closing = false) :
    Changed s action id call {call with stage := .shielded,task := some {}}
  | left (call : Call ε α) (task : Task ε α) (owned : call.task = some task) (cancelled : call.cancelled = true) :
    Changed s action id call {call with stage := .ended (.outcome .cancelled),task := some task.cancel}
  | returned (call : Call ε α) (task : Task ε α) (outcome : Outcome ε α) (owned : call.task = some task)
      (complete : task.outcome = some outcome) : Changed s action id call {call with stage := .ended (.outcome outcome)}
  | worked (call : Call ε α) (task stepped : Task ε α) (ending : Option (Outcome ε α)) (owned : call.task = some task)
      (worked : task.step ending = some stepped) (asked : action = .workStep id ending) :
    Changed s action id call {call with task := some stepped}
  | calledBack (call : Call ε α) (task : Task ε α) (owned : call.task = some task) (complete : task.done = true) :
    Changed s action id call {call with task := some {task with calledBack := true}}
  | shut (call : Call ε α) (asked : action = .cancel) :
    Changed s action id call {call with task := call.task.map Task.cancel}

theorem resumeWhenIdle_calls (hooks : Hooks Env) (s : LookupSupervisor Env ε α) :
    (s.resumeWhenIdle hooks).calls = s.calls ∧ (s.resumeWhenIdle hooks).slots = s.slots := by
  rcases s.resumeWhenIdle_cases hooks with ⟨_,_,_,same⟩ | ⟨_,same⟩ <;> rw [same] <;> exact ⟨rfl,rfl⟩

/-- A step begins a call, changes one, or is the cancellation of them all. -/
theorem step_shape (stepped : s.step hooks action = some next) :
    (action = .call ∧ next = s.call hooks) ∨
    (∃ id call after, s.calls[id]? = some call ∧ Changed s action id call after ∧ next.calls = s.calls.set id after) ∨
    (action = .cancel ∧ next = s.cancel) := by
  cases action with
  | call => exact Or.inl ⟨rfl,(Option.some.inj stepped).symm⟩
  | cancel => exact Or.inr (Or.inr ⟨rfl,(Option.some.inj stepped).symm⟩)
  | cancelCaller place =>
    obtain ⟨old,there,⟨_,rfl⟩ | ⟨_,rfl⟩⟩ := cancelCaller_cases stepped <;>
      exact Or.inr (Or.inl ⟨place,old,_,there,.cancelling old rfl,rfl⟩)
  | resume place =>
    obtain ⟨old,there,⟨waiting,grant,status,_,why,rfl⟩ | ⟨waiting,_,_,rfl⟩ | ⟨_,task,owned,rest⟩⟩ := resume_cases stepped
    · have gone : s.slots.status place = some .cancelled ∨ old.cancelled = true := by rwa [status,Option.some.injEq]
      exact Or.inr (Or.inl ⟨place,old,_,there,.unwound old waiting gone,(resumeWhenIdle_calls hooks _).1⟩)
    · rcases proceed_cases hooks {s with slots := s.slots.resumeGranted place,queued := s.queued-1} place old with
        ⟨closed,same⟩ | ⟨opened,same⟩ <;> rw [same]
      · exact Or.inr (Or.inl ⟨place,old,_,there,.turnedAway old waiting closed,rfl⟩)
      · exact Or.inr (Or.inl ⟨place,old,_,there,.started old waiting opened,rfl⟩)
    · rcases rest with ⟨cancelled,rfl⟩ | ⟨_,outcome,complete,rfl⟩
      · exact Or.inr (Or.inl ⟨place,old,_,there,.left old task owned cancelled,rfl⟩)
      · exact Or.inr (Or.inl ⟨place,old,_,there,.returned old task outcome owned complete,rfl⟩)
  | workStep place ending =>
    obtain ⟨old,task,moved,there,owned,worked,rfl⟩ := workStep_cases stepped
    exact Or.inr (Or.inl ⟨place,old,_,there,.worked old task moved ending owned worked rfl,rfl⟩)
  | finished place =>
    obtain ⟨old,task,there,owned,complete,_,rfl⟩ := finished_cases stepped
    exact Or.inr (Or.inl ⟨place,old,_,there,.calledBack old task owned complete,(resumeWhenIdle_calls hooks _).1⟩)

/-- A call keeps its place. -/
theorem step_changed (stepped : s.step hooks action = some next) (found : s.calls[id]? = some call) :
    ∃ after, next.calls[id]? = some after ∧ Changed s action id call after := by
  rcases step_shape stepped with ⟨_,rfl⟩ | ⟨place,old,new,there,changes,same⟩ | ⟨rfl,rfl⟩
  · obtain ⟨begun,same,_⟩ := s.call_calls hooks
    refine ⟨call,?_,.kept call⟩
    rwa [same,List.getElem?_append_left (List.getElem?_eq_some_iff.mp found).1]
  · rw [same]
    by_cases here : id = place
    · subst here
      cases Option.some.inj (there.symm.trans found)
      exact ⟨new,by simp [(List.getElem?_eq_some_iff.mp found).1],changes⟩
    · exact ⟨call,by rwa [List.getElem?_set_ne (Ne.symm here)],.kept call⟩
  · by_cases owned : id ∈ s.tasks
    · exact ⟨_,by simp [LookupSupervisor.cancel,found,owned],.shut call rfl⟩
    · exact ⟨_,by simp [LookupSupervisor.cancel,found,owned],.kept call⟩

/-- A call was there before the step, or begins with it. -/
theorem step_origin (stepped : s.step hooks action = some next) (found : next.calls[id]? = some after) :
    (∃ call, s.calls[id]? = some call ∧ Changed s action id call after) ∨
    (s.calls.length ≤ id ∧ (after = {stage := .ended .overloaded} ∨
      (s.closing = false ∧ (after = {stage := .shielded,task := some {}} ∨ after = {stage := .acquiring})))) := by
  rcases Nat.lt_or_ge id s.calls.length with inside | beyond
  · obtain ⟨same,here,changes⟩ := step_changed stepped (List.getElem?_eq_getElem inside)
    cases Option.some.inj (found.symm.trans here)
    exact Or.inl ⟨_,List.getElem?_eq_getElem inside,changes⟩
  · refine Or.inr ⟨beyond,?_⟩
    have within := (List.getElem?_eq_some_iff.mp found).1
    rcases step_shape stepped with ⟨_,rfl⟩ | ⟨_,_,_,_,_,same⟩ | ⟨_,rfl⟩
    · obtain ⟨begun,same,ways⟩ := s.call_calls hooks
      rw [same] at found
      rcases mem_snoc_table found with old | ⟨_,rfl⟩
      · exact absurd (List.getElem?_eq_some_iff.mp old).1 (by omega)
      · rcases ways with ⟨_,rfl⟩ | ⟨opened,_,rfl⟩ | ⟨opened,_,rfl⟩
        · exact Or.inl rfl
        · exact Or.inr ⟨opened,Or.inl rfl⟩
        · exact Or.inr ⟨opened,Or.inr rfl⟩
    · rw [same,List.length_set] at within
      omega
    · simp only [LookupSupervisor.cancel,List.length_mapIdx] at within
      omega

theorem step_length (stepped : s.step hooks action = some next) : s.calls.length ≤ next.calls.length := by
  rcases step_shape stepped with ⟨_,rfl⟩ | ⟨_,_,_,_,_,same⟩ | ⟨_,rfl⟩
  · obtain ⟨begun,same,_⟩ := s.call_calls hooks
    simp [same]
  · rw [same,List.length_set]
  · simp [LookupSupervisor.cancel]

end YPriceMagic.Runtime.LookupSupervisor
