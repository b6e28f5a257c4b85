import YPriceMagic.Runtime.Fairness

/-! No `run()` call is left behind. Whatever was cancelled and whoever was refused, as long as a
call has not ended the event loop has a step to take for some call, and it cannot take them forever. -/
namespace YPriceMagic.Runtime.LookupSupervisor
open YPriceMagic.Async YPriceMagic.Async.Semaphore

variable {Env ε α : Type} {s next : LookupSupervisor Env ε α} {hooks : Hooks Env} {id : Nat} {action : Action ε α}
  {call after : Call ε α}

/-- Who waits in the deque is exactly who is suspended in `acquire`, and who awaits a task has one. -/
structure Queued (s : LookupSupervisor Env ε α) : Prop where
  waiting : ∀ id : Nat, id ∈ s.slots.names ↔ ∃ call, s.calls[id]? = some call ∧ call.stage = .acquiring
  tasked : ∀ (id : Nat) call, s.calls[id]? = some call → call.stage = .shielded → call.task.isSome = true

theorem init_queued (active maxQueued : Nat) (env : Env) : (init active maxQueued env : LookupSupervisor Env ε α).Queued :=
  ⟨by simp [init,names],by simp [init]⟩

theorem Changed.tasked (changes : Changed s action id call after) (tasked : call.stage = .shielded → call.task.isSome = true)
    (shielded : after.stage = .shielded) : after.task.isSome = true := by
  cases changes with
  | kept | cancelling => exact tasked shielded
  | unwound | turnedAway | left | returned => cases shielded
  | started => rfl
  | worked | calledBack => rfl
  | shut => simpa using tasked shielded

theorem step_tasked (queued : s.Queued) (stepped : s.step hooks action = some next) (found : next.calls[id]? = some after)
    (shielded : after.stage = .shielded) : after.task.isSome = true := by
  rcases step_origin stepped found with ⟨call,there,changes⟩ | ⟨_,rfl | ⟨_,rfl | rfl⟩⟩
  · exact changes.tasked (queued.tasked id call there) shielded
  · cases shielded
  · rfl
  · cases shielded

section
variable {calls : List (Call ε α)} {waiters later : List Nat}

theorem waiting_set (waiting : ∀ id : Nat, id ∈ waiters ↔ ∃ call, calls[id]? = some call ∧ call.stage = .acquiring)
    (found : calls[id]? = some call) (others : ∀ other, other ≠ id → (other ∈ later ↔ other ∈ waiters))
    (here : id ∈ later ↔ after.stage = .acquiring) :
    ∀ other : Nat, other ∈ later ↔ ∃ call, (calls.set id after)[other]? = some call ∧ call.stage = .acquiring := by
  intro other
  by_cases same : other = id
  · subst same
    rw [here]
    simp [(List.getElem?_eq_some_iff.mp found).1]
  · rw [others other same,waiting other,List.getElem?_set_ne (Ne.symm same)]

theorem waiting_kept (waiting : ∀ id : Nat, id ∈ waiters ↔ ∃ call, calls[id]? = some call ∧ call.stage = .acquiring)
    (found : calls[id]? = some call) (same : after.stage = call.stage) :
    ∀ other : Nat, other ∈ waiters ↔ ∃ call, (calls.set id after)[other]? = some call ∧ call.stage = .acquiring := by
  refine waiting_set waiting found (fun _ _ => Iff.rfl) ?_
  rw [waiting id,found]
  simp [same]

theorem waiting_snoc (waiting : ∀ id : Nat, id ∈ waiters ↔ ∃ call, calls[id]? = some call ∧ call.stage = .acquiring)
    (others : ∀ other, other ≠ calls.length → (other ∈ later ↔ other ∈ waiters))
    (here : calls.length ∈ later ↔ after.stage = .acquiring) :
    ∀ other : Nat, other ∈ later ↔ ∃ call, (calls++[after])[other]? = some call ∧ call.stage = .acquiring := by
  intro other
  rcases Nat.lt_trichotomy other calls.length with inside | rfl | beyond
  · rw [others other inside.ne,waiting other,List.getElem?_append_left inside]
  · rw [here]
    simp
  · rw [others other beyond.ne',waiting other,List.getElem?_eq_none (by omega),List.getElem?_eq_none (by simp; omega)]

end

theorem proceed_names (hooks : Hooks Env) (s : LookupSupervisor Env ε α) (id : Nat) (call : Call ε α) :
    (s.proceed hooks id call).slots.names = s.slots.names ∧
    ∃ after, (s.proceed hooks id call).calls = s.calls.set id after ∧ after.stage ≠ .acquiring := by
  rcases s.proceed_cases hooks id call with ⟨_,same⟩ | ⟨_,same⟩ <;> rw [same]
  · exact ⟨release_names _,_,rfl,by simp⟩
  · exact ⟨rfl,_,rfl,by simp⟩

theorem step_waiting (turns : s.Turns) (queued : s.Queued) (stepped : s.step hooks action = some next) :
    ∀ id : Nat, id ∈ next.slots.names ↔ ∃ call, next.calls[id]? = some call ∧ call.stage = .acquiring := by
  have distinct := turns.fair.names_nodup
  have fresh : s.calls.length ∉ s.slots.names := by
    intro member
    obtain ⟨call,found,_⟩ := (queued.waiting _).mp member
    exact absurd (List.getElem?_eq_some_iff.mp found).1 (lt_irrefl _)
  have leaves {place : Nat} {old new : Call ε α} {left : List Nat} (found : s.calls[place]? = some old)
      (gone : left = s.slots.names.erase place) (ended : new.stage ≠ .acquiring) :
      ∀ id : Nat, id ∈ left ↔ ∃ call, (s.calls.set place new)[id]? = some call ∧ call.stage = .acquiring := by
    subst gone
    refine waiting_set queued.waiting found (fun other different => List.mem_erase_of_ne different) ?_
    simp [distinct.not_mem_erase,ended]
  cases action with
  | call =>
    obtain rfl : s.call hooks = next := Option.some.inj stepped
    rcases s.call_cases hooks with ⟨_,same⟩ | ⟨_,_,same⟩ | ⟨_,_,_,same⟩ <;> rw [same]
    · exact waiting_snoc queued.waiting (fun _ _ => Iff.rfl) (by simp [fresh])
    · obtain ⟨names,new,calls,ended⟩ := proceed_names hooks {s with
        slots := {s.slots with value := s.slots.value-1}
        calls := s.calls++[{stage := .acquiring}]} s.calls.length {stage := .acquiring}
      rw [names,calls]
      have last : (s.calls++[({stage := .acquiring} : Call ε α)]).set s.calls.length new = s.calls++[new] := by simp
      rw [last]
      exact waiting_snoc queued.waiting (fun _ _ => Iff.rfl) (iff_of_false fresh ended)
    · have joined : (s.slots.enqueue s.calls.length).names = s.slots.names++[s.calls.length] := by simp [names,enqueue]
      refine waiting_snoc queued.waiting (fun other different => ?_) ?_
      · simp [joined,different]
      · simp [joined]
  | cancelCaller place =>
    obtain ⟨old,found,⟨waiting,rfl⟩ | ⟨_,rfl⟩⟩ := cancelCaller_cases stepped
    · change ∀ id : Nat, id ∈ (s.slots.cancelWaiter place).names ↔ _
      rw [cancelWaiter_names]
      exact waiting_kept queued.waiting found rfl
    · exact waiting_kept queued.waiting found rfl
  | resume place =>
    obtain ⟨old,found,⟨_,_,_,_,_,rfl⟩ | ⟨_,_,_,rfl⟩ | ⟨shielded,task,_,⟨_,rfl⟩ | ⟨_,outcome,_,rfl⟩⟩⟩ := resume_cases stepped
    · rw [(resumeWhenIdle_calls hooks _).1,(resumeWhenIdle_calls hooks _).2]
      exact leaves found (resumeCancelled_names distinct place) (by simp)
    · obtain ⟨names,new,calls,ended⟩ := proceed_names hooks
        {s with slots := s.slots.resumeGranted place,queued := s.queued-1} place old
      rw [names,calls]
      exact leaves found (resumeGranted_names distinct place) ended
    · exact waiting_set queued.waiting found (fun _ _ => Iff.rfl) (by rw [queued.waiting place,found]; simp [shielded])
    · exact waiting_set queued.waiting found (fun _ _ => Iff.rfl) (by rw [queued.waiting place,found]; simp [shielded])
  | workStep place ending =>
    obtain ⟨old,task,moved,found,_,_,rfl⟩ := workStep_cases stepped
    exact waiting_kept queued.waiting found rfl
  | finished place =>
    obtain ⟨old,task,found,_,_,_,rfl⟩ := finished_cases stepped
    rw [(resumeWhenIdle_calls hooks _).1,(resumeWhenIdle_calls hooks _).2]
    change ∀ id : Nat, id ∈ s.slots.release.names ↔ _
    rw [release_names]
    exact waiting_kept queued.waiting found rfl
  | cancel =>
    cases Option.some.inj stepped
    intro id
    refine (queued.waiting id).trans ?_
    simp only [LookupSupervisor.cancel,List.getElem?_mapIdx,Option.map_eq_some_iff]
    constructor
    · rintro ⟨call,found,waiting⟩
      refine ⟨_,⟨call,found,rfl⟩,?_⟩
      split <;> exact waiting
    · rintro ⟨_,⟨call,found,rfl⟩,waiting⟩
      refine ⟨call,found,?_⟩
      split at waiting <;> exact waiting

theorem run_queued {active maxQueued : Nat} {env : Env} {actions : List (Action ε α)}
    (reached : run (step hooks) (init active maxQueued env) actions = some s) : s.Queued := by
  refine (run_preserves (fun s => s.Turns ∧ s.Queued) ?_ ⟨init_turns active maxQueued env,init_queued active maxQueued env⟩ reached).2
  rintro before action after ⟨turns,queued⟩ stepped
  exact ⟨step_turns turns stepped,step_waiting turns queued stepped,fun _ _ found shielded => step_tasked queued stepped found shielded⟩

def rank : Stage ε α → Nat
  | .acquiring => 0
  | .shielded => 1
  | .ended _ => 2

/-- How far a call has come: its stage, and whether its task is done and called back. -/
def advance (call : Call ε α) : Nat :=
  rank call.stage + (if call.task.any (·.done) then 1 else 0) + if call.task.any (·.calledBack) then 1 else 0

def progress (s : LookupSupervisor Env ε α) : Nat := (s.calls.map advance).sum

/-- The steps that bring a call on: a task that only suspends again does not. -/
def Action.settles : Action ε α → Bool
  | .resume _ | .finished _ | .workStep _ (some _) => true
  | _ => false

theorem advance_le (call : Call ε α) : advance call ≤ 4 := by
  have stage : rank call.stage ≤ 2 := by cases call.stage <;> simp [rank]
  unfold advance
  split <;> split <;> omega

theorem proceed_advances (hooks : Hooks Env) (s : LookupSupervisor Env ε α) (id : Nat) (untasked : call.task = none)
    (waiting : call.stage = .acquiring) :
    ∃ after, (s.proceed hooks id call).calls = s.calls.set id after ∧ advance call + 1 ≤ advance after := by
  rcases s.proceed_cases hooks id call with ⟨_,same⟩ | ⟨_,same⟩ <;> rw [same]
  · exact ⟨_,rfl,by simp [advance,rank,untasked,waiting]⟩
  · exact ⟨_,rfl,by simp [advance,rank,untasked,waiting,Task.done]⟩

theorem taskStep_advances {task stepped : Task ε α} {ending : Option (Outcome ε α)} (worked : task.step ending = some stepped) :
    task.done = false ∧ stepped.calledBack = task.calledBack ∧ (ending.isSome = true → stepped.done = true) := by
  obtain ⟨unfinished,⟨_,_,rfl⟩ | ⟨_,rfl⟩⟩ := Task.step_cases worked
  · exact ⟨unfinished,rfl,fun _ => rfl⟩
  · exact ⟨unfinished,rfl,fun ended => ended⟩

theorem cancel_progress (s : LookupSupervisor Env ε α) : s.cancel.progress = s.progress := by
  have same : s.cancel.calls.map advance = s.calls.map advance := by
    apply List.ext_getElem?
    intro i
    simp only [LookupSupervisor.cancel,List.getElem?_map,List.getElem?_mapIdx,Option.map_map]
    refine congrArg (fun f => Option.map f s.calls[i]?) (funext fun call => ?_)
    simp only [Function.comp_apply]
    split
    · cases owned : call.task <;> simp [advance,owned]
    · rfl
  exact congrArg List.sum same

theorem step_progress (unowned : ∀ call ∈ s.calls, call.stage = .acquiring → call.task = none)
    (stepped : s.step hooks action = some next) : s.progress + (if action.settles then 1 else 0) ≤ next.progress := by
  have grows {id gain : Nat} {old new : Call ε α} (found : s.calls[id]? = some old) (grown : advance old + gain ≤ advance new) :
      s.progress + gain ≤ ((s.calls.set id new).map advance).sum := sum_set_le advance found grown
  cases action with
  | call =>
    obtain rfl : s.call hooks = next := Option.some.inj stepped
    obtain ⟨begun,same,_⟩ := s.call_calls hooks
    simp only [progress,same,List.map_append,List.sum_append]
    exact Nat.le_add_right _ _
  | cancelCaller place =>
    obtain ⟨old,found,⟨_,rfl⟩ | ⟨_,rfl⟩⟩ := cancelCaller_cases stepped
    · exact grows found le_rfl
    · exact grows found le_rfl
  | resume place =>
    change s.progress + 1 ≤ _
    obtain ⟨old,found,⟨waiting,_,_,_,_,rfl⟩ | ⟨waiting,_,_,rfl⟩ | ⟨shielded,task,owned,⟨_,rfl⟩ | ⟨_,_,_,rfl⟩⟩⟩ := resume_cases stepped
    · unfold progress
      rw [(resumeWhenIdle_calls hooks _).1]
      refine grows found ?_
      simp only [advance,waiting,rank]
      omega
    · obtain ⟨new,same,grown⟩ := proceed_advances hooks {s with slots := s.slots.resumeGranted place,queued := s.queued-1} place
        (unowned old (List.mem_of_getElem? found) waiting) waiting
      unfold progress
      rw [same]
      exact grows found grown
    · refine grows found ?_
      simp only [advance,shielded,rank,owned,Option.any_some,Task.cancel_done,Task.cancel_calledBack]
      omega
    · refine grows found ?_
      simp only [advance,shielded,rank]
      omega
  | workStep place ending =>
    obtain ⟨old,task,moved,found,owned,worked,rfl⟩ := workStep_cases stepped
    obtain ⟨unfinished,same,complete⟩ := taskStep_advances worked
    refine grows found ?_
    cases ending with
    | none => simp [advance,owned,unfinished,same,Action.settles]
    | some outcome =>
      have ended := complete rfl
      simp only [advance,owned,Option.any_some,unfinished,same,ended,Action.settles,if_true,Bool.false_eq_true,if_false]
      omega
  | finished place =>
    change s.progress + 1 ≤ _
    obtain ⟨old,task,found,owned,complete,pending,rfl⟩ := finished_cases stepped
    have still : ({task with calledBack := true} : Async.Task ε α).done = task.done := rfl
    unfold progress
    rw [(resumeWhenIdle_calls hooks _).1]
    exact grows found (by simp [advance,owned,pending,still])
  | cancel =>
    cases Option.some.inj stepped
    exact (cancel_progress s).ge

section
variable {active maxQueued : Nat} {env : Env} {actions : List (Action ε α)}

theorem run_progress (reached : run (step hooks) (init active maxQueued env) actions = some s) :
    actions.countP Action.settles ≤ s.progress := by
  refine run_history (fun actions s => actions.countP Action.settles ≤ s.progress) le_rfl ?_ reached
  intro earlier before action after ran counted stepped
  have unowned := (run_balanced hooks active maxQueued env earlier ran).unowned
  have more := step_progress unowned stepped
  rw [List.countP_append,List.countP_singleton]
  omega

theorem progress_le (s : LookupSupervisor Env ε α) : s.progress ≤ 4 * s.calls.length := sum_map_le _ advance_le s.calls

/-- Nothing is left to do for any call. -/
def Stuck (hooks : Hooks Env) (s : LookupSupervisor Env ε α) : Prop :=
  ∀ id, s.resume hooks id = none ∧ s.finished hooks id = none ∧ ∀ ending, s.workStep id ending = none

theorem Stuck.calledBack (stuck : s.Stuck hooks) : ∀ call ∈ s.calls, ∀ task ∈ call.task, task.done = true ∧ task.calledBack = true := by
  intro call member task owned
  obtain ⟨id,found⟩ := List.mem_iff_getElem?.mp member
  have owned : call.task = some task := owned
  obtain ⟨_,uncalled,unworked⟩ := stuck id
  have complete : task.done = true := by
    by_contra unfinished
    obtain ⟨after,worked⟩ : ∃ after, task.step (some .cancelled) = some after := by
      rw [Task.step,if_neg unfinished]
      split <;> exact ⟨_,rfl⟩
    have idle := unworked (some .cancelled)
    simp [workStep,found,owned,worked] at idle
  refine ⟨complete,?_⟩
  by_contra pending
  simp [LookupSupervisor.finished,found,owned,Task.callback,complete,pending] at uncalled

/-- Where nothing is left to do, everybody has gone and every slot is free. -/
theorem Stuck.everyone (stuck : s.Stuck hooks) (positive : 0 < active) (balanced : s.Balanced active 0) (turns : s.Turns)
    (queued : s.Queued) : ∀ call ∈ s.calls, call.stage.isEnded = true := by
  have empty : s.tasks = ∅ := balanced.untasked fun call member task owned => (stuck.calledBack call member task owned).2
  have distinct := turns.fair.names_nodup
  have waiter {id : Nat} (named : id ∈ s.slots.names) : s.slots.status id = some .pending := by
    obtain ⟨grant,status⟩ := status_of_name named
    obtain ⟨call,found,waiting⟩ := (queued.waiting id).mp named
    have idle := (stuck id).1
    by_contra other
    have live : grant ≠ .pending := fun same => other (same ▸ status)
    simp only [LookupSupervisor.resume,found,waiting,status,Option.bind_eq_bind,Option.bind_some,if_neg live] at idle
    split at idle <;> cases idle
  have ungranted : s.slots.granted = 0 := by
    rw [Semaphore.granted,List.countP_eq_zero]
    intro entry member granted
    obtain ⟨id,grant⟩ := entry
    have same : grant = .granted := by simpa using granted
    subst same
    have status := status_of_mem distinct member
    have pending := waiter (name_of_status status)
    rw [status] at pending
    cases pending
  intro call member
  obtain ⟨id,found⟩ := List.mem_iff_getElem?.mp member
  cases stage : call.stage with
  | acquiring =>
    have pending := waiter ((queued.waiting id).mpr ⟨call,found,stage⟩)
    have slots := balanced.slots
    simp only [Semaphore.available,empty,Finset.card_empty,ungranted] at slots
    rcases balanced.served _ (mem_of_status pending) rfl with spent | granted <;> omega
  | shielded =>
    obtain ⟨task,owned⟩ := Option.isSome_iff_exists.mp (queued.tasked id call found stage)
    have complete := (stuck.calledBack call member task owned).1
    obtain ⟨outcome,ended⟩ := Option.isSome_iff_exists.mp complete
    have idle := (stuck id).1
    simp only [LookupSupervisor.resume,found,stage,owned,ended,Option.bind_eq_bind,Option.bind_some] at idle
    split at idle <;> cases idle
  | ended ending => rfl

/-- In every order of calls, cancellations and completions there are at most four settling steps
for a call, and when none is left every call has ended, every slot is free and nobody is queued. -/
theorem every_call_ends (positive : 0 < active) (reached : run (step hooks) (init active maxQueued env) actions = some s) :
    actions.countP Action.settles ≤ 4 * s.calls.length ∧
    (s.Stuck hooks → (∀ call ∈ s.calls, call.stage.isEnded = true) ∧ s.tasks = ∅ ∧ s.slots.value = active ∧ s.queued = 0) := by
  have balanced := run_balanced hooks active maxQueued env actions reached
  refine ⟨(run_progress reached).trans s.progress_le,fun stuck => ?_⟩
  have ended := stuck.everyone positive balanced (run_turns reached) (run_queued reached)
  have calledBack : ∀ call ∈ s.calls, ∀ task ∈ call.task, task.calledBack = true :=
    fun call member task owned => (stuck.calledBack call member task owned).2
  exact ⟨ended,balanced.untasked calledBack,balanced.drained ended calledBack⟩

/-- A queued caller is cancelled, and the one that works returns. -/
def cancelledWaiter : List (Action Unit Unit) :=
  [.call,.call,.cancelCaller 1,.workStep 0 (some (.returned ())),.resume 1,.finished 0,.resume 0]

theorem every_call_ends_cancelled : ∃ s, run (step ⟨none,none⟩) (init 1 1 ()) cancelledWaiter = some s ∧
    cancelledWaiter.countP Action.settles ≤ 4 * s.calls.length ∧ (∀ call ∈ s.calls, call.stage.isEnded = true) ∧
    s.slots.value = 1 ∧ s.queued = 0 := by
  have completes : (run (step ⟨none,none⟩) (init 1 1 ()) cancelledWaiter).map (·.calls) =
      some [⟨.ended (.outcome (.returned ())),false,some {entered := true,outcome := some (.returned ()),calledBack := true}⟩,
        ⟨.ended (.outcome .cancelled),true,none⟩] := by rfl
  obtain ⟨s,reached,calls⟩ := Option.map_eq_some_iff.mp completes
  have stuck : s.Stuck ⟨none,none⟩ := by
    intro id
    rcases id with _ | _ | id <;>
      simp [resume,LookupSupervisor.finished,LookupSupervisor.workStep,calls,Task.callback,Task.step,Task.done]
  obtain ⟨settled,drained⟩ := every_call_ends (by decide) reached
  obtain ⟨ended,_,free,unqueued⟩ := drained stuck
  exact ⟨s,reached,settled,ended,free,unqueued⟩

end

end YPriceMagic.Runtime.LookupSupervisor
