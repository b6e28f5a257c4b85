import YPriceMagic.Runtime.Admission
import YPriceMagic.Runtime.Draining

/-! One `run()` call through the life of its supervisor: what any step makes of it, and so
what has become of its work when its caller is gone. -/
namespace YPriceMagic.Runtime.LookupSupervisor
open YPriceMagic.Async

variable {Env ε α : Type} {s next : LookupSupervisor Env ε α} {hooks : Hooks Env} {id : Nat} {action : Action ε α}
  {call after : Call ε α}

/-- The caller of a waiter that was cancelled is marked as cancelled. -/
def Noted (s : LookupSupervisor Env ε α) : Prop :=
  ∀ id, (id,.cancelled) ∈ s.slots.waiters → ∃ call, s.calls[id]? = some call ∧ call.cancelled = true

theorem Noted.marked (noted : s.Noted) (found : s.calls[id]? = some call)
    (why : s.slots.status id = some .cancelled ∨ call.cancelled = true) : call.cancelled = true := by
  rcases why with gone | marked
  · obtain ⟨same,here,marked⟩ := noted id (Semaphore.status_cancelled gone)
    rwa [← Option.some.inj (found.symm.trans here)] at marked
  · exact marked

theorem Changed.cancelled (changes : Changed s action id call after) (marked : call.cancelled = true) :
    after.cancelled = true := by
  cases changes with
  | cancelling => rfl
  | _ => exact marked

theorem noted_of (kept : ∀ other, (other,.cancelled) ∈ next.slots.waiters →
      (other,.cancelled) ∈ s.slots.waiters ∨ ∃ call, next.calls[other]? = some call ∧ call.cancelled = true)
    (noted : s.Noted) (stepped : s.step hooks action = some next) : next.Noted := by
  intro other gone
  rcases kept other gone with before | here
  · obtain ⟨call,found,marked⟩ := noted other before
    obtain ⟨after,there,changes⟩ := step_changed stepped found
    exact ⟨after,there,changes.cancelled marked⟩
  · exact here

theorem proceed_cancelled {place other : Nat} (gone : (other,.cancelled) ∈ (s.proceed hooks place call).slots.waiters) :
    (other,.cancelled) ∈ s.slots.waiters := by
  rcases s.proceed_cases hooks place call with ⟨_,same⟩ | ⟨_,same⟩ <;> rw [same] at gone
  · exact Semaphore.release_cancelled gone
  · exact gone

theorem step_noted (noted : s.Noted) (stepped : s.step hooks action = some next) : next.Noted := by
  refine noted_of (fun other gone => ?_) noted stepped
  cases action with
  | call =>
    obtain rfl : s.call hooks = next := Option.some.inj stepped
    left
    rcases s.call_cases hooks with ⟨_,same⟩ | ⟨_,_,same⟩ | ⟨_,_,_,same⟩ <;> rw [same] at gone
    · exact gone
    · exact (proceed_cancelled gone :)
    · exact Semaphore.enqueue_cancelled gone
  | cancelCaller place =>
    obtain ⟨old,there,⟨_,rfl⟩ | ⟨_,rfl⟩⟩ := cancelCaller_cases stepped
    · rcases Semaphore.cancelWaiter_cancelled gone with rfl | before
      · exact Or.inr ⟨{old with cancelled := true},by simp [(List.getElem?_eq_some_iff.mp there).1],rfl⟩
      · exact Or.inl before
    · exact Or.inl gone
  | resume place =>
    left
    obtain ⟨old,there,⟨_,_,_,_,_,rfl⟩ | ⟨_,_,_,rfl⟩ | ⟨_,_,_,⟨_,rfl⟩ | ⟨_,_,_,rfl⟩⟩⟩ := resume_cases stepped
    · rw [(resumeWhenIdle_calls hooks _).2] at gone
      exact Semaphore.resumeCancelled_cancelled gone
    · exact Semaphore.resumeGranted_cancelled (proceed_cancelled gone)
    · exact gone
    · exact gone
  | workStep place ending =>
    obtain ⟨_,_,_,_,_,_,rfl⟩ := workStep_cases stepped
    exact Or.inl gone
  | finished place =>
    obtain ⟨_,_,_,_,_,_,rfl⟩ := finished_cases stepped
    rw [(resumeWhenIdle_calls hooks _).2] at gone
    exact Or.inl (Semaphore.release_cancelled gone)
  | cancel =>
    obtain rfl : s.cancel = next := Option.some.inj stepped
    exact Or.inl gone

/-- What a call has come to: its task if it left it cancelled, its work's own end otherwise. -/
structure Attended (call : Call ε α) : Prop where
  waits : call.stage = .acquiring → call.task = none
  left : call.stage = .ended (.outcome .cancelled) → ∀ task ∈ call.task, task.done = true ∨ task.cancelRequested = true
  own : ∀ outcome, call.stage = .ended (.outcome outcome) → call.cancelled = false →
    ∃ task ∈ call.task, task.outcome = some outcome
  entered : ∀ task ∈ call.task, task.done = true → task.entered = true ∨ task.cancelRequested = true

theorem Attended.retask {task changed : Task ε α} (attended : Attended call) (owned : call.task = some task)
    (outcome : ∀ ending, task.outcome = some ending → changed.outcome = some ending)
    (requested : task.cancelRequested = true → changed.cancelRequested = true)
    (entered : changed.done = true → changed.entered = true ∨ changed.cancelRequested = true) :
    Attended {call with task := some changed} := by
  refine ⟨fun waiting => ?_,fun ended other member => ?_,fun ending ended kept => ?_,fun other member => ?_⟩
  · rw [attended.waits waiting] at owned
    cases owned
  · cases Option.some.inj member
    rcases attended.left ended task owned with complete | asked
    · obtain ⟨ending,here⟩ := Option.isSome_iff_exists.mp complete
      exact Or.inl (by simp [Task.done,outcome ending here])
    · exact Or.inr (requested asked)
  · obtain ⟨other,member,complete⟩ := attended.own ending ended kept
    cases Option.some.inj (owned.symm.trans member)
    exact ⟨changed,rfl,outcome ending complete⟩
  · cases Option.some.inj member
    exact entered

theorem Attended.cancelTask (attended : Attended call) : Attended {call with task := call.task.map Task.cancel} := by
  cases owned : call.task with
  | none =>
    rw [Option.map_none,← owned]
    exact attended
  | some task =>
    refine attended.retask owned (fun ending complete => by simpa using complete) task.cancel_still_requested fun complete => ?_
    rcases attended.entered task owned (by simpa using complete) with entered | asked
    · exact Or.inl (by simpa using entered)
    · exact Or.inr (task.cancel_still_requested asked)

theorem Changed.attended (changes : Changed s action id call after)
    (marked : s.slots.status id = some .cancelled ∨ call.cancelled = true → call.cancelled = true) (attended : Attended call) :
    Attended after := by
  cases changes with
  | kept => exact attended
  | cancelling asked => exact ⟨attended.waits,attended.left,(fun _ _ kept => by cases kept),attended.entered⟩
  | unwound waiting why =>
    have absent := attended.waits waiting
    have cancelled := marked why
    refine ⟨(fun other => by cases other),fun _ task member => ?_,fun _ _ kept => ?_,attended.entered⟩
    · rw [absent] at member
      cases member
    · rw [cancelled] at kept
      cases kept
  | turnedAway waiting closed =>
    refine ⟨fun other => ?_,fun other => ?_,fun _ other => ?_,attended.entered⟩ <;> cases other
  | started waiting opened =>
    refine ⟨fun other => ?_,fun other => ?_,fun _ other => ?_,fun task member complete => ?_⟩
    · cases other
    · cases other
    · cases other
    · cases Option.some.inj member
      cases complete
  | left task owned cancelled =>
    have cancelling := attended.cancelTask
    rw [owned,Option.map_some] at cancelling
    refine ⟨(fun other => by cases other),fun _ other member => ?_,fun _ _ kept => ?_,cancelling.entered⟩
    · cases Option.some.inj member
      cases complete : task.done with
      | true => exact Or.inl (by simpa using complete)
      | false => exact Or.inr (task.cancel_requested complete)
    · rw [cancelled] at kept
      cases kept
  | returned task outcome owned complete =>
    refine ⟨(fun other => by cases other),fun _ other member => ?_,fun ending same _ => ?_,attended.entered⟩
    · cases Option.some.inj (owned.symm.trans member)
      exact Or.inl (by simp [Task.done,complete])
    · cases same
      exact ⟨task,owned,complete⟩
  | worked task stepped ending owned worked asked =>
    obtain ⟨unfinished,ways⟩ := Task.step_cases worked
    have unset : task.outcome = none := by simpa [Task.done] using unfinished
    refine attended.retask owned (fun other complete => by simp [unset] at complete) (fun asked => ?_) fun complete => ?_
    · rcases ways with ⟨_,_,rfl⟩ | ⟨_,rfl⟩ <;> exact asked
    · rcases ways with ⟨_,asked,rfl⟩ | ⟨_,rfl⟩
      · exact Or.inr asked
      · exact Or.inl rfl
  | calledBack task owned complete =>
    exact attended.retask owned (fun _ complete => complete) (fun asked => asked) (attended.entered task owned)
  | shut asked => exact attended.cancelTask

theorem Changed.entered (changes : Changed s action id call after) (attended : Attended call)
    (begun : Call.entered call = true) : Call.entered after = true := by
  cases changes with
  | started waiting opened => simp [Call.entered,attended.waits waiting] at begun
  | left task owned cancelled => simpa [Call.entered,owned] using begun
  | worked task stepped ending owned worked asked =>
    rcases (Task.step_cases worked).2 with ⟨fresh,_,_⟩ | ⟨_,rfl⟩
    · simp [Call.entered,owned,fresh] at begun
    · rfl
  | calledBack task owned complete => simpa [Call.entered,owned] using begun
  | shut asked =>
    cases owned : call.task with
    | none => simp [Call.entered,owned] at begun
    | some task => simpa [Call.entered,owned] using begun
  | _ => exact begun

/-- Neither the caller nor the supervisor has cancelled anything of the call. -/
structure Undisturbed (call : Call ε α) : Prop where
  uncancelled : call.cancelled = false
  unasked : ∀ task ∈ call.task, task.cancelRequested = false
  admitted : call.stage ≠ .ended .overloaded

theorem Changed.undisturbed (changes : Changed s action id call after) (opened : s.closing = false)
    (marked : s.slots.status id = some .cancelled ∨ call.cancelled = true → call.cancelled = true) (caller : action ≠ .cancelCaller id)
    (supervisor : action ≠ .cancel) (undisturbed : Undisturbed call) : Undisturbed after := by
  cases changes with
  | kept => exact undisturbed
  | cancelling asked => exact absurd asked caller
  | turnedAway waiting closed =>
    rw [opened] at closed
    cases closed
  | shut asked => exact absurd asked supervisor
  | started waiting opened =>
    refine ⟨undisturbed.uncancelled,fun task member => ?_,fun other => by cases other⟩
    cases Option.some.inj member
    rfl
  | unwound waiting why =>
    have cancelled := marked why
    rw [undisturbed.uncancelled] at cancelled
    cases cancelled
  | left task owned cancelled =>
    rw [undisturbed.uncancelled] at cancelled
    cases cancelled
  | returned task outcome owned complete =>
    exact ⟨undisturbed.uncancelled,undisturbed.unasked,fun other => by cases other⟩
  | worked task stepped ending owned worked asked =>
    refine ⟨undisturbed.uncancelled,fun other member => ?_,undisturbed.admitted⟩
    cases Option.some.inj member
    rcases (Task.step_cases worked).2 with ⟨_,_,rfl⟩ | ⟨_,rfl⟩ <;> exact undisturbed.unasked task owned
  | calledBack task owned complete =>
    refine ⟨undisturbed.uncancelled,fun other member => ?_,undisturbed.admitted⟩
    cases Option.some.inj member
    exact undisturbed.unasked task owned

theorem init_noted (active maxQueued : Nat) (env : Env) : (init active maxQueued env : LookupSupervisor Env ε α).Noted := by
  intro id gone
  simp [init] at gone

theorem run_noted {active maxQueued : Nat} {env : Env} {actions : List (Action ε α)}
    (reached : run (step hooks) (init active maxQueued env) actions = some s) : s.Noted :=
  run_preserves Noted (fun _ _ _ noted stepped => step_noted noted stepped) (init_noted active maxQueued env) reached

def invoked (s : LookupSupervisor Env ε α) (id : Nat) : Bool := s.calls[id]?.any Call.entered

/-- How often the work of a call is entered along a schedule. -/
def invocations (hooks : Hooks Env) (id : Nat) : LookupSupervisor Env ε α → List (Action ε α) → Nat
  | _,[] => 0
  | s,action::rest =>
    match s.step hooks action with
    | none => 0
    | some next => (if s.invoked id = false ∧ next.invoked id = true then 1 else 0) + next.invocations hooks id rest

theorem invocations_cons {rest : List (Action ε α)} (stepped : s.step hooks action = some next) :
    s.invocations hooks id (action::rest) =
      (if s.invoked id = false ∧ next.invoked id = true then 1 else 0) + next.invocations hooks id rest := by
  rw [invocations,stepped]

theorem run_closing {actions : List (Action ε α)} (ran : run (step hooks) s actions = some next) (supervisor : .cancel ∉ actions) :
    next.closing = s.closing := by
  induction actions generalizing s with
  | nil =>
    cases Option.some.inj ran
    rfl
  | cons action rest ih =>
    obtain ⟨middle,stepped,remaining⟩ := run_cons_some ran
    simp only [List.mem_cons,not_or] at supervisor
    rw [ih remaining supervisor.2,(step_settings stepped).2 (Ne.symm supervisor.1)]

/-- A call that is there keeps its place, and its work is entered at most once from then on. -/
theorem run_attended {actions : List (Action ε α)} {last : LookupSupervisor Env ε α} (noted : s.Noted)
    (found : s.calls[id]? = some call) (attended : Attended call) (ran : run (step hooks) s actions = some last) :
    ∃ after, last.calls[id]? = some after ∧ Attended after ∧
      s.invocations hooks id actions + (if Call.entered call then 1 else 0) = (if Call.entered after then 1 else 0) ∧
      (s.closing = false → .cancelCaller id ∉ actions → .cancel ∉ actions → Undisturbed call → Undisturbed after) := by
  induction actions generalizing s call with
  | nil =>
    cases Option.some.inj ran
    exact ⟨call,found,attended,by simp [invocations],fun _ _ _ undisturbed => undisturbed⟩
  | cons action rest ih =>
    obtain ⟨next,stepped,remaining⟩ := run_cons_some ran
    obtain ⟨moved,there,changes⟩ := step_changed stepped found
    obtain ⟨after,at_,kept,counted,quiet⟩ := ih (step_noted noted stepped) there (changes.attended (noted.marked found) attended) remaining
    refine ⟨after,at_,kept,?_,fun opened caller supervisor undisturbed => ?_⟩
    · have monotone := changes.entered attended
      rw [invocations_cons stepped,← counted]
      simp only [invoked,found,there,Option.any_some]
      cases before : Call.entered call with
      | true => simp [monotone before]
      | false =>
        cases later : Call.entered moved with
        | true =>
          simp
          omega
        | false => simp
    · simp only [List.mem_cons,not_or] at caller supervisor
      have stays := (step_settings stepped).2 (Ne.symm supervisor.1)
      exact quiet (stays.trans opened) caller.2 supervisor.2
        (changes.undisturbed opened (noted.marked found) (Ne.symm caller.1) (Ne.symm supervisor.1) undisturbed)

/-- How a call begins that is not refused. -/
theorem call_begins (hooks : Hooks Env) (s : LookupSupervisor Env ε α) :
    ∃ begun, (s.call hooks).calls[s.calls.length]? = some begun ∧ Attended begun ∧ Call.entered begun = false ∧
      (¬s.Rejects hooks → Undisturbed begun) := by
  obtain ⟨begun,same,ways⟩ := s.call_calls hooks
  have here : (s.call hooks).calls[s.calls.length]? = some begun := by rw [same,List.getElem?_concat_length]
  refine ⟨begun,here,?_⟩
  rcases ways with ⟨_,rfl⟩ | ⟨_,_,rfl⟩ | ⟨_,_,rfl⟩
  · exact ⟨⟨by simp,by simp,by simp,by simp⟩,rfl,fun admitted => absurd ⟨_,here,rfl⟩ admitted⟩
  · exact ⟨⟨by simp,by simp,by simp,by simp [Task.done]⟩,rfl,fun _ => ⟨rfl,by simp,by simp⟩⟩
  · exact ⟨⟨by simp,by simp,by simp,by simp⟩,rfl,fun _ => ⟨rfl,by simp,by simp⟩⟩

theorem cancelled_caller_attended (hooks : Hooks Env) (active maxQueued : Nat) (env : Env) (first later : List (Action ε α))
    (before s : LookupSupervisor Env ε α) (reached : run (step hooks) (init active maxQueued env) first = some before)
    (ran : run (step hooks) before (.call::later) = some s) :
    ∃ call, s.calls[before.calls.length]? = some call ∧
      before.invocations hooks before.calls.length (.call::later) ≤ 1 ∧
      (call.stage = .ended (.outcome .cancelled) →
        before.invocations hooks before.calls.length (.call::later) = 0 ∨
        ∃ task ∈ call.task, task.done = true ∨ task.cancelRequested = true) ∧
      (∀ ending, call.stage = .ended ending → .cancelCaller before.calls.length ∉ later → .cancel ∉ first++later →
        ¬before.Rejects hooks → before.invocations hooks before.calls.length (.call::later) = 1 ∧
          ∃ task ∈ call.task, ∃ outcome, task.outcome = some outcome ∧ ending = .outcome outcome) := by
  obtain ⟨next,stepped,remaining⟩ := run_cons_some ran
  have noted := run_noted reached
  obtain rfl : before.call hooks = next := Option.some.inj stepped
  obtain ⟨begun,here,attended,fresh,undisturbed⟩ := before.call_begins hooks
  obtain ⟨call,found,attended,counted,quiet⟩ := run_attended (step_noted noted stepped) here attended remaining
  have total : before.invocations hooks before.calls.length (.call::later) = if Call.entered call then 1 else 0 := by
    rw [invocations_cons stepped,← counted]
    simp [invoked,here,fresh]
  refine ⟨call,found,?_,fun ended => ?_,fun ending ended caller supervisor admitted => ?_⟩
  · rw [total]
    split <;> omega
  · cases owned : call.task with
    | none => exact Or.inl (by simp [total,Call.entered,owned])
    | some task => exact Or.inr ⟨task,rfl,attended.left ended task owned⟩
  · rw [List.mem_append,not_or] at supervisor
    have opened : (before.call hooks).closing = false :=
      ((step_settings stepped).2 (by simp)).trans (run_closing reached supervisor.1)
    have undisturbed := quiet opened caller supervisor.2 (undisturbed admitted)
    cases ending with
    | overloaded => exact absurd ended undisturbed.admitted
    | outcome outcome =>
      obtain ⟨task,owned,complete⟩ := attended.own outcome ended undisturbed.uncancelled
      have entered : task.entered = true := by
        rcases attended.entered task owned (by simp [Task.done,complete]) with entered | asked
        · exact entered
        · rw [undisturbed.unasked task owned] at asked
          cases asked
      exact ⟨by simp [total,Call.entered,Option.mem_def.mp owned,entered],task,owned,outcome,complete,rfl⟩

/-- A caller that is cancelled as its work has just begun. -/
theorem cancelled_caller_running :
    ∃ s : LookupSupervisor Unit Unit Unit,
      run (step ⟨none,none⟩) (init 1 0 ()) [.call,.workStep 0 none,.cancelCaller 0,.resume 0] = some s ∧
      ∃ call, s.calls[0]? = some call ∧ ∃ task ∈ call.task, task.done = true ∨ task.cancelRequested = true := by
  refine ⟨_,rfl,?_⟩
  obtain ⟨call,found,_,left,_⟩ := cancelled_caller_attended (ε := Unit) (α := Unit) ⟨none,none⟩ 1 0 () []
    [.workStep 0 none,.cancelCaller 0,.resume 0] (init 1 0 ()) _ rfl rfl
  cases Option.some.inj found
  exact ⟨_,rfl,(left rfl).resolve_left (by decide)⟩

/-- A run that is refused ends with nothing cancelled, and not as its work would. -/
theorem refused_without_work :
    ∃ s : LookupSupervisor Unit Unit Unit, run (step ⟨none,none⟩) (init 1 0 ()) [.call,.call] = some s ∧
      s.closing = false ∧ ∃ call, s.calls[1]? = some call ∧ call.stage = .ended .overloaded ∧ call.cancelled = false ∧
        call.task = none :=
  ⟨_,rfl,rfl,_,rfl,rfl,rfl,rfl⟩

end YPriceMagic.Runtime.LookupSupervisor
