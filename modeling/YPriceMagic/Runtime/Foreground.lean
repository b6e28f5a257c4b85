import YPriceMagic.Runtime.BackgroundWarmup
import YPriceMagic.Runtime.SlotConservation

/-! Foreground lookups against the background warm-up. The supervisor pauses the
warm-up before it creates a task and resumes it when nothing runs or waits, and the
warm-up takes its own steps in between. -/
namespace YPriceMagic.Runtime

namespace LookupSupervisor
open YPriceMagic.Async

variable {Env ε α : Type} {s next : LookupSupervisor Env ε α} {hooks : Hooks Env}

theorem resumeWhenIdle_env (hooks : Hooks Env) (s : LookupSupervisor Env ε α) :
    (s.resumeWhenIdle hooks).env = s.env ∨
      (s.resumeWhenIdle hooks).env = (hooks.onIdle.getD (fun env => env)) s.env := by
  rcases s.resumeWhenIdle_cases hooks with ⟨_,_,_,idle⟩ | ⟨_,busy⟩
  · rw [idle]
    exact Or.inr rfl
  · rw [busy]
    exact Or.inl rfl

theorem proceed_env (hooks : Hooks Env) (s : LookupSupervisor Env ε α) (id : Nat) (call : Call ε α) :
    (s.proceed hooks id call).env = s.env ∨
      (s.proceed hooks id call).env = (hooks.onActive.getD (fun env => env)) s.env := by
  rcases s.proceed_cases hooks id call with ⟨_,closed⟩ | ⟨_,opened⟩
  · rw [closed]
    exact Or.inl rfl
  · rw [opened]
    exact Or.inr rfl

theorem step_env {action : Action ε α} (stepped : s.step hooks action = some next) :
    next.env = s.env ∨ next.env = (hooks.onActive.getD (fun env => env)) s.env ∨
      next.env = (hooks.onIdle.getD (fun env => env)) s.env := by
  cases action with
  | call =>
    cases Option.some.inj stepped
    rcases s.call_cases hooks with ⟨_,same⟩ | ⟨_,_,same⟩ | ⟨_,_,_,same⟩ <;> rw [same]
    · exact Or.inl rfl
    · exact (proceed_env hooks _ _ _).imp_right Or.inl
    · exact Or.inl rfl
  | cancelCaller id =>
    obtain ⟨_,_,⟨_,rfl⟩ | ⟨_,rfl⟩⟩ := cancelCaller_cases stepped <;> exact Or.inl rfl
  | resume id =>
    obtain ⟨_,_,⟨_,_,_,_,_,rfl⟩ | ⟨_,_,_,rfl⟩ | ⟨_,_,_,⟨_,rfl⟩ | ⟨_,_,_,rfl⟩⟩⟩ := resume_cases stepped
    · exact (resumeWhenIdle_env hooks _).imp_right Or.inr
    · exact (proceed_env hooks _ _ _).imp_right Or.inl
    · exact Or.inl rfl
    · exact Or.inl rfl
  | workStep id ending =>
    obtain ⟨_,_,_,_,_,_,rfl⟩ := workStep_cases stepped
    exact Or.inl rfl
  | finished id =>
    obtain ⟨_,_,_,_,_,_,rfl⟩ := finished_cases stepped
    exact (resumeWhenIdle_env hooks _).imp_right Or.inr
  | cancel =>
    cases Option.some.inj stepped
    exact Or.inl rfl

def withEnv {Other : Type} (s : LookupSupervisor Env ε α) (env : Other) : LookupSupervisor Other ε α :=
  ⟨s.slots,s.maxQueued,s.queued,s.tasks,s.closing,s.calls,env⟩

/-! The supervisor calls its hooks at the same points whatever they do. -/
section
variable {Other : Type} {others : Hooks Other} {related : Env → Other → Prop}
  (active : ∀ env other, related env other →
    related (hooks.onActive.getD (fun env => env) env) (others.onActive.getD (fun env => env) other))
  (idle : ∀ env other, related env other →
    related (hooks.onIdle.getD (fun env => env) env) (others.onIdle.getD (fun env => env) other))

include active in
theorem proceed_withEnv {other : Other} (here : related s.env other) (id : Nat) (call : Call ε α) : ∃ after,
    (s.withEnv other).proceed others id call = (s.proceed hooks id call).withEnv after ∧ related (s.proceed hooks id call).env after := by
  rcases s.proceed_cases hooks id call with ⟨closed,same⟩ | ⟨opened,same⟩
  · refine ⟨other,?_,by rw [same]; exact here⟩
    rw [same,proceed,if_pos (show (s.withEnv other).closing = true from closed)]
    rfl
  · refine ⟨_,?_,by rw [same]; exact active _ _ here⟩
    rw [same,proceed,if_neg (by rw [show (s.withEnv other).closing = false from opened]; exact Bool.false_ne_true)]
    rfl

include idle in
theorem resumeWhenIdle_withEnv {other : Other} (here : related s.env other) : ∃ after,
    (s.withEnv other).resumeWhenIdle others = (s.resumeWhenIdle hooks).withEnv after ∧ related (s.resumeWhenIdle hooks).env after := by
  unfold resumeWhenIdle
  change ∃ after, (if !s.closing && decide (s.tasks = ∅) && s.queued == 0 then _ else _) = _ ∧ _
  split
  · exact ⟨_,rfl,idle _ _ here⟩
  · exact ⟨_,rfl,here⟩

include active in
theorem call_withEnv {other : Other} (here : related s.env other) : ∃ after,
    (s.withEnv other).call others = (s.call hooks).withEnv after ∧ related (s.call hooks).env after := by
  by_cases refused : (s.closing || (s.slots.locked && decide (s.queued ≥ s.maxQueued))) = true
  · have mine : s.call hooks = {s with calls := s.calls++[{stage := .ended .overloaded}]} := if_pos refused
    have theirs : (s.withEnv other).call others = ({s with calls := s.calls++[{stage := .ended .overloaded}]} :
        LookupSupervisor Env ε α).withEnv other := if_pos refused
    rw [mine,theirs]
    exact ⟨other,rfl,here⟩
  · cases acquired : s.slots.tryAcquire with
    | some slots =>
      let entered : LookupSupervisor Env ε α := {s with slots,queued := s.queued+1-1,calls := s.calls++[{stage := .acquiring}]}
      have mine : s.call hooks = entered.proceed hooks s.calls.length {stage := .acquiring} := by
        simp only [call,if_neg refused,acquired,entered]
      have theirs : (s.withEnv other).call others = (entered.withEnv other).proceed others s.calls.length {stage := .acquiring} := by
        simp only [call,withEnv,acquired,entered]
        exact if_neg refused
      rw [mine,theirs]
      exact proceed_withEnv active (s := entered) here _ _
    | none =>
      let waiting : LookupSupervisor Env ε α := {s with
        slots := s.slots.enqueue s.calls.length,queued := s.queued+1,calls := s.calls++[{stage := .acquiring}]}
      have mine : s.call hooks = waiting := by simp only [call,if_neg refused,acquired,waiting]
      have theirs : (s.withEnv other).call others = waiting.withEnv other := by
        simp only [call,withEnv,acquired,waiting]
        exact if_neg refused
      rw [mine,theirs]
      exact ⟨other,rfl,here⟩

include active idle in
theorem resume_withEnv {other : Other} {id : Nat} (here : related s.env other) (stepped : s.resume hooks id = some next) : ∃ after,
    (s.withEnv other).resume others id = some (next.withEnv after) ∧ related next.env after := by
  obtain ⟨call,found,stepped⟩ := Option.bind_eq_some_iff.mp stepped
  have taken (rest : Call ε α → Option (LookupSupervisor Other ε α)) : ((s.withEnv other).calls[id]?).bind rest = rest call := by
    rw [show (s.withEnv other).calls[id]? = some call from found,Option.bind_some]
  unfold resume
  simp only [bind,taken]
  cases stage : call.stage with
  | acquiring =>
    simp only [stage] at stepped ⊢
    obtain ⟨grant,status,stepped⟩ := Option.bind_eq_some_iff.mp stepped
    rw [show (s.withEnv other).slots.status id = some grant from status,Option.bind_some]
    split at stepped
    · cases stepped
    · rename_i decided
      rw [if_neg decided]
      split at stepped
      · rename_i gone
        cases Option.some.inj stepped
        rw [if_pos gone]
        obtain ⟨after,same,now⟩ := resumeWhenIdle_withEnv idle (s := {s with
          slots := s.slots.resumeCancelled id,queued := s.queued-1}.setCall id {call with stage := .ended (.outcome .cancelled)}) here
        exact ⟨after,congrArg some same,now⟩
      · rename_i present
        cases Option.some.inj stepped
        rw [if_neg present]
        obtain ⟨after,same,now⟩ := proceed_withEnv active (s := {s with
          slots := s.slots.resumeGranted id,queued := s.queued-1}) here id call
        exact ⟨after,congrArg some same,now⟩
  | shielded =>
    simp only [stage] at stepped ⊢
    obtain ⟨task,own,stepped⟩ := Option.bind_eq_some_iff.mp stepped
    split at stepped
    · rename_i gone
      cases Option.some.inj stepped
      exact ⟨other,Option.bind_eq_some_iff.mpr ⟨task,own,if_pos gone⟩,here⟩
    · rename_i present
      obtain ⟨outcome,ended,stepped⟩ := Option.bind_eq_some_iff.mp stepped
      cases Option.some.inj stepped
      exact ⟨other,Option.bind_eq_some_iff.mpr ⟨task,own,
        (if_neg present).trans (Option.bind_eq_some_iff.mpr ⟨outcome,ended,rfl⟩)⟩,here⟩
  | ended ending =>
    simp only [stage] at stepped
    cases stepped

include active idle in
/-- A step with other hooks is the same step, and related hooks leave related environments. -/
theorem step_withEnv {other : Other} {action : Action ε α} (here : related s.env other) (stepped : s.step hooks action = some next) :
    ∃ after, (s.withEnv other).step others action = some (next.withEnv after) ∧ related next.env after := by
  cases action with
  | call =>
    cases Option.some.inj stepped
    obtain ⟨after,same,now⟩ := call_withEnv active here
    exact ⟨after,congrArg some same,now⟩
  | resume id => exact resume_withEnv active idle here stepped
  | cancelCaller id =>
    obtain ⟨call,found,stepped⟩ := Option.bind_eq_some_iff.mp stepped
    refine ⟨other,Option.bind_eq_some_iff.mpr ⟨call,found,?_⟩,?_⟩ <;> cases stage : call.stage <;> rw [stage] at stepped <;>
      cases stepped
    · rfl
    · rfl
    · exact here
    · exact here
  | workStep id ending =>
    obtain ⟨call,found,stepped⟩ := Option.bind_eq_some_iff.mp stepped
    obtain ⟨task,own,stepped⟩ := Option.bind_eq_some_iff.mp stepped
    obtain ⟨moved,step,stepped⟩ := Option.bind_eq_some_iff.mp stepped
    cases Option.some.inj stepped
    exact ⟨other,Option.bind_eq_some_iff.mpr ⟨call,found,Option.bind_eq_some_iff.mpr ⟨task,own,
      Option.bind_eq_some_iff.mpr ⟨moved,step,rfl⟩⟩⟩,here⟩
  | finished id =>
    obtain ⟨call,found,stepped⟩ := Option.bind_eq_some_iff.mp stepped
    obtain ⟨task,own,stepped⟩ := Option.bind_eq_some_iff.mp stepped
    obtain ⟨moved,step,stepped⟩ := Option.bind_eq_some_iff.mp stepped
    cases Option.some.inj stepped
    obtain ⟨after,same,now⟩ := resumeWhenIdle_withEnv idle (s := {s with
      tasks := s.tasks.erase id,slots := s.slots.release}.setCall id {call with task := some moved}) here
    exact ⟨after,Option.bind_eq_some_iff.mpr ⟨call,found,Option.bind_eq_some_iff.mpr ⟨task,own,
      Option.bind_eq_some_iff.mpr ⟨moved,step,congrArg some same⟩⟩⟩,now⟩
  | cancel =>
    cases Option.some.inj stepped
    exact ⟨other,rfl,here⟩

end

end LookupSupervisor

namespace BackgroundWarmup
open YPriceMagic.Async

@[simp] theorem resume_paused (w : BackgroundWarmup) : w.resume.paused = false := by
  rcases w.resume_cases with ⟨resumed,_⟩ | resumed | ⟨resumed,_⟩ <;> rw [resumed]
  rfl

theorem finished_paused (w : BackgroundWarmup) (task : Task Unit Unit) :
    (w.finished task).paused = w.paused := by
  unfold finished
  split
  · rfl
  · split
    · rename_i unpaused
      simpa using unpaused
    · rfl

end BackgroundWarmup

namespace Foreground
open YPriceMagic.Async LookupSupervisor

variable {ε α : Type}

def hooks : Hooks BackgroundWarmup := ⟨some BackgroundWarmup.pause,some BackgroundWarmup.resume⟩

def init (active maxQueued : Nat) : LookupSupervisor BackgroundWarmup ε α :=
  LookupSupervisor.init active maxQueued BackgroundWarmup.init.resume

/-- `pause` and `resume` are no actions of their own: only the supervisor calls them. -/
inductive Action (ε α : Type)
  | lookup (action : LookupSupervisor.Action ε α)
  | warmupStep (i : Nat) (ending : Option (Outcome Unit Unit))
  | warmupFinished (i : Nat)
  | warmupCancel

def step (s : LookupSupervisor BackgroundWarmup ε α) : Action ε α → Option (LookupSupervisor BackgroundWarmup ε α)
  | .lookup action => s.step hooks action
  | .warmupStep i ending => (s.env.step (.workStep i ending)).map fun env => {s with env}
  | .warmupFinished i => (s.env.step (.finished i)).map fun env => {s with env}
  | .warmupCancel => some {s with env := s.env.cancel}

/-- While the supervisor is open, entries of `tasks` keep the warm-up paused, and an
idle supervisor has resumed it. -/
structure Exclusive (s : LookupSupervisor BackgroundWarmup ε α) : Prop where
  warmup : s.env.Inv
  busy : s.closing = false → s.tasks ≠ ∅ → s.env.paused = true
  idle : s.closing = false → s.env.closing = false → s.tasks = ∅ → s.queued = 0 → s.env.paused = false

theorem init_exclusive (active maxQueued : Nat) : Exclusive (init active maxQueued : LookupSupervisor _ ε α) :=
  ⟨BackgroundWarmup.init_inv.resume,fun _ occupied => absurd rfl occupied,fun _ _ _ _ => rfl⟩

variable {s next : LookupSupervisor BackgroundWarmup ε α}

theorem resumeWhenIdle_exclusive (warmup : s.env.Inv)
    (busy : s.closing = false → s.tasks ≠ ∅ → s.env.paused = true) : Exclusive (s.resumeWhenIdle hooks) := by
  rcases s.resumeWhenIdle_cases hooks with ⟨_,empty,_,idle⟩ | ⟨reason,same⟩
  · rw [idle]
    exact ⟨warmup.resume,fun _ occupied => absurd empty occupied,fun _ _ _ _ => s.env.resume_paused⟩
  · rw [same]
    refine ⟨warmup,busy,fun opened _ empty none => ?_⟩
    rcases reason with closed | occupied | waiting
    · simp [closed] at opened
    · exact absurd empty occupied
    · exact absurd none waiting

theorem proceed_exclusive (warmup : s.env.Inv) (id : Nat) (call : Call ε α) :
    Exclusive (s.proceed hooks id call) := by
  rcases s.proceed_cases hooks id call with ⟨closing,closed⟩ | ⟨_,opened⟩
  · rw [closed]
    exact ⟨warmup,fun open_ => by simp [closing] at open_,fun open_ => by simp [closing] at open_⟩
  · rw [opened]
    exact ⟨warmup.pause,fun _ _ => rfl,fun _ _ empty => absurd empty (Finset.insert_ne_empty id s.tasks)⟩

theorem lookup_exclusive {active : Nat} {action : LookupSupervisor.Action ε α} (balanced : s.Balanced active 0)
    (exclusive : Exclusive s) (stepped : s.step hooks action = some next) : Exclusive next := by
  obtain ⟨warmup,busy,idle⟩ := exclusive
  cases action with
  | call =>
    cases Option.some.inj stepped
    rcases s.call_cases hooks with ⟨_,refused⟩ | ⟨_,_,taken⟩ | ⟨_,_,_,queued⟩
    · rw [refused]
      exact ⟨warmup,busy,idle⟩
    · rw [taken]
      refine proceed_exclusive ?_ _ _
      exact warmup
    · rw [queued]
      refine ⟨warmup,busy,fun _ _ _ none => ?_⟩
      have queue := balanced.queue
      change s.queued+1 = 0 at none
      omega
  | cancelCaller id =>
    obtain ⟨_,_,⟨_,rfl⟩ | ⟨_,rfl⟩⟩ := cancelCaller_cases stepped <;> exact ⟨warmup,busy,idle⟩
  | resume id =>
    obtain ⟨_,_,⟨_,_,_,_,_,rfl⟩ | ⟨_,_,_,rfl⟩ | ⟨_,_,_,⟨_,rfl⟩ | ⟨_,_,_,rfl⟩⟩⟩ := resume_cases stepped
    · -- the last waiter may leave cancelled, with or without the slot it was granted
      exact resumeWhenIdle_exclusive warmup busy
    · refine proceed_exclusive ?_ _ _
      exact warmup
    · exact ⟨warmup,busy,idle⟩
    · exact ⟨warmup,busy,idle⟩
  | workStep id ending =>
    obtain ⟨_,_,_,_,_,_,rfl⟩ := workStep_cases stepped
    exact ⟨warmup,busy,idle⟩
  | finished id =>
    obtain ⟨_,_,_,_,_,_,rfl⟩ := finished_cases stepped
    refine resumeWhenIdle_exclusive warmup fun opened occupied => busy opened ?_
    obtain ⟨other,member⟩ := Finset.nonempty_iff_ne_empty.mpr occupied
    exact Finset.ne_empty_of_mem (Finset.mem_of_mem_erase member)
  | cancel =>
    cases Option.some.inj stepped
    exact ⟨warmup,fun opened => by simp [LookupSupervisor.cancel] at opened,
      fun opened => by simp [LookupSupervisor.cancel] at opened⟩

theorem warmup_exclusive {env : BackgroundWarmup} {action : BackgroundWarmup.Action} (exclusive : Exclusive s)
    (stepped : s.env.step action = some env) (paused : env.paused = s.env.paused)
    (closing : env.closing = s.env.closing) : Exclusive {s with env} := by
  obtain ⟨warmup,busy,idle⟩ := exclusive
  refine ⟨BackgroundWarmup.step_inv _ _ _ warmup stepped,?_,?_⟩
  · intro opened occupied
    exact paused.trans (busy opened occupied)
  · intro opened warming empty none
    exact paused.trans (idle opened (closing.symm.trans warming) empty none)

theorem step_exclusive {active : Nat} (s : LookupSupervisor BackgroundWarmup ε α) (action : Action ε α)
    (next : LookupSupervisor BackgroundWarmup ε α) (held : s.Balanced active 0 ∧ Exclusive s)
    (stepped : step s action = some next) : next.Balanced active 0 ∧ Exclusive next := by
  obtain ⟨balanced,exclusive⟩ := held
  have undisturbed (env : BackgroundWarmup) : ({s with env} : LookupSupervisor _ ε α).Balanced active 0 :=
    ⟨balanced.slots,balanced.nonneg,balanced.served,balanced.queue,balanced.suspended,balanced.bounded,
      balanced.owned,balanced.unowned⟩
  cases action with
  | lookup action =>
    exact ⟨step_balanced hooks s action next balanced stepped,lookup_exclusive balanced exclusive stepped⟩
  | warmupStep i ending =>
    obtain ⟨env,moved,rfl⟩ := Option.map_eq_some_iff.mp stepped
    obtain ⟨_,_,_,_,rfl⟩ := BackgroundWarmup.workStep_some moved
    exact ⟨undisturbed _,warmup_exclusive exclusive moved rfl rfl⟩
  | warmupFinished i =>
    obtain ⟨env,moved,rfl⟩ := Option.map_eq_some_iff.mp stepped
    obtain ⟨_,_,_,_,rfl⟩ := BackgroundWarmup.finished_some moved
    exact ⟨undisturbed _,warmup_exclusive exclusive moved (BackgroundWarmup.finished_paused _ _)
      (BackgroundWarmup.finished_closing _ _)⟩
  | warmupCancel =>
    cases Option.some.inj stepped
    exact ⟨undisturbed _,exclusive.warmup.cancel,fun _ _ => rfl,
      fun _ warming => by simp [BackgroundWarmup.cancel,BackgroundWarmup.pause] at warming⟩

theorem step_invocations {action : Action ε α} (stepped : step s action = some next)
    (requested : ∀ task ∈ s.env.spawned, task.done = false → task.cancelRequested = true) :
    next.env.invocations = s.env.invocations := by
  cases action with
  | lookup action =>
    rcases step_env stepped with same | paused | resumed
    · rw [same]
    · rw [paused]
      exact s.env.pause_invocations
    · rw [resumed]
      exact s.env.resume_invocations
  | warmupStep i ending =>
    obtain ⟨env,moved,rfl⟩ := Option.map_eq_some_iff.mp stepped
    exact BackgroundWarmup.step_invocations moved requested
  | warmupFinished i =>
    obtain ⟨env,moved,rfl⟩ := Option.map_eq_some_iff.mp stepped
    exact BackgroundWarmup.step_invocations moved requested
  | warmupCancel =>
    cases Option.some.inj stepped
    exact s.env.pause_invocations

/-- In every schedule of lookups and warm-up steps, while the supervisor is open: entries of
`tasks` keep the warm-up paused, its unfinished tasks cancelled and its work from starting;
and a supervisor without tasks or queue has resumed a warm-up that is not closing. -/
theorem lookups_exclude_warmup (active maxQueued : Nat) (actions : List (Action ε α))
    (s : LookupSupervisor BackgroundWarmup ε α) (reached : run step (init active maxQueued) actions = some s)
    (opened : s.closing = false) :
    (s.tasks ≠ ∅ → s.env.paused = true ∧
      (∀ task ∈ s.env.spawned, task.done = false → task.cancelRequested = true) ∧
      ∀ action next, step s action = some next → next.env.invocations = s.env.invocations) ∧
    (s.env.closing = false → s.tasks = ∅ → s.queued = 0 → s.env.paused = false) := by
  have start : (init active maxQueued : LookupSupervisor _ ε α).Balanced active 0 :=
    init_balanced active maxQueued BackgroundWarmup.init.resume
  have exclusive := (run_preserves (fun s => s.Balanced active 0 ∧ Exclusive s) step_exclusive
    ⟨start,init_exclusive active maxQueued⟩ reached).2
  refine ⟨fun occupied => ?_,exclusive.idle opened⟩
  have paused := exclusive.busy opened occupied
  have requested := exclusive.warmup.yielding (Or.inl paused)
  exact ⟨paused,requested,fun _ _ stepped => step_invocations stepped requested⟩

/-- A waiter that was granted the last slot is cancelled, and the warm-up goes on. -/
theorem lookups_exclude_warmup_last_waiter :
    ∃ s : LookupSupervisor BackgroundWarmup Unit Unit,
      run step (init 1 1) [.warmupStep 0 none,.lookup .call,.lookup .call,
        .lookup (.workStep 0 (some (.returned ()))),.lookup (.finished 0),.lookup (.cancelCaller 1),
        .lookup (.resume 1)] = some s ∧ s.queued = 0 ∧ s.tasks = ∅ ∧ s.env.paused = false := by
  refine ⟨_,rfl,rfl,rfl,?_⟩
  exact (lookups_exclude_warmup 1 1 [.warmupStep 0 none,.lookup .call,.lookup .call,
    .lookup (.workStep 0 (some (.returned ()))),.lookup (.finished 0),.lookup (.cancelCaller 1),
    .lookup (.resume 1)] _ rfl rfl).2 rfl rfl rfl

end Foreground

end YPriceMagic.Runtime
