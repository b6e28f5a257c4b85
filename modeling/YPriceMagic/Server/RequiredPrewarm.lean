import YPriceMagic.Async.Scopes
import YPriceMagic.Server.Prewarm

/-! `_prewarm_with_shutdown`: the required loaders race with the shutdown event and with the
cancellation of their caller, and whatever wins, all of its tasks are done when it ends. -/
namespace YPriceMagic.Server
open YPriceMagic.Async YPriceMagic.Async.Coroutine YPriceMagic.Async.Forest

section
variable (protocols : Protocols)

def race (prewarmTask shutdownWaiter : Nat) : WarmScript Unit := do
  let done ← Script.firstOf [prewarmTask,shutdownWaiter]
  if shutdownWaiter ∈ done then raise (.other "shutdown during required warmup")
  else Script.awaitTask prewarmTask

theorem race_keeps {waits : Bool} {owned : List Nat} (prewarmTask shutdownWaiter : Nat)
    (history : List (Event Warming Scan.Answer Exn)) (pending : Pending waits owned history) :
    Ensures (fun _ _ => True) Sigma.mk (fun _ later => Pending waits owned later) (race prewarmTask shutdownWaiter) history := by
  refine ⟨trivial,fun reply => ?_⟩
  have examined : Pending waits owned (history++[⟨.await (.firstOf [prewarmTask,shutdownWaiter]),reply⟩]) :=
    pending.keep (by simp)
  cases reply with
  | returned done =>
    change Ensures _ _ _ (if shutdownWaiter ∈ done then raise _ else Script.awaitTask prewarmTask) _
    split
    · exact examined
    · exact ⟨trivial,fun _ => examined.keep (by simp)⟩
  | raised | cancelled => exact examined

theorem prewarmWithShutdown_closes : Closes false (prewarmWithShutdown protocols) [] := by
  refine (Pending.start false).bindSpawnAll fun prewarmTasks history pending => ⟨trivial,fun shutdownWaiter => ⟨trivial,fun prewarmTask => ?_⟩⟩
  have created := (pending.spawn .waitForShutdown shutdownWaiter).spawn (.runPrewarm prewarmTasks) prewarmTask
  have all : prewarmTasks++[shutdownWaiter]++[prewarmTask] ⊆ prewarmTask::shutdownWaiter::prewarmTasks := by simp
  exact created.tryReap all (race_keeps prewarmTask shutdownWaiter)

/-- What it has performed when it returns. -/
def returning (prewarmTasks : List Nat) (shutdownWaiter prewarmTask : Nat) (done : List Nat) : List (Event Warming Scan.Answer Exn) :=
  spawns (requiredLoaders protocols) prewarmTasks++[⟨.spawn .waitForShutdown,shutdownWaiter⟩,
    ⟨.spawn (.runPrewarm prewarmTasks),prewarmTask⟩,⟨.await (.firstOf [prewarmTask,shutdownWaiter]),.returned done⟩,
    ⟨.await (.task prewarmTask),.returned ()⟩,⟨.cancel (prewarmTask::shutdownWaiter::prewarmTasks),()⟩,
    ⟨.await (.join (prewarmTask::shutdownWaiter::prewarmTasks)),.returned ()⟩]

theorem prewarmWithShutdown_returning :
    Ensures (fun _ _ => True) Sigma.mk (fun outcome history => outcome = .returned () →
        ∃ prewarmTasks shutdownWaiter prewarmTask done, prewarmTasks.length = (requiredLoaders protocols).length ∧
          shutdownWaiter ∉ done ∧ history = returning protocols prewarmTasks shutdownWaiter prewarmTask done)
      (prewarmWithShutdown protocols) [] := by
  refine Ensures.bindSpawnAll (fun _ _ _ => trivial) fun prewarmTasks sized => ⟨trivial,fun shutdownWaiter => ⟨trivial,fun prewarmTask => ?_⟩⟩
  refine ⟨trivial,fun reply => ?_⟩
  cases reply with
  | returned done =>
    change Ensures _ _ _ (Coroutine.andThen (if shutdownWaiter ∈ done then raise _ else Script.awaitTask prewarmTask) _) _
    split
    · refine ⟨trivial,fun _ => ⟨trivial,fun reply => ?_⟩⟩
      cases reply <;> exact fun same => by contradiction
    · rename_i unset
      refine ⟨trivial,fun loaded => ⟨trivial,fun _ => ⟨trivial,fun joined => ?_⟩⟩⟩
      cases joined with
      | returned value =>
        intro same
        cases same
        exact ⟨prewarmTasks,shutdownWaiter,prewarmTask,done,sized,unset,by simp [returning]⟩
      | raised | cancelled => exact fun same => by contradiction
  | raised | cancelled =>
    refine ⟨trivial,fun _ => ⟨trivial,fun reply => ?_⟩⟩
    cases reply <;> exact fun same => by contradiction

theorem runPrewarm_returning (prewarmTasks : List Nat) :
    Ensures (fun _ _ => True) Sigma.mk (fun outcome history => outcome = .returned () →
        ⟨.await (.gather prewarmTasks),.returned ()⟩ ∈ history)
      (warmingCode protocols (.runPrewarm prewarmTasks)) [] := by
  refine ⟨trivial,fun reply => ?_⟩
  cases reply with
  | returned value => exact fun _ => List.mem_singleton.mpr rfl
  | raised | cancelled => exact fun same => by contradiction

abbrev WarmAction := Forest.Action Warming Scan.Answer Exn

abbrev warmStep : WarmForest → WarmAction → Option WarmForest := Forest.step (warmingCode protocols)

section
variable {protocols} {actions : List WarmAction} {s : WarmForest} {id : Nat}

theorem loaders_returned {prewarmTasks : List Nat} {prewarmTask : Nat} (ran : run (warmStep protocols) [] actions = some s)
    (known : Known (Answered (warmingCode protocols) actions) s id ⟨.spawn (.runPrewarm prewarmTasks),prewarmTask⟩)
    (ended : s.outcome prewarmTask = some (.returned ())) : ∀ task ∈ prewarmTasks, s.outcome task = some (.returned ()) := by
  obtain ⟨node,found,kind,_⟩ := known
  obtain ⟨same,here,returned⟩ := outcome_some.mp ended
  cases Option.some.inj (found.symm.trans here)
  obtain ⟨history,leads | early,story⟩ := ended_story ran found returned
  · rw [kind] at leads
    exact gathered_returned ran (story.known _ ((runPrewarm_returning protocols prewarmTasks).leads leads rfl))
  · exact absurd early.2 (by simp)

/-- Whatever it awaits is answered in any way and any of its tasks may take its time to end. -/
theorem required_all_or_nothing {node : Node Warming Scan.Answer Exn} {outcome : Outcome Exn Unit}
    (ran : run (warmStep protocols) [] actions = some s) (here : s[id]? = some node)
    (prewarming : node.kind = .prewarmWithShutdown) (ended : node.outcome = some outcome) :
    (∀ (task : Nat) (child : Node Warming Scan.Answer Exn), s[task]? = some child → child.parent = some id → child.done = true) ∧
    ((∃ error, outcome = .raised error) ∨ outcome = .cancelled ∨
      (outcome = .returned () ∧
        (∀ loader ∈ requiredLoaders protocols, ∃ (task : Nat) (child : Node Warming Scan.Answer Exn), s[task]? = some child ∧
          child.parent = some id ∧ child.kind = loader ∧ child.outcome = some (.returned ())) ∧
        ∃ (shutdownWaiter prewarmTask : Nat) (waiter : Node Warming Scan.Answer Exn) (done : List Nat)
          (before after : List WarmAction) (middle : WarmForest),
          s[shutdownWaiter]? = some waiter ∧ waiter.parent = some id ∧ waiter.kind = .waitForShutdown ∧
          actions = before++.answer id (.firstOf [prewarmTask,shutdownWaiter]) (.returned done)::after ∧
          run (warmStep protocols) [] before = some middle ∧ middle.done shutdownWaiter = false)) := by
  have finished : s.done id = true := Option.isSome_iff_exists.mpr ⟨outcome,outcome_some.mpr ⟨node,here,ended⟩⟩
  refine ⟨fun task child found mine => ?_,?_⟩
  · have closes : ∀ other : Node Warming Scan.Answer Exn, s[id]? = some other → Closes false (warmingCode protocols other.kind) [] := by
      intro other there
      cases Option.some.inj (here.symm.trans there)
      rw [prewarming]
      exact prewarmWithShutdown_closes protocols
    have met : Throughout (warmStep protocols) (Settling fun _ => false) [] actions := throughout_relying_on_none actions []
    rw [← done_eq found]
    exact created_done closes ran met finished found mine
  · cases outcome with
    | raised error => exact Or.inl ⟨error,rfl⟩
    | cancelled => exact Or.inr (Or.inl rfl)
    | returned value =>
      obtain ⟨history,leads | early,story⟩ := ended_story ran here ended
      · rw [prewarming] at leads
        obtain ⟨prewarmTasks,shutdownWaiter,prewarmTask,done,sized,unset,rfl⟩ :=
          (prewarmWithShutdown_returning protocols).leads leads rfl
        have loaded := loaders_returned ran (story.known ⟨.spawn (.runPrewarm prewarmTasks),prewarmTask⟩ (by simp [returning]))
          (awaited_returned ran (story.known ⟨.await (.task prewarmTask),.returned ()⟩ (by simp [returning])))
        refine Or.inr (Or.inr ⟨rfl,fun loader required => ?_,?_⟩)
        · obtain ⟨task,member,spawned⟩ := mem_spawns sized required
          obtain ⟨child,found,kind,mine⟩ := story.known _ (List.mem_append_left _ spawned)
          obtain ⟨same,there,returned⟩ := outcome_some.mp (loaded task member)
          cases Option.some.inj (found.symm.trans there)
          exact ⟨task,child,found,mine,kind,returned⟩
        · obtain ⟨waiter,found,kind,mine⟩ := story.known ⟨.spawn .waitForShutdown,shutdownWaiter⟩ (by simp [returning])
          obtain ⟨before,after,middle,split,ranBefore,waiting⟩ := left_waiting
            (story.known ⟨.await (.firstOf [prewarmTask,shutdownWaiter]),.returned done⟩ (by simp [returning])) (by simp) unset
          exact ⟨shutdownWaiter,prewarmTask,waiter,done,before,after,middle,found,mine,kind,split,ranBefore,waiting⟩
      · exact absurd early.2 (by simp)

end

def mainnet : Protocols := ⟨"ethereum",true,[("0xusdc","usdc")],["uniswap v2"],none,[]⟩

def quietStartup : List WarmAction := [.start .prewarmWithShutdown,.enter 0,.enter 1,.enter 2,.enter 3,
  .answer 1 (.call .curvePools) (.returned ()),.answer 3 (.gather [1]) (.returned ()),
  .answer 0 (.firstOf [3,2]) (.returned [3]),.answer 2 (.call .shutdownEvent) .cancelled,
  .answer 0 (.join [3,2,1]) (.returned ())]

/-- The event is not set, and its waiter is cancelled in the end. -/
theorem required_all_or_nothing_quiet : ∃ s node, run (warmStep mainnet) [] quietStartup = some s ∧ s[0]? = some node ∧
    node.outcome = some (.returned ()) ∧
    ∀ (task : Nat) (child : Node Warming Scan.Answer Exn), s[task]? = some child → child.parent = some 0 → child.done = true := by
  have ran : run (warmStep mainnet) [] quietStartup = some ((run (warmStep mainnet) [] quietStartup).get rfl) :=
    (Option.some_get _).symm
  exact ⟨_,_,ran,rfl,rfl,(required_all_or_nothing ran rfl rfl rfl).1⟩

end
end YPriceMagic.Server
