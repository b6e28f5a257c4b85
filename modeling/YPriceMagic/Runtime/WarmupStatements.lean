import YPriceMagic.Async.Interrupts
import YPriceMagic.Runtime.BackgroundWarmup

/-! The methods of `BackgroundWarmup` statement by statement. Run without interruption they do
what the methods do in one step. -/
namespace YPriceMagic.Runtime
open YPriceMagic.Async

/-- A statement that may return leads to what follows it when it does not. -/
inductive WarmupStatement
  | setPaused
  | cancelTask
  | setClosing
  | clearPaused
  | returnIfBusy
  | returnIfOver
  | complete
  | createTask
  | addDoneCallback
  | completeUnlessCancelled (i : Nat)
  | resumeUnlessPaused
  deriving DecidableEq, Repr

namespace WarmupStatement

def pause : List WarmupStatement := [.setPaused,.cancelTask]

def resume : List WarmupStatement := [.clearPaused,.returnIfBusy]

def cancel : List WarmupStatement := .setClosing::pause

def finished (i : Nat) : List WarmupStatement := [.completeUnlessCancelled i]

def exec : WarmupStatement → BackgroundWarmup → BackgroundWarmup × List WarmupStatement
  | .setPaused,w => ({w with paused := true},[])
  | .cancelTask,w => ({w with spawned := w.cancelTask},[])
  | .setClosing,w => ({w with closing := true},[])
  | .clearPaused,w => ({w with paused := false},[])
  | .returnIfBusy,w => (w,if w.closing || w.completed || w.current.any (!·.done) then [] else [.returnIfOver])
  | .returnIfOver,w => (w,if w.current.any (·.outcome ≠ some .cancelled) then [.complete] else [.createTask])
  | .complete,w => ({w with completed := true},[])
  | .createTask,w => (w.createTask,[.addDoneCallback])
  -- a task that is done calls back whether it was done before or not
  | .addDoneCallback,w => (w,[])
  | .completeUnlessCancelled i,w => (w,if w.spawned[i]?.any (·.outcome ≠ some .cancelled) then [.complete] else [.resumeUnlessPaused])
  | .resumeUnlessPaused,w => (w,if w.paused then [] else resume)

/-- What may lead to a task. -/
def source : WarmupStatement → Bool
  | .returnIfBusy | .returnIfOver | .createTask | .completeUnlessCancelled _ | .resumeUnlessPaused => true
  | _ => false

/-- What runs only after `resume` found no running task. -/
def unguarded : WarmupStatement → Bool
  | .returnIfOver | .createTask => true
  | _ => false

theorem unguarded_source {statement : WarmupStatement} (unguarded : statement.unguarded = true) : statement.source = true := by
  cases statement <;> first | rfl | simp [WarmupStatement.unguarded] at unguarded

open Thread

theorem pause_completes (w : BackgroundWarmup) : Completes exec pause w w.pause :=
  .next _ _ _ _ (.next _ _ _ _ (.done _))

theorem cancel_completes (w : BackgroundWarmup) : Completes exec cancel w w.cancel :=
  .next _ _ _ _ (pause_completes {w with closing := true})

theorem completed_eq {task : Task Unit Unit} (ended : task.done = true) :
    task.completed = decide (task.outcome ≠ some .cancelled) := by
  cases outcome : task.outcome with
  | none => simp [Task.done,outcome] at ended
  | some ending => cases ending <;> simp [Task.completed,Outcome.isCancelled,outcome]

theorem resume_completes (w : BackgroundWarmup) : Completes exec resume w w.resume := by
  refine .next _ _ _ _ (.next _ _ _ _ ?_)
  have same : ({w with paused := false} : BackgroundWarmup).current = w.current := rfl
  unfold BackgroundWarmup.resume
  simp only [exec,same]
  cases current : w.current with
  | none =>
    by_cases stopped : (w.closing || w.completed) = true
    · simp only [stopped,Option.any_none,Bool.or_false,if_true]
      exact .done _
    · simp only [stopped,Option.any_none,Bool.or_false]
      refine .next _ _ _ _ ?_
      simp only [exec,same,current,Option.any_none]
      exact .next _ _ _ _ (.next _ _ _ _ (.done _))
  | some task =>
    by_cases stopped : (w.closing || w.completed || !task.done) = true
    · simp only [Option.any_some,stopped,if_true]
      exact .done _
    · simp only [Option.any_some,stopped]
      have ended : task.done = true := by
        simp only [Bool.or_eq_true,Bool.not_eq_true',not_or,Bool.not_eq_false] at stopped
        exact stopped.2
      refine .next _ _ _ _ ?_
      simp only [exec,same,current,Option.any_some,← completed_eq ended]
      cases task.completed with
      | true => exact .next _ _ _ _ (.done _)
      | false => exact .next _ _ _ _ (.next _ _ _ _ (.done _))

theorem finished_completes {w : BackgroundWarmup} {i : Nat} {task : Task Unit Unit} (found : w.spawned[i]? = some task)
    (ended : task.done = true) : Completes exec (finished i) w (w.finished task) := by
  refine .next _ _ _ _ ?_
  simp only [exec,found,Option.any_some,← completed_eq ended]
  unfold BackgroundWarmup.finished
  cases task.completed with
  | true => exact .next _ _ _ _ (.done _)
  | false =>
    refine .next _ _ _ _ ?_
    simp only [exec]
    cases w.paused with
    | true => exact .done _
    | false => exact resume_completes w

/-- Only the task in place may be running. -/
def Older (w : BackgroundWarmup) : Prop :=
  ∀ (i : Nat) (task : Task Unit Unit), w.spawned[i]? = some task → w.task ≠ some i → task.done = true

def Replaceable (w : BackgroundWarmup) : Prop := ∀ task, w.current = some task → task.done = true

def Asked (w : BackgroundWarmup) : Prop := ∀ task ∈ w.spawned, task.done = false → task.cancelRequested = true

theorem exec_older {w : BackgroundWarmup} (statement : WarmupStatement) (older : Older w)
    (free : statement = .createTask → Replaceable w) : Older (statement.exec w).1 := by
  cases statement with
  | cancelTask =>
    intro i task found elsewhere
    change w.task ≠ some i at elsewhere
    change w.cancelTask[i]? = some task at found
    rw [BackgroundWarmup.cancelTask_getElem?,if_neg elsewhere] at found
    exact older i task found elsewhere
  | createTask =>
    intro i task found elsewhere
    rcases mem_snoc_table found with old | ⟨last,_⟩
    · by_cases place : w.task = some i
      · exact free rfl task (by rw [BackgroundWarmup.current,place]; exact old)
      · exact older i task old place
    · exact absurd (congrArg some last.symm) elsewhere
  | _ => exact older

theorem exec_replaceable {w : BackgroundWarmup} (statement : WarmupStatement) (other : statement ≠ .createTask)
    (free : Replaceable w) : Replaceable (statement.exec w).1 := by
  cases statement with
  | cancelTask =>
    intro task current
    obtain ⟨i,place,found⟩ := Option.bind_eq_some_iff.mp current
    change w.task = some i at place
    change w.cancelTask[i]? = some task at found
    rw [BackgroundWarmup.cancelTask_getElem?,if_pos place] at found
    obtain ⟨before,there,rfl⟩ := Option.map_eq_some_iff.mp found
    rw [Task.cancel_done]
    exact free before (by rw [BackgroundWarmup.current,place]; exact there)
  | createTask => exact absurd rfl other
  | _ => exact free

/-- The two tests that `resume` passes before it creates a task. -/
theorem exec_unguarded {w : BackgroundWarmup} {statement pushed : WarmupStatement} (member : pushed ∈ (statement.exec w).2)
    (unguarded : pushed.unguarded = true) : statement = .returnIfBusy ∧ w.closing = false ∧ Replaceable w ∨
      statement = .returnIfOver ∧ w.current.any (·.outcome ≠ some .cancelled) = false := by
  cases statement with
  | returnIfBusy =>
    simp only [exec] at member
    split at member
    · simp at member
    · rename_i free
      simp only [Bool.or_eq_true,not_or,Bool.not_eq_true] at free
      refine Or.inl ⟨rfl,free.1.1,fun task current => ?_⟩
      simpa [current] using free.2
  | returnIfOver =>
    simp only [exec] at member
    split at member
    · cases List.mem_singleton.mp member
      simp [WarmupStatement.unguarded] at unguarded
    · rename_i cancelled
      exact Or.inr ⟨rfl,by simpa using cancelled⟩
  | createTask =>
    cases List.mem_singleton.mp member
    simp [WarmupStatement.unguarded] at unguarded
  | completeUnlessCancelled i =>
    simp only [exec] at member
    split at member <;> cases List.mem_singleton.mp member <;> simp [WarmupStatement.unguarded] at unguarded
  | resumeUnlessPaused =>
    simp only [exec] at member
    split at member <;> simp only [resume,List.mem_cons,List.not_mem_nil,or_false] at member
    rcases member with rfl | rfl <;> simp [WarmupStatement.unguarded] at unguarded
  | _ => simp [exec] at member

theorem exec_sources (statement : WarmupStatement) (w : BackgroundWarmup) :
    (statement.exec w).2.countP source ≤ [statement].countP source := by
  cases statement with
  | returnIfBusy | returnIfOver | completeUnlessCancelled i | resumeUnlessPaused =>
    simp only [exec]
    split <;> simp [source,resume,List.countP_cons]
  | createTask => simp [exec,source]
  | _ => exact Nat.zero_le _

theorem exec_asked {w : BackgroundWarmup} (statement : WarmupStatement) (other : statement ≠ .createTask) (asked : Asked w) :
    Asked (statement.exec w).1 := by
  cases statement with
  | cancelTask =>
    intro task member running
    obtain ⟨before,there,rfl | rfl⟩ := BackgroundWarmup.mem_cancelTask member
    · exact asked _ there running
    · exact before.cancel_still_requested (asked before there (by simpa using running))
  | createTask => exact absurd rfl other
  | _ => exact asked

/-- `self.task.cancel()` reaches every task that is running. -/
theorem cancelTask_asked {w : BackgroundWarmup} (older : Older w) : Asked (WarmupStatement.cancelTask.exec w).1 := by
  intro task member running
  obtain ⟨i,found⟩ := List.mem_iff_getElem?.mp member
  change w.cancelTask[i]? = some task at found
  rw [BackgroundWarmup.cancelTask_getElem?] at found
  split at found
  · obtain ⟨before,_,rfl⟩ := Option.map_eq_some_iff.mp found
    exact before.cancel_requested (by simpa using running)
  · rename_i elsewhere
    simp [older i task found elsewhere] at running

/-- What happens to the warm-up before a statement of its own: its task goes on or calls back. -/
inductive Worked (w : BackgroundWarmup) : BackgroundWarmup → Prop
  | work (i : Nat) (ending : Option (Outcome Unit Unit)) (next : BackgroundWarmup) (stepped : w.step (.workStep i ending) = some next) :
      Worked w next
  | called (i : Nat) (task after : Task Unit Unit) (found : w.spawned[i]? = some task) (called : task.callback = some after) :
      Worked w {w with spawned := w.spawned.set i after}

namespace Worked

variable {w next : BackgroundWarmup}

theorem spawned (worked : Worked w next) : ∃ i task after, w.spawned[i]? = some task ∧ next = {w with spawned := w.spawned.set i after} ∧
    (task.done = true → after.done = true) ∧ (after.done = false → task.done = false ∧ after.cancelRequested = task.cancelRequested) := by
  cases worked with
  | work i ending next stepped =>
    obtain ⟨task,after,found,worked,rfl⟩ := BackgroundWarmup.workStep_some stepped
    obtain ⟨running,ways⟩ := Task.step_cases worked
    refine ⟨i,task,after,found,rfl,fun ended => by simp [running] at ended,fun _ => ⟨running,?_⟩⟩
    rcases ways with ⟨_,_,rfl⟩ | ⟨_,rfl⟩ <;> rfl
  | called i task after found called =>
    obtain ⟨_,_,rfl⟩ := Task.callback_cases called
    exact ⟨i,task,_,found,rfl,id,fun running => ⟨running,rfl⟩⟩

theorem closing (worked : Worked w next) (closing : w.closing = true) : next.closing = true := by
  obtain ⟨_,_,_,_,rfl,_⟩ := worked.spawned
  exact closing

theorem older (worked : Worked w next) (older : Older w) : Older next := by
  obtain ⟨i,task,after,found,rfl,kept,_⟩ := worked.spawned
  intro j other present elsewhere
  change (w.spawned.set i after)[j]? = some other at present
  rw [List.getElem?_set] at present
  split at present
  · rename_i same
    subst same
    split at present
    · cases Option.some.inj present
      exact kept (older i task found elsewhere)
    · simp at present
  · exact older j other present elsewhere

theorem asked (worked : Worked w next) (asked : Asked w) : Asked next := by
  obtain ⟨i,task,after,found,rfl,_,kept⟩ := worked.spawned
  intro other member running
  rcases List.mem_or_eq_of_mem_set member with old | rfl
  · exact asked other old running
  · obtain ⟨before,same⟩ := kept running
    rw [same]
    exact asked task (List.mem_of_getElem? found) before

theorem invocations (worked : Worked w next) (asked : Asked w) : next.invocations = w.invocations := by
  cases worked with
  | work i ending next stepped => exact BackgroundWarmup.step_invocations stepped asked
  | called i task after found called =>
    obtain ⟨_,_,rfl⟩ := Task.callback_cases called
    exact countP_set_same w.spawned Task.entered found rfl

end Worked

theorem exec_closing {w : BackgroundWarmup} (statement : WarmupStatement) (closing : w.closing = true) :
    (statement.exec w).1.closing = true := by
  cases statement <;> first | exact closing | rfl

theorem exec_invocations (w : BackgroundWarmup) (statement : WarmupStatement) : (statement.exec w).1.invocations = w.invocations := by
  cases statement with
  | cancelTask => exact countP_of_map (w.spawned_map_cancelTask Task.entered Task.cancel_entered)
  | createTask => simp [exec,BackgroundWarmup.createTask,BackgroundWarmup.invocations]
  | _ => rfl

theorem exec_over (w : BackgroundWarmup) (statement : WarmupStatement) (other : statement ≠ .createTask) :
    (statement.exec w).1.current.any (·.outcome ≠ some .cancelled) = w.current.any (·.outcome ≠ some .cancelled) := by
  cases statement with
  | cancelTask =>
    simp only [exec,BackgroundWarmup.current]
    cases place : w.task with
    | none => simp
    | some i =>
      simp only [place,Option.bind_some,BackgroundWarmup.cancelTask_getElem?,if_true]
      cases w.spawned[i]? <;> simp
  | createTask => exact absurd rfl other
  | _ => rfl

end WarmupStatement
end YPriceMagic.Runtime
