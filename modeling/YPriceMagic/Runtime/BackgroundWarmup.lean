import YPriceMagic.Async.Entries
import YPriceMagic.Async.Run
import YPriceMagic.Async.Task

/-! `BackgroundWarmup`: optional initialization that yields to foreground lookups.
Every task that was ever created stays visible, because the done callback of an
older one may still arrive after it was replaced. -/
namespace YPriceMagic.Runtime
open YPriceMagic.Async

/-- `spawned` holds the tasks in creation order, `task` the place of `self.task`. -/
structure BackgroundWarmup where
  task : Option Nat
  paused : Bool
  closing : Bool
  completed : Bool
  spawned : List (Task Unit Unit)
  deriving DecidableEq, Repr

namespace BackgroundWarmup

def init : BackgroundWarmup := ⟨none,true,false,false,[]⟩

def current (w : BackgroundWarmup) : Option (Task Unit Unit) := w.task.bind (w.spawned[·]?)

def cancelTask (w : BackgroundWarmup) : List (Task Unit Unit) :=
  match w.task with
  | some i => w.spawned.modify i Task.cancel
  | none => w.spawned

def pause (w : BackgroundWarmup) : BackgroundWarmup :=
  {w with paused := true,spawned := w.cancelTask}

def createTask (w : BackgroundWarmup) : BackgroundWarmup :=
  {w with task := some w.spawned.length,spawned := w.spawned ++ [{}]}

def resume (w : BackgroundWarmup) : BackgroundWarmup :=
  let w := {w with paused := false}
  match w.current with
  | none => if w.closing || w.completed then w else w.createTask
  | some task =>
    if w.closing || w.completed || !task.done then w
    else if task.completed then {w with completed := true}
    else w.createTask

/-- `_finished`, the done callback of a task that may be an older one. -/
def finished (w : BackgroundWarmup) (task : Task Unit Unit) : BackgroundWarmup :=
  if task.completed then {w with completed := true}
  else if !w.paused then w.resume
  else w

def cancel (w : BackgroundWarmup) : BackgroundWarmup := {w with closing := true}.pause

/-- `close()` starts with `cancel` and then only waits, so it has no action of its own. -/
inductive Action
  | pause
  | resume
  | cancel
  | workStep (i : Nat) (ending : Option (Outcome Unit Unit))
  | finished (i : Nat)
  deriving DecidableEq, Repr

def step (w : BackgroundWarmup) : Action → Option BackgroundWarmup
  | .pause => some w.pause
  | .resume => some w.resume
  | .cancel => some w.cancel
  | .workStep i ending => do
    let task ← w.spawned[i]?
    let task ← task.step ending
    some {w with spawned := w.spawned.set i task}
  | .finished i => do
    let task ← w.spawned[i]?
    let task ← task.callback
    some ({w with spawned := w.spawned.set i task}.finished task)

def inProgress (w : BackgroundWarmup) : Nat := w.spawned.countP (·.inProgress)

def invocations (w : BackgroundWarmup) : Nat := w.spawned.countP (·.entered)

def Sealed (w : BackgroundWarmup) : Prop := w.closing = true ∨ ∃ task ∈ w.spawned, task.completed = true

/-- Only the current task may be unfinished: it is replaced when it ended cancelled. -/
structure Inv (w : BackgroundWarmup) : Prop where
  bound : ∀ i, w.task = some i → i < w.spawned.length
  older : ∀ i task, w.spawned[i]? = some task → w.task ≠ some i → task.outcome = some .cancelled
  yielding : w.paused = true ∨ w.closing = true →
    ∀ task ∈ w.spawned, task.done = false → task.cancelRequested = true
  waiting : ∀ task ∈ w.spawned, task.done = false → task.calledBack = false

def Live (w : BackgroundWarmup) : Prop :=
  w.paused = false → w.closing = false → w.completed = false →
    ∃ task, w.current = some task ∧ (task.done = false ∨ task.calledBack = false)

theorem init_inv : init.Inv := ⟨by simp [init],by simp [init],by simp [init],by simp [init]⟩

theorem init_live : init.Live := by simp [Live,init]

theorem done_cancelled (task : Task Unit Unit) (ended : task.done = true) (unfinished : task.completed = false) :
    task.outcome = some .cancelled := by
  cases outcome : task.outcome with
  | none => simp [Task.done,outcome] at ended
  | some ending => cases ending <;> simp_all [Task.completed,Outcome.isCancelled]

theorem done_of_completed {task : Task Unit Unit} (completed : task.completed = true) : task.done = true := by
  cases outcome : task.outcome <;> simp_all [Task.completed,Task.done]

theorem resume_cases (w : BackgroundWarmup) :
    (w.resume = {w with paused := false} ∧ (w.closing = true ∨ w.completed = true ∨
      ∃ task, w.current = some task ∧ task.done = false)) ∨
    (w.resume = {w with paused := false,completed := true}) ∨
    (w.resume = {w with paused := false}.createTask ∧ w.closing = false ∧
      (w.current = none ∨ ∃ task, w.current = some task ∧ task.outcome = some .cancelled)) := by
  have same : ({w with paused := false} : BackgroundWarmup).current = w.current := rfl
  unfold resume
  dsimp only
  rw [same]
  cases current : w.current with
  | none =>
    dsimp only
    split
    · rename_i stopped
      simp only [Bool.or_eq_true] at stopped
      exact Or.inl ⟨rfl,stopped.imp_right Or.inl⟩
    · rename_i free
      simp only [Bool.or_eq_true,not_or,Bool.not_eq_true] at free
      exact Or.inr (Or.inr ⟨rfl,free.1,Or.inl rfl⟩)
  | some task =>
    dsimp only
    split
    · rename_i stopped
      simp only [Bool.or_eq_true,Bool.not_eq_true',or_assoc] at stopped
      exact Or.inl ⟨rfl,stopped.imp_right (Or.imp_right (⟨task,rfl,·⟩))⟩
    · rename_i free
      simp only [Bool.or_eq_true,Bool.not_eq_true',not_or,Bool.not_eq_true,Bool.not_eq_false] at free
      split
      · exact Or.inr (Or.inl rfl)
      · rename_i unfinished
        exact Or.inr (Or.inr ⟨rfl,free.1.1,Or.inr ⟨task,rfl,
          done_cancelled task free.2 (by simpa using unfinished)⟩⟩)

theorem mem_current {w : BackgroundWarmup} {task : Task Unit Unit} (current : w.current = some task) :
    ∃ i, w.task = some i ∧ w.spawned[i]? = some task := Option.bind_eq_some_iff.mp current

theorem Inv.unfinished_current {w : BackgroundWarmup} (inv : w.Inv) {i : Nat} {task : Task Unit Unit}
    (found : w.spawned[i]? = some task) (unfinished : task.done = false) : w.task = some i := by
  by_contra other
  simp [Task.done,inv.older i task found other] at unfinished

theorem Inv.createTask {w : BackgroundWarmup} (inv : w.Inv) (open_ : w.closing = false)
    (free : w.current = none ∨ ∃ task, w.current = some task ∧ task.outcome = some .cancelled) :
    ({w with paused := false} : BackgroundWarmup).createTask.Inv := by
  refine ⟨?_,?_,?_,?_⟩
  · intro i here
    have last : w.spawned.length = i := Option.some.inj here
    simp [BackgroundWarmup.createTask,← last]
  · intro i task found other
    simp only [BackgroundWarmup.createTask,List.getElem?_append] at found other
    split at found
    · by_cases replaced : w.task = some i
      · rcases free with absent | ⟨old,current,cancelled⟩
        · simp [current,replaced] at absent
          omega
        · obtain ⟨j,here,oldFound⟩ := mem_current current
          have same : j = i := Option.some.inj (here.symm.trans replaced)
          subst j
          rw [oldFound] at found
          cases Option.some.inj found
          exact cancelled
      · exact inv.older i task found replaced
    · have beyond : i = w.spawned.length := by
        have bound := (List.getElem?_eq_some_iff.mp found).1
        simp at bound
        omega
      exact absurd (by rw [beyond]) other
  · intro stopped
    simp [BackgroundWarmup.createTask,open_] at stopped
  · intro task member unfinished
    rcases List.mem_append.mp member with old | fresh
    · exact inv.waiting task old unfinished
    · cases List.mem_singleton.mp fresh
      rfl

theorem Inv.resume {w : BackgroundWarmup} (inv : w.Inv) : w.resume.Inv := by
  rcases w.resume_cases with ⟨resumed,_⟩ | resumed | ⟨resumed,open_,free⟩ <;> rw [resumed]
  · exact ⟨inv.bound,inv.older,fun stopped => inv.yielding (Or.inr (by simpa using stopped)),inv.waiting⟩
  · exact ⟨inv.bound,inv.older,fun stopped => inv.yielding (Or.inr (by simpa using stopped)),inv.waiting⟩
  · exact inv.createTask open_ free

theorem resume_live (w : BackgroundWarmup) : w.resume.Live := by
  intro _ opened incomplete
  rcases w.resume_cases with ⟨resumed,reason⟩ | resumed | ⟨resumed,_⟩ <;> rw [resumed] at opened incomplete ⊢
  · rcases reason with closing | completed | ⟨task,current,unfinished⟩
    · simp [closing] at opened
    · simp [completed] at incomplete
    · exact ⟨task,current,Or.inl unfinished⟩
  · simp at incomplete
  · exact ⟨{},by simp [current,createTask],Or.inl rfl⟩

theorem cancelTask_getElem? (w : BackgroundWarmup) (i : Nat) :
    w.cancelTask[i]? = if w.task = some i then w.spawned[i]?.map Task.cancel else w.spawned[i]? := by
  unfold cancelTask
  cases here : w.task with
  | none => simp
  | some current =>
    rw [List.getElem?_modify]
    by_cases same : current = i <;> simp [same]

theorem cancelTask_length (w : BackgroundWarmup) : w.cancelTask.length = w.spawned.length := by
  unfold cancelTask
  split <;> simp

theorem mem_cancelTask {w : BackgroundWarmup} {task : Task Unit Unit} (member : task ∈ w.cancelTask) :
    ∃ old ∈ w.spawned, task = old ∨ task = old.cancel := by
  obtain ⟨i,found⟩ := List.mem_iff_getElem?.mp member
  rw [cancelTask_getElem?] at found
  split at found
  · obtain ⟨old,present,rfl⟩ := Option.map_eq_some_iff.mp found
    exact ⟨old,List.mem_of_getElem? present,Or.inr rfl⟩
  · exact ⟨task,List.mem_of_getElem? found,Or.inl rfl⟩

theorem Inv.pause {w : BackgroundWarmup} (inv : w.Inv) : w.pause.Inv := by
  refine ⟨?_,?_,?_,?_⟩
  · intro i here
    rw [BackgroundWarmup.pause,cancelTask_length]
    exact inv.bound i here
  · intro i task found other
    simp only [BackgroundWarmup.pause,cancelTask_getElem?] at found other
    rw [if_neg other] at found
    exact inv.older i task found other
  · intro _ task member unfinished
    obtain ⟨i,found⟩ := List.mem_iff_getElem?.mp member
    simp only [BackgroundWarmup.pause,cancelTask_getElem?] at found
    split at found
    · obtain ⟨old,_,rfl⟩ := Option.map_eq_some_iff.mp found
      exact old.cancel_requested (by simpa using unfinished)
    · rename_i other
      exact absurd (inv.unfinished_current found unfinished) other
  · intro task member unfinished
    obtain ⟨old,present,rfl | rfl⟩ := mem_cancelTask member
    · exact inv.waiting _ present unfinished
    · simpa using inv.waiting old present (by simpa using unfinished)

theorem Inv.cancel {w : BackgroundWarmup} (inv : w.Inv) : w.cancel.Inv := by
  have paused := inv.pause
  exact ⟨paused.bound,paused.older,fun _ => paused.yielding (Or.inl rfl),paused.waiting⟩

/-- A task is replaced by a later state of itself: its ending is final, and while it
is unfinished the flags around it stay. -/
theorem Inv.set {w : BackgroundWarmup} (inv : w.Inv) {i : Nat} {task next : Task Unit Unit}
    (found : w.spawned[i]? = some task) (kept : task.done = true → next.outcome = task.outcome)
    (running : next.done = false → task.done = false ∧
      next.cancelRequested = task.cancelRequested ∧ next.calledBack = task.calledBack) :
    ({w with spawned := w.spawned.set i next} : BackgroundWarmup).Inv := by
  have inside := (List.getElem?_eq_some_iff.mp found).1
  refine ⟨?_,?_,?_,?_⟩
  · intro j here
    simpa using inv.bound j here
  · intro j other present elsewhere
    simp only [List.getElem?_set] at present elsewhere
    split at present
    · rename_i same
      subst same
      simp only [Option.some.injEq] at present
      subst present
      have cancelled := inv.older i task found elsewhere
      rw [kept (by simp [Task.done,cancelled]),cancelled]
    · exact inv.older j other present elsewhere
  · intro stopped other member unfinished
    rcases List.mem_or_eq_of_mem_set member with old | rfl
    · exact inv.yielding stopped other old unfinished
    · obtain ⟨before,requested,_⟩ := running unfinished
      rw [requested]
      exact inv.yielding stopped task (List.mem_of_getElem? found) before
  · intro other member unfinished
    rcases List.mem_or_eq_of_mem_set member with old | rfl
    · exact inv.waiting other old unfinished
    · obtain ⟨before,_,called⟩ := running unfinished
      rw [called]
      exact inv.waiting task (List.mem_of_getElem? found) before

theorem Inv.finished {w : BackgroundWarmup} (inv : w.Inv) (task : Task Unit Unit) : (w.finished task).Inv := by
  unfold BackgroundWarmup.finished
  split
  · exact ⟨inv.bound,inv.older,inv.yielding,inv.waiting⟩
  · split
    · exact inv.resume
    · exact inv

theorem workStep_some {w next : BackgroundWarmup} {i : Nat} {ending : Option (Outcome Unit Unit)}
    (stepped : w.step (.workStep i ending) = some next) :
    ∃ task after, w.spawned[i]? = some task ∧ task.step ending = some after ∧
      next = {w with spawned := w.spawned.set i after} := by
  obtain ⟨task,found,stepped⟩ := Option.bind_eq_some_iff.mp stepped
  obtain ⟨after,worked,stepped⟩ := Option.bind_eq_some_iff.mp stepped
  exact ⟨task,after,found,worked,(Option.some.inj stepped).symm⟩

theorem finished_some {w next : BackgroundWarmup} {i : Nat} (stepped : w.step (.finished i) = some next) :
    ∃ task, w.spawned[i]? = some task ∧ task.done = true ∧ task.calledBack = false ∧
      next = {w with spawned := w.spawned.set i {task with calledBack := true}}.finished
        {task with calledBack := true} := by
  obtain ⟨task,found,stepped⟩ := Option.bind_eq_some_iff.mp stepped
  obtain ⟨after,called,stepped⟩ := Option.bind_eq_some_iff.mp stepped
  obtain ⟨ended,waiting,rfl⟩ := Task.callback_cases called
  exact ⟨task,found,ended,waiting,(Option.some.inj stepped).symm⟩

theorem Inv.callback {w : BackgroundWarmup} (inv : w.Inv) {i : Nat} {task : Task Unit Unit}
    (found : w.spawned[i]? = some task) (ended : task.done = true) :
    ({w with spawned := w.spawned.set i {task with calledBack := true}} : BackgroundWarmup).Inv :=
  inv.set found (fun _ => rfl) fun running => absurd running (by simpa only [Task.done,Bool.not_eq_false] using ended)

theorem step_inv (w : BackgroundWarmup) (action : Action) (next : BackgroundWarmup) (inv : w.Inv)
    (stepped : w.step action = some next) : next.Inv := by
  cases action with
  | pause =>
    cases Option.some.inj stepped
    exact inv.pause
  | resume =>
    cases Option.some.inj stepped
    exact inv.resume
  | cancel =>
    cases Option.some.inj stepped
    exact inv.cancel
  | workStep i ending =>
    obtain ⟨task,after,found,worked,rfl⟩ := workStep_some stepped
    obtain ⟨unfinished,ways⟩ := Task.step_cases worked
    refine inv.set found (by simp [unfinished]) fun _ => ⟨unfinished,?_⟩
    rcases ways with ⟨_,_,rfl⟩ | ⟨_,rfl⟩ <;> exact ⟨rfl,rfl⟩
  | finished i =>
    obtain ⟨task,found,ended,_,rfl⟩ := finished_some stepped
    exact (inv.callback found ended).finished _

theorem step_live (w : BackgroundWarmup) (action : Action) (next : BackgroundWarmup) (inv : w.Inv)
    (stepped : w.step action = some next) : next.Live := by
  cases action with
  | pause =>
    cases Option.some.inj stepped
    intro unpaused
    simp [pause] at unpaused
  | resume =>
    cases Option.some.inj stepped
    exact w.resume_live
  | cancel =>
    cases Option.some.inj stepped
    intro unpaused
    simp [cancel,pause] at unpaused
  | workStep i ending =>
    obtain ⟨task,after,found,worked,rfl⟩ := workStep_some stepped
    have unfinished := (Task.step_cases worked).1
    have waiting := inv.waiting task (List.mem_of_getElem? found) unfinished
    have here := inv.unfinished_current found unfinished
    intro _ _ _
    refine ⟨after,?_,Or.inr ((Task.step_calledBack worked).trans waiting)⟩
    simp [current,here,(List.getElem?_eq_some_iff.mp found).1]
  | finished i =>
    obtain ⟨task,_,_,_,rfl⟩ := finished_some stepped
    unfold finished
    split
    · intro _ _ incomplete
      simp at incomplete
    · split
      · exact resume_live _
      · rename_i stopped
        intro unpaused
        change w.paused = false at unpaused
        simp [unpaused] at stopped

theorem spawned_map_cancelTask {β : Type} (w : BackgroundWarmup) (f : Task Unit Unit → β)
    (same : ∀ task, f task.cancel = f task) : w.cancelTask.map f = w.spawned.map f := by
  apply List.ext_getElem?
  intro i
  rw [List.getElem?_map,List.getElem?_map,cancelTask_getElem?]
  split
  · cases w.spawned[i]? <;> simp [same]
  · rfl

theorem resume_invocations (w : BackgroundWarmup) : w.resume.invocations = w.invocations := by
  rcases w.resume_cases with ⟨resumed,_⟩ | resumed | ⟨resumed,_⟩ <;> rw [resumed]
  · rfl
  · rfl
  · simp [invocations,createTask]

theorem pause_invocations (w : BackgroundWarmup) : w.pause.invocations = w.invocations :=
  countP_of_map (w.spawned_map_cancelTask Task.entered Task.cancel_entered)

theorem finished_invocations (w : BackgroundWarmup) (task : Task Unit Unit) :
    (w.finished task).invocations = w.invocations := by
  unfold finished
  split
  · rfl
  · split
    · exact w.resume_invocations
    · rfl

theorem step_invocations {w next : BackgroundWarmup} {action : Action} (stepped : w.step action = some next)
    (requested : ∀ task ∈ w.spawned, task.done = false → task.cancelRequested = true) :
    next.invocations = w.invocations := by
  cases action with
  | pause =>
    cases Option.some.inj stepped
    exact w.pause_invocations
  | resume =>
    cases Option.some.inj stepped
    exact w.resume_invocations
  | cancel =>
    cases Option.some.inj stepped
    exact w.pause_invocations
  | workStep i ending =>
    obtain ⟨task,after,found,worked,rfl⟩ := workStep_some stepped
    obtain ⟨unfinished,ways⟩ := Task.step_cases worked
    have early := requested task (List.mem_of_getElem? found) unfinished
    rcases ways with ⟨_,_,rfl⟩ | ⟨entered | allowed,rfl⟩
    · exact countP_set_same w.spawned Task.entered found rfl
    · exact countP_set_same w.spawned Task.entered found entered.symm
    · simp [early] at allowed
  | finished i =>
    obtain ⟨task,found,_,_,rfl⟩ := finished_some stepped
    rw [finished_invocations]
    exact countP_set_same w.spawned Task.entered found rfl

theorem Inv.sealed_requested {w : BackgroundWarmup} (inv : w.Inv) (shut : w.Sealed) :
    ∀ task ∈ w.spawned, task.done = false → task.cancelRequested = true := by
  rcases shut with closing | ⟨ended,member,completed⟩
  · exact inv.yielding (Or.inr closing)
  · intro task present unfinished
    obtain ⟨i,found⟩ := List.mem_iff_getElem?.mp member
    obtain ⟨j,other⟩ := List.mem_iff_getElem?.mp present
    have here := inv.unfinished_current other unfinished
    by_cases same : w.task = some i
    · cases Option.some.inj (here.symm.trans same)
      cases Option.some.inj (found.symm.trans other)
      simp [done_of_completed completed] at unfinished
    · simp [Task.completed,inv.older i ended found same,Outcome.isCancelled] at completed

theorem resume_spawned (w : BackgroundWarmup) :
    w.resume.spawned = w.spawned ∨ w.resume.spawned = w.spawned ++ [({} : Task Unit Unit)] := by
  rcases w.resume_cases with ⟨resumed,_⟩ | resumed | ⟨resumed,_⟩ <;> rw [resumed]
  · exact Or.inl rfl
  · exact Or.inl rfl
  · exact Or.inr rfl

theorem finished_spawned (w : BackgroundWarmup) (task : Task Unit Unit) :
    (w.finished task).spawned = w.spawned ∨ (w.finished task).spawned = w.spawned++[({} : Task Unit Unit)] := by
  unfold BackgroundWarmup.finished
  split
  · exact Or.inl rfl
  · split
    · exact w.resume_spawned
    · exact Or.inl rfl

/-- A task that was asked to cancel stays asked. -/
theorem step_requested {w next : BackgroundWarmup} {action : Action} (stepped : w.step action = some next) {i : Nat}
    {task : Task Unit Unit} (found : w.spawned[i]? = some task) :
    ∃ later, next.spawned[i]? = some later ∧ (task.cancelRequested = true → later.cancelRequested = true) := by
  have grown {items : List (Task Unit Unit)} {current : Task Unit Unit} (here : items[i]? = some current)
      (larger : next.spawned = items ∨ next.spawned = items++[({} : Task Unit Unit)])
      (asked : task.cancelRequested = true → current.cancelRequested = true) :
      ∃ later, next.spawned[i]? = some later ∧ (task.cancelRequested = true → later.cancelRequested = true) := by
    refine ⟨current,?_,asked⟩
    rcases larger with same | appended
    · rw [same,here]
    · rw [appended,List.getElem?_append_left (List.getElem?_eq_some_iff.mp here).1,here]
  have replaced {j : Nat} {old : Task Unit Unit} (new : Task Unit Unit) (before : w.spawned[j]? = some old)
      (asked : new.cancelRequested = old.cancelRequested) :
      ∃ current, (w.spawned.set j new)[i]? = some current ∧ (task.cancelRequested = true → current.cancelRequested = true) := by
    by_cases same : j = i
    · subst same
      cases Option.some.inj (found.symm.trans before)
      exact ⟨new,by simp [(List.getElem?_eq_some_iff.mp found).1],fun requested => asked.trans requested⟩
    · exact ⟨task,by rw [List.getElem?_set_ne same,found],id⟩
  cases action with
  | pause | cancel =>
    cases Option.some.inj stepped
    have here := w.cancelTask_getElem? i
    rw [found] at here
    split at here
    · exact ⟨task.cancel,here,task.cancel_still_requested⟩
    · exact ⟨task,here,id⟩
  | resume =>
    cases Option.some.inj stepped
    exact grown found w.resume_spawned id
  | workStep j ending =>
    obtain ⟨old,after,before,worked,rfl⟩ := workStep_some stepped
    refine replaced after before ?_
    rcases (Task.step_cases worked).2 with ⟨_,_,rfl⟩ | ⟨_,rfl⟩ <;> rfl
  | finished j =>
    obtain ⟨old,before,_,_,rfl⟩ := finished_some stepped
    obtain ⟨current,here,asked⟩ := replaced {old with calledBack := true} before rfl
    exact grown here (finished_spawned _ _) asked

theorem resume_keeps (w : BackgroundWarmup) : ∀ task ∈ w.spawned, task ∈ w.resume.spawned := by
  intro task member
  rcases w.resume_spawned with same | grown
  · rw [same]
    exact member
  · rw [grown]
    exact List.mem_append_left _ member

theorem finished_keeps (w : BackgroundWarmup) (ended : Task Unit Unit) :
    ∀ task ∈ w.spawned, task ∈ (w.finished ended).spawned := by
  intro task member
  unfold finished
  split
  · exact member
  · split
    · exact w.resume_keeps task member
    · exact member

theorem set_keeps_completed {w : BackgroundWarmup} {i : Nat} {task next ended : Task Unit Unit}
    (found : w.spawned[i]? = some task) (kept : task.completed = true → next.completed = true)
    (member : ended ∈ w.spawned) (completed : ended.completed = true) :
    ∃ later ∈ w.spawned.set i next, later.completed = true := by
  obtain ⟨j,present⟩ := List.mem_iff_getElem?.mp member
  have inside := (List.getElem?_eq_some_iff.mp found).1
  by_cases same : i = j
  · subst same
    cases Option.some.inj (found.symm.trans present)
    exact ⟨next,List.mem_set inside next,kept completed⟩
  · exact ⟨ended,List.mem_of_getElem? (by rwa [List.getElem?_set_ne same]),completed⟩

theorem resume_closing (w : BackgroundWarmup) : w.resume.closing = w.closing := by
  rcases w.resume_cases with ⟨resumed,_⟩ | resumed | ⟨resumed,_⟩ <;> rw [resumed]
  rfl

theorem finished_closing (w : BackgroundWarmup) (task : Task Unit Unit) :
    (w.finished task).closing = w.closing := by
  unfold finished
  split
  · rfl
  · split
    · exact w.resume_closing
    · rfl

theorem step_closing {w next : BackgroundWarmup} {action : Action} (stepped : w.step action = some next)
    (closing : w.closing = true) : next.closing = true := by
  cases action with
  | pause | cancel =>
    cases Option.some.inj stepped
    first | exact closing | rfl
  | resume =>
    cases Option.some.inj stepped
    exact w.resume_closing.trans closing
  | workStep i ending =>
    obtain ⟨_,_,_,_,rfl⟩ := workStep_some stepped
    exact closing
  | finished i =>
    obtain ⟨_,_,_,_,rfl⟩ := finished_some stepped
    rw [finished_closing]
    exact closing

theorem step_sealed (w : BackgroundWarmup) (action : Action) (next : BackgroundWarmup) (shut : w.Sealed)
    (stepped : w.step action = some next) : next.Sealed := by
  rcases shut with closing | ⟨ended,member,completed⟩
  · exact Or.inl (step_closing stepped closing)
  · right
    cases action with
    | pause | cancel =>
      cases Option.some.inj stepped
      obtain ⟨i,found⟩ := List.mem_iff_getElem?.mp member
      have here := w.cancelTask_getElem? i
      rw [found] at here
      split at here
      · exact ⟨ended.cancel,List.mem_of_getElem? here,by simpa using completed⟩
      · exact ⟨ended,List.mem_of_getElem? here,completed⟩
    | resume =>
      cases Option.some.inj stepped
      exact ⟨ended,w.resume_keeps ended member,completed⟩
    | workStep i ending =>
      obtain ⟨task,after,found,worked,rfl⟩ := workStep_some stepped
      have unfinished := (Task.step_cases worked).1
      exact set_keeps_completed found (fun complete => by simp [done_of_completed complete] at unfinished)
        member completed
    | finished i =>
      obtain ⟨task,found,_,_,rfl⟩ := finished_some stepped
      have kept : ∃ later ∈ w.spawned.set i {task with calledBack := true}, later.completed = true :=
        set_keeps_completed found (fun complete => complete) member completed
      obtain ⟨later,present,still⟩ := kept
      exact ⟨later,finished_keeps _ _ later present,still⟩

theorem Inv.inProgress_le_one {w : BackgroundWarmup} (inv : w.Inv) : w.inProgress ≤ 1 := by
  refine countP_le_one w.spawned Task.inProgress fun i j first second left right busy also => ?_
  simp only [Task.inProgress,Bool.and_eq_true,Bool.not_eq_true'] at busy also
  have here := inv.unfinished_current left busy.2
  have there := inv.unfinished_current right also.2
  exact Option.some.inj (here.symm.trans there)

theorem run_inv {actions : List Action} {w : BackgroundWarmup} (reached : run step init actions = some w) :
    w.Inv ∧ w.Live :=
  run_preserves (fun w => w.Inv ∧ w.Live)
    (fun before action after held stepped =>
      ⟨step_inv before action after held.1 stepped,step_live before action after held.1 stepped⟩)
    ⟨init_inv,init_live⟩ reached

theorem run_sealed {actions : List Action} {w later : BackgroundWarmup} (inv : w.Inv) (shut : w.Sealed)
    (ran : run step w actions = some later) : later.invocations = w.invocations :=
  (run_preserves (fun state => state.Inv ∧ state.Sealed ∧ state.invocations = w.invocations)
    (fun before action after held stepped =>
      ⟨step_inv before action after held.1 stepped,step_sealed before action after held.2.1 stepped,
        (step_invocations stepped (held.1.sealed_requested held.2.1)).trans held.2.2⟩)
    ⟨inv,shut,rfl⟩ ran).2.2

theorem cancel_closes {actions : List Action} {w : BackgroundWarmup} (reached : run step init actions = some w)
    (cancelled : .cancel ∈ actions) : w.closing = true := by
  obtain ⟨earlier,later,rfl⟩ := List.append_of_mem cancelled
  obtain ⟨middle,_,remaining⟩ := run_append_some reached
  obtain ⟨closed,stepped,remaining⟩ := run_cons_some remaining
  cases Option.some.inj stepped
  exact run_preserves (fun state => state.closing = true)
    (fun before action after held stepped => step_closing stepped held) rfl remaining

/-- In every schedule of `pause`, `resume`, `cancel`, steps of the warm-up tasks and their
done callbacks, at most one invocation of `work` is in progress; once an invocation ended
without being cancelled, or `cancel` was called, no later schedule starts another one; and a
warm-up that is not paused, closing or completed has a task that is not over yet. -/
theorem schedule_single_live (actions : List Action) (w : BackgroundWarmup)
    (reached : run step init actions = some w) :
    w.inProgress ≤ 1 ∧
    (.cancel ∈ actions ∨ (∃ task ∈ w.spawned, task.completed = true) →
      ∀ later next, run step w later = some next → next.invocations = w.invocations) ∧
    (w.paused = false → w.closing = false → w.completed = false →
      ∃ task, w.current = some task ∧ (task.done = false ∨ task.calledBack = false)) := by
  obtain ⟨inv,live⟩ := run_inv reached
  refine ⟨inv.inProgress_le_one,fun shut later next ran => ?_,live⟩
  have closed : w.Sealed := shut.imp_left (cancel_closes reached)
  exact run_sealed inv closed ran

/-- A paused invocation with slow cleanup is resumed twice and replaced once. -/
theorem schedule_single_live_slow_cleanup :
    ∃ w, run step init [.resume,.workStep 0 none,.pause,.resume,.resume,
        .workStep 0 (some .cancelled),.finished 0,.workStep 1 none] = some w ∧
      w.inProgress ≤ 1 ∧ ∃ task, w.current = some task ∧ (task.done = false ∨ task.calledBack = false) := by
  refine ⟨_,rfl,?_⟩
  have held := schedule_single_live [.resume,.workStep 0 none,.pause,.resume,.resume,
    .workStep 0 (some .cancelled),.finished 0,.workStep 1 none] _ rfl
  exact ⟨held.1,held.2.2 rfl rfl rfl⟩

end BackgroundWarmup

end YPriceMagic.Runtime
