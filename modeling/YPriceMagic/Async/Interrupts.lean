import YPriceMagic.Async.Run

/-! A thread that runs statement by statement and a handler that may take over between any two of
them. The event loop hands the thread a job only when nothing is left to do of the one before. -/
namespace YPriceMagic.Async

/-- `pending` is what is left to do, the calls of the statement that is under way first. -/
structure Thread (Store Statement : Type) where
  store : Store
  pending : List Statement

namespace Thread

variable {Store Statement Job : Type}

inductive Action (Job : Type)
  | advance
  | interrupt
  | job (job : Job)

/-- `exec` runs a statement and says what is to be done before the next one. -/
def advance (exec : Statement → Store → Store × List Statement) (t : Thread Store Statement) : Option (Thread Store Statement) :=
  match t.pending with
  | [] => none
  | statement::rest => some ⟨(exec statement t.store).1,(exec statement t.store).2++rest⟩

def begin (accept : Job → Store → Option (Store × List Statement)) (t : Thread Store Statement) (job : Job) :
    Option (Thread Store Statement) :=
  match t.pending with
  | [] => (accept job t.store).map fun accepted => ⟨accepted.1,accepted.2⟩
  | _ => none

section
variable (exec : Statement → Store → Store × List Statement) (handler : List Statement)
  (accept : Job → Store → Option (Store × List Statement))

def step (t : Thread Store Statement) : Action Job → Option (Thread Store Statement)
  | .advance => t.advance exec
  | .interrupt => some {t with pending := handler++t.pending}
  | .job job => t.begin accept job

/-- What the statements do when nothing interrupts them. -/
inductive Completes : List Statement → Store → Store → Prop
  | done (store : Store) : Completes [] store store
  | next (statement : Statement) (rest : List Statement) (store final : Store)
      (completes : Completes ((exec statement store).2++rest) (exec statement store).1 final) : Completes (statement::rest) store final

end

section
variable {exec : Statement → Store → Store × List Statement} {handler : List Statement}
  {accept : Job → Store → Option (Store × List Statement)} {t next : Thread Store Statement}

theorem advance_some (advanced : t.advance exec = some next) : ∃ statement rest, t.pending = statement::rest ∧
    next = ⟨(exec statement t.store).1,(exec statement t.store).2++rest⟩ := by
  unfold advance at advanced
  cases pending : t.pending with
  | nil => simp [pending] at advanced
  | cons statement rest =>
    rw [pending] at advanced
    exact ⟨statement,rest,rfl,(Option.some.inj advanced).symm⟩

theorem begin_some {job : Job} (begun : t.begin accept job = some next) :
    t.pending = [] ∧ accept job t.store = some (next.store,next.pending) := by
  unfold begin at begun
  cases pending : t.pending with
  | nil =>
    rw [pending] at begun
    obtain ⟨accepted,here,rfl⟩ := Option.map_eq_some_iff.mp begun
    exact ⟨rfl,here⟩
  | cons statement rest => simp [pending] at begun

theorem Completes.append {first second : List Statement} {store middle final : Store} (before : Completes exec first store middle)
    (after : Completes exec second middle final) : Completes exec (first++second) store final := by
  induction before with
  | done => exact after
  | next statement rest store final _ ih =>
    have later := ih after
    rw [List.append_assoc] at later
    exact .next statement _ store _ later

/-- An undisturbed thread gets to the end of what it has to do. -/
theorem Completes.runs {pending : List Statement} {store final : Store} (completes : Completes exec pending store final)
    (rest : List Statement) : ∃ actions, (∀ action ∈ actions, action = .advance) ∧
      run (step exec handler accept) ⟨store,pending++rest⟩ actions = some ⟨final,rest⟩ := by
  induction completes with
  | done => exact ⟨[],by simp,rfl⟩
  | next statement others store final _ ih =>
    obtain ⟨actions,only,ran⟩ := ih
    refine ⟨.advance::actions,by simpa using only,?_⟩
    rw [List.append_assoc] at ran
    rw [run_cons]
    exact ran

/-- The handler takes over only at points of one kind. -/
def Spared (spared : Store → List Statement → Prop) (t : Thread Store Statement) : Action Job → Prop
  | .interrupt => spared t.store t.pending
  | _ => True

instance {spared : Store → List Statement → Prop} [∀ store pending, Decidable (spared store pending)] :
    (t : Thread Store Statement) → (action : Action Job) → Decidable (Spared spared t action)
  | t, .interrupt => inferInstanceAs (Decidable (spared t.store t.pending))
  | _, .advance | _, .job _ => inferInstanceAs (Decidable True)

/-- What holds at the start is kept by statements, by jobs and by the handler where it takes over. -/
theorem run_invariant {spared : Store → List Statement → Prop} (invariant : Store → List Statement → Prop)
    (advances : ∀ store statement rest, invariant store (statement::rest) →
      invariant (exec statement store).1 ((exec statement store).2++rest))
    (interrupts : ∀ store pending, spared store pending → invariant store pending → invariant store (handler++pending))
    (begins : ∀ store job after pending, invariant store [] → accept job store = some (after,pending) → invariant after pending)
    {actions : List (Action Job)} {start final : Thread Store Statement} (holds : invariant start.store start.pending)
    (meets : Throughout (step exec handler accept) (Spared spared) start actions)
    (ran : run (step exec handler accept) start actions = some final) : invariant final.store final.pending := by
  refine run_preserves_throughout (fun t => invariant t.store t.pending) (Spared spared) (fun before action after held met stepped => ?_) holds meets ran
  cases action with
  | advance =>
    obtain ⟨statement,rest,pending,rfl⟩ := advance_some stepped
    exact advances _ statement rest (by rw [← pending]; exact held)
  | interrupt =>
    cases Option.some.inj stepped
    exact interrupts _ _ met held
  | job job =>
    obtain ⟨pending,accepted⟩ := begin_some stepped
    exact begins _ job _ _ (by rw [← pending]; exact held) accepted

end
end Thread
end YPriceMagic.Async
