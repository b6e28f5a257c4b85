import YPriceMagic.Runtime.SlotConservation

/-! Admission against the slots. The semaphore counts a slot as taken from the moment it is
granted, and `queued` counts a waiter until it has resumed, so the test of `run` is exact as
long as nobody in the deque has been granted a slot or cancelled. -/
namespace YPriceMagic.Runtime.LookupSupervisor
open YPriceMagic.Async

variable {Env ε α : Type} {s : LookupSupervisor Env ε α} {hooks : Hooks Env}

/-- A `run()` made now raises `OverloadedError` at once. -/
def Rejects (hooks : Hooks Env) (s : LookupSupervisor Env ε α) : Prop :=
  ∃ call, (s.call hooks).calls[s.calls.length]? = some call ∧ call.stage = .ended .overloaded

/-- The requests that wait for a slot. -/
def waiting (s : LookupSupervisor Env ε α) : Nat := s.slots.waiters.countP fun waiter => waiter.2 == .pending

/-- The lookups that own a slot, and the requests that have one granted or wait for it. -/
def outstanding (s : LookupSupervisor Env ε α) : Nat :=
  s.tasks.card + s.slots.waiters.countP fun waiter => waiter.2 != .cancelled

/-- Nobody in the deque was granted a slot or cancelled and has not run since. -/
def Quiet (s : LookupSupervisor Env ε α) : Prop := ∀ waiter ∈ s.slots.waiters, waiter.2 = .pending

theorem rejects_iff (hooks : Hooks Env) (opened : s.closing = false) :
    s.Rejects hooks ↔ s.slots.locked = true ∧ s.queued ≥ s.maxQueued := by
  obtain ⟨begun,same,ways⟩ := s.call_calls hooks
  have here : (s.call hooks).calls[s.calls.length]? = some begun := by rw [same,List.getElem?_concat_length]
  have outcome : s.Rejects hooks ↔ begun.stage = .ended .overloaded := by simp [Rejects,here]
  rw [outcome]
  rcases ways with ⟨refused,rfl⟩ | ⟨_,free,rfl⟩ | ⟨_,room,rfl⟩
  · exact ⟨fun _ => refused.resolve_left (by simp [opened]),fun _ => rfl⟩
  · simp [free]
  · refine ⟨fun ended => ?_,fun full => absurd full.2 (by omega)⟩
    cases ended

/-- Every place of the deque is pending, granted or cancelled. -/
theorem waiters_split (s : LookupSupervisor Env ε α) :
    s.slots.waiters.length = s.waiting + s.slots.granted +
      s.slots.waiters.countP (fun waiter => waiter.2 == .cancelled) ∧
    s.outstanding = s.tasks.card + s.waiting + s.slots.granted := by
  simp only [waiting,outstanding,Semaphore.granted]
  induction s.slots.waiters with
  | nil => exact ⟨rfl,rfl⟩
  | cons waiter rest ih =>
    obtain ⟨id,grant⟩ := waiter
    cases grant <;> simp <;> omega

theorem quiet_iff (s : LookupSupervisor Env ε α) : s.Quiet ↔ s.waiting = s.slots.waiters.length := by
  simp [Quiet,waiting,List.countP_eq_length]

theorem admission_exact_iff (hooks : Hooks Env) (active maxQueued : Nat) (env : Env) (actions : List (Action ε α))
    (s : LookupSupervisor Env ε α) (reached : run (step hooks) (init active maxQueued env) actions = some s)
    (opened : s.closing = false) :
    ((s.Rejects hooks → s.tasks.card = active ∧ s.waiting = maxQueued) ↔
      s.slots.locked = false ∨ s.queued < maxQueued ∨ s.Quiet) ∧
    ((s.Rejects hooks → active+maxQueued ≤ s.outstanding) ↔
      s.slots.locked = false ∨ s.queued < maxQueued ∨ s.Quiet) := by
  have balanced := run_balanced hooks active maxQueued env actions reached
  have limit := run_maxQueued hooks active maxQueued env actions reached
  have slots := balanced.slots
  have queue := balanced.queue
  have bounded := balanced.bounded
  have nonneg := balanced.nonneg
  obtain ⟨split,counted⟩ := s.waiters_split
  rw [rejects_iff hooks opened,quiet_iff,limit]
  simp only [Semaphore.available] at slots
  cases locked : s.slots.locked with
  | false => simp
  | true =>
    have taken := s.slots.locked_value locked balanced.served
    simp only [true_and,Bool.true_eq_false,false_or]
    constructor <;> constructor <;> intro known
    all_goals omega

/-- The queue of a busy supervisor, with nobody granted or cancelled. -/
theorem admission_exact_full :
    ∃ s : LookupSupervisor Unit Unit Unit, run (step ⟨none,none⟩) (init 1 1 ()) [.call,.call] = some s ∧
      (s.Rejects ⟨none,none⟩ → s.tasks.card = 1 ∧ s.waiting = 1) := by
  refine ⟨_,rfl,(admission_exact_iff ⟨none,none⟩ 1 1 () [.call,.call] _ rfl rfl).1.mpr (Or.inr (Or.inr ?_))⟩
  unfold Quiet
  decide

/-- Between a done callback and the waiter it granted, and after a cancellation of the only
waiter, a request is rejected by a supervisor that could take it. -/
theorem rejected_with_room :
    (∃ s : LookupSupervisor Unit Unit Unit, run (step ⟨none,none⟩) (init 1 1 ())
        [.call,.workStep 0 (some (.returned ())),.call,.finished 0] = some s ∧
      s.closing = false ∧ s.Rejects ⟨none,none⟩ ∧ s.tasks.card = 0 ∧ s.outstanding = 1) ∧
    (∃ s : LookupSupervisor Unit Unit Unit, run (step ⟨none,none⟩) (init 1 1 ())
        [.call,.workStep 0 none,.call,.cancelCaller 1] = some s ∧
      s.closing = false ∧ s.Rejects ⟨none,none⟩ ∧ s.waiting = 0 ∧ s.outstanding = 1) :=
  ⟨⟨_,rfl,rfl,⟨_,rfl,rfl⟩,rfl,rfl⟩,⟨_,rfl,rfl,⟨_,rfl,rfl⟩,rfl,rfl⟩⟩

end YPriceMagic.Runtime.LookupSupervisor
