import YPriceMagic.Async.Semaphore

/-! `asyncio.Lock`: a flag and the deque of waiter futures. As for the semaphore, a
coroutine suspended in `acquire` is represented by its future, and `acquire` is split
where it suspends. -/
namespace YPriceMagic.Async

structure Lock where
  locked : Bool := false
  waiters : List (Nat × Grant) := []
  deriving DecidableEq, Repr

namespace Lock

/-- Only the future at the front is looked at, and left alone when it is done. -/
def wakeUpFirst (s : Lock) : Lock :=
  match s.waiters with
  | (id,.pending)::rest => {s with waiters := (id,.granted)::rest}
  | _ => s

/-- The part of `acquire` before its suspension: `none` when it has to wait. -/
def tryAcquire (s : Lock) : Option Lock :=
  if !s.locked && s.waiters.all (fun waiter => waiter.2 == .cancelled) then some {s with locked := true} else none

def enqueue (s : Lock) (id : Nat) : Lock := {s with waiters := s.waiters++[(id,.pending)]}

def status (s : Lock) (id : Nat) : Option Grant :=
  (s.waiters.find? (fun waiter => waiter.1 == id)).map (·.2)

def cancelWaiter (s : Lock) (id : Nat) : Lock :=
  {s with waiters := s.waiters.map fun waiter =>
    if waiter.1 == id && waiter.2 == .pending then (id,.cancelled) else waiter}

def remove (s : Lock) (id : Nat) : Lock :=
  {s with waiters := s.waiters.eraseP (fun waiter => waiter.1 == id)}

def resumeGranted (s : Lock) (id : Nat) : Lock := {s.remove id with locked := true}

/-- `acquire` resumed by `CancelledError`: when nobody has the lock, the next one is woken. -/
def resumeCancelled (s : Lock) (id : Nat) : Lock :=
  let s := s.remove id
  if s.locked then s else s.wakeUpFirst

/-- A `RuntimeError` on a lock that is free. -/
def release (s : Lock) : Option Lock :=
  if s.locked then some (wakeUpFirst {s with locked := false}) else none

/-- Nobody is granted a lock that is taken, and only the waiter at the front ever is. -/
structure Orderly (s : Lock) : Prop where
  taken : s.locked = true → ∀ waiter ∈ s.waiters, waiter.2 ≠ .granted
  behind : ∀ waiter ∈ s.waiters.tail, waiter.2 ≠ .granted

theorem orderly_free : Orderly {} := by
  refine ⟨fun _ waiter member => ?_,fun waiter member => ?_⟩ <;> cases member

variable {s next : Lock} {id : Nat}

@[simp] theorem wakeUpFirst_locked (s : Lock) : s.wakeUpFirst.locked = s.locked := by
  unfold wakeUpFirst
  split <;> rfl

@[simp] theorem remove_locked (s : Lock) (id : Nat) : (s.remove id).locked = s.locked := rfl

@[simp] theorem resumeCancelled_locked (s : Lock) (id : Nat) : (s.resumeCancelled id).locked = s.locked := by
  unfold resumeCancelled
  dsimp only
  split <;> simp

theorem wakeUpFirst_orderly (free : s.locked = false) (orderly : s.Orderly) : s.wakeUpFirst.Orderly := by
  refine ⟨fun taken => ?_,?_⟩
  · rw [wakeUpFirst_locked,free] at taken
    cases taken
  · unfold wakeUpFirst
    split
    · rename_i front
      have behind := orderly.behind
      rw [front] at behind
      exact behind
    · exact orderly.behind

theorem tryAcquire_some (acquired : s.tryAcquire = some next) :
    s.locked = false ∧ (∀ waiter ∈ s.waiters, waiter.2 = .cancelled) ∧ next = {s with locked := true} := by
  unfold tryAcquire at acquired
  split at acquired
  · rename_i free
    simp only [Bool.and_eq_true,Bool.not_eq_true',List.all_eq_true,beq_iff_eq] at free
    exact ⟨free.1,free.2,(Option.some.inj acquired).symm⟩
  · cases acquired

theorem tryAcquire_orderly (acquired : s.tryAcquire = some next) : next.Orderly := by
  obtain ⟨_,gone,rfl⟩ := tryAcquire_some acquired
  refine ⟨fun _ waiter member granted => ?_,fun waiter member granted => ?_⟩
  · simp [gone waiter member] at granted
  · simp [gone waiter (List.mem_of_mem_tail member)] at granted

theorem enqueue_orderly (orderly : s.Orderly) (id : Nat) : (s.enqueue id).Orderly := by
  refine ⟨fun taken waiter member => ?_,fun waiter member => ?_⟩
  · rcases List.mem_append.mp member with old | new
    · exact orderly.taken taken waiter old
    · simp [List.mem_singleton.mp new]
  · have either : waiter ∈ s.waiters.tail ∨ waiter = (id,.pending) := by
      unfold enqueue at member
      cases waiters : s.waiters with
      | nil => simp [waiters] at member
      | cons front rest => simpa [waiters] using member
    rcases either with old | rfl
    · exact orderly.behind waiter old
    · simp

theorem cancelWaiter_orderly (orderly : s.Orderly) (id : Nat) : (s.cancelWaiter id).Orderly := by
  have kept : ∀ waiters : List (Nat × Grant), (∀ waiter ∈ waiters, waiter.2 ≠ .granted) →
      ∀ waiter ∈ waiters.map (fun waiter => if waiter.1 == id && waiter.2 == .pending then (id,.cancelled) else waiter),
        waiter.2 ≠ .granted := by
    intro waiters none waiter member
    obtain ⟨old,present,rfl⟩ := List.mem_map.mp member
    split
    · simp
    · exact none old present
  refine ⟨fun taken => kept _ (orderly.taken taken),?_⟩
  unfold cancelWaiter
  rw [← List.map_tail]
  exact kept _ orderly.behind

theorem remove_orderly (orderly : s.Orderly) (id : Nat) : (s.remove id).Orderly := by
  refine ⟨fun taken waiter member => orderly.taken taken waiter (List.mem_of_mem_eraseP member),?_⟩
  have behind := orderly.behind
  unfold remove
  cases waiters : s.waiters with
  | nil => simp
  | cons front rest =>
    rw [waiters] at behind
    intro waiter member
    rw [List.eraseP_cons] at member
    by_cases here : front.1 == id
    · simp only [here,cond_true] at member
      exact behind waiter (List.mem_of_mem_tail member)
    · simp only [here,cond_false] at member
      exact behind waiter (List.mem_of_mem_eraseP member)

/-- The waiter that was granted is the one at the front, so nobody else is. -/
theorem remove_granted (orderly : s.Orderly) (granted : s.status id = some .granted) :
    ∀ waiter ∈ (s.remove id).waiters, waiter.2 ≠ .granted := by
  have behind := orderly.behind
  unfold status at granted
  unfold remove
  cases waiters : s.waiters with
  | nil => simp
  | cons front rest =>
    rw [waiters] at behind granted
    rw [List.find?_cons] at granted
    rw [List.eraseP_cons]
    split at granted
    · rename_i here
      simpa [here] using behind
    · obtain ⟨waiter,found,same⟩ := Option.map_eq_some_iff.mp granted
      exact absurd same (behind waiter (List.mem_of_find?_eq_some found))

theorem resumeGranted_orderly (orderly : s.Orderly) (granted : s.status id = some .granted) :
    (s.resumeGranted id).Orderly :=
  ⟨fun _ => remove_granted orderly granted,(remove_orderly orderly id).behind⟩

theorem granted_free (orderly : s.Orderly) (granted : s.status id = some .granted) : s.locked = false := by
  obtain ⟨waiter,found,same⟩ := Option.map_eq_some_iff.mp granted
  cases taken : s.locked with
  | false => rfl
  | true => exact absurd same (orderly.taken taken waiter (List.mem_of_find?_eq_some found))

theorem resumeCancelled_orderly (orderly : s.Orderly) (id : Nat) : (s.resumeCancelled id).Orderly := by
  have removed := remove_orderly orderly id
  unfold resumeCancelled
  dsimp only
  split
  · exact removed
  · rename_i free
    exact wakeUpFirst_orderly (by simpa using free) removed

theorem release_some (orderly : s.Orderly) (released : s.release = some next) :
    s.locked = true ∧ next.locked = false ∧ next.Orderly := by
  unfold release at released
  split at released
  · rename_i taken
    cases Option.some.inj released
    exact ⟨taken,wakeUpFirst_locked _,wakeUpFirst_orderly rfl ⟨fun _ => orderly.taken taken,orderly.behind⟩⟩
  · cases released

/-- A lock whose owner, if it has one, took it and has not released it since. -/
structure Owned (s : Lock) (owner : Option Nat) : Prop where
  orderly : s.Orderly
  taken : owner.isSome = true → s.locked = true

section
variable {owner : Option Nat}

theorem Owned.free (owned : s.Owned owner) (free : s.locked = false) : owner = none := by
  cases owner with
  | none => rfl
  | some id => simp [owned.taken rfl] at free

theorem tryAcquire_owned (owned : s.Owned owner) (acquired : s.tryAcquire = some next) (id : Nat) :
    owner = none ∧ next.Owned (some id) := by
  obtain ⟨free,_,rfl⟩ := tryAcquire_some acquired
  exact ⟨owned.free free,tryAcquire_orderly acquired,fun _ => rfl⟩

theorem resumeGranted_owned (owned : s.Owned owner) (granted : s.status id = some .granted) :
    owner = none ∧ (s.resumeGranted id).Owned (some id) :=
  ⟨owned.free (granted_free owned.orderly granted),resumeGranted_orderly owned.orderly granted,fun _ => rfl⟩

theorem enqueue_owned (owned : s.Owned owner) (id : Nat) : (s.enqueue id).Owned owner :=
  ⟨enqueue_orderly owned.orderly id,owned.taken⟩

theorem cancelWaiter_owned (owned : s.Owned owner) (id : Nat) : (s.cancelWaiter id).Owned owner :=
  ⟨cancelWaiter_orderly owned.orderly id,owned.taken⟩

theorem resumeCancelled_owned (owned : s.Owned owner) (id : Nat) : (s.resumeCancelled id).Owned owner :=
  ⟨resumeCancelled_orderly owned.orderly id,fun has => by rw [resumeCancelled_locked]; exact owned.taken has⟩

theorem release_owned (owned : s.Owned owner) (released : s.release = some next) : next.Owned none :=
  ⟨(release_some owned.orderly released).2.2,fun has => by cases has⟩

end

end Lock

end YPriceMagic.Async
