import Mathlib.Data.List.Basic
import Mathlib.Algebra.Order.Group.Int

/-! `asyncio.Semaphore`. The internal counter and the deque of waiter futures are
explicit; a coroutine suspended in `acquire` is represented by its future, and
`acquire` is split where it suspends. -/
namespace YPriceMagic.Async

inductive Grant
  | pending
  | granted
  | cancelled
  deriving DecidableEq, Repr

structure Semaphore where
  value : Int
  waiters : List (Nat × Grant)
  deriving DecidableEq, Repr

namespace Semaphore

def locked (s : Semaphore) : Bool :=
  s.value == 0 || s.waiters.any (fun waiter => waiter.2 != .cancelled)

/-- Hands the slot to the first future that is not done. -/
def grantFirst : List (Nat × Grant) → Option (List (Nat × Grant))
  | [] => none
  | (id,.pending)::rest => some ((id,.granted)::rest)
  | waiter::rest => (grantFirst rest).map (waiter :: ·)

def wakeUpNext (s : Semaphore) : Semaphore :=
  match grantFirst s.waiters with
  | some waiters => ⟨s.value-1,waiters⟩
  | none => s

def release (s : Semaphore) : Semaphore := wakeUpNext {s with value := s.value+1}

/-- The part of `acquire` before its suspension: `none` when it has to wait. -/
def tryAcquire (s : Semaphore) : Option Semaphore :=
  if s.locked then none else some {s with value := s.value-1}

def enqueue (s : Semaphore) (id : Nat) : Semaphore :=
  {s with waiters := s.waiters ++ [(id,.pending)]}

def status (s : Semaphore) (id : Nat) : Option Grant :=
  (s.waiters.find? (fun waiter => waiter.1 == id)).map (·.2)

/-- `Future.cancel` on the future of a waiter: a future that is done stays as it is. -/
def cancelWaiter (s : Semaphore) (id : Nat) : Semaphore :=
  {s with waiters := s.waiters.map fun waiter =>
    if waiter.1 == id && waiter.2 == .pending then (id,.cancelled) else waiter}

def remove (s : Semaphore) (id : Nat) : Semaphore :=
  {s with waiters := s.waiters.eraseP (fun waiter => waiter.1 == id)}

def resumeGranted (s : Semaphore) (id : Nat) : Semaphore :=
  let s := s.remove id
  if 0 < s.value then s.wakeUpNext else s

/-- `acquire` resumed by `CancelledError`: a slot that was granted is given back. -/
def resumeCancelled (s : Semaphore) (id : Nat) : Semaphore :=
  let given := s.status id == some .granted
  let s := s.remove id
  if given then s.release else s

def granted (s : Semaphore) : Nat := s.waiters.countP (fun waiter => waiter.2 == .granted)

def available (s : Semaphore) : Int := s.value + s.granted

def Served (s : Semaphore) : Prop :=
  ∀ waiter ∈ s.waiters, waiter.2 = .pending → s.value = 0 ∨ 0 < s.granted

variable (s : Semaphore) (id : Nat)

theorem granted_le_length : s.granted ≤ s.waiters.length := List.countP_le_length

theorem grantFirst_some {waiters granted : List (Nat × Grant)} (found : grantFirst waiters = some granted) :
    granted.length = waiters.length ∧
      granted.countP (fun waiter => waiter.2 == .granted) =
        waiters.countP (fun waiter => waiter.2 == .granted) + 1 := by
  induction waiters generalizing granted with
  | nil => simp [grantFirst] at found
  | cons waiter rest ih =>
    rcases waiter with ⟨id,grant⟩
    cases grant with
    | pending =>
      cases Option.some.inj found
      simp
    | granted =>
      obtain ⟨tail,moved,rfl⟩ := Option.map_eq_some_iff.mp found
      obtain ⟨size,count⟩ := ih moved
      simp [size,count]
    | cancelled =>
      obtain ⟨tail,moved,rfl⟩ := Option.map_eq_some_iff.mp found
      obtain ⟨size,count⟩ := ih moved
      simp [size,count]

theorem grantFirst_none {waiters : List (Nat × Grant)} (absent : grantFirst waiters = none) :
    ∀ waiter ∈ waiters, waiter.2 ≠ .pending := by
  induction waiters with
  | nil => simp
  | cons waiter rest ih =>
    rcases waiter with ⟨id,grant⟩
    cases grant with
    | pending => simp [grantFirst] at absent
    | granted => simpa using ih (Option.map_eq_none_iff.mp absent)
    | cancelled => simpa using ih (Option.map_eq_none_iff.mp absent)

theorem wakeUpNext_cases :
    (∃ waiters, grantFirst s.waiters = some waiters ∧ s.wakeUpNext = ⟨s.value-1,waiters⟩) ∨
    (grantFirst s.waiters = none ∧ s.wakeUpNext = s) := by
  unfold wakeUpNext
  cases found : grantFirst s.waiters with
  | some waiters => exact Or.inl ⟨waiters,rfl,rfl⟩
  | none => exact Or.inr ⟨rfl,rfl⟩

@[simp] theorem wakeUpNext_available : s.wakeUpNext.available = s.available := by
  rcases s.wakeUpNext_cases with ⟨waiters,found,woken⟩ | ⟨_,woken⟩
  · have counted := (grantFirst_some found).2
    rw [woken]
    simp only [available,granted,counted]
    omega
  · rw [woken]

@[simp] theorem wakeUpNext_length : s.wakeUpNext.waiters.length = s.waiters.length := by
  rcases s.wakeUpNext_cases with ⟨waiters,found,woken⟩ | ⟨_,woken⟩
  · rw [woken]
    exact (grantFirst_some found).1
  · rw [woken]

theorem wakeUpNext_nonneg (positive : 0 < s.value) : 0 ≤ s.wakeUpNext.value := by
  rcases s.wakeUpNext_cases with ⟨waiters,_,woken⟩ | ⟨_,woken⟩ <;> rw [woken]
  · change 0 ≤ s.value-1
    omega
  · omega

/-- Whatever is offered to the deque is either granted or finds nobody pending. -/
theorem wakeUpNext_served : s.wakeUpNext.Served := by
  rcases s.wakeUpNext_cases with ⟨waiters,found,woken⟩ | ⟨absent,woken⟩ <;> rw [woken]
  · intro waiter _ _
    right
    have counted := (grantFirst_some found).2
    simp only [granted,counted]
    omega
  · intro waiter member pending
    exact absurd pending (grantFirst_none absent waiter member)

@[simp] theorem release_available : s.release.available = s.available + 1 := by
  simp only [release,wakeUpNext_available]
  simp only [available,granted]
  omega

@[simp] theorem release_length : s.release.waiters.length = s.waiters.length := by simp [release]

theorem release_nonneg (nonneg : 0 ≤ s.value) : 0 ≤ s.release.value :=
  wakeUpNext_nonneg _ (by change 0 < s.value+1; omega)

theorem release_served : s.release.Served := wakeUpNext_served _

theorem tryAcquire_some {taken : Semaphore} (acquired : s.tryAcquire = some taken) :
    s.locked = false ∧ taken = {s with value := s.value-1} := by
  unfold tryAcquire at acquired
  split at acquired
  · simp at acquired
  · rename_i free
    exact ⟨by simpa using free,(Option.some.inj acquired).symm⟩

theorem tryAcquire_none (refused : s.tryAcquire = none) : s.locked = true := by
  unfold tryAcquire at refused
  split at refused
  · assumption
  · simp at refused

theorem unlocked_value (free : s.locked = false) : s.value ≠ 0 := by
  simp only [locked,Bool.or_eq_false_iff,beq_eq_false_iff_ne] at free
  exact free.1

theorem unlocked_pending (free : s.locked = false) : ∀ waiter ∈ s.waiters, waiter.2 ≠ .pending := by
  simp only [locked,Bool.or_eq_false_iff,List.any_eq_false] at free
  intro waiter member pending
  exact free.2 waiter member (by simp [pending])

theorem locked_value (busy : s.locked = true) (served : s.Served) : s.value = 0 ∨ 0 < s.granted := by
  simp only [locked,Bool.or_eq_true,beq_iff_eq,List.any_eq_true,bne_iff_ne] at busy
  rcases busy with zero | ⟨waiter,member,live⟩
  · exact Or.inl zero
  · cases grant : waiter.2 with
    | pending => exact served waiter member grant
    | granted => exact Or.inr (List.countP_pos_iff.mpr ⟨waiter,member,by simp [grant]⟩)
    | cancelled => exact absurd grant live

theorem enqueue_served (busy : s.locked = true) (served : s.Served) : (s.enqueue id).Served := by
  intro waiter _ _
  have taken := s.locked_value busy served
  simpa [enqueue,granted] using taken

@[simp] theorem enqueue_available : (s.enqueue id).available = s.available := by
  simp [enqueue,available,granted]

@[simp] theorem enqueue_length : (s.enqueue id).waiters.length = s.waiters.length + 1 := by
  simp [enqueue]

@[simp] theorem cancelWaiter_value : (s.cancelWaiter id).value = s.value := rfl

@[simp] theorem cancelWaiter_length : (s.cancelWaiter id).waiters.length = s.waiters.length := by
  simp [cancelWaiter]

@[simp] theorem cancelWaiter_granted : (s.cancelWaiter id).granted = s.granted := by
  simp only [cancelWaiter,granted,List.countP_map]
  apply List.countP_congr
  intro waiter _
  rcases waiter with ⟨other,grant⟩
  cases grant <;> by_cases same : other = id <;> simp [same]

theorem cancelWaiter_served (served : s.Served) : (s.cancelWaiter id).Served := by
  intro waiter member pending
  obtain ⟨old,present,rfl⟩ := List.mem_map.mp member
  rw [cancelWaiter_granted,cancelWaiter_value]
  refine served old present ?_
  split at pending
  · simp at pending
  · exact pending

theorem remove_counts {grant : Grant} (waiting : s.status id = some grant) :
    (s.remove id).waiters.length + 1 = s.waiters.length ∧
      (s.remove id).granted + (if grant = .granted then 1 else 0) = s.granted := by
  obtain ⟨value,waiters⟩ := s
  simp only [status,remove,granted] at waiting ⊢
  induction waiters with
  | nil => simp at waiting
  | cons waiter rest ih =>
    by_cases here : waiter.1 == id
    · simp only [List.find?_cons,here,Option.map_some,Option.some.injEq] at waiting
      subst waiting
      simp [here,List.countP_cons]
    · simp only [List.find?_cons,here] at waiting
      obtain ⟨size,count⟩ := ih waiting
      simp only [List.eraseP_cons,here,cond_false,List.length_cons,List.countP_cons]
      constructor <;> omega

@[simp] theorem remove_value : (s.remove id).value = s.value := rfl

theorem resumeGranted_counts (waiting : s.status id = some .granted) :
    (s.resumeGranted id).waiters.length + 1 = s.waiters.length ∧
      (s.resumeGranted id).available + 1 = s.available := by
  obtain ⟨size,count⟩ := s.remove_counts id waiting
  have left : (s.remove id).available + 1 = s.available := by
    simp only [if_true] at count
    simp only [available,remove_value]
    omega
  unfold resumeGranted
  dsimp only
  split <;> simp [size,left]

theorem resumeGranted_nonneg (nonneg : 0 ≤ s.value) : 0 ≤ (s.resumeGranted id).value := by
  unfold resumeGranted
  dsimp only
  split
  · exact wakeUpNext_nonneg _ (by assumption)
  · exact nonneg

theorem resumeGranted_served (nonneg : 0 ≤ s.value) : (s.resumeGranted id).Served := by
  unfold resumeGranted
  dsimp only
  split
  · exact wakeUpNext_served _
  · rename_i spent
    intro _ _ _
    left
    rw [remove_value] at spent ⊢
    omega

theorem resumeCancelled_counts {grant : Grant} (waiting : s.status id = some grant) :
    (s.resumeCancelled id).waiters.length + 1 = s.waiters.length ∧
      (s.resumeCancelled id).available = s.available := by
  obtain ⟨size,count⟩ := s.remove_counts id waiting
  unfold resumeCancelled
  cases grant with
  | granted =>
    have given : (s.remove id).available + 1 = s.available := by
      simp only [if_true] at count
      simp only [available,remove_value]
      omega
    simp [waiting,size,given]
  | pending | cancelled =>
    have kept : (s.remove id).available = s.available := by
      simp only [reduceCtorEq,if_false] at count
      simp only [available,remove_value]
      omega
    simp [waiting,size,kept]

theorem resumeCancelled_nonneg (nonneg : 0 ≤ s.value) : 0 ≤ (s.resumeCancelled id).value := by
  unfold resumeCancelled
  dsimp only
  split
  · exact release_nonneg _ nonneg
  · exact nonneg

theorem resumeCancelled_served {grant : Grant} (waiting : s.status id = some grant)
    (served : s.Served) : (s.resumeCancelled id).Served := by
  unfold resumeCancelled
  dsimp only
  split
  · exact release_served _
  · -- the waiter that leaves was not granted, so every remaining one is served as before
    rename_i other
    intro waiter member pending
    have count := (s.remove_counts id waiting).2
    have ungranted : grant ≠ .granted := by
      rintro rfl
      simp [waiting] at other
    rw [if_neg ungranted] at count
    have before := served waiter (List.mem_of_mem_eraseP member) pending
    rw [remove_value]
    omega

section
variable {s : Semaphore} {id other : Nat}

theorem grantFirst_cancelled {waiters granted : List (Nat × Grant)} (found : grantFirst waiters = some granted)
    (gone : (other,.cancelled) ∈ granted) : (other,.cancelled) ∈ waiters := by
  induction waiters generalizing granted with
  | nil => simp [grantFirst] at found
  | cons waiter rest ih =>
    obtain ⟨id,grant⟩ := waiter
    cases grant with
    | pending =>
      cases Option.some.inj found
      simpa using gone
    | granted =>
      obtain ⟨tail,moved,rfl⟩ := Option.map_eq_some_iff.mp found
      exact List.mem_cons_of_mem _ (ih moved (by simpa using gone))
    | cancelled =>
      obtain ⟨tail,moved,rfl⟩ := Option.map_eq_some_iff.mp found
      rcases List.mem_cons.mp gone with here | later
      · exact here ▸ List.mem_cons_self
      · exact List.mem_cons_of_mem _ (ih moved later)

theorem wakeUpNext_cancelled (gone : (other,.cancelled) ∈ s.wakeUpNext.waiters) : (other,.cancelled) ∈ s.waiters := by
  rcases s.wakeUpNext_cases with ⟨waiters,found,woken⟩ | ⟨_,woken⟩ <;> rw [woken] at gone
  · exact grantFirst_cancelled found gone
  · exact gone

theorem release_cancelled (gone : (other,.cancelled) ∈ s.release.waiters) : (other,.cancelled) ∈ s.waiters :=
  wakeUpNext_cancelled (s := {s with value := s.value+1}) gone

theorem remove_cancelled (gone : (other,.cancelled) ∈ (s.remove id).waiters) : (other,.cancelled) ∈ s.waiters :=
  List.mem_of_mem_eraseP gone

theorem resumeGranted_cancelled (gone : (other,.cancelled) ∈ (s.resumeGranted id).waiters) :
    (other,.cancelled) ∈ s.waiters := by
  unfold resumeGranted at gone
  dsimp only at gone
  split at gone
  · exact remove_cancelled (wakeUpNext_cancelled gone)
  · exact remove_cancelled gone

theorem resumeCancelled_cancelled (gone : (other,.cancelled) ∈ (s.resumeCancelled id).waiters) :
    (other,.cancelled) ∈ s.waiters := by
  unfold resumeCancelled at gone
  dsimp only at gone
  split at gone
  · exact remove_cancelled (release_cancelled gone)
  · exact remove_cancelled gone

theorem enqueue_cancelled (gone : (other,.cancelled) ∈ (s.enqueue id).waiters) : (other,.cancelled) ∈ s.waiters := by
  simpa [enqueue] using gone

theorem cancelWaiter_cancelled (gone : (other,.cancelled) ∈ (s.cancelWaiter id).waiters) :
    other = id ∨ (other,.cancelled) ∈ s.waiters := by
  obtain ⟨waiter,member,same⟩ := List.mem_map.mp gone
  split at same
  · exact Or.inl (Prod.mk.inj same).1.symm
  · exact Or.inr (same ▸ member)

theorem status_cancelled (gone : s.status id = some .cancelled) : (id,.cancelled) ∈ s.waiters := by
  obtain ⟨waiter,found,same⟩ := Option.map_eq_some_iff.mp gone
  have here : waiter.1 = id := by simpa using List.find?_some found
  have member := List.mem_of_find?_eq_some found
  rwa [← here,← same]

end

end Semaphore

end YPriceMagic.Async
