import Mathlib.Data.List.Nodup
import YPriceMagic.Async.Lock

/-! Who waits for an `asyncio.Lock`. While nobody has the lock, the waiter at the front has been
woken or has been cancelled, so somebody is about to take it or to wake the next one. -/
namespace YPriceMagic.Async.Lock

def names (s : Lock) : List Nat := s.waiters.map (·.1)

def Wakeful (s : Lock) : Prop := s.locked = false → ∀ id rest, s.waiters ≠ (id,.pending)::rest

/-- A lock that is taken by its owner, with waiters of different names. -/
structure Manned (s : Lock) (owner : Option Nat) : Prop where
  owned : s.Owned owner
  taken : s.locked = true → owner.isSome = true
  wakeful : s.Wakeful
  distinct : s.names.Nodup

variable {s next : Lock} {owner : Option Nat} {id : Nat}

theorem manned_free : Manned {} none :=
  ⟨⟨orderly_free,fun has => by cases has⟩,fun taken => (by cases taken),fun _ _ _ => (by simp),List.nodup_nil⟩

theorem wakeUpFirst_names (s : Lock) : s.wakeUpFirst.names = s.names := by
  unfold wakeUpFirst
  split
  · rename_i front
    simp [names,front]
  · rfl

theorem wakeUpFirst_wakeful (s : Lock) : s.wakeUpFirst.Wakeful := by
  intro _ id rest asleep
  unfold wakeUpFirst at asleep
  split at asleep
  · simp at asleep
  · rename_i awake
    exact awake id rest asleep

theorem remove_names (distinct : s.names.Nodup) (id : Nat) : (s.remove id).names = s.names.erase id := by
  obtain ⟨locked,waiters⟩ := s
  simp only [names,remove] at distinct ⊢
  induction waiters with
  | nil => rfl
  | cons waiter rest ih =>
    obtain ⟨absent,others⟩ := List.nodup_cons.mp distinct
    by_cases here : waiter.1 = id
    · simp [here]
    · simp [here,ih others]

theorem resumeCancelled_names (distinct : s.names.Nodup) (id : Nat) : (s.resumeCancelled id).names = s.names.erase id := by
  unfold resumeCancelled
  dsimp only
  split
  · exact remove_names distinct id
  · rw [wakeUpFirst_names,remove_names distinct]

theorem cancelWaiter_names (s : Lock) (id : Nat) : (s.cancelWaiter id).names = s.names := by
  unfold names cancelWaiter
  rw [List.map_map]
  refine List.map_congr_left fun waiter _ => ?_
  simp only [Function.comp_apply]
  split
  · rename_i mine
    simp only [Bool.and_eq_true,beq_iff_eq] at mine
    exact mine.1.symm
  · rfl

theorem release_names (released : s.release = some next) : next.names = s.names := by
  unfold release at released
  split at released
  · rw [← Option.some.inj released,wakeUpFirst_names]
    rfl
  · cases released

theorem status_of_name (member : id ∈ s.names) : ∃ grant, s.status id = some grant := by
  obtain ⟨waiter,present,same⟩ := List.mem_map.mp member
  have found : (s.waiters.find? fun waiter => waiter.1 == id).isSome = true :=
    List.find?_isSome.mpr ⟨waiter,present,by simp [same]⟩
  obtain ⟨first,here⟩ := Option.isSome_iff_exists.mp found
  exact ⟨first.2,by rw [status,here]; rfl⟩

theorem name_of_status {grant : Grant} (found : s.status id = some grant) : id ∈ s.names := by
  obtain ⟨waiter,here,_⟩ := Option.map_eq_some_iff.mp found
  have named : waiter.1 = id := by simpa using List.find?_some here
  exact List.mem_map.mpr ⟨waiter,List.mem_of_find?_eq_some here,named⟩

theorem status_front {grant : Grant} {rest : List (Nat × Grant)} (front : s.waiters = (id,grant)::rest) : s.status id = some grant := by
  simp [status,front]

section
variable (manned : s.Manned owner)
include manned

theorem Manned.tryAcquire (acquired : s.tryAcquire = some next) (id : Nat) : owner = none ∧ next.Manned (some id) := by
  obtain ⟨none,owned⟩ := tryAcquire_owned manned.owned acquired id
  obtain ⟨_,_,rfl⟩ := tryAcquire_some acquired
  exact ⟨none,owned,fun _ => rfl,fun free => (by cases free),manned.distinct⟩

theorem Manned.enqueue (refused : s.tryAcquire = none) (fresh : id ∉ s.names) : (s.enqueue id).Manned owner := by
  refine ⟨enqueue_owned manned.owned id,manned.taken,fun free other rest front => ?_,?_⟩
  · have free : s.locked = false := free
    unfold Lock.enqueue at front
    cases waiters : s.waiters with
    | nil => simp [Lock.tryAcquire,free,waiters] at refused
    | cons first others =>
      rw [waiters] at front
      exact manned.wakeful free other others (by rw [waiters,(List.cons.inj front).1])
  · have joined : (s.enqueue id).names = s.names++[id] := by simp [names,Lock.enqueue]
    rw [joined]
    exact List.Nodup.append manned.distinct (List.nodup_singleton id) (by simpa using fresh)

theorem Manned.resumeGranted (granted : s.status id = some .granted) : owner = none ∧ (s.resumeGranted id).Manned (some id) := by
  obtain ⟨none,owned⟩ := resumeGranted_owned manned.owned granted
  have names : (s.resumeGranted id).names = s.names.erase id := remove_names manned.distinct id
  refine ⟨none,owned,fun _ => rfl,fun free => (by cases free),?_⟩
  rw [names]
  exact manned.distinct.erase id

theorem Manned.cancelWaiter (id : Nat) : (s.cancelWaiter id).Manned owner := by
  refine ⟨cancelWaiter_owned manned.owned id,manned.taken,fun free other rest front => ?_,?_⟩
  · unfold Lock.cancelWaiter at front
    obtain ⟨old,others,waiters,same,_⟩ := List.map_eq_cons_iff.mp front
    have kept : old = (other,.pending) := by
      split at same
      · cases same
      · exact same
    exact manned.wakeful free other others (by rw [waiters,kept])
  · rw [cancelWaiter_names]
    exact manned.distinct

theorem Manned.resumeCancelled (id : Nat) : (s.resumeCancelled id).Manned owner := by
  refine ⟨resumeCancelled_owned manned.owned id,fun taken => ?_,fun free => ?_,?_⟩
  · rw [resumeCancelled_locked] at taken
    exact manned.taken taken
  · rw [resumeCancelled_locked] at free
    have woken : s.resumeCancelled id = (s.remove id).wakeUpFirst := by
      unfold Lock.resumeCancelled
      simp [free]
    rw [woken]
    exact wakeUpFirst_wakeful (s.remove id) (by simp [free])
  · rw [resumeCancelled_names manned.distinct]
    exact manned.distinct.erase id

theorem Manned.release (released : s.release = some next) : next.Manned none := by
  have names := release_names released
  have freed := (release_some manned.owned.orderly released).2.1
  refine ⟨release_owned manned.owned released,fun taken => ?_,?_,names ▸ manned.distinct⟩
  · rw [freed] at taken
    cases taken
  · unfold Lock.release at released
    split at released
    · rw [← Option.some.inj released]
      exact wakeUpFirst_wakeful _
    · cases released

end

end YPriceMagic.Async.Lock
