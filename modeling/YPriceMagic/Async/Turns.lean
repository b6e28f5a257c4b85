import Mathlib.Data.List.Nodup
import YPriceMagic.Async.Semaphore

/-! Who waits for whom at a semaphore. Waiters are granted in the order of their names, so
one that is pending is only ever behind the pending ones before it. -/
namespace YPriceMagic.Async.Semaphore

def Before (first second : Nat × Grant) : Prop := first.1 < second.1 ∧ (first.2 = .pending → second.2 ≠ .granted)

/-- The deque is in the order of the names, and no grant has passed a waiter by. -/
def Fair (s : Semaphore) : Prop := s.waiters.Pairwise Before

def Waits (s : Semaphore) (id : Nat) : Prop := (id,Grant.pending) ∈ s.waiters

def isAhead (id : Nat) (waiter : Nat × Grant) : Bool := decide (waiter.1 < id) && waiter.2 == .pending

def ahead (s : Semaphore) (id : Nat) : Nat := s.waiters.countP (isAhead id)

section
variable {waiters granted : List (Nat × Grant)} {id : Nat}

theorem grantFirst_names (found : grantFirst waiters = some granted) : granted.map (·.1) = waiters.map (·.1) := by
  induction waiters generalizing granted with
  | nil => simp [grantFirst] at found
  | cons waiter rest ih =>
    obtain ⟨name,grant⟩ := waiter
    cases grant with
    | pending =>
      cases Option.some.inj found
      rfl
    | granted | cancelled =>
      obtain ⟨tail,moved,rfl⟩ := Option.map_eq_some_iff.mp found
      exact congrArg (name :: ·) (ih moved)

theorem grantFirst_fair (fair : waiters.Pairwise Before) (found : grantFirst waiters = some granted) :
    granted.Pairwise Before := by
  have behind {name : Nat} {grant : Grant} {rest tail : List (Nat × Grant)} (ungranted : grant ≠ .pending)
      (later : ∀ waiter ∈ rest, Before (name,grant) waiter) (moved : grantFirst rest = some tail) :
      ∀ waiter ∈ tail, Before (name,grant) waiter := by
    intro waiter member
    have named : waiter.1 ∈ rest.map (·.1) := by
      rw [← grantFirst_names moved]
      exact List.mem_map_of_mem member
    obtain ⟨old,present,same⟩ := List.mem_map.mp named
    exact ⟨same ▸ (later old present).1,fun pending => absurd pending ungranted⟩
  induction waiters generalizing granted with
  | nil => simp [grantFirst] at found
  | cons waiter rest ih =>
    obtain ⟨name,grant⟩ := waiter
    obtain ⟨later,fairRest⟩ := List.pairwise_cons.mp fair
    cases grant with
    | pending =>
      cases Option.some.inj found
      refine List.pairwise_cons.mpr ⟨fun waiter member => ⟨(later waiter member).1,?_⟩,fairRest⟩
      intro pending
      cases pending
    | granted | cancelled =>
      obtain ⟨tail,moved,rfl⟩ := Option.map_eq_some_iff.mp found
      exact List.pairwise_cons.mpr ⟨behind (by simp) later moved,ih fairRest moved⟩

/-- A grant goes to the first that is pending, so whoever still waits has come one place closer. -/
theorem grantFirst_ahead (fair : waiters.Pairwise Before) (found : grantFirst waiters = some granted)
    (waits : (id,Grant.pending) ∈ granted) :
    (id,Grant.pending) ∈ waiters ∧ granted.countP (isAhead id) + 1 = waiters.countP (isAhead id) := by
  induction waiters generalizing granted with
  | nil => simp [grantFirst] at found
  | cons waiter rest ih =>
    obtain ⟨name,grant⟩ := waiter
    obtain ⟨later,fairRest⟩ := List.pairwise_cons.mp fair
    cases grant with
    | pending =>
      cases Option.some.inj found
      have behind : (id,Grant.pending) ∈ rest := by simpa using waits
      have earlier : name < id := (later _ behind).1
      refine ⟨List.mem_cons_of_mem _ behind,?_⟩
      simp [isAhead,earlier]
    | granted | cancelled =>
      obtain ⟨tail,moved,rfl⟩ := Option.map_eq_some_iff.mp found
      have behind : (id,Grant.pending) ∈ tail := by simpa using waits
      obtain ⟨before,counted⟩ := ih fairRest moved behind
      refine ⟨List.mem_cons_of_mem _ before,?_⟩
      simpa [List.countP_cons,isAhead] using counted

end

variable {s middle next : Semaphore} {id other : Nat}

theorem Fair.comparable (fair : s.Fair) {first second : Nat × Grant} (left : first ∈ s.waiters) (right : second ∈ s.waiters) :
    first = second ∨ Before first second ∨ Before second first := by
  have itself : ∀ a ∈ s.waiters, a = a ∨ Before a a ∨ Before a a := fun _ _ => Or.inl rfl
  have forwards : s.waiters.Pairwise fun a b => a = b ∨ Before a b ∨ Before b a :=
    List.Pairwise.imp (fun before => Or.inr (Or.inl before)) fair
  have backwards : s.waiters.Pairwise (flip fun a b => a = b ∨ Before a b ∨ Before b a) :=
    List.Pairwise.imp (fun before => Or.inr (Or.inr before)) fair
  exact forwards.forall_of_forall_of_flip itself backwards left right

/-- Whoever is granted came before whoever still waits. -/
theorem Fair.passed (fair : s.Fair) (waits : s.Waits id) (granted : (other,Grant.granted) ∈ s.waiters) : other < id := by
  rcases fair.comparable waits granted with same | ⟨_,passed⟩ | before
  · cases same
  · exact absurd rfl (passed rfl)
  · exact before.1

theorem mem_of_status {grant : Grant} (found : s.status id = some grant) : (id,grant) ∈ s.waiters := by
  obtain ⟨waiter,here,same⟩ := Option.map_eq_some_iff.mp found
  have named : waiter.1 = id := by simpa using List.find?_some here
  have member := List.mem_of_find?_eq_some here
  rwa [← named,← same]

/-- From one state to the next nobody joins, and whoever still waits is so many places closer. -/
structure Closer (places : Nat) (s next : Semaphore) : Prop where
  names : ∀ waiter ∈ next.waiters, ∃ old ∈ s.waiters, old.1 = waiter.1
  fair : next.Fair
  waits : ∀ id, next.Waits id → s.Waits id ∧ next.ahead id + places ≤ s.ahead id

theorem Closer.refl (fair : s.Fair) : Closer 0 s s := ⟨fun waiter member => ⟨waiter,member,rfl⟩,fair,fun _ waits => ⟨waits,le_rfl⟩⟩

theorem Closer.trans {first second : Nat} (closer : Closer first s middle) (further : Closer second middle next) :
    Closer (first+second) s next := by
  refine ⟨fun waiter member => ?_,further.fair,fun id waits => ?_⟩
  · obtain ⟨old,present,same⟩ := further.names waiter member
    obtain ⟨origin,there,named⟩ := closer.names old present
    exact ⟨origin,there,named.trans same⟩
  · obtain ⟨before,counted⟩ := further.waits id waits
    obtain ⟨origin,total⟩ := closer.waits id before
    exact ⟨origin,by omega⟩

theorem Closer.weaken {first second : Nat} (closer : Closer second s next) (fewer : first ≤ second) : Closer first s next :=
  ⟨closer.names,closer.fair,fun id waits => ⟨(closer.waits id waits).1,by have counted := (closer.waits id waits).2; omega⟩⟩

theorem Closer.of_value {value : Int} {places : Nat} (closer : Closer places {s with value} next) : Closer places s next :=
  ⟨closer.names,closer.fair,closer.waits⟩

theorem Fair.wakeUpNext (fair : s.Fair) : Closer 1 s s.wakeUpNext := by
  rcases s.wakeUpNext_cases with ⟨waiters,found,woken⟩ | ⟨absent,woken⟩ <;> rw [woken]
  · refine ⟨fun waiter member => ?_,grantFirst_fair fair found,fun id waits => ?_⟩
    · have named : waiter.1 ∈ s.waiters.map (·.1) := by
        rw [← grantFirst_names found]
        exact List.mem_map_of_mem member
      exact List.mem_map.mp named
    · obtain ⟨before,counted⟩ := grantFirst_ahead fair found waits
      exact ⟨before,le_of_eq counted⟩
  · refine ⟨fun waiter member => ⟨waiter,member,rfl⟩,fair,fun id waits => ?_⟩
    exact absurd rfl (grantFirst_none absent _ waits)

theorem Fair.release (fair : s.Fair) : Closer 1 s s.release := by
  have raised : Fair {s with value := s.value+1} := fair
  exact raised.wakeUpNext.of_value

theorem Fair.remove (fair : s.Fair) (id : Nat) : Closer 0 s (s.remove id) := by
  have sublist : (s.remove id).waiters.Sublist s.waiters := List.eraseP_sublist
  refine ⟨fun waiter member => ⟨waiter,sublist.subset member,rfl⟩,List.Pairwise.sublist sublist fair,fun other waits => ?_⟩
  exact ⟨sublist.subset waits,sublist.countP_le⟩

theorem Fair.resumeGranted (fair : s.Fair) (id : Nat) : Closer 0 s (s.resumeGranted id) := by
  unfold Semaphore.resumeGranted
  dsimp only
  split
  · exact ((fair.remove id).trans (fair.remove id).fair.wakeUpNext).weaken (by omega)
  · exact fair.remove id

theorem Fair.resumeCancelled (fair : s.Fair) (id : Nat) : Closer 0 s (s.resumeCancelled id) := by
  unfold Semaphore.resumeCancelled
  dsimp only
  split
  · exact ((fair.remove id).trans (fair.remove id).fair.release).weaken (by omega)
  · exact fair.remove id

theorem Fair.cancelWaiter (fair : s.Fair) (id : Nat) : Closer 0 s (s.cancelWaiter id) := by
  let change (waiter : Nat × Grant) : Nat × Grant := if waiter.1 == id && waiter.2 == .pending then (id,.cancelled) else waiter
  have name (waiter : Nat × Grant) : (change waiter).1 = waiter.1 := by
    by_cases mine : (waiter.1 == id && waiter.2 == .pending) = true
    · have same : waiter.1 = id := by simp_all
      simp only [change,if_pos mine,same]
    · simp only [change,if_neg mine]
  have kept (waiter : Nat × Grant) (live : (change waiter).2 ≠ .cancelled) : change waiter = waiter := by
    by_cases mine : (waiter.1 == id && waiter.2 == .pending) = true
    · exact absurd (by simp only [change,if_pos mine]) live
    · simp only [change,if_neg mine]
  refine ⟨fun waiter member => ?_,List.pairwise_map.mpr (List.Pairwise.imp ?_ fair),fun other waits => ?_⟩
  · obtain ⟨old,present,same⟩ := List.mem_map.mp member
    exact ⟨old,present,(name old).symm.trans (congrArg Prod.fst same)⟩
  · intro first second before
    change Before (change first) (change second)
    refine ⟨by rw [name first,name second]; exact before.1,fun pending granted => ?_⟩
    rw [kept first (by rw [pending]; simp)] at pending
    rw [kept second (by rw [granted]; simp)] at granted
    exact before.2 pending granted
  · obtain ⟨old,present,same⟩ := List.mem_map.mp waits
    have unchanged : change old = old := kept old (by rw [show change old = _ from same]; simp)
    have here : old = (other,Grant.pending) := unchanged.symm.trans same
    rw [here] at present
    refine ⟨present,?_⟩
    change (s.waiters.map change).countP (isAhead other) + 0 ≤ s.waiters.countP (isAhead other)
    rw [List.countP_map]
    refine List.countP_mono_left fun waiter _ counted => ?_
    have live : (change waiter).2 ≠ .cancelled := by
      intro gone
      simp [isAhead,gone] at counted
    have stays := kept waiter live
    rwa [Function.comp_apply,stays] at counted

theorem enqueue_waits (fresh : ∀ waiter ∈ s.waiters, waiter.1 < id) (waits : (s.enqueue id).Waits other) (different : other ≠ id) :
    s.Waits other ∧ (s.enqueue id).ahead other = s.ahead other := by
  rcases List.mem_append.mp waits with old | new
  · have below := fresh _ old
    refine ⟨old,?_⟩
    have behind : ¬ id < other := by omega
    simp [Semaphore.ahead,Semaphore.enqueue,List.countP_append,isAhead,behind]
  · exact absurd (Prod.mk.inj (List.mem_singleton.mp new)).1 different

theorem Fair.enqueue (fair : s.Fair) (fresh : ∀ waiter ∈ s.waiters, waiter.1 < id) : (s.enqueue id).Fair := by
  refine List.pairwise_append.mpr ⟨fair,List.pairwise_singleton _ _,fun waiter member new among => ?_⟩
  cases List.mem_singleton.mp among
  exact ⟨fresh waiter member,fun _ granted => by cases granted⟩

theorem Waits.ahead_lt (waits : s.Waits id) : s.ahead id < s.waiters.length := by
  refine lt_of_le_of_ne List.countP_le_length fun all => ?_
  have counted := List.countP_eq_length.mp all _ waits
  simp [isAhead] at counted

def names (s : Semaphore) : List Nat := s.waiters.map (·.1)

theorem wakeUpNext_names (s : Semaphore) : s.wakeUpNext.names = s.names := by
  rcases s.wakeUpNext_cases with ⟨waiters,found,woken⟩ | ⟨_,woken⟩ <;> rw [woken]
  exact grantFirst_names found

theorem release_names (s : Semaphore) : s.release.names = s.names := wakeUpNext_names {s with value := s.value+1}

theorem remove_names (distinct : s.names.Nodup) (id : Nat) : (s.remove id).names = s.names.erase id := by
  obtain ⟨value,waiters⟩ := s
  simp only [names,remove] at distinct ⊢
  induction waiters with
  | nil => rfl
  | cons waiter rest ih =>
    obtain ⟨absent,others⟩ := List.nodup_cons.mp distinct
    by_cases here : waiter.1 = id
    · simp [here]
    · simp [here,ih others]

theorem resumeGranted_names (distinct : s.names.Nodup) (id : Nat) : (s.resumeGranted id).names = s.names.erase id := by
  unfold resumeGranted
  dsimp only
  split
  · rw [wakeUpNext_names,remove_names distinct]
  · exact remove_names distinct id

theorem status_of_name (member : id ∈ s.names) : ∃ grant, s.status id = some grant := by
  obtain ⟨waiter,present,same⟩ := List.mem_map.mp member
  have found : (s.waiters.find? fun waiter => waiter.1 == id).isSome = true :=
    List.find?_isSome.mpr ⟨waiter,present,by simp [same]⟩
  obtain ⟨first,here⟩ := Option.isSome_iff_exists.mp found
  exact ⟨first.2,by rw [status,here]; rfl⟩

theorem status_of_mem {grant : Grant} (distinct : s.names.Nodup) (member : (id,grant) ∈ s.waiters) : s.status id = some grant := by
  obtain ⟨first,found⟩ := status_of_name (List.mem_map.mpr ⟨_,member,rfl⟩)
  have same := List.inj_on_of_nodup_map distinct (mem_of_status found) member rfl
  rw [found,(Prod.mk.inj same).2]

theorem name_of_status {grant : Grant} (found : s.status id = some grant) : id ∈ s.names :=
  List.mem_map.mpr ⟨_,mem_of_status found,rfl⟩

theorem resumeCancelled_names (distinct : s.names.Nodup) (id : Nat) : (s.resumeCancelled id).names = s.names.erase id := by
  unfold resumeCancelled
  dsimp only
  split
  · rw [release_names,remove_names distinct]
  · exact remove_names distinct id

theorem cancelWaiter_names (s : Semaphore) (id : Nat) : (s.cancelWaiter id).names = s.names := by
  unfold names cancelWaiter
  rw [List.map_map]
  refine List.map_congr_left fun waiter _ => ?_
  simp only [Function.comp_apply]
  split
  · rename_i mine
    simp only [Bool.and_eq_true,beq_iff_eq] at mine
    exact mine.1.symm
  · rfl

theorem Fair.names_nodup (fair : s.Fair) : s.names.Nodup :=
  List.pairwise_map.mpr (List.Pairwise.imp (fun before => before.1.ne) fair)

end YPriceMagic.Async.Semaphore
