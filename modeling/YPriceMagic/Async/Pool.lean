import Mathlib.Data.List.Nodup
import YPriceMagic.Async.Entries
import YPriceMagic.Async.Run
import YPriceMagic.Async.Turns

/-! Any number of tasks that each take a slot of one semaphore, work and give it back. No
task is cancelled, so whoever waits is granted a slot in the end. -/
namespace YPriceMagic.Async

inductive Phase (ρ : Type)
  | created
  | acquiring
  | working
  | ended (result : ρ)
  deriving DecidableEq, Repr

namespace Phase
variable {ρ : Type}

def isAcquiring : Phase ρ → Bool
  | acquiring => true
  | _ => false

def isWorking : Phase ρ → Bool
  | working => true
  | _ => false

def isEnded : Phase ρ → Bool
  | ended _ => true
  | _ => false

def rank : Phase ρ → Nat
  | created => 0
  | acquiring => 1
  | working => 2
  | ended _ => 3

theorem rank_le (phase : Phase ρ) : phase.rank ≤ 3 := by
  cases phase <;> simp [rank]

end Phase

/-- `begun` lists the tasks in the order in which they began to work. -/
structure Pool (ρ : Type) where
  sem : Semaphore
  workers : List (Phase ρ)
  begun : List Nat
  deriving DecidableEq, Repr

namespace Pool
variable {ρ : Type}

def init (workers limit : Nat) : Pool ρ := ⟨⟨limit,[]⟩,List.replicate workers .created,[]⟩

def work (s : Pool ρ) (id : Nat) (sem : Semaphore) : Pool ρ := ⟨sem,s.workers.set id .working,s.begun++[id]⟩

def start (s : Pool ρ) (id : Nat) : Option (Pool ρ) :=
  match s.workers[id]? with
  | some .created =>
    match s.sem.tryAcquire with
    | some sem => some (s.work id sem)
    | none => some {s with sem := s.sem.enqueue id,workers := s.workers.set id .acquiring}
  | _ => none

def resume (s : Pool ρ) (id : Nat) : Option (Pool ρ) :=
  match s.workers[id]? with
  | some .acquiring => if s.sem.status id = some .granted then some (s.work id (s.sem.resumeGranted id)) else none
  | _ => none

def finish (s : Pool ρ) (id : Nat) (result : ρ) : Option (Pool ρ) :=
  match s.workers[id]? with
  | some .working => some {s with sem := s.sem.release,workers := s.workers.set id (.ended result)}
  | _ => none

inductive Action (ρ : Type)
  | start (id : Nat)
  | resume (id : Nat)
  | finish (id : Nat) (result : ρ)

def step (s : Pool ρ) : Action ρ → Option (Pool ρ)
  | .start id => s.start id
  | .resume id => s.resume id
  | .finish id result => s.finish id result

def working (s : Pool ρ) : Nat := s.workers.countP (·.isWorking)

def progress (s : Pool ρ) : Nat := (s.workers.map (·.rank)).sum

/-- What a step does: a task takes a slot or queues, a granted one begins, or one ends. -/
inductive Stepped (s : Pool ρ) : Action ρ → Pool ρ → Prop
  | took {id : Nat} (found : s.workers[id]? = some .created) (free : s.sem.locked = false) :
    Stepped s (.start id) (s.work id {s.sem with value := s.sem.value-1})
  | queued {id : Nat} (found : s.workers[id]? = some .created) (busy : s.sem.locked = true) :
    Stepped s (.start id) {s with sem := s.sem.enqueue id,workers := s.workers.set id .acquiring}
  | resumed {id : Nat} (found : s.workers[id]? = some .acquiring) (granted : s.sem.status id = some .granted) :
    Stepped s (.resume id) (s.work id (s.sem.resumeGranted id))
  | finished {id : Nat} (result : ρ) (found : s.workers[id]? = some .working) :
    Stepped s (.finish id result) {s with sem := s.sem.release,workers := s.workers.set id (.ended result)}

variable {s next : Pool ρ} {action : Action ρ}

theorem step_stepped (stepped : s.step action = some next) : Stepped s action next := by
  cases action with
  | start id =>
    simp only [step,start] at stepped
    split at stepped
    · rename_i found
      split at stepped
      · rename_i sem acquired
        obtain ⟨free,rfl⟩ := s.sem.tryAcquire_some acquired
        cases Option.some.inj stepped
        exact .took found free
      · rename_i refused
        cases Option.some.inj stepped
        exact .queued found (s.sem.tryAcquire_none refused)
    · cases stepped
  | resume id =>
    simp only [step,resume] at stepped
    split at stepped
    · rename_i found
      split at stepped
      · rename_i granted
        cases Option.some.inj stepped
        exact .resumed found granted
      · cases stepped
    · cases stepped
  | finish id result =>
    simp only [step,finish] at stepped
    split at stepped
    · rename_i found
      cases Option.some.inj stepped
      exact .finished result found
    · cases stepped

end Pool

namespace Pool
variable {ρ : Type} {s next : Pool ρ} {action : Action ρ} {limit : Nat}

structure Balanced (limit : Nat) (s : Pool ρ) : Prop where
  slots : s.sem.available + s.working = limit
  nonneg : 0 ≤ s.sem.value
  served : s.sem.Served
  distinct : s.sem.names.Nodup
  waiting : ∀ id : Nat, id ∈ s.sem.names ↔ s.workers[id]? = some .acquiring
  uncancelled : ∀ id, (id,Grant.cancelled) ∉ s.sem.waiters
  begun : s.begun.Nodup
  works : ∀ id : Nat, id ∈ s.begun ↔ ∃ phase, s.workers[id]? = some phase ∧ 2 ≤ phase.rank

theorem init_balanced (workers limit : Nat) : (init workers limit : Pool ρ).Balanced limit := by
  have created : ∀ (id : Nat) (phase : Phase ρ), (List.replicate workers (Phase.created : Phase ρ))[id]? = some phase → phase = .created :=
    fun id phase found => List.eq_of_mem_replicate (List.mem_of_getElem? found)
  refine ⟨?_,by simp [init],?_,by simp [init,Semaphore.names],fun id => ?_,by simp [init],List.nodup_nil,fun id => ?_⟩
  · have idle : (List.replicate workers (Phase.created : Phase ρ)).countP (·.isWorking) = 0 := by
      rw [List.countP_eq_zero]
      intro phase member
      rw [List.eq_of_mem_replicate member]
      simp [Phase.isWorking]
    simp [init,Semaphore.available,Semaphore.granted,working,idle]
  · intro waiter member
    simp [init] at member
  · constructor
    · intro member
      simp [init,Semaphore.names] at member
    · intro found
      cases created id _ found
  · constructor
    · intro member
      cases member
    · rintro ⟨phase,found,late⟩
      rw [created id phase found] at late
      simp [Phase.rank] at late

/-- Every step brings some task on. -/
theorem step_progress (stepped : s.step action = some next) : s.progress < next.progress := by
  have grows {id : Nat} {phase after : Phase ρ} (found : s.workers[id]? = some phase) (later : phase.rank < after.rank) :
      s.progress + 1 ≤ ((s.workers.set id after).map (·.rank)).sum := sum_set_le (·.rank) found later
  cases step_stepped stepped with
  | took found | queued found | resumed found | finished _ found => exact grows found (by simp [Phase.rank])

theorem progress_le (s : Pool ρ) : s.progress ≤ 3 * s.workers.length := sum_map_le _ Phase.rank_le s.workers

theorem waiting_set {workers : List (Phase ρ)} {names after : List Nat} {id : Nat} {phase new : Phase ρ}
    (waiting : ∀ id : Nat, id ∈ names ↔ workers[id]? = some .acquiring) (found : workers[id]? = some phase)
    (others : ∀ other, other ≠ id → (other ∈ after ↔ other ∈ names)) (here : id ∈ after ↔ new = .acquiring) :
    ∀ other : Nat, other ∈ after ↔ (workers.set id new)[other]? = some .acquiring := by
  intro other
  by_cases same : other = id
  · subst same
    rw [here]
    simp [(List.getElem?_eq_some_iff.mp found).1]
  · rw [others other same,waiting other,List.getElem?_set_ne (Ne.symm same)]

theorem works_set {workers : List (Phase ρ)} {begun after : List Nat} {id : Nat} {phase new : Phase ρ}
    (works : ∀ id : Nat, id ∈ begun ↔ ∃ phase, workers[id]? = some phase ∧ 2 ≤ phase.rank) (found : workers[id]? = some phase)
    (others : ∀ other, other ≠ id → (other ∈ after ↔ other ∈ begun)) (here : id ∈ after ↔ 2 ≤ new.rank) :
    ∀ other : Nat, other ∈ after ↔ ∃ phase, (workers.set id new)[other]? = some phase ∧ 2 ≤ phase.rank := by
  intro other
  by_cases same : other = id
  · subst same
    rw [here]
    simp [(List.getElem?_eq_some_iff.mp found).1]
  · rw [others other same,works other,List.getElem?_set_ne (Ne.symm same)]

theorem Balanced.fresh (balanced : s.Balanced limit) {id : Nat} {phase : Phase ρ} (found : s.workers[id]? = some phase)
    (early : phase.rank < 2) : id ∉ s.begun := by
  rw [balanced.works id]
  rintro ⟨other,present,late⟩
  cases Option.some.inj (found.symm.trans present)
  omega

theorem Balanced.nameless (balanced : s.Balanced limit) {id : Nat} {phase : Phase ρ} (found : s.workers[id]? = some phase)
    (other : phase ≠ .acquiring) : id ∉ s.sem.names := by
  rw [balanced.waiting id,found,Option.some.injEq]
  exact other

/-- A task that begins to work carries a slot on, and leaves the deque if it was there. -/
theorem Balanced.work (balanced : s.Balanced limit) {id : Nat} {phase : Phase ρ} {sem : Semaphore} (found : s.workers[id]? = some phase)
    (early : phase.rank < 2) (carried : sem.available + 1 = s.sem.available) (nonneg : 0 ≤ sem.value) (served : sem.Served)
    (names : sem.names = s.sem.names.erase id) (uncancelled : ∀ id, (id,Grant.cancelled) ∉ sem.waiters) :
    (s.work id sem).Balanced limit := by
  have fresh := balanced.fresh found early
  have idle : phase.isWorking = false := by
    cases phase <;> simp_all [Phase.rank,Phase.isWorking]
  have counted : (s.workers.set id .working).countP (·.isWorking) = s.working + 1 := by
    have inside := (List.getElem?_eq_some_iff.mp found).1
    have here := (List.getElem?_eq_some_iff.mp found).2
    rw [List.countP_set inside,here,idle]
    simp [working,Phase.isWorking]
  refine ⟨?_,nonneg,served,?_,?_,uncancelled,?_,?_⟩
  · have slots := balanced.slots
    change sem.available + ((s.workers.set id Phase.working).countP (·.isWorking) : Nat) = (limit : Int)
    rw [counted]
    push_cast
    omega
  · change sem.names.Nodup
    rw [names]
    exact balanced.distinct.erase id
  · refine waiting_set balanced.waiting found (fun other different => ?_) ?_
    · change other ∈ sem.names ↔ _
      rw [names]
      exact List.mem_erase_of_ne different
    · change id ∈ sem.names ↔ _
      rw [names]
      simp [balanced.distinct.not_mem_erase]
  · exact List.Nodup.append balanced.begun (List.nodup_singleton id) (by simpa using fresh)
  · refine works_set balanced.works found (fun other different => ?_) ?_
    · simp [Pool.work,different]
    · simp [Pool.work,Phase.rank]

theorem step_balanced (balanced : s.Balanced limit) (stepped : s.step action = some next) : next.Balanced limit := by
  cases step_stepped stepped with
  | @took id found free =>
    have value := s.sem.unlocked_value free
    have nonneg := balanced.nonneg
    refine balanced.work found (by simp [Phase.rank]) ?_ ?_ ?_ ?_ balanced.uncancelled
    · simp only [Semaphore.available,Semaphore.granted]
      omega
    · change 0 ≤ s.sem.value-1
      omega
    · intro waiter member pending
      exact absurd pending (s.sem.unlocked_pending free waiter member)
    · exact (List.erase_of_not_mem (balanced.nameless found (by simp))).symm
  | @queued id found busy =>
    have same : (s.workers.set id .acquiring).countP (·.isWorking) = s.working := countP_set_same s.workers _ found rfl
    have joined : (s.sem.enqueue id).names = s.sem.names++[id] := by simp [Semaphore.names,Semaphore.enqueue]
    refine ⟨?_,balanced.nonneg,s.sem.enqueue_served id busy balanced.served,?_,?_,?_,balanced.begun,?_⟩
    · change (s.sem.enqueue id).available + ((s.workers.set id Phase.acquiring).countP (·.isWorking) : Nat) = (limit : Int)
      rw [same,Semaphore.enqueue_available]
      exact balanced.slots
    · rw [joined]
      exact List.Nodup.append balanced.distinct (List.nodup_singleton id)
        (by simpa using balanced.nameless found (by simp))
    · refine waiting_set balanced.waiting found (fun other different => ?_) ?_
      · simp [joined,different]
      · simp [joined]
    · intro other gone
      exact balanced.uncancelled other (Semaphore.enqueue_cancelled gone)
    · refine works_set balanced.works found (fun _ _ => Iff.rfl) ?_
      have fresh := balanced.fresh found (by simp [Phase.rank])
      simp [fresh,Phase.rank]
  | @resumed id found granted =>
    exact balanced.work found (by simp [Phase.rank]) (s.sem.resumeGranted_counts id granted).2
      (s.sem.resumeGranted_nonneg id balanced.nonneg) (s.sem.resumeGranted_served id balanced.nonneg)
      (Semaphore.resumeGranted_names balanced.distinct id)
      fun other gone => balanced.uncancelled other (Semaphore.resumeGranted_cancelled gone)
  | @finished id result found =>
    have dropped : (s.workers.set id (.ended result)).countP (·.isWorking) + 1 = s.working :=
      countP_set_drop s.workers _ found rfl rfl
    refine ⟨?_,s.sem.release_nonneg balanced.nonneg,s.sem.release_served,?_,?_,?_,balanced.begun,?_⟩
    · have slots := balanced.slots
      change s.sem.release.available + ((s.workers.set id (Phase.ended result)).countP (·.isWorking) : Nat) = (limit : Int)
      rw [Semaphore.release_available]
      omega
    · rw [Semaphore.release_names]
      exact balanced.distinct
    · rw [Semaphore.release_names]
      refine waiting_set balanced.waiting found (fun _ _ => Iff.rfl) ?_
      simp [balanced.nameless found]
    · intro other gone
      exact balanced.uncancelled other (Semaphore.release_cancelled gone)
    · refine works_set balanced.works found (fun _ _ => Iff.rfl) ?_
      have works := (balanced.works id).mpr ⟨_,found,by simp [Phase.rank]⟩
      simp [works,Phase.rank]

variable {workers : Nat} {actions : List (Action ρ)}

theorem run_balanced (ran : run step (init workers limit) actions = some s) : s.Balanced limit :=
  run_preserves (Balanced limit) (fun _ _ _ balanced stepped => step_balanced balanced stepped) (init_balanced workers limit) ran

theorem Balanced.working_le (balanced : s.Balanced limit) : s.working ≤ limit := by
  have slots := balanced.slots
  have nonneg := balanced.nonneg
  simp only [Semaphore.available] at slots
  omega

/-- As long as there is a slot at all, a task that is not over can go on, or another one can. -/
theorem Balanced.live (balanced : s.Balanced limit) (positive : 0 < limit) [Nonempty ρ]
    (stuck : ∀ action, s.step action = none) : ∀ phase ∈ s.workers, phase.isEnded = true := by
  have idle : ∀ id : Nat, s.workers[id]? ≠ some .working := by
    intro id found
    obtain ⟨result⟩ := ‹Nonempty ρ›
    have none_here := stuck (.finish id result)
    simp [step,finish,found] at none_here
  have ungranted : ∀ id, s.sem.status id ≠ some .granted := by
    intro id granted
    have found := (balanced.waiting id).mp (Semaphore.name_of_status granted)
    have none_here := stuck (.resume id)
    simp [step,resume,found,granted] at none_here
  have free : s.working = 0 := by
    rw [working,List.countP_eq_zero]
    intro phase member busy
    obtain ⟨id,found⟩ := List.mem_iff_getElem?.mp member
    cases phase <;> simp [Phase.isWorking] at busy
    exact idle id found
  have nobody : s.sem.granted = 0 := by
    rw [Semaphore.granted,List.countP_eq_zero]
    intro waiter member granted
    obtain ⟨id,grant⟩ := waiter
    have same : grant = .granted := by simpa using granted
    exact ungranted id (same ▸ Semaphore.status_of_mem balanced.distinct member)
  intro phase member
  obtain ⟨id,found⟩ := List.mem_iff_getElem?.mp member
  cases phase with
  | created =>
    have none_here := stuck (.start id)
    cases acquired : s.sem.tryAcquire <;> simp [step,start,found,acquired] at none_here
  | acquiring =>
    obtain ⟨grant,status⟩ := Semaphore.status_of_name ((balanced.waiting id).mpr found)
    have slots := balanced.slots
    simp only [Semaphore.available] at slots
    cases grant with
    | granted => exact absurd status (ungranted id)
    | cancelled => exact absurd (Semaphore.mem_of_status status) (balanced.uncancelled id)
    | pending => rcases balanced.served _ (Semaphore.mem_of_status status) rfl with spent | some_grant <;> omega
  | working => exact absurd found (idle id)
  | ended result => rfl

theorem run_progress {first last : Pool ρ} (ran : run step first actions = some last) :
    first.progress + actions.length ≤ last.progress ∧ last.workers.length = first.workers.length := by
  induction actions generalizing first with
  | nil =>
    cases Option.some.inj ran
    exact ⟨le_rfl,rfl⟩
  | cons action rest ih =>
    obtain ⟨next,stepped,remaining⟩ := run_cons_some ran
    obtain ⟨counted,size⟩ := ih remaining
    have more := step_progress stepped
    have same : next.workers.length = first.workers.length := by
      cases step_stepped stepped <;> simp [work]
    refine ⟨?_,size.trans same⟩
    rw [List.length_cons]
    omega

/-- A run is over after three steps for every task. -/
theorem run_length_le (ran : run step (init workers limit) actions = some s) : actions.length ≤ 3 * workers := by
  obtain ⟨counted,size⟩ := run_progress ran
  have bound := s.progress_le
  rw [size] at bound
  simp only [init,List.length_replicate] at bound
  omega

end Pool

end YPriceMagic.Async
