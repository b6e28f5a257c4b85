import YPriceMagic.Async.Turns
import YPriceMagic.Runtime.CallSteps
import YPriceMagic.Runtime.SlotConservation

/-! The order in which queued `run()` calls get their slots. No call is granted one, let
alone started, while an earlier one still waits, and every completion brings a waiter closer. -/
namespace YPriceMagic.Runtime.LookupSupervisor
open YPriceMagic.Async YPriceMagic.Async.Semaphore

variable {Env ε α : Type} {s next : LookupSupervisor Env ε α} {hooks : Hooks Env} {id : Nat} {action : Action ε α}

def Action.completes : Action ε α → Bool
  | .finished _ => true
  | _ => false

def Action.places (action : Action ε α) : Nat := if action.completes then 1 else 0

structure Turns (s : LookupSupervisor Env ε α) : Prop where
  fair : s.slots.Fair
  named : ∀ waiter ∈ s.slots.waiters, waiter.1 < s.calls.length
  unpassed : ∀ (earlier later : Nat) call, s.slots.Waits earlier → earlier < later → s.calls[later]? = some call → call.task = none

theorem init_turns (active maxQueued : Nat) (env : Env) : (init active maxQueued env : LookupSupervisor Env ε α).Turns :=
  ⟨List.Pairwise.nil,by simp [init],by simp [init]⟩

theorem proceed_closer (fair : s.slots.Fair) (id : Nat) (call : Call ε α) : Closer 0 s.slots (s.proceed hooks id call).slots := by
  rcases s.proceed_cases hooks id call with ⟨_,same⟩ | ⟨_,same⟩ <;> rw [same]
  · exact fair.release.weaken (Nat.zero_le 1)
  · exact Closer.refl fair

/-- A step lets a new call join the queue, or only brings those who wait closer. -/
theorem step_closer (fair : s.slots.Fair) (stepped : s.step hooks action = some next) :
    (action = .call ∧ next.slots = s.slots.enqueue s.calls.length) ∨ Closer action.places s.slots next.slots := by
  cases action with
  | call =>
    obtain rfl : s.call hooks = next := Option.some.inj stepped
    rcases s.call_cases hooks with ⟨_,same⟩ | ⟨_,_,same⟩ | ⟨_,_,_,same⟩ <;> rw [same]
    · exact Or.inr (Closer.refl fair)
    · let taken : LookupSupervisor Env ε α := {s with
        slots := {s.slots with value := s.slots.value-1}
        calls := s.calls++[{stage := .acquiring}]}
      have closer : Closer 0 taken.slots (taken.proceed hooks s.calls.length {stage := .acquiring}).slots :=
        proceed_closer (s := taken) fair _ _
      exact Or.inr closer.of_value
    · exact Or.inl ⟨rfl,rfl⟩
  | cancelCaller place =>
    obtain ⟨_,_,⟨_,rfl⟩ | ⟨_,rfl⟩⟩ := cancelCaller_cases stepped
    · exact Or.inr (fair.cancelWaiter place)
    · exact Or.inr (Closer.refl fair)
  | resume place =>
    right
    obtain ⟨old,_,⟨_,_,_,_,_,rfl⟩ | ⟨_,_,_,rfl⟩ | ⟨_,_,_,⟨_,rfl⟩ | ⟨_,_,_,rfl⟩⟩⟩ := resume_cases stepped
    · rw [(resumeWhenIdle_calls hooks _).2]
      exact fair.resumeCancelled place
    · let granted : LookupSupervisor Env ε α := {s with slots := s.slots.resumeGranted place,queued := s.queued-1}
      have left : Closer 0 s.slots granted.slots := fair.resumeGranted place
      exact left.trans (proceed_closer left.fair place old)
    · exact Closer.refl fair
    · exact Closer.refl fair
  | workStep place ending =>
    obtain ⟨_,_,_,_,_,_,rfl⟩ := workStep_cases stepped
    exact Or.inr (Closer.refl fair)
  | finished place =>
    obtain ⟨_,_,_,_,_,_,rfl⟩ := finished_cases stepped
    rw [(resumeWhenIdle_calls hooks _).2]
    exact Or.inr fair.release
  | cancel =>
    cases Option.some.inj stepped
    exact Or.inr (Closer.refl fair)

theorem set_cases {calls : List (Call ε α)} {place : Nat} {call new after : Call ε α} (found : calls[id]? = some call)
    (there : (calls.set place new)[id]? = some after) : (place = id ∧ after = new) ∨ after = call := by
  rcases mem_set_table there with ⟨rfl,rfl⟩ | ⟨_,old⟩
  · exact Or.inl ⟨rfl,rfl⟩
  · exact Or.inr (Option.some.inj (old.symm.trans found))

/-- A waiting call gets its task only with a slot that it was granted. -/
theorem step_started (stepped : s.step hooks action = some next) {call after : Call ε α} (found : s.calls[id]? = some call)
    (untasked : call.task = none) (there : next.calls[id]? = some after) :
    after.task = none ∨ s.slots.status id = some .granted := by
  have tasked {place : Nat} {old : Call ε α} {task : Task ε α} (here : s.calls[place]? = some old)
      (owned : old.task = some task) (same : place = id) : False := by
    subst same
    cases Option.some.inj (here.symm.trans found)
    simp [untasked] at owned
  have kept (place : Nat) (new : Call ε α) (same : (s.calls.set place new)[id]? = some after)
      (none_here : place = id → new.task = none ∨ s.slots.status id = some .granted) :
      after.task = none ∨ s.slots.status id = some .granted := by
    rcases set_cases found same with ⟨here,rfl⟩ | rfl
    · exact none_here here
    · exact Or.inl untasked
  have mine {place : Nat} {old : Call ε α} (here : s.calls[place]? = some old) (same : place = id) : old.task = none := by
    subst same
    cases Option.some.inj (here.symm.trans found)
    exact untasked
  cases action with
  | call =>
    obtain rfl : s.call hooks = next := Option.some.inj stepped
    obtain ⟨begun,same,_⟩ := s.call_calls hooks
    rw [same,List.getElem?_append_left (List.getElem?_eq_some_iff.mp found).1,found] at there
    cases Option.some.inj there
    exact Or.inl untasked
  | cancelCaller place =>
    obtain ⟨old,here,⟨_,rfl⟩ | ⟨_,rfl⟩⟩ := cancelCaller_cases stepped
    · exact kept place _ there fun same => Or.inl (mine here same :)
    · exact kept place _ there fun same => Or.inl (mine here same :)
  | resume place =>
    obtain ⟨old,here,⟨_,_,_,_,_,rfl⟩ | ⟨_,granted,_,rfl⟩ | ⟨_,task,owned,⟨_,rfl⟩ | ⟨_,_,_,rfl⟩⟩⟩ := resume_cases stepped
    · rw [(resumeWhenIdle_calls hooks _).1] at there
      exact kept place _ there fun same => Or.inl (mine here same :)
    · rcases proceed_cases hooks {s with slots := s.slots.resumeGranted place,queued := s.queued-1} place old with
        ⟨_,same⟩ | ⟨_,same⟩ <;> rw [same] at there
      · exact kept place _ there fun same => Or.inl (mine here same :)
      · exact kept place _ there fun same => Or.inr (same ▸ granted)
    · exact kept place _ there fun same => absurd same (tasked here owned)
    · exact kept place _ there fun same => absurd same (tasked here owned)
  | workStep place ending =>
    obtain ⟨old,task,_,here,owned,_,rfl⟩ := workStep_cases stepped
    exact kept place _ there fun same => absurd same (tasked here owned)
  | finished place =>
    obtain ⟨old,task,here,owned,_,_,rfl⟩ := finished_cases stepped
    rw [(resumeWhenIdle_calls hooks _).1] at there
    exact kept place _ there fun same => absurd same (tasked here owned)
  | cancel =>
    cases Option.some.inj stepped
    left
    rw [LookupSupervisor.cancel,List.getElem?_mapIdx,found] at there
    obtain rfl := Option.some.inj there
    have stopped : call.task.map Task.cancel = none := by rw [untasked]; rfl
    split
    · exact stopped
    · exact untasked

/-- A new call that does not queue has a task at once only where nobody waits. -/
theorem step_begun (stepped : s.step hooks action = some next) {after : Call ε α} (beyond : s.calls.length ≤ id)
    (there : next.calls[id]? = some after) : id = s.calls.length ∧ (after.task = none ∨ ∀ other, ¬ s.slots.Waits other) := by
  have within := (List.getElem?_eq_some_iff.mp there).1
  rcases step_shape stepped with ⟨_,rfl⟩ | ⟨_,_,_,_,_,same⟩ | ⟨_,rfl⟩
  · obtain ⟨begun,same,ways⟩ := s.call_calls hooks
    rw [same] at there
    rcases mem_snoc_table there with old | ⟨rfl,rfl⟩
    · exact absurd (List.getElem?_eq_some_iff.mp old).1 (by omega)
    · refine ⟨rfl,?_⟩
      rcases ways with ⟨_,rfl⟩ | ⟨_,free,rfl⟩ | ⟨_,_,rfl⟩
      · exact Or.inl rfl
      · exact Or.inr fun other waits => s.slots.unlocked_pending free _ waits rfl
      · exact Or.inl rfl
  · rw [same,List.length_set] at within
    omega
  · simp only [LookupSupervisor.cancel,List.length_mapIdx] at within
    omega

theorem step_waits (turns : s.Turns) (stepped : s.step hooks action = some next) {i : Nat} (waits : next.slots.Waits i) :
    (s.slots.Waits i ∧ next.slots.ahead i + action.places ≤ s.slots.ahead i) ∨ i = s.calls.length := by
  rcases step_closer turns.fair stepped with ⟨rfl,joined⟩ | closer
  · rw [joined] at waits ⊢
    by_cases new : i = s.calls.length
    · exact Or.inr new
    · obtain ⟨before,same⟩ := enqueue_waits turns.named waits new
      exact Or.inl ⟨before,le_of_eq same⟩
  · exact Or.inl (closer.waits i waits)

theorem step_turns (turns : s.Turns) (stepped : s.step hooks action = some next) : next.Turns := by
  have longer := step_length stepped
  refine ⟨?_,?_,?_⟩
  · rcases step_closer turns.fair stepped with ⟨_,joined⟩ | closer
    · rw [joined]
      exact turns.fair.enqueue turns.named
    · exact closer.fair
  · intro waiter member
    rcases step_closer turns.fair stepped with ⟨rfl,joined⟩ | closer
    · rw [joined] at member
      rcases List.mem_append.mp member with old | new
      · exact lt_of_lt_of_le (turns.named waiter old) longer
      · obtain rfl : s.call hooks = next := Option.some.inj stepped
        obtain ⟨begun,same,_⟩ := s.call_calls hooks
        rw [List.mem_singleton.mp new,same]
        simp
    · obtain ⟨old,present,same⟩ := closer.names waiter member
      rw [← same]
      exact lt_of_lt_of_le (turns.named old present) longer
  · intro earlier later after waits before there
    have waited : s.slots.Waits earlier ∨ earlier = s.calls.length := (step_waits turns stepped waits).imp_left And.left
    have nobody : earlier ≠ s.calls.length → s.slots.Waits earlier := waited.resolve_right
    rcases Nat.lt_or_ge later s.calls.length with inside | beyond
    · obtain ⟨call,found⟩ : ∃ call, s.calls[later]? = some call := ⟨_,List.getElem?_eq_getElem inside⟩
      have waits := nobody (by omega)
      rcases step_started stepped found (turns.unpassed earlier later call waits before found) there with untasked | granted
      · exact untasked
      · have passed := turns.fair.passed waits (mem_of_status granted)
        omega
    · obtain ⟨last,ways⟩ := step_begun stepped beyond there
      exact ways.resolve_right fun empty => empty earlier (nobody (by omega))

theorem run_turns {active maxQueued : Nat} {env : Env} {actions : List (Action ε α)}
    (reached : run (step hooks) (init active maxQueued env) actions = some s) : s.Turns :=
  run_preserves Turns (fun _ _ _ turns stepped => step_turns turns stepped) (init_turns active maxQueued env) reached

/-- While a `run()` waits for its slot, no later one has been granted a slot or has started its work. -/
theorem first_come_first_served {active maxQueued : Nat} {env : Env} {actions : List (Action ε α)}
    (reached : run (step hooks) (init active maxQueued env) actions = some s) {earlier later : Nat} (before : earlier < later)
    (waits : s.slots.status earlier = some .pending) :
    s.slots.status later ≠ some .granted ∧ ∀ call, s.calls[later]? = some call → call.task = none := by
  have turns := run_turns reached
  have waiting : s.slots.Waits earlier := mem_of_status waits
  refine ⟨fun granted => ?_,fun call found => turns.unpassed earlier later call waiting before found⟩
  have passed := turns.fair.passed waiting (mem_of_status granted)
  omega

theorem run_ahead {more : List (Action ε α)} {last : LookupSupervisor Env ε α} (turns : s.Turns)
    (ran : run (step hooks) s more = some last) {i : Nat} (inside : i < s.calls.length) (waits : last.slots.Waits i) :
    s.slots.Waits i ∧ last.slots.ahead i + more.countP Action.completes ≤ s.slots.ahead i := by
  induction more generalizing s with
  | nil =>
    cases Option.some.inj ran
    exact ⟨waits,le_rfl⟩
  | cons action rest ih =>
    obtain ⟨next,stepped,remaining⟩ := run_cons_some ran
    obtain ⟨waiting,counted⟩ := ih (step_turns turns stepped) remaining (lt_of_lt_of_le inside (step_length stepped))
    rcases step_waits turns stepped waiting with ⟨before,closer⟩ | new
    · refine ⟨before,?_⟩
      rw [List.countP_cons]
      unfold Action.places at closer
      omega
    · omega

/-- A queued `run()` waits through no more completed lookups than there were waiters ahead of
it, and these are fewer than the queue may hold. -/
theorem wait_bounded {active maxQueued : Nat} {env : Env} {actions more : List (Action ε α)} {last : LookupSupervisor Env ε α}
    (reached : run (step hooks) (init active maxQueued env) actions = some s) (ran : run (step hooks) s more = some last)
    {i : Nat} (queued : s.slots.status i = some .pending) (waits : last.slots.status i = some .pending) :
    more.countP Action.completes ≤ s.slots.ahead i ∧ s.slots.ahead i < maxQueued := by
  have turns := run_turns reached
  have waiting : s.slots.Waits i := mem_of_status queued
  have balanced := run_balanced hooks active maxQueued env actions reached
  have limit := run_maxQueued hooks active maxQueued env actions reached
  have inside : i < s.calls.length := turns.named _ waiting
  have counted := (run_ahead turns ran inside (mem_of_status waits)).2
  have few := waiting.ahead_lt
  have queue := balanced.queue
  have bounded := balanced.bounded
  constructor <;> omega

/-- The third call joins the queue behind the second, and a completion grants the second. -/
def queuedPair : List (Action Unit Unit) := [.call,.call,.call]

theorem first_come_first_served_pair : ∃ s, run (step ⟨none,none⟩) (init 1 2 ()) queuedPair = some s ∧
    s.slots.status 2 ≠ some .granted := by
  have completes : (run (step ⟨none,none⟩) (init 1 2 ()) queuedPair).map (·.slots.status 1) = some (some .pending) := by rfl
  obtain ⟨s,reached,waits⟩ := Option.map_eq_some_iff.mp completes
  exact ⟨s,reached,(first_come_first_served reached (by decide) waits).1⟩

def firstEnds : List (Action Unit Unit) := [.workStep 0 (some (.returned ())),.finished 0]

theorem wait_bounded_pair : ∃ s last, run (step ⟨none,none⟩) (init 1 2 ()) queuedPair = some s ∧
    run (step ⟨none,none⟩) s firstEnds = some last ∧ firstEnds.countP Action.completes ≤ s.slots.ahead 2 := by
  have queues : (run (step ⟨none,none⟩) (init 1 2 ()) queuedPair).map (·.slots.status 2) = some (some .pending) := by rfl
  have stays : (run (step ⟨none,none⟩) (init 1 2 ()) (queuedPair++firstEnds)).map (·.slots.status 2) = some (some .pending) := by rfl
  obtain ⟨s,reached,queued⟩ := Option.map_eq_some_iff.mp queues
  obtain ⟨last,through,waits⟩ := Option.map_eq_some_iff.mp stays
  obtain ⟨other,same,ran⟩ := run_append_some through
  obtain rfl : s = other := Option.some.inj (reached.symm.trans same)
  exact ⟨s,last,reached,ran,(wait_bounded reached ran queued waits).1⟩

end YPriceMagic.Runtime.LookupSupervisor
