import YPriceMagic.Runtime.RunningTasks
import YPriceMagic.Server.Slots

/-! Upstream work against slots. As long as no gather is left with a child still running,
the upstream calls of a lookup end before its task does, so they run under its slot. -/
namespace YPriceMagic.Server
open YPriceMagic.Async YPriceMagic.Async.Coroutine YPriceMagic.Runtime

theorem started_suspends {α : Type} {program : Program α} (waits : (started program).isSome = true) :
    endingOf program = none := by
  cases program with
  | finished outcome => simp [started] at waits
  | perform op resume => rfl

theorem resumable_decided {awaiting : Option (Gather Exn)} {cancelled : Bool} {queries : List Query}
    {reply : Reply (.await queries)} (resumes : resumable awaiting cancelled (.await queries) reply = true) :
    ∀ gather ∈ awaiting, gather.outcome.isSome = true := by
  intro gather waited
  obtain rfl : awaiting = some gather := waited
  cases decided : gather.outcome with
  | none => simp [resumable,decided] at resumes
  | some outcome => rfl

def Work.Paused (work : Work) : Prop := work.awaiting.isSome = true → (started work.program).isSome = true

theorem Work.Paused.suspends {work : Work} (paused : work.Paused) (waits : work.awaiting.isSome = true) :
    work.ending = none := by
  rw [Work.ending,started_suspends (paused waits)]
  rfl

theorem Work.resume_cases {work next : Work} {cancelled : Bool} {op : Op} {reply : Reply op} (paused : work.Paused)
    (resumed : work.resume cancelled op reply = some next) :
    (∀ gather ∈ work.awaiting, gather.outcome.isSome = true) ∧ next.left = work.left++work.awaiting.toList ∧ next.Paused := by
  obtain ⟨program,answered,resumed⟩ := Option.bind_eq_some_iff.mp resumed
  obtain ⟨resume,performed,_⟩ := answer_some answered
  split at resumed
  · rename_i decided
    cases Option.some.inj resumed
    refine ⟨?_,rfl,fun waits => waits⟩
    cases op with
    | await queries => exact resumable_decided decided
    | _ =>
      intro gather waited
      have waits := paused (Option.isSome_of_mem waited)
      simp [performed,started] at waits
  · simp at resumed

namespace Lookups

variable {Env : Type} {config : Config} {hooks : Hooks Env} {s next : Lookups Env}

/-- A lookup resumes from a failed gather only when no child of it is running. -/
def Joining (s : Lookups Env) : Action → Prop
  | .answer id _ _ => ∀ work ∈ s.works[id]?, ∀ gather ∈ work.awaiting, gather.failure.isSome = true → gather.running = false
  | _ => True

instance (s : Lookups Env) : (action : Action) → Decidable (s.Joining action)
  | .answer id _ _ => inferInstanceAs (Decidable (∀ work ∈ s.works[id]?, ∀ gather ∈ work.awaiting,
      gather.failure.isSome = true → gather.running = false))
  | .call _ | .cancelCaller _ | .resume _ | .enter _ | .childEnds _ _ _ | .orphanEnds _ _ _ _ | .finished _
  | .cancel => .isTrue trivial

/-- The calls of awaits that were left have ended, and a lookup that awaits is in its task. -/
structure Contained (active : Nat) (s : Lookups Env) : Prop where
  balanced : s.supervisor.Balanced active 0
  honest : ∀ call ∈ s.supervisor.calls, LookupSupervisor.honest call = true
  paused : ∀ work ∈ s.works, work.Paused
  joined : ∀ work ∈ s.works, ∀ gather ∈ work.left, gather.running = false
  waiting : ∀ (id : Nat) work, s.works[id]? = some work → work.awaiting.isSome = true → s.supervisor.Busy id

theorem init_contained (active maxQueued : Nat) (env : Env) : (init active maxQueued env).Contained active where
  balanced := LookupSupervisor.init_balanced active maxQueued env
  honest := by simp [init,LookupSupervisor.init]
  paused := by simp [init]
  joined := by simp [init]
  waiting := by simp [init]

theorem Contained.supervised {active : Nat} (contained : s.Contained active) (hooks : Hooks Env)
    (action : LookupSupervisor.Action Exn Done) {supervisor : LookupSupervisor Env Exn Done}
    (outside : ∀ id ending, action ≠ .workStep id ending) (stepped : s.supervisor.step hooks action = some supervisor) :
    ({s with supervisor} : Lookups Env).Contained active where
  balanced := LookupSupervisor.step_balanced hooks _ action _ contained.balanced stepped
  honest := LookupSupervisor.step_honest contained.honest stepped
  paused := contained.paused
  joined := contained.joined
  waiting id work found waits := (contained.waiting id work found waits).step contained.balanced outside stepped

theorem Contained.worked {active : Nat} (contained : s.Contained active) {id : Nat} (work : Work)
    {task : Task Exn Done} {supervisor : LookupSupervisor Env Exn Done} (found : s.task id = some task)
    (live : task.entered = true ∨ task.cancelRequested = false)
    (stepped : s.supervisor.workStep id work.ending = some supervisor) (paused : work.Paused)
    (joined : ∀ gather ∈ work.left, gather.running = false) :
    (⟨supervisor,s.works.set id work⟩ : Lookups Env).Contained active where
  balanced := contained.balanced.workStep stepped
  honest := LookupSupervisor.workStep_honest contained.honest stepped
  paused other member := by
    rcases List.mem_or_eq_of_mem_set member with old | rfl
    · exact contained.paused other old
    · exact paused
  joined other member := by
    rcases List.mem_or_eq_of_mem_set member with old | rfl
    · exact contained.joined other old
    · exact joined
  waiting other present at_ waits := by
    rcases mem_set_table at_ with ⟨rfl,rfl⟩ | ⟨different,old⟩
    · rw [paused.suspends waits] at stepped
      exact LookupSupervisor.workStep_busy found live stepped
    · exact (contained.waiting other present old waits).workStep different stepped

theorem Contained.enter {active : Nat} (contained : s.Contained active) {id : Nat}
    (stepped : s.enter id = some next) : next.Contained active := by
  obtain ⟨task,found,stepped⟩ := Option.bind_eq_some_iff.mp stepped
  obtain ⟨work,present,stepped⟩ := Option.bind_eq_some_iff.mp stepped
  split at stepped
  · simp at stepped
  · rename_i outside
    obtain ⟨supervisor,worked,stepped⟩ := Option.bind_eq_some_iff.mp stepped
    split at stepped
    · -- the coroutine is never entered, so it awaits nothing
      cases Option.some.inj stepped
      refine ⟨contained.balanced.workStep worked,LookupSupervisor.workStep_honest contained.honest worked,
        contained.paused,contained.joined,fun other working at_ waits => ?_⟩
      have busy := contained.waiting other working at_ waits
      have different : other ≠ id := by
        rintro rfl
        obtain ⟨call,here,busy⟩ := busy
        obtain ⟨same,again,owned⟩ := Option.bind_eq_some_iff.mp found
        cases Option.some.inj (here.symm.trans again)
        simp [LookupSupervisor.busy,owned,Task.inProgress,outside] at busy
      exact busy.workStep different worked
    · rename_i uncancelled
      cases Option.some.inj stepped
      exact contained.worked {work with awaiting := started work.program} found (Or.inr (by simpa using uncancelled))
        worked (fun waits => waits) (contained.joined work (List.mem_of_getElem? present))

theorem Contained.answer {active : Nat} (contained : s.Contained active) {id : Nat} {op : Op} {reply : Reply op}
    (joining : s.Joining (.answer id op reply)) (stepped : s.answer id op reply = some next) :
    next.Contained active := by
  obtain ⟨task,found,stepped⟩ := Option.bind_eq_some_iff.mp stepped
  obtain ⟨work,present,stepped⟩ := Option.bind_eq_some_iff.mp stepped
  split at stepped
  · rename_i inside
    obtain ⟨after,resumed,stepped⟩ := Option.bind_eq_some_iff.mp stepped
    obtain ⟨supervisor,worked,stepped⟩ := Option.bind_eq_some_iff.mp stepped
    cases Option.some.inj stepped
    have member := List.mem_of_getElem? present
    obtain ⟨decided,left,paused⟩ := Work.resume_cases (contained.paused work member) resumed
    refine contained.worked after found (Or.inl inside) worked paused fun gather last => ?_
    rw [left] at last
    rcases List.mem_append.mp last with old | new
    · exact contained.joined work member gather old
    · have waited := Option.mem_toList.mp new
      exact Gather.joined (decided gather waited) (joining work present gather waited)
  · simp at stepped

theorem Contained.childEnds {active : Nat} (contained : s.Contained active) {id child : Nat}
    {outcome : Outcome Exn Unit} (stepped : s.childEnds id child outcome = some next) : next.Contained active := by
  obtain ⟨work,present,stepped⟩ := Option.bind_eq_some_iff.mp stepped
  obtain ⟨gather,waited,stepped⟩ := Option.bind_eq_some_iff.mp stepped
  obtain ⟨after,ended,stepped⟩ := Option.bind_eq_some_iff.mp stepped
  cases Option.some.inj stepped
  have member := List.mem_of_getElem? present
  have waits : work.awaiting.isSome = true := by rw [waited]; rfl
  refine ⟨contained.balanced,contained.honest,fun other changed => ?_,fun other changed => ?_,
    fun other working at_ _ => ?_⟩
  · rcases List.mem_or_eq_of_mem_set changed with old | rfl
    · exact contained.paused other old
    · exact fun _ => contained.paused work member waits
  · rcases List.mem_or_eq_of_mem_set changed with old | rfl
    · exact contained.joined other old
    · exact contained.joined work member
  · rcases mem_set_table at_ with ⟨rfl,rfl⟩ | ⟨_,old⟩
    · exact contained.waiting other work present waits
    · rename_i still _
      exact contained.waiting other working old still

theorem Contained.orphanEnds {active : Nat} (contained : s.Contained active) (id place child : Nat)
    (outcome : Outcome Exn Unit) : s.orphanEnds id place child outcome = none := by
  refine Option.eq_none_iff_forall_ne_some.mpr fun next stepped => ?_
  obtain ⟨work,present,stepped⟩ := Option.bind_eq_some_iff.mp stepped
  obtain ⟨gather,left,stepped⟩ := Option.bind_eq_some_iff.mp stepped
  obtain ⟨after,ended,_⟩ := Option.bind_eq_some_iff.mp stepped
  have joined := contained.joined work (List.mem_of_getElem? present) gather (List.mem_of_getElem? left)
  have running := Gather.endChild_running ended
  simp [joined] at running

theorem step_contained {active : Nat} {action : Action} (contained : s.Contained active) (joining : s.Joining action)
    (stepped : s.step config hooks action = some next) : next.Contained active := by
  cases action with
  | call lookup =>
    cases Option.some.inj stepped
    have called : ({s with supervisor := s.supervisor.call hooks} : Lookups Env).Contained active :=
      contained.supervised hooks .call (fun _ _ same => by cases same) rfl
    refine ⟨called.balanced,called.honest,fun work member => ?_,fun work member => ?_,fun id work found waits => ?_⟩
    · rcases List.mem_append.mp member with old | new
      · exact contained.paused work old
      · rw [List.mem_singleton.mp new]
        exact fun waits => by simp [Work.begin] at waits
    · rcases List.mem_append.mp member with old | new
      · exact contained.joined work old
      · rw [List.mem_singleton.mp new]
        simp [Work.begin]
    · rcases mem_snoc_table found with old | ⟨_,rfl⟩
      · exact called.waiting id work old waits
      · simp [Work.begin] at waits
  | cancelCaller id =>
    obtain ⟨supervisor,moved,rfl⟩ := Option.map_eq_some_iff.mp stepped
    exact contained.supervised hooks (.cancelCaller id) (fun _ _ same => by cases same) moved
  | resume id =>
    obtain ⟨supervisor,moved,rfl⟩ := Option.map_eq_some_iff.mp stepped
    exact contained.supervised hooks (.resume id) (fun _ _ same => by cases same) moved
  | enter id => exact contained.enter stepped
  | answer id op reply => exact contained.answer joining stepped
  | childEnds id child outcome => exact contained.childEnds stepped
  | orphanEnds id place child outcome =>
    rw [step,contained.orphanEnds] at stepped
    simp at stepped
  | finished id =>
    obtain ⟨supervisor,moved,rfl⟩ := Option.map_eq_some_iff.mp stepped
    exact contained.supervised hooks (.finished id) (fun _ _ same => by cases same) moved
  | cancel =>
    cases Option.some.inj stepped
    exact contained.supervised hooks .cancel (fun _ _ same => by cases same) rfl

theorem Contained.upstream_busy {active : Nat} (contained : s.Contained active) {id : Nat}
    (running : s.upstream id = true) : s.supervisor.Busy id := by
  obtain ⟨work,found,running⟩ := (Option.any_eq_true _ _).mp running
  rcases (Bool.or_eq_true _ _).mp running with awaited | left
  · obtain ⟨gather,waited,_⟩ := (Option.any_eq_true _ _).mp awaited
    exact contained.waiting id work found (Option.isSome_of_mem waited)
  · obtain ⟨gather,member,running⟩ := List.any_eq_true.mp left
    simp [contained.joined work (List.mem_of_getElem? found) gather member] at running

def working (s : Lookups Env) : List Nat := (List.range s.works.length).filter s.upstream

theorem working_le {active : Nat} (balanced : s.supervisor.Balanced active 0)
    (held : ∀ id, s.upstream id = true → id ∈ s.supervisor.tasks) : s.working.length ≤ active := by
  -- distinct lookups are distinct entries of `tasks`, and each entry owns a slot
  have distinct : s.working.Nodup := List.nodup_range.filter _
  have inside : s.working.toFinset ⊆ s.supervisor.tasks := by
    intro id member
    exact held id (List.mem_filter.mp (List.mem_toFinset.mp member)).2
  have few := Finset.card_le_card inside
  rw [List.toFinset_card_of_nodup distinct] at few
  have slots := balanced.slots
  have free := balanced.nonneg
  simp only [Semaphore.available] at slots
  omega

/-- In a run that leaves no gather with a child still running, upstream work stays within
slots: every lookup with a running upstream call holds a slot and is not done, so at most
`active` lookups have upstream work and none has any when its done callback runs. -/
theorem upstream_within_slots (config : Config) (hooks : Hooks Env) (active maxQueued : Nat) (env : Env)
    (actions : List Action) (s : Lookups Env)
    (joining : Throughout (step config hooks) Joining (init active maxQueued env) actions)
    (ran : run (step config hooks) (init active maxQueued env) actions = some s) :
    (∀ id, s.upstream id = true → id ∈ s.supervisor.tasks) ∧ s.working.length ≤ active ∧
      ∀ id next, s.supervisor.finished hooks id = some next → s.upstream id = false := by
  have contained : s.Contained active := run_preserves_throughout (Contained active) Joining
    (fun _ _ _ contained joining stepped => step_contained contained joining stepped)
    (init_contained active maxQueued env) joining ran
  have owned (id : Nat) (running : s.upstream id = true) :=
    (contained.upstream_busy running).owned hooks contained.balanced contained.honest
  refine ⟨fun id running => (owned id running).1,working_le contained.balanced fun id running => (owned id running).1,?_⟩
  intro id next stepped
  by_contra running
  simp [(owned id (by simpa using running)).2] at stepped

/-- A batch of a spot price and a quote, whose two upstream calls run at once. -/
def mixedLookup : Lookup := .batch ["0xaa","0xbb"] 5 (some [none,some 2])

abbrev mixedQueries : List Query := [.prices ["0xaa"] 5 none,.prices ["0xbb"] 5 (some [2])]

def joinedRun : List Action := [
  .call mixedLookup,
  .enter 0,
  .childEnds 0 1 (.returned ()),
  .childEnds 0 0 (.raised (.timeout "")),
  .answer 0 (.await mixedQueries) (.raised (.timeout "")),
  .finished 0]

theorem upstream_within_slots_joined :
    ∃ s, run (step ethereum ⟨none,none⟩) (init 1 0 ()) joinedRun = some s ∧ s.working.length ≤ 1 := by
  have completes : (run (step ethereum ⟨none,none⟩) (init 1 0 ()) joinedRun).isSome = true := by rfl
  obtain ⟨s,ran⟩ := Option.isSome_iff_exists.mp completes
  have joining : Throughout (step ethereum ⟨none,none⟩) Joining (init 1 0 ()) joinedRun := by decide
  exact ⟨s,ran,(upstream_within_slots ethereum ⟨none,none⟩ 1 0 () joinedRun s joining ran).2.1⟩

/-- One call fails, the lookup ends and its slot goes to another one. -/
def abandonedRun : List Action := [
  .call mixedLookup,
  .enter 0,
  .childEnds 0 0 (.raised (.timeout "")),
  .answer 0 (.await mixedQueries) (.raised (.timeout ""))]

def replacement : List Action := [
  .finished 0,
  .call (.price "0xcc" 5 none []),
  .enter 1]

theorem upstream_outlives_slot :
    ∃ before after, run (step ethereum ⟨none,none⟩) (init 1 0 ()) abandonedRun = some before ∧
      before.upstream 0 = true ∧ (before.supervisor.finished ⟨none,none⟩ 0).isSome = true ∧
      run (step ethereum ⟨none,none⟩) before replacement = some after ∧
      ¬ after.working.length ≤ 1 := by
  have failed : (run (step ethereum ⟨none,none⟩) (init 1 0 ()) abandonedRun).map (fun before =>
      (before.upstream 0,(before.supervisor.finished ⟨none,none⟩ 0).isSome)) = some (true,true) := by rfl
  have replaced : (run (step ethereum ⟨none,none⟩) (init 1 0 ()) (abandonedRun++replacement)).map (fun after =>
      after.working.length) = some 2 := by rfl
  obtain ⟨before,ran,known⟩ := Option.map_eq_some_iff.mp failed
  obtain ⟨after,whole,two⟩ := Option.map_eq_some_iff.mp replaced
  obtain ⟨middle,first,second⟩ := run_append_some whole
  obtain rfl : before = middle := Option.some.inj (ran.symm.trans first)
  exact ⟨before,after,ran,(Prod.mk.inj known).1,(Prod.mk.inj known).2,second,by rw [two]; decide⟩

end Lookups

end YPriceMagic.Server
