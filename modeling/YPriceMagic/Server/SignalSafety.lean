import YPriceMagic.Server.ShutdownSignal

/-! What holds between two statements of the server's thread: of the statements left to run, of the
tasks of the warm-up, and of the handler from its first statement on. -/
namespace YPriceMagic.Server
open YPriceMagic.Async YPriceMagic.Runtime

namespace ServerState

variable {ε α : Type}

/-- What holds of the thread at every point, with and without a signal. -/
structure Sound (s : ServerState ε α) (pending : List Statement) : Prop where
  single : pending.countP Statement.source ≤ 1
  older : ∀ w ∈ s.warmup, WarmupStatement.Older w
  replaceable : ∀ inner, .warmup inner ∈ pending → inner.unguarded = true → ∀ w ∈ s.warmup, WarmupStatement.Replaceable w
  env : s.lookups.env = []

namespace Sound

variable {s : ServerState ε α} {statement : Statement} {pending rest : List Statement}

theorem exec (sound : Sound s (statement::rest)) :
    Sound (ServerState.exec statement s).1 ((ServerState.exec statement s).2++rest) := by
  obtain ⟨single,older,replaceable,env⟩ := sound
  refine ⟨?_,?_,?_,(exec_frame statement s).2.2.trans env⟩
  · rw [List.countP_append]
    exact (Nat.add_le_add_right (exec_sources statement s) _).trans (by rwa [← List.countP_append])
  · refine exec_keeps_warmup _ (fun _ => by simp [WarmupStatement.Older,BackgroundWarmup.init]) (fun inner w is present held => ?_) older
    subst is
    exact WarmupStatement.exec_older inner held fun create => replaceable inner List.mem_cons_self (by rw [create]; rfl) w present
  · intro inside member unguarded
    rcases List.mem_append.mp member with pushed | waiting
    · rcases exec_passed pushed unguarded with ⟨_,other,_⟩ | ⟨w,present,⟨rfl,_,free⟩ | ⟨rfl,_⟩⟩
      · cases other
      · refine exec_keeps_warmup _ (by simp) (fun inner w is _ held => ?_) fun other same => ?_
        · cases is
          exact held
        · cases Option.some.inj (present.symm.trans same)
          exact free
      · refine exec_keeps_warmup _ (by simp) (fun inner w is _ held => ?_) (replaceable .returnIfOver List.mem_cons_self rfl)
        cases is
        exact held
    · -- the statement under way is not a source beside the one that waits
      have other : statement.source = false := by
        by_contra source
        rw [Bool.not_eq_false] at source
        have waits : 0 < rest.countP Statement.source :=
          List.countP_pos_iff.mpr ⟨_,waiting,WarmupStatement.unguarded_source unguarded⟩
        rw [List.countP_cons_of_pos source] at single
        omega
      refine exec_keeps_warmup _ (fun _ => by simp [WarmupStatement.Replaceable,BackgroundWarmup.init,BackgroundWarmup.current])
        (fun inner w is present held => ?_) (replaceable inside (List.mem_cons_of_mem _ waiting) unguarded)
      refine WarmupStatement.exec_replaceable inner ?_ held
      rintro rfl
      simp [is,Statement.source,WarmupStatement.source] at other

theorem interrupt (sound : Sound s pending) : Sound s (handler++pending) := by
  refine ⟨sound.single,sound.older,fun inner member unguarded => ?_,sound.env⟩
  rcases List.mem_append.mp member with handling | waiting
  · simp [handler] at handling
  · exact sound.replaceable inner waiting unguarded

theorem begin {job : Job ε α} {next : ServerState ε α} (sound : Sound s []) (accepted : accept job s = some (next,pending)) :
    Sound next pending := by
  obtain ⟨single,passed⟩ := accept_passed sound.env accepted
  refine ⟨single,?_,fun inner member unguarded => ?_,(accept_cases sound.env accepted).2.2.1⟩
  · exact accept_keeps_warmup sound.env _ (fun _ _ worked => worked.older) accepted sound.older
  · exact absurd unguarded (Bool.eq_false_iff.mp (passed _ member).1)

end Sound

section
variable {s : ServerState ε α} {statement : Statement} {pending rest before after : List Statement}

/-- The warm-up is as `inner` leaves it, or the handler has still to run `inner`. -/
def Promised (s : ServerState ε α) (before : List Statement) (inner : WarmupStatement) (holds : BackgroundWarmup → Prop) : Prop :=
  ∀ w ∈ s.warmup, holds w ∨ .cancelWarmup ∈ before ∨ .warmup inner ∈ before

theorem Promised.exec {inner : WarmupStatement} {holds : BackgroundWarmup → Prop} (promised : Promised s (statement::before) inner holds)
    (fresh : statement ≠ .createWarmup) (listed : inner ∈ WarmupStatement.cancel) (done : ∀ w ∈ s.warmup, holds (inner.exec w).1)
    (kept : ∀ other w, statement = .warmup other → holds w → holds (other.exec w).1) :
    Promised (ServerState.exec statement s).1 ((ServerState.exec statement s).2++before) inner holds := by
  by_cases calls : statement = .cancelWarmup
  · subst calls
    intro w present
    change _ ∨ _ ∈ s.method WarmupStatement.cancel++before ∨ _ ∈ s.method WarmupStatement.cancel++before
    rw [method_some (s := s) present]
    exact Or.inr (Or.inr (List.mem_append_left _ (List.mem_map_of_mem listed)))
  · by_cases does : statement = .warmup inner
    · subst does
      intro w member
      left
      cases present : s.warmup with
      | none => simp [exec_warmup_none present,present] at member
      | some old =>
        rw [exec_warmup_some present] at member
        cases Option.some.inj member
        exact done old present
    · refine exec_keeps_warmup _ (absurd · fresh) (fun other w is _ => Or.imp_left (kept other w is)) fun w member => ?_
      refine (promised w member).imp_right (Or.imp (fun waiting => ?_) fun waiting => ?_)
      · exact List.mem_append_right _ ((List.mem_cons.mp waiting).resolve_left (Ne.symm calls))
      · exact List.mem_append_right _ ((List.mem_cons.mp waiting).resolve_left (Ne.symm does))

/-- What the handler has left to do and what waits for it, `before` and `after` its return. -/
structure Stopping (s : ServerState ε α) (before after : List Statement) : Prop where
  only : ∀ statement ∈ before, statement.stopping = true
  event : s.shutdownEvent = true ∨ .setShutdownEvent ∈ before
  closing : Promised s before .setClosing (·.closing = true)
  asked : Promised s before .cancelTask WarmupStatement.Asked
  uncommitted : Uncommitted s after

namespace Stopping

theorem exec_before (stopping : Stopping s (statement::before) after) (older : ∀ w ∈ s.warmup, WarmupStatement.Older w) :
    Stopping (ServerState.exec statement s).1 ((ServerState.exec statement s).2++before) after := by
  obtain ⟨only,event,closing,asked,uncommitted⟩ := stopping
  have head := only statement List.mem_cons_self
  obtain ⟨fresh,create⟩ := uncommitted_other (stopping_uncommitted (s := s) head)
  refine ⟨?_,?_,?_,?_,fun waiting member => ?_⟩
  · exact List.forall_mem_append.mpr ⟨exec_stopping head,fun later member => only later (List.mem_cons_of_mem _ member)⟩
  · rcases event with set | waiting
    · exact Or.inl (exec_event statement set)
    · rcases List.mem_cons.mp waiting with rfl | later
      · exact Or.inl rfl
      · exact Or.inr (List.mem_append_right _ later)
  · exact closing.exec fresh (by decide) (fun _ _ => rfl) fun inner w _ held => inner.exec_closing held
  · refine asked.exec fresh (by decide) (fun w present => WarmupStatement.cancelTask_asked (older w present)) fun inner w is held => ?_
    exact inner.exec_asked (fun same => create (by rw [is,same])) held
  · rw [exec_committed fresh create]
    exact uncommitted waiting member

theorem exec_after (shut : Stopping s [] (statement::after)) :
    Stopping (ServerState.exec statement s).1 [] ((ServerState.exec statement s).2++after) := by
  obtain ⟨_,event,closing,asked,uncommitted⟩ := shut
  simp only [Promised,List.not_mem_nil,or_false] at event closing asked
  have here := uncommitted statement List.mem_cons_self
  obtain ⟨fresh,create⟩ := uncommitted_other here
  refine ⟨by simp,Or.inl (exec_event statement event),fun w member => Or.inl ?_,fun w member => Or.inl ?_,fun waiting member => ?_⟩
  · exact exec_keeps_warmup (·.closing = true) (absurd · fresh) (fun inner w _ _ held => inner.exec_closing held) closing w member
  · refine exec_keeps_warmup WarmupStatement.Asked (absurd · fresh) (fun inner w is _ held => ?_) asked w member
    exact inner.exec_asked (fun same => create (by rw [is,same])) held
  · rw [exec_committed fresh create]
    rcases List.mem_append.mp member with pushed | later
    · by_contra committed
      rw [Bool.not_eq_false] at committed
      rcases exec_passed pushed (committed_passed committed) with ⟨_,_,unset⟩ | ⟨w,present,⟨_,open_,_⟩ | ⟨rfl,cancelled⟩⟩
      · simp [event] at unset
      · simp [closing w present] at open_
      · change s.warmup.any (fun w => !w.current.any (·.outcome ≠ some .cancelled)) = false at here
        rw [Option.mem_def.mp present,Option.any_some,cancelled] at here
        cases here
    · exact uncommitted waiting (List.mem_cons_of_mem _ later)

theorem begin {job : Job ε α} {next : ServerState ε α} (shut : Stopping s [] []) (env : s.lookups.env = [])
    (accepted : accept job s = some (next,pending)) : Stopping next [] pending := by
  obtain ⟨_,event,closing,asked,_⟩ := shut
  simp only [Promised,List.not_mem_nil,or_false] at event closing asked
  have same := (accept_cases env accepted).1
  refine ⟨by simp,Or.inl (same.trans event),fun w member => Or.inl ?_,fun w member => Or.inl ?_,fun statement member => ?_⟩
  · exact accept_keeps_warmup env (·.closing = true) (fun _ _ worked => worked.closing) accepted closing w member
  · exact accept_keeps_warmup env _ (fun _ _ worked => worked.asked) accepted asked w member
  · by_contra committed
    rw [Bool.not_eq_false] at committed
    exact absurd (committed_passed committed) (Bool.eq_false_iff.mp ((accept_passed env accepted).2 statement member).1)

end Stopping

/-- Once the handler has returned nothing is left of it; until then its return is next after `before`. -/
def Stopped (s : ServerState ε α) (pending : List Statement) : Prop := ∃ before after, pending = before++after ∧
  (s.signalled = true → before = []) ∧ (s.signalled = false → after.head? = some .returned) ∧ Stopping s before after

structure Inv (s : ServerState ε α) (pending : List Statement) : Prop where
  sound : Sound s pending
  stopped : s.signalled = true ∨ .returned ∈ pending → Stopped s pending

namespace Inv

theorem init : Inv (ServerState.init : ServerState ε α) [] :=
  ⟨⟨Nat.zero_le _,by simp [ServerState.init],by simp,rfl⟩,by simp [ServerState.init]⟩

theorem shut (inv : Inv s pending) (signalled : s.signalled = true) : Stopping s [] pending := by
  obtain ⟨before,after,shape,finished,_,stopping⟩ := inv.stopped (Or.inl signalled)
  obtain rfl := finished signalled
  obtain rfl : pending = after := shape
  exact stopping

theorem exec (inv : Inv s (statement::rest)) : Inv (ServerState.exec statement s).1 ((ServerState.exec statement s).2++rest) := by
  refine ⟨inv.sound.exec,fun later => ?_⟩
  have earlier : s.signalled = true ∨ .returned ∈ statement::rest := by
    by_cases here : statement = .returned
    · exact Or.inr (here ▸ List.mem_cons_self)
    · rw [exec_signalled here] at later
      exact later.imp_right fun member => List.mem_cons_of_mem _ ((List.mem_append.mp member).resolve_left exec_returned)
  obtain ⟨before,after,shape,finished,waits,stopping⟩ := inv.stopped earlier
  cases before with
  | nil =>
    -- the handler has returned, or this is its return
    obtain rfl : after = statement::rest := shape.symm
    refine ⟨[],_,rfl,fun _ => rfl,fun running => ?_,stopping.exec_after⟩
    by_cases here : statement = .returned
    · subst here
      cases running
    · rw [exec_signalled here] at running
      exact absurd (Option.some.inj (waits running)) here
  | cons first others =>
    obtain ⟨rfl,rfl⟩ := List.cons.inj shape
    have here : statement ≠ .returned := by
      rintro rfl
      cases stopping.only .returned List.mem_cons_self
    refine ⟨_,after,(List.append_assoc ..).symm,?_,?_,stopping.exec_before inv.sound.older⟩
    · rw [exec_signalled here]
      exact fun done => absurd (finished done) (List.cons_ne_nil _ _)
    · rw [exec_signalled here]
      exact waits

theorem interrupt (inv : Inv s pending) (spared : s.signalled = true ∨ Uncommitted s pending) : Inv s (handler++pending) := by
  refine ⟨inv.sound.interrupt,fun _ => ?_⟩
  cases signalled : s.signalled with
  | true =>
    -- whatever was to be stopped has been stopped by the signal before
    have stopping := inv.shut signalled
    refine ⟨[],_,rfl,fun _ => rfl,by simp [signalled],⟨stopping.only,stopping.event,stopping.closing,stopping.asked,?_⟩⟩
    have handling : Uncommitted s handler := by simp [Uncommitted,handler,committed]
    exact List.forall_mem_append.mpr ⟨handling,stopping.uncommitted⟩
  | false =>
    have uncommitted := spared.resolve_left (by simp [signalled])
    refine ⟨[.setShutdownEvent,.clearReady,.cancelWarmup],.returned::pending,rfl,by simp [signalled],fun _ => rfl,?_⟩
    refine ⟨by decide,Or.inr (by decide),fun _ _ => Or.inr (Or.inl (by decide)),fun _ _ => Or.inr (Or.inl (by decide)),?_⟩
    exact List.forall_mem_cons.mpr ⟨rfl,uncommitted⟩

theorem begin {job : Job ε α} {next : ServerState ε α} (inv : Inv s []) (accepted : accept job s = some (next,pending)) :
    Inv next pending := by
  refine ⟨inv.sound.begin accepted,fun later => ?_⟩
  have same := (accept_cases inv.sound.env accepted).2.1
  have signalled : s.signalled = true := by
    rcases later with signalled | member
    · exact same.symm.trans signalled
    · exact absurd rfl ((accept_passed inv.sound.env accepted).2 _ member).2
  exact ⟨[],pending,rfl,fun _ => rfl,by simp [same.trans signalled],(inv.shut signalled).begin inv.sound.env accepted⟩

end Inv

end

end ServerState

namespace ServerThread
open ServerState

variable {ε α : Type}

theorem run_inv {actions : List (Action ε α)} {s : ServerThread ε α} (spared : Throughout step (Thread.Spared Uncommitted) init actions)
    (reached : run step init actions = some s) : Inv s.store s.pending :=
  Thread.run_invariant Inv (fun _ _ _ inv => inv.exec) (fun _ _ spared inv => inv.interrupt (Or.inr spared))
    (fun _ _ _ _ inv accepted => inv.begin accepted) Inv.init spared reached

/-- After the signal the handler may run again anywhere. -/
theorem run_shut {actions : List (Action ε α)} {s t : ServerThread ε α} (inv : Inv s.store s.pending)
    (signalled : s.store.signalled = true) (ran : run step s actions = some t) :
    Stopping t.store [] t.pending ∧ t.store.invocations = s.store.invocations := by
  have anywhere : Throughout step (Thread.Spared fun _ _ => True) s actions :=
    throughout_of_all (fun _ action => by cases action <;> trivial) s actions
  have kept := Thread.run_invariant
    (fun store pending => Inv store pending ∧ store.signalled = true ∧ store.invocations = s.store.invocations)
    (fun store statement rest held => ?_) (fun store pending _ held => ?_) (fun store job after pending held accepted => ?_)
    ⟨inv,signalled,rfl⟩ anywhere ran
  · exact ⟨kept.1.shut kept.2.1,kept.2.2⟩
  · obtain ⟨inv,signalled,same⟩ := held
    have fresh := (uncommitted_other ((inv.shut signalled).uncommitted statement List.mem_cons_self)).1
    refine ⟨inv.exec,?_,(exec_invocations store fresh).trans same⟩
    by_cases here : statement = .returned
    · subst here
      rfl
    · exact (exec_signalled here).trans signalled
  · obtain ⟨inv,signalled,same⟩ := held
    exact ⟨inv.interrupt (Or.inl signalled),signalled,same⟩
  · obtain ⟨inv,signalled,same⟩ := held
    refine ⟨inv.begin accepted,(accept_cases inv.sound.env accepted).2.1.trans signalled,(accept_invocations inv.sound.env accepted ?_).trans same⟩
    exact fun w present => ((inv.shut signalled).asked w present).resolve_right (by simp)

/-- Where no signal arrives between the last check before the warm-up and what it lets through,
nothing starts once the handler has returned, and every task that still runs was asked to cancel. -/
theorem nothing_starts_after_signal (before after : List (Action ε α)) {s t : ServerThread ε α}
    (reached : run step init before = some s) (spared : Throughout step (Thread.Spared Uncommitted) init before)
    (signalled : s.store.signalled = true) (ran : run step s after = some t) :
    t.store.invocations = s.store.invocations ∧
      ∀ w ∈ t.store.warmup, ∀ task ∈ w.spawned, task.done = false → task.cancelRequested = true := by
  obtain ⟨shut,same⟩ := run_shut (run_inv spared reached) signalled ran
  exact ⟨same,fun w present => (shut.asked w present).resolve_right (by simp)⟩

def advances (n : Nat) : List (Action ε α) := List.replicate n .advance

/-- The warm-up runs when the signal arrives, and ends cancelled before the server leaves. -/
theorem nothing_starts_after_signal_serving : ∃ s t : ServerThread Unit Unit,
    run step init ([.job .initialized]++advances 9++[.job (.work 0 none),.interrupt]++advances 7) = some s ∧ s.store.signalled = true ∧
      run step s ([.job (.work 0 (some .cancelled)),.job (.finished 0)]++advances 2++[.job .leave]++advances 2) = some t ∧
      t.store.invocations = s.store.invocations := by
  refine ⟨_,_,rfl,rfl,rfl,?_⟩
  exact (nothing_starts_after_signal ([.job .initialized]++advances 9++[.job (.work 0 none),.interrupt]++advances 7)
    ([.job (.work 0 (some .cancelled)),.job (.finished 0)]++advances 2++[.job .leave]++advances 2) rfl (by decide) rfl rfl).1

/-- A signal just past the check of the startup, and one inside the callback of the last lookup, past
the checks of `resume`: each time the work begins and its task is not asked to cancel. -/
theorem signal_past_the_checks :
    (∃ s t : ServerThread Unit Unit, run step init ([.job .initialized,.advance,.interrupt]++advances 4) = some s ∧
      s.store.signalled = true ∧ run step s (advances 8++[.job (.work 0 none)]) = some t ∧
      s.store.invocations < t.store.invocations ∧ t.store.warmup.any (·.spawned.any fun task => !task.done && !task.cancelRequested) = true) ∧
    (∃ s t : ServerThread Unit Unit, run step init ([.job .initialized]++advances 9++[.job (.work 0 none),.job (.lookup .call)]++advances 3++
        [.job (.work 0 (some .cancelled)),.job (.finished 0)]++advances 2++
        [.job (.lookup (.workStep 0 (some (.returned ())))),.job (.lookup (.finished 0))]++advances 3++[.interrupt]++advances 7) = some s ∧
      s.store.signalled = true ∧ run step s (advances 3++[.job (.work 1 none)]) = some t ∧
      s.store.invocations < t.store.invocations ∧ t.store.warmup.any (·.spawned.any fun task => !task.done && !task.cancelRequested) = true) :=
  ⟨⟨_,_,rfl,rfl,rfl,by decide,by decide⟩,⟨_,_,rfl,rfl,rfl,by decide,by decide⟩⟩

end ServerThread
end YPriceMagic.Server
