import YPriceMagic.Server.SignalSafety

/-! What the statements do when no signal comes between them, and what becomes of the warm-up when
one comes past the last check. -/
namespace YPriceMagic.Server
open YPriceMagic.Async YPriceMagic.Runtime

namespace ServerState
open Thread

variable {ε α : Type} {s : ServerState ε α}

theorem warmup_completes {statements : List WarmupStatement} {w final : BackgroundWarmup}
    (completes : Completes WarmupStatement.exec statements w final) (present : s.warmup = some w) :
    Completes exec (statements.map .warmup) s {s with warmup := some final} := by
  induction completes generalizing s with
  | done w =>
    rw [← present]
    exact .done s
  | next statement rest w final _ ih =>
    refine .next _ _ _ _ ?_
    rw [exec_warmup_some present,← List.map_append]
    exact ih (s := {s with warmup := some (statement.exec w).1}) rfl

theorem method_completes {statements : List WarmupStatement} {method : BackgroundWarmup → BackgroundWarmup}
    (completes : ∀ w, Completes WarmupStatement.exec statements w (method w)) (s : ServerState ε α) :
    Completes exec (s.method statements) s {s with warmup := s.warmup.map method} := by
  cases present : s.warmup with
  | none =>
    have none : s.method statements = [] := by simp [ServerState.method,present]
    rw [none,Option.map_none,← present]
    exact .done s
  | some w =>
    rw [method_some present]
    exact warmup_completes (completes w) present

/-- `_signal_shutdown_handler` when no other signal comes. -/
def signal (s : ServerState ε α) : ServerState ε α :=
  {s with shutdownEvent := true,ready := false,warmup := s.warmup.map BackgroundWarmup.cancel,signalled := true}

theorem handler_completes (s : ServerState ε α) : Completes exec handler s s.signal :=
  .next _ _ _ _ (.next _ _ _ _ (.next _ _ _ _
    (.append (method_completes WarmupStatement.cancel_completes {s with shutdownEvent := true,ready := false}) (.next _ _ _ _ (.done _)))))

/-- The warm-up that a job leaves where each method of `BackgroundWarmup` is one step. -/
def operation (s : ServerState ε α) : Job ε α → Option BackgroundWarmup
  | .initialized => if s.shutdownEvent then s.warmup else some BackgroundWarmup.init.resume
  | .failed | .leave => s.warmup
  | .lookupsClosed => s.warmup.map BackgroundWarmup.cancel
  | .lookup action => s.warmup.bind fun w => ((s.lookups.withEnv w).step Foreground.hooks action).map (·.env)
  | .work i ending => s.warmup.bind (·.step (.workStep i ending))
  | .finished i => s.warmup.bind (·.step (.finished i))

def hookCalled (w : BackgroundWarmup) : Statement → BackgroundWarmup
  | .pauseWarmup => w.pause
  | .resumeWarmup => w.resume
  | _ => w

/-- The supervisor calls the methods where it leaves their statements to the thread. -/
theorem operation_lookup {action : LookupSupervisor.Action ε α} {lookups : LookupSupervisor (List Statement) ε α}
    (env : s.lookups.env = []) (stepped : s.lookups.step hooks action = some lookups) :
    s.operation (.lookup action) = s.warmup.map fun w => lookups.env.foldl hookCalled w := by
  cases present : s.warmup with
  | none => simp [operation,present]
  | some w =>
    have active (env : List Statement) (after : BackgroundWarmup) (now : after = env.foldl hookCalled w) :
        Foreground.hooks.onActive.getD (fun w => w) after = (hooks.onActive.getD (fun env => env) env).foldl hookCalled w := by
      simp [hooks,Foreground.hooks,hookCalled,now]
    have idle (env : List Statement) (after : BackgroundWarmup) (now : after = env.foldl hookCalled w) :
        Foreground.hooks.onIdle.getD (fun w => w) after = (hooks.onIdle.getD (fun env => env) env).foldl hookCalled w := by
      simp [hooks,Foreground.hooks,hookCalled,now]
    have here : w = s.lookups.env.foldl hookCalled w := by rw [env,List.foldl_nil]
    obtain ⟨after,same,called⟩ := LookupSupervisor.step_withEnv active idle here stepped
    rw [operation,present,Option.bind_some,same,Option.map_some,Option.map_some,← called]
    rfl

theorem called_completes {statement : Statement} {statements : List WarmupStatement} {method : BackgroundWarmup → BackgroundWarmup}
    (completes : ∀ w, Completes WarmupStatement.exec statements w (method w))
    (called : exec statement s = (s,s.method statements)) : Completes exec [statement] s {s with warmup := s.warmup.map method} := by
  refine .next _ _ _ _ ?_
  rw [called,List.append_nil]
  exact method_completes completes s

theorem create_completes (s : ServerState ε α) : Completes exec [.createWarmup,.resumeWarmup,.becomeReady] s
    {s with warmup := some BackgroundWarmup.init.resume,ready := true,lifespan := .serving} := by
  have resumed : Completes exec [.resumeWarmup] {s with warmup := some BackgroundWarmup.init}
      {s with warmup := some BackgroundWarmup.init.resume} := called_completes WarmupStatement.resume_completes rfl
  exact .next _ _ _ _ (resumed.append (.next _ _ _ _ (.done _)))

theorem startup_completes (unset : s.shutdownEvent = false) : Completes exec [.checkShutdown] s
    {s with warmup := some BackgroundWarmup.init.resume,ready := true,lifespan := .serving} := by
  refine .next _ _ _ _ ?_
  have checked : exec .checkShutdown s = ({s with lifespan := .checked},[.createWarmup,.resumeWarmup,.becomeReady]) := by
    simp [exec,unset]
  rw [checked]
  exact create_completes {s with lifespan := .checked}

theorem abort_completes (set : s.shutdownEvent = true) : Completes exec [.checkShutdown] s
    {s with lifespan := .closing,lookups := s.lookups.cancel} := by
  refine .next _ _ _ _ ?_
  have checked : exec .checkShutdown s = ({s with lifespan := .closing},[.closeLookups]) := by simp [exec,set]
  rw [checked]
  exact .next _ _ _ _ (.done _)

/-- Undisturbed, every job is over after finitely many statements, and leaves the warm-up as its methods
in one step each leave it. -/
theorem job_completes {job : Job ε α} {next : ServerState ε α} {pending : List Statement} (env : s.lookups.env = [])
    (accepted : accept job s = some (next,pending)) :
    ∃ final, Completes exec pending next final ∧ final.warmup = s.operation job := by
  cases job with
  | initialized =>
    simp only [accept] at accepted
    split at accepted <;> cases accepted
    cases event : s.shutdownEvent with
    | true => exact ⟨_,abort_completes event,by rw [operation,if_pos event]⟩
    | false => exact ⟨_,startup_completes event,by rw [operation,if_neg (by rw [event]; exact Bool.false_ne_true)]⟩
  | failed =>
    simp only [accept] at accepted
    split at accepted <;> cases accepted
    exact ⟨_,.next _ _ _ _ (.done _),rfl⟩
  | leave =>
    simp only [accept] at accepted
    split at accepted <;> cases accepted
    exact ⟨_,.next _ _ _ _ (.next _ _ _ _ (.done _)),rfl⟩
  | lookupsClosed =>
    simp only [accept] at accepted
    split at accepted <;> cases accepted
    exact ⟨_,called_completes WarmupStatement.cancel_completes rfl,rfl⟩
  | lookup action =>
    obtain ⟨lookups,stepped,same⟩ := Option.map_eq_some_iff.mp accepted
    cases same
    rw [operation_lookup env stepped]
    have called := LookupSupervisor.step_env stepped
    rw [env] at called
    rcases called with same | paused | resumed
    · rw [same]
      exact ⟨_,.done _,by simp⟩
    · rw [paused]
      exact ⟨_,called_completes WarmupStatement.pause_completes rfl,rfl⟩
    · rw [resumed]
      exact ⟨_,called_completes WarmupStatement.resume_completes rfl,rfl⟩
  | work i ending =>
    obtain ⟨w,present,accepted⟩ := Option.bind_eq_some_iff.mp accepted
    obtain ⟨after,stepped,accepted⟩ := Option.bind_eq_some_iff.mp accepted
    cases Option.some.inj accepted
    exact ⟨_,.done _,by rw [operation,present,Option.bind_some,stepped]⟩
  | finished i =>
    obtain ⟨w,present,accepted⟩ := Option.bind_eq_some_iff.mp accepted
    obtain ⟨task,found,accepted⟩ := Option.bind_eq_some_iff.mp accepted
    obtain ⟨after,called,accepted⟩ := Option.bind_eq_some_iff.mp accepted
    cases Option.some.inj accepted
    have inside := (List.getElem?_eq_some_iff.mp found).1
    obtain ⟨ended,_,rfl⟩ := Task.callback_cases called
    have back : (w.spawned.set i {task with calledBack := true})[i]? = some {task with calledBack := true} := by simp [inside]
    have ends : ({task with calledBack := true} : Task Unit Unit).done = true := ended
    refine ⟨_,warmup_completes (WarmupStatement.finished_completes back ends) rfl,?_⟩
    rw [operation,present,Option.bind_some]
    simp only [BackgroundWarmup.step,found,called,bind,Option.bind_some]

/-- Without a signal the statements left are of one job, and past a test only the next one can be. -/
structure Orderly (s : ServerState ε α) (pending : List Statement) : Prop where
  check : .checkShutdown ∈ pending → pending = [.checkShutdown]
  create : .createWarmup ∈ pending → pending = [.createWarmup,.resumeWarmup,.becomeReady]
  guarded : ∀ inner, .warmup inner ∈ pending.tail → inner.unguarded = false
  present : ∀ inner, .warmup inner ∈ pending → s.warmup.isSome = true

theorem exec_present {statement : Statement} (present : s.warmup.isSome = true) : (exec statement s).1.warmup.isSome = true := by
  cases statement with
  | checkShutdown =>
    simp only [exec]
    split <;> exact present
  | createWarmup => rfl
  | warmup inner => cases here : s.warmup <;> simp [exec,here] at present ⊢
  | _ => exact present

theorem exec_tail {statement : Statement} {inner : WarmupStatement} (member : .warmup inner ∈ (exec statement s).2.tail) :
    inner.unguarded = false := by
  by_contra unguarded
  rw [Bool.not_eq_false] at unguarded
  rcases exec_passed (List.mem_of_mem_tail member) unguarded with ⟨_,other,_⟩ | ⟨w,present,⟨rfl,_⟩ | ⟨rfl,_⟩⟩
  · cases other
  · rw [exec_warmup_some present] at member
    simp only [WarmupStatement.exec] at member
    split at member <;> simp at member
  · rw [exec_warmup_some present] at member
    simp only [WarmupStatement.exec] at member
    split at member <;> simp at member

namespace Orderly

theorem init : Orderly (ServerState.init : ServerState ε α) [] := ⟨by simp,by simp,by simp,by simp⟩

variable {statement : Statement} {pending rest : List Statement}

theorem exec (orderly : Orderly s (statement::rest)) :
    Orderly (ServerState.exec statement s).1 ((ServerState.exec statement s).2++rest) := by
  obtain ⟨check,create,guarded,present⟩ := orderly
  have last (listed : statement = .checkShutdown) : rest = [] := (List.cons.inj (check (listed ▸ List.mem_cons_self))).2
  refine ⟨fun member => ?_,fun member => ?_,fun inner member => ?_,fun inner member => ?_⟩
  · rcases List.mem_append.mp member with pushed | waiting
    · rcases exec_pushes pushed with ⟨_,_,same⟩ | ⟨_,listed⟩
      · cases same
      · simp at listed
    · have alone := List.cons.inj (check (List.mem_cons_of_mem _ waiting))
      rw [alone.2] at waiting
      cases waiting
  · rcases List.mem_append.mp member with pushed | waiting
    · rcases exec_pushes pushed with ⟨_,_,same⟩ | ⟨rfl,_⟩
      · cases same
      · rw [last rfl]
        simp only [ServerState.exec] at pushed ⊢
        split at pushed
        · simp at pushed
        · rename_i unset
          rw [if_neg unset]
          rfl
    · have started := List.cons.inj (create (List.mem_cons_of_mem _ waiting))
      rw [started.2] at waiting
      simp at waiting
  · cases pushed : (ServerState.exec statement s).2 with
    | nil =>
      rw [pushed] at member
      exact guarded inner (List.mem_of_mem_tail member)
    | cons first others =>
      rw [pushed] at member
      rcases List.mem_append.mp member with here | waiting
      · exact exec_tail (by rw [pushed]; exact here)
      · exact guarded inner waiting
  · rcases List.mem_append.mp member with pushed | waiting
    · rcases exec_pushes pushed with ⟨here,_⟩ | ⟨_,listed⟩
      · exact exec_present here
      · simp at listed
    · exact exec_present (present inner (List.mem_cons_of_mem _ waiting))

theorem begin {job : Job ε α} {next : ServerState ε α} (env : s.lookups.env = []) (accepted : accept job s = some (next,pending)) :
    Orderly next pending := by
  rcases accept_opening env accepted with opening | ⟨present,i,rfl⟩
  · simp only [openings,List.mem_cons,List.not_mem_nil,or_false] at opening
    rcases opening with rfl | rfl | rfl | rfl | rfl | rfl | rfl <;> exact ⟨by simp,by simp,by simp,by simp⟩
  · exact ⟨by simp,by simp,by simp,fun _ _ => present⟩

theorem head (orderly : Orderly s pending) (member : statement ∈ pending) (committed : s.committed statement = true) :
    ∃ rest, pending = statement::rest := by
  have passed := committed_passed committed
  cases statement with
  | createWarmup => exact ⟨_,orderly.create member⟩
  | warmup inner =>
    cases pending with
    | nil => cases member
    | cons first rest =>
      rcases List.mem_cons.mp member with rfl | later
      · exact ⟨rest,rfl⟩
      · exact absurd passed (Bool.eq_false_iff.mp (orderly.guarded inner later))
  | _ => cases passed

end Orderly

theorem committed_signal (s : ServerState ε α) (statement : Statement) : s.signal.committed statement = s.committed statement := by
  cases statement with
  | warmup inner =>
    cases inner with
    | returnIfOver =>
      simp only [committed,signal,Option.any_map]
      congr 1
      funext w
      exact congrArg (!·) (WarmupStatement.exec_over {w with closing := true,paused := true} .cancelTask (by simp))
    | _ => rfl
  | _ => rfl

/-- The handler has returned, and a task of the warm-up runs on that nobody asked to cancel. -/
def Astray (s : ServerState ε α) : Prop :=
  s.signalled = true ∧ ∃ w ∈ s.warmup, ∃ task ∈ w.spawned, task.done = false ∧ task.cancelRequested = false

variable {rest : List Statement}

theorem createTask_astray (signalled : s.signalled = true) (present : s.warmup.isSome = true) :
    Astray (exec (.warmup .createTask) s).1 := by
  obtain ⟨w,here⟩ := Option.isSome_iff_exists.mp present
  rw [exec_warmup_some here]
  exact ⟨signalled,_,rfl,{},List.mem_append_right _ List.mem_cons_self,rfl,rfl⟩

/-- Past a test the thread goes on to a task that no one cancels. -/
theorem committed_creates {statement : Statement} (orderly : Orderly s (statement::rest)) (committed : s.committed statement = true) :
    ∃ actions t, (∀ action ∈ actions, action = .advance) ∧
      run ServerThread.step ⟨s.signal,statement::rest⟩ actions = some t ∧ t.store.Astray := by
  have passed := committed_passed committed
  rw [← committed_signal] at committed
  cases statement with
  | createWarmup =>
    rw [(List.cons.inj (orderly.create List.mem_cons_self)).2]
    obtain ⟨actions,only,ran⟩ := (create_completes s.signal).runs []
    exact ⟨actions,_,only,ran,rfl,_,rfl,{},List.mem_cons_self,rfl,rfl⟩
  | warmup inner =>
    have present : s.signal.warmup.isSome = true := by simpa [signal] using orderly.present inner List.mem_cons_self
    cases inner with
    | createTask => exact ⟨[.advance],_,by simp,rfl,createTask_astray rfl present⟩
    | returnIfOver =>
      obtain ⟨w,here⟩ := Option.isSome_iff_exists.mp present
      have cancelled : w.current.any (·.outcome ≠ some .cancelled) = false := by
        change s.signal.warmup.any (fun w => !w.current.any (·.outcome ≠ some .cancelled)) = true at committed
        rwa [here,Option.any_some,Bool.not_eq_true'] at committed
      have led : exec (.warmup .returnIfOver) s.signal = (s.signal,[.warmup .createTask]) := by
        rw [exec_warmup_some here]
        simp only [WarmupStatement.exec,cancelled,← here]
        rfl
      refine ⟨[.advance,.advance],⟨_,(exec (.warmup .createTask) s.signal).2++rest⟩,by simp,?_,createTask_astray rfl present⟩
      change run ServerThread.step
        ⟨(exec (.warmup .returnIfOver) s.signal).1,(exec (.warmup .returnIfOver) s.signal).2++rest⟩ [.advance] = _
      rw [led]
      rfl
    | _ => cases passed
  | _ => cases passed

end ServerState

namespace ServerThread
open ServerState

variable {ε α : Type}

/-- Nothing that the supervisor asks of the warm-up is left for later. -/
theorem run_env {before : List (Action ε α)} {s : ServerThread ε α} (reached : run step init before = some s) :
    s.store.lookups.env = [] := by
  have anywhere : Throughout step (Thread.Spared fun _ _ => True) (init : ServerThread ε α) before :=
    throughout_of_all (fun t action => by cases action <;> trivial) init before
  exact Thread.run_invariant (fun (store : ServerState ε α) _ => store.lookups.env = [])
    (fun store statement _ env => (exec_frame statement store).2.2.trans env) (fun _ _ _ env => env)
    (fun _ _ _ _ env accepted => (accept_cases env accepted).2.2.1) rfl anywhere reached

/-- Wherever signals came before, a job ends if none comes while it is under way, and its statements leave the
warm-up as its methods in one step each leave it. -/
theorem job_ends {before : List (Action ε α)} {s t : ServerThread ε α} {job : Job ε α} (reached : run step init before = some s)
    (taken : step s (.job job) = some t) : ∃ actions final, (∀ action ∈ actions, action = .advance) ∧
      run step t actions = some ⟨final,[]⟩ ∧ final.warmup = s.store.operation job := by
  obtain ⟨idle,accepted⟩ := Thread.begin_some taken
  obtain ⟨final,completes,left⟩ := job_completes (run_env reached) accepted
  obtain ⟨actions,only,ran⟩ := completes.runs []
  rw [List.append_nil] at ran
  exact ⟨actions,final,only,ran,left⟩

/-- The first lookup of a started server pauses the warm-up. -/
theorem job_ends_paused : ∃ s t : ServerThread Unit Unit, run step init (.job .initialized::advances 9) = some s ∧
    s.store.warmup.map (·.paused) = some false ∧ step s (.job (.lookup .call)) = some t ∧
    ∃ actions final, (∀ action ∈ actions, action = .advance) ∧ run step t actions = some ⟨final,[]⟩ ∧
      final.warmup.map (·.paused) = some true := by
  obtain ⟨s,reached,unpaused,t,taken,paused⟩ : ∃ s ∈ run step init (.job .initialized::advances 9 : List (Action Unit Unit)),
      s.store.warmup.map (·.paused) = some false ∧ ∃ t ∈ step s (.job (.lookup .call)),
        (s.store.operation (.lookup .call)).map (·.paused) = some true := ⟨_,rfl,rfl,_,rfl,rfl⟩
  obtain ⟨actions,final,only,ran,left⟩ := job_ends reached taken
  exact ⟨s,t,reached,unpaused,taken,actions,final,only,ran,by rw [left]; exact paused⟩

/-- The points left out are those where the signal does harm: at each of them the thread goes on, undisturbed,
to a task that is not asked to cancel. -/
theorem signal_past_a_check {before : List (Action ε α)} {s : ServerThread ε α} (reached : run step init before = some s)
    (undisturbed : Throughout step (Thread.Spared fun _ _ => False) init before) (committed : ¬ Uncommitted s.store s.pending) :
    ∃ actions t, (∀ action ∈ actions, action = .advance) ∧ run step s (.interrupt::actions) = some t ∧ t.store.Astray := by
  have held := Thread.run_invariant (fun store pending => Orderly store pending ∧ store.lookups.env = [])
    (fun store statement rest held => ⟨held.1.exec,(exec_frame statement store).2.2.trans held.2⟩) (fun _ _ signalled => signalled.elim)
    (fun _ _ _ _ held accepted => ⟨.begin held.2 accepted,(accept_cases held.2 accepted).2.2.1⟩)
    ⟨.init,rfl⟩ undisturbed reached
  obtain ⟨store,pending⟩ := s
  obtain ⟨orderly,_⟩ := held
  simp only [Uncommitted,not_forall,Bool.not_eq_false] at committed
  obtain ⟨statement,member,committed⟩ := committed
  obtain ⟨rest,rfl⟩ := orderly.head member committed
  obtain ⟨first,onlyFirst,ranFirst⟩ : ∃ actions, (∀ action ∈ actions, action = .advance) ∧
      run step ⟨store,handler++statement::rest⟩ actions = some ⟨store.signal,statement::rest⟩ := (handler_completes store).runs (statement::rest)
  obtain ⟨second,t,onlySecond,ranSecond,astray⟩ := committed_creates orderly committed
  refine ⟨first++second,t,fun action member => (List.mem_append.mp member).elim (onlyFirst action) (onlySecond action),?_,astray⟩
  rw [run_cons]
  change run step ⟨store,handler++statement::rest⟩ (first++second) = some t
  rw [run_append,ranFirst]
  exact ranSecond

/-- A signal between the false shutdown check of the startup and the creation of the warm-up. -/
theorem signal_past_a_check_startup : ∃ s : ServerThread Unit Unit, run step init [.job .initialized,.advance] = some s ∧
    ∃ actions t, (∀ action ∈ actions, action = .advance) ∧ run step s (.interrupt::actions) = some t ∧ t.store.Astray := by
  refine ⟨_,rfl,?_⟩
  have undisturbed : Throughout step (Thread.Spared fun _ _ => False) (init : ServerThread Unit Unit) [.job .initialized,.advance] := by
    decide
  exact signal_past_a_check rfl undisturbed (by decide)

end ServerThread
end YPriceMagic.Server
