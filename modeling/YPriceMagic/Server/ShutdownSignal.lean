import YPriceMagic.Runtime.Foreground
import YPriceMagic.Runtime.WarmupStatements
import YPriceMagic.Server.Health

/-! The signal handler between any two statements of the server's thread, once the startup has
installed it: of the startup itself, of the callbacks of a lookup and of those of the warm-up. -/
namespace YPriceMagic.Server
open YPriceMagic.Async YPriceMagic.Runtime

/-- First those of `_signal_shutdown_handler` with its return, then the two hooks of the lookups
and the lifespan; `resumeWarmup` is a statement of the startup as well. -/
inductive Statement
  | setShutdownEvent
  | clearReady
  | cancelWarmup
  | returned
  | pauseWarmup
  | resumeWarmup
  | checkShutdown
  | createWarmup
  | becomeReady
  | closeLookups
  | warmup (statement : WarmupStatement)
  deriving DecidableEq, Repr

namespace Statement

/-- What may lead to a task of the warm-up. -/
def source : Statement → Bool
  | .resumeWarmup | .checkShutdown => true
  | .warmup statement => statement.source
  | _ => false

/-- What runs only past a test. -/
def passed : Statement → Bool
  | .createWarmup => true
  | .warmup statement => statement.unguarded
  | _ => false

/-- What the handler runs before it returns. -/
def stopping : Statement → Bool
  | .setShutdownEvent | .clearReady | .cancelWarmup | .warmup .setClosing | .warmup .setPaused | .warmup .cancelTask => true
  | _ => false

end Statement

/-- `signalled` records whether the handler has returned. -/
structure ServerState (ε α : Type) where
  shutdownEvent : Bool
  ready : Bool
  warmup : Option BackgroundWarmup
  lookups : LookupSupervisor (List Statement) ε α
  lifespan : Lifespan
  signalled : Bool

/-- What the event loop calls: the lifespan where it goes on after an await, the lookups, the
task of the warm-up and its done callback. -/
inductive Job (ε α : Type)
  | initialized
  | failed
  | leave
  | lookupsClosed
  | lookup (action : LookupSupervisor.Action ε α)
  | work (i : Nat) (ending : Option (Outcome Unit Unit))
  | finished (i : Nat)

namespace ServerState

variable {ε α : Type}

/-- The lookups of the server have the supervisor's own limits. -/
def init : ServerState ε α := ⟨false,false,none,LookupSupervisor.init 2 32 [],.starting,false⟩

def method (s : ServerState ε α) (statements : List WarmupStatement) : List Statement :=
  if s.warmup.isSome then statements.map .warmup else []

def exec : Statement → ServerState ε α → ServerState ε α × List Statement
  | .setShutdownEvent,s => ({s with shutdownEvent := true},[])
  | .clearReady,s => ({s with ready := false},[])
  | .cancelWarmup,s => (s,s.method WarmupStatement.cancel)
  | .returned,s => ({s with signalled := true},[])
  | .pauseWarmup,s => (s,s.method WarmupStatement.pause)
  | .resumeWarmup,s => (s,s.method WarmupStatement.resume)
  | .checkShutdown,s =>
    if s.shutdownEvent then ({s with lifespan := .closing},[.closeLookups])
    else ({s with lifespan := .checked},[.createWarmup,.resumeWarmup,.becomeReady])
  | .createWarmup,s => ({s with warmup := some BackgroundWarmup.init},[])
  | .becomeReady,s => ({s with ready := true,lifespan := .serving},[])
  | .closeLookups,s => ({s with lookups := s.lookups.cancel},[])
  | .warmup statement,s =>
    match s.warmup with
    | some w => ({s with warmup := some (statement.exec w).1},(statement.exec w).2.map .warmup)
    | none => (s,[])

def handler : List Statement := [.setShutdownEvent,.clearReady,.cancelWarmup,.returned]

/-- A lookup calls at most one hook between two awaits. What it does besides touches neither the
shutdown event nor the warm-up, so it makes no difference at which end of it the hook runs. -/
def hooks : Hooks (List Statement) := ⟨some (·++[.pauseWarmup]),some (·++[.resumeWarmup])⟩

def accept : Job ε α → ServerState ε α → Option (ServerState ε α × List Statement)
  | .initialized,s => if s.lifespan = .starting then some (s,[.checkShutdown]) else none
  | .failed,s => if s.lifespan = .starting then some ({s with lifespan := .closing},[.closeLookups]) else none
  | .leave,s => if s.lifespan = .serving then some ({s with lifespan := .closing},[.clearReady,.closeLookups]) else none
  | .lookupsClosed,s => if s.lifespan = .closing then some ({s with lifespan := .idle},[.cancelWarmup]) else none
  | .lookup action,s => (s.lookups.step hooks action).map fun lookups => ({s with lookups := {lookups with env := []}},lookups.env)
  | .work i ending,s => do
    let w ← s.warmup
    let w ← w.step (.workStep i ending)
    some ({s with warmup := some w},[])
  | .finished i,s => do
    let w ← s.warmup
    let task ← w.spawned[i]?
    let task ← task.callback
    some ({s with warmup := some {w with spawned := w.spawned.set i task}},(WarmupStatement.finished i).map .warmup)

def invocations (s : ServerState ε α) : Nat := (s.warmup.map (·.invocations)).getD 0

/-- The last check before the warm-up has been passed, and its creation or that of its task is next. -/
def committed (s : ServerState ε α) : Statement → Bool
  | .createWarmup | .warmup .createTask => true
  | .warmup .returnIfOver => s.warmup.any fun w => !w.current.any (·.outcome ≠ some .cancelled)
  | _ => false

def Uncommitted (s : ServerState ε α) (pending : List Statement) : Prop := ∀ statement ∈ pending, s.committed statement = false

instance (s : ServerState ε α) (pending : List Statement) : Decidable (s.Uncommitted pending) :=
  inferInstanceAs (Decidable (∀ _ ∈ pending, _))

section
variable {s : ServerState ε α} {statement : Statement} {pending : List Statement} {w : BackgroundWarmup}

theorem exec_warmup_some (present : s.warmup = some w) (statement : WarmupStatement) : exec (.warmup statement) s =
    ({s with warmup := some (statement.exec w).1},(statement.exec w).2.map .warmup) := by
  simp [exec,present]

theorem exec_warmup_none (absent : s.warmup = none) (statement : WarmupStatement) : exec (.warmup statement) s = (s,[]) := by
  simp [exec,absent]

theorem exec_keeps_warmup (holds : BackgroundWarmup → Prop) (fresh : statement = .createWarmup → holds BackgroundWarmup.init)
    (kept : ∀ inner w, statement = .warmup inner → s.warmup = some w → holds w → holds (inner.exec w).1)
    (held : ∀ w ∈ s.warmup, holds w) : ∀ w ∈ (exec statement s).1.warmup, holds w := by
  cases statement with
  | createWarmup =>
    intro w member
    cases Option.some.inj member
    exact fresh rfl
  | warmup inner =>
    cases present : s.warmup with
    | none =>
      rw [exec_warmup_none present]
      exact held
    | some old =>
      rw [exec_warmup_some present]
      intro w member
      cases Option.some.inj member
      exact kept inner old rfl present (held old present)
  | checkShutdown =>
    simp only [exec]
    split <;> exact held
  | _ => exact held

theorem method_sources (s : ServerState ε α) (statements : List WarmupStatement) :
    (s.method statements).countP Statement.source ≤ statements.countP WarmupStatement.source := by
  unfold method
  split
  · rw [List.countP_map]
    exact le_rfl
  · exact Nat.zero_le _

theorem method_some (present : s.warmup = some w) (statements : List WarmupStatement) :
    s.method statements = statements.map .warmup := by
  simp [method,present]

theorem mem_method {statements : List WarmupStatement} {pushed : Statement} (member : pushed ∈ s.method statements) :
    s.warmup.isSome = true ∧ ∃ inner ∈ statements, .warmup inner = pushed := by
  unfold method at member
  split at member
  · exact ⟨‹_›,List.mem_map.mp member⟩
  · simp at member

theorem method_passed {statements : List WarmupStatement} (guarded : ∀ inner ∈ statements, inner.unguarded = false)
    {pushed : Statement} (member : pushed ∈ s.method statements) : pushed.passed = false := by
  obtain ⟨_,inner,listed,rfl⟩ := mem_method member
  exact guarded inner listed

theorem exec_sources (statement : Statement) (s : ServerState ε α) :
    (exec statement s).2.countP Statement.source ≤ [statement].countP Statement.source := by
  cases statement with
  | cancelWarmup => exact s.method_sources WarmupStatement.cancel
  | pauseWarmup => exact s.method_sources WarmupStatement.pause
  | resumeWarmup => exact s.method_sources WarmupStatement.resume
  | checkShutdown =>
    simp only [exec]
    split
    · exact Nat.zero_le _
    · exact Nat.le_refl 1
  | warmup inner =>
    cases present : s.warmup with
    | none =>
      rw [exec_warmup_none present]
      exact Nat.zero_le _
    | some w =>
      rw [exec_warmup_some present,List.countP_map]
      exact inner.exec_sources w
  | _ => exact Nat.zero_le _

theorem exec_frame (statement : Statement) (s : ServerState ε α) :
    (exec statement s).1.shutdownEvent = (s.shutdownEvent || statement == .setShutdownEvent) ∧
    (exec statement s).1.signalled = (s.signalled || statement == .returned) ∧ (exec statement s).1.lookups.env = s.lookups.env := by
  cases statement with
  | checkShutdown =>
    simp only [exec]
    split <;> simp
  | warmup inner => cases present : s.warmup <;> simp [exec,present]
  | closeLookups => simp [exec,LookupSupervisor.cancel]
  | _ => simp [exec]

theorem exec_event (statement : Statement) (set : s.shutdownEvent = true) : (exec statement s).1.shutdownEvent = true := by
  simp [(exec_frame statement s).1,set]

theorem exec_signalled (other : statement ≠ .returned) : (exec statement s).1.signalled = s.signalled := by
  simp [(exec_frame statement s).2.1,other]

/-- The three tests and what each of them has found. -/
theorem exec_passed {pushed : Statement} (member : pushed ∈ (exec statement s).2) (passed : pushed.passed = true) :
    statement = .checkShutdown ∧ pushed = .createWarmup ∧ s.shutdownEvent = false ∨ ∃ w ∈ s.warmup,
      statement = .warmup .returnIfBusy ∧ w.closing = false ∧ WarmupStatement.Replaceable w ∨
      statement = .warmup .returnIfOver ∧ w.current.any (·.outcome ≠ some .cancelled) = false := by
  have impossible (not : pushed.passed = false) : False := by simp [not] at passed
  cases statement with
  | cancelWarmup | pauseWarmup | resumeWarmup => exact (impossible (method_passed (by decide) member)).elim
  | checkShutdown =>
    simp only [exec] at member
    split at member <;> simp only [List.mem_cons,List.not_mem_nil,or_false] at member
    · exact (impossible (by rw [member]; rfl)).elim
    · rename_i event
      rcases member with rfl | rfl | rfl
      · exact Or.inl ⟨rfl,rfl,by simpa using event⟩
      · exact (impossible rfl).elim
      · exact (impossible rfl).elim
  | warmup inner =>
    cases present : s.warmup with
    | none => simp [exec_warmup_none present] at member
    | some w =>
      rw [exec_warmup_some present] at member
      obtain ⟨inside,listed,rfl⟩ := List.mem_map.mp member
      refine Or.inr ⟨w,rfl,?_⟩
      exact (WarmupStatement.exec_unguarded listed passed).imp (And.imp_left (congrArg _)) (And.imp_left (congrArg _))
  | _ => simp [exec] at member

/-- What a job starts with, the done callback of the warm-up apart. -/
def openings : List (List Statement) :=
  [[],[.checkShutdown],[.closeLookups],[.clearReady,.closeLookups],[.cancelWarmup],[.pauseWarmup],[.resumeWarmup]]

theorem accept_cases {job : Job ε α} {next : ServerState ε α} (env : s.lookups.env = []) (accepted : accept job s = some (next,pending)) :
    next.shutdownEvent = s.shutdownEvent ∧ next.signalled = s.signalled ∧ next.lookups.env = [] ∧
      (next.warmup = s.warmup ∧ pending ∈ openings ∨ ∃ w after, s.warmup = some w ∧ next.warmup = some after ∧
        WarmupStatement.Worked w after ∧ (pending = [] ∨ ∃ i, pending = [.warmup (.completeUnlessCancelled i)])) := by
  cases job with
  | initialized | failed | leave | lookupsClosed =>
    simp only [accept] at accepted
    split at accepted <;> cases accepted
    exact ⟨rfl,rfl,env,Or.inl ⟨rfl,by decide⟩⟩
  | lookup action =>
    obtain ⟨lookups,stepped,same⟩ := Option.map_eq_some_iff.mp accepted
    cases same
    have called := LookupSupervisor.step_env stepped
    rw [env] at called
    refine ⟨rfl,rfl,rfl,Or.inl ⟨rfl,?_⟩⟩
    rcases called with same | paused | resumed
    · simp [same,openings]
    · simp [paused,openings,hooks]
    · simp [resumed,openings,hooks]
  | work i ending =>
    obtain ⟨w,present,accepted⟩ := Option.bind_eq_some_iff.mp accepted
    obtain ⟨after,stepped,accepted⟩ := Option.bind_eq_some_iff.mp accepted
    cases Option.some.inj accepted
    exact ⟨rfl,rfl,env,Or.inr ⟨w,after,present,rfl,.work i ending after stepped,Or.inl rfl⟩⟩
  | finished i =>
    obtain ⟨w,present,accepted⟩ := Option.bind_eq_some_iff.mp accepted
    obtain ⟨task,found,accepted⟩ := Option.bind_eq_some_iff.mp accepted
    obtain ⟨after,called,accepted⟩ := Option.bind_eq_some_iff.mp accepted
    cases Option.some.inj accepted
    exact ⟨rfl,rfl,env,Or.inr ⟨w,_,present,rfl,.called i task after found called,Or.inr ⟨i,rfl⟩⟩⟩

theorem accept_keeps_warmup {job : Job ε α} {next : ServerState ε α} (env : s.lookups.env = []) (holds : BackgroundWarmup → Prop)
    (kept : ∀ w after, WarmupStatement.Worked w after → holds w → holds after) (accepted : accept job s = some (next,pending))
    (held : ∀ w ∈ s.warmup, holds w) : ∀ w ∈ next.warmup, holds w := by
  rcases (accept_cases env accepted).2.2.2 with ⟨same,_⟩ | ⟨w,after,present,present',worked,_⟩
  · rw [same]
    exact held
  · intro other member
    cases Option.some.inj (present'.symm.trans member)
    exact kept w _ worked (held w present)

theorem accept_opening {job : Job ε α} {next : ServerState ε α} (env : s.lookups.env = []) (accepted : accept job s = some (next,pending)) :
    pending ∈ openings ∨ next.warmup.isSome = true ∧ ∃ i, pending = [.warmup (.completeUnlessCancelled i)] := by
  rcases (accept_cases env accepted).2.2.2 with ⟨_,opening⟩ | ⟨w,after,_,present,_,rfl | called⟩
  · exact Or.inl opening
  · exact Or.inl (by decide)
  · exact Or.inr ⟨by rw [present]; rfl,called⟩

/-- A job brings at most one source, and what it brings has passed no test. -/
theorem accept_passed {job : Job ε α} {next : ServerState ε α} (env : s.lookups.env = []) (accepted : accept job s = some (next,pending)) :
    pending.countP Statement.source ≤ 1 ∧ ∀ statement ∈ pending, statement.passed = false ∧ statement ≠ .returned := by
  rcases accept_opening env accepted with opening | ⟨_,i,rfl⟩
  · have all : ∀ opening ∈ openings, opening.countP Statement.source ≤ 1 ∧
        ∀ statement ∈ opening, statement.passed = false ∧ statement ≠ .returned := by decide
    exact all pending opening
  · refine ⟨Nat.le_refl 1,fun statement member => ?_⟩
    cases List.mem_singleton.mp member
    exact ⟨rfl,Statement.noConfusion⟩

theorem exec_committed (fresh : statement ≠ .createWarmup) (create : statement ≠ .warmup .createTask) (waiting : Statement) :
    (exec statement s).1.committed waiting = s.committed waiting := by
  cases waiting with
  | warmup inside =>
    cases inside with
    | returnIfOver =>
      simp only [committed]
      cases statement with
      | createWarmup => exact absurd rfl fresh
      | checkShutdown =>
        simp only [exec]
        split <;> rfl
      | warmup inner =>
        cases present : s.warmup with
        | none => rw [exec_warmup_none present,present]
        | some w =>
          rw [exec_warmup_some present]
          simp only [Option.any_some]
          rw [WarmupStatement.exec_over w inner fun same => create (congrArg _ same)]
      | _ => rfl
    | _ => rfl
  | _ => rfl

theorem uncommitted_other (uncommitted : s.committed statement = false) :
    statement ≠ .createWarmup ∧ statement ≠ .warmup .createTask := by
  constructor <;>
  · rintro rfl
    cases uncommitted

theorem stopping_uncommitted (stopping : statement.stopping = true) : s.committed statement = false := by
  cases statement with
  | createWarmup => cases stopping
  | warmup inner => cases inner <;> first | rfl | cases stopping
  | _ => rfl

theorem committed_passed (committed : s.committed statement = true) : statement.passed = true := by
  cases statement with
  | createWarmup => rfl
  | warmup inner => cases inner <;> first | rfl | simp [ServerState.committed] at committed
  | _ => simp [ServerState.committed] at committed

theorem exec_stopping (stopping : statement.stopping = true) : ∀ pushed ∈ (exec statement s).2, pushed.stopping = true := by
  cases statement with
  | cancelWarmup =>
    intro pushed member
    obtain ⟨_,inner,listed,rfl⟩ := mem_method member
    have all : ∀ inner ∈ WarmupStatement.cancel, (Statement.warmup inner).stopping = true := by decide
    exact all inner listed
  | warmup inner =>
    cases present : s.warmup with
    | none => simp [exec_warmup_none present]
    | some w =>
      rw [exec_warmup_some present]
      cases inner with
      | setClosing | setPaused | cancelTask => simp [WarmupStatement.exec]
      | _ => cases stopping
  | setShutdownEvent | clearReady => simp [exec]
  | _ => cases stopping

/-- Statements lead to statements of a warm-up that is there, the check of the startup apart. -/
theorem exec_pushes {pushed : Statement} (member : pushed ∈ (exec statement s).2) :
    (s.warmup.isSome = true ∧ ∃ inner, pushed = .warmup inner) ∨
      statement = .checkShutdown ∧ pushed ∈ [.closeLookups,.createWarmup,.resumeWarmup,.becomeReady] := by
  cases statement with
  | cancelWarmup | pauseWarmup | resumeWarmup =>
    obtain ⟨present,inner,_,same⟩ := mem_method member
    exact Or.inl ⟨present,inner,same.symm⟩
  | checkShutdown =>
    simp only [exec] at member
    split at member
    · exact Or.inr ⟨rfl,List.mem_append_left [_,_,_] member⟩
    · exact Or.inr ⟨rfl,List.mem_cons_of_mem _ member⟩
  | warmup inner =>
    cases present : s.warmup with
    | none => simp [exec_warmup_none present] at member
    | some w =>
      rw [exec_warmup_some present] at member
      obtain ⟨inside,_,same⟩ := List.mem_map.mp member
      exact Or.inl ⟨rfl,inside,same.symm⟩
  | _ => simp [exec] at member

theorem exec_returned : .returned ∉ (exec statement s).2 := by
  intro member
  rcases exec_pushes member with ⟨_,_,same⟩ | ⟨_,listed⟩
  · cases same
  · simp at listed

theorem exec_invocations (s : ServerState ε α) (other : statement ≠ .createWarmup) :
    (exec statement s).1.invocations = s.invocations := by
  cases statement with
  | createWarmup => exact absurd rfl other
  | checkShutdown =>
    simp only [exec]
    split <;> rfl
  | warmup inner =>
    cases present : s.warmup with
    | none => rw [exec_warmup_none present]
    | some w =>
      rw [exec_warmup_some present]
      simp only [invocations,present,Option.map_some]
      rw [inner.exec_invocations w]
  | _ => rfl

theorem accept_invocations {job : Job ε α} {next : ServerState ε α} (env : s.lookups.env = []) (accepted : accept job s = some (next,pending))
    (asked : ∀ w ∈ s.warmup, WarmupStatement.Asked w) : next.invocations = s.invocations := by
  rcases (accept_cases env accepted).2.2.2 with ⟨same,_⟩ | ⟨w,after,present,present',worked,_⟩
  · rw [invocations,invocations,same]
  · simp [invocations,present,present',worked.invocations (asked w present)]

end

end ServerState

abbrev ServerThread (ε α : Type) := Thread (ServerState ε α) Statement

namespace ServerThread
open ServerState

variable {ε α : Type}

def init : ServerThread ε α := ⟨ServerState.init,[]⟩

abbrev Action (ε α : Type) := Thread.Action (Job ε α)

abbrev step : ServerThread ε α → Action ε α → Option (ServerThread ε α) := Thread.step exec handler accept

end ServerThread
end YPriceMagic.Server
