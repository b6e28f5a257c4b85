import YPriceMagic.Async.Entries
import YPriceMagic.Async.Run
import YPriceMagic.Server.Responses

/-! `/health` against the readiness of the server: the lifespan, the signal handler and any number
of requests, each between its awaits. The signal handler runs between any two steps, also
between the shutdown check of the startup and the assignment that makes the server ready. -/
namespace YPriceMagic.Server
open YPriceMagic.Async

/-- How `check_node_async()` ends under its timeout. -/
inductive NodeCheck
  | returned
  | timeout
  | nodeNotSynced
  | error (message : String)
  deriving DecidableEq, Repr

def NodeCheck.synced : NodeCheck → Option Bool
  | .returned => some true
  | .nodeNotSynced => some false
  | .timeout | .error _ => none

/-- Absent keys are `none`; `synced` may be present and null. -/
structure HealthResponse where
  statusCode : Nat
  status : String
  chain : String
  block : Option Nat := none
  synced : Option (Option Bool) := none
  error : Option String := none
  deriving DecidableEq, Repr

inductive HealthRequest
  | readingHead
  | checkingNode (height : Nat)
  | responded (response : HealthResponse)
  deriving DecidableEq, Repr

/-- Where the lifespan stands; `checked` is past the shutdown check of the startup. -/
inductive Lifespan
  | idle
  | starting
  | checked
  | serving
  | closing
  deriving DecidableEq, Repr

/-- `signalled` records whether the signal handler has run since the lifespan started. -/
structure Readiness where
  ready : Bool
  shutdownEvent : Bool
  lifespan : Lifespan
  signalled : Bool
  requests : List HealthRequest

namespace Readiness

def init : Readiness := ⟨false,false,.idle,false,[]⟩

def isReady (s : Readiness) : Bool := s.ready && !s.shutdownEvent

section
variable (config : Config)

def unavailable : HealthResponse := ⟨503,"unavailable",config.chainName,none,none,none⟩

def rpcFailed : HealthResponse := ⟨503,"unhealthy",config.chainName,none,none,some "RPC connection failed"⟩

def checkedResponse (height : Nat) (synced : Option Bool) : HealthResponse where
  statusCode := if synced = some true then 200 else 503
  status := if synced = some true then "ok" else "unhealthy"
  chain := config.chainName
  block := some height
  synced := some synced

def opened (s : Readiness) : HealthRequest := if s.isReady then .readingHead else .responded (unavailable config)

def afterHead : Except Exn Nat → HealthRequest
  | .ok height => .checkingNode height
  | .error _ => .responded (rpcFailed config)

/-- The readiness is looked at again after both awaits. -/
def answer (s : Readiness) (height : Nat) (check : NodeCheck) : HealthResponse :=
  if s.isReady then checkedResponse config height check.synced else unavailable config

/-- The first part of `health`, up to the read of the head block. -/
def request (s : Readiness) : Readiness := {s with requests := s.requests ++ [s.opened config]}

def headRead (s : Readiness) (id : Nat) (head : Except Exn Nat) : Option Readiness :=
  match s.requests[id]? with
  | some .readingHead => some {s with requests := s.requests.set id (afterHead config head)}
  | _ => none

/-- The last part of `health`. -/
def nodeChecked (s : Readiness) (id : Nat) (check : NodeCheck) : Option Readiness :=
  match s.requests[id]? with
  | some (.checkingNode height) =>
    some {s with requests := s.requests.set id (.responded (s.answer config height check))}
  | _ => none

/-- `_signal_shutdown_handler`. -/
def signal (s : Readiness) : Readiness := {s with shutdownEvent := true,ready := false,signalled := true}

/-- The lifespan up to its first await. -/
def start (s : Readiness) : Option Readiness :=
  if s.lifespan = .idle then
    some {s with ready := false,shutdownEvent := false,lifespan := .starting,signalled := false}
  else none

/-- `if _shutdown_event.is_set(): raise` after the required initialization. -/
def checkShutdown (s : Readiness) : Option Readiness :=
  if s.lifespan = .starting then some {s with lifespan := if s.shutdownEvent then .closing else .checked} else none

/-- The startup raises at any of its steps. -/
def fail (s : Readiness) : Option Readiness :=
  if s.lifespan = .starting ∨ s.lifespan = .checked then some {s with lifespan := .closing} else none

def becomeReady (s : Readiness) : Option Readiness :=
  if s.lifespan = .checked then some {s with lifespan := .serving,ready := true} else none

def teardown (s : Readiness) : Option Readiness :=
  if s.lifespan = .serving then some {s with lifespan := .closing,ready := false} else none

def ended (s : Readiness) : Option Readiness :=
  if s.lifespan = .closing then some {s with lifespan := .idle} else none

inductive Action
  | start
  | checkShutdown
  | fail
  | becomeReady
  | teardown
  | ended
  | signal
  | request
  | headRead (id : Nat) (head : Except Exn Nat)
  | nodeChecked (id : Nat) (check : NodeCheck)

def step (s : Readiness) : Action → Option Readiness
  | .start => s.start
  | .checkShutdown => s.checkShutdown
  | .fail => s.fail
  | .becomeReady => s.becomeReady
  | .teardown => s.teardown
  | .ended => s.ended
  | .signal => some s.signal
  | .request => some (s.request config)
  | .headRead id head => s.headRead config id head
  | .nodeChecked id check => s.nodeChecked config id check

/-- What `/health` stands for: the startup has completed, the teardown has not begun and no
shutdown has been signalled in this lifespan. -/
def Up (s : Readiness) : Prop := s.lifespan = .serving ∧ s.signalled = false

structure Inv (s : Readiness) : Prop where
  ready : s.ready = true → s.lifespan = .serving
  event : s.lifespan ≠ .idle → s.shutdownEvent = s.signalled
  serving : s.Up → s.ready = true

theorem Inv.isReady_iff {s : Readiness} (inv : s.Inv) : s.isReady = true ↔ s.Up := by
  unfold isReady Up
  rw [Bool.and_eq_true,Bool.not_eq_true']
  constructor
  · rintro ⟨ready,quiet⟩
    have serving := inv.ready ready
    exact ⟨serving,by rw [← inv.event (by rw [serving]; decide)]; exact quiet⟩
  · rintro ⟨serving,quiet⟩
    exact ⟨inv.serving ⟨serving,quiet⟩,by rw [inv.event (by rw [serving]; decide)]; exact quiet⟩

theorem init_inv : init.Inv := by
  refine ⟨?_,?_,?_⟩ <;> simp [init,Up]

theorem headRead_some {s next : Readiness} {id : Nat} {head : Except Exn Nat}
    (stepped : s.headRead config id head = some next) :
    s.requests[id]? = some .readingHead ∧ next = {s with requests := s.requests.set id (afterHead config head)} := by
  unfold headRead at stepped
  split at stepped
  · rename_i reading
    exact ⟨reading,(Option.some.inj stepped).symm⟩
  · contradiction

theorem nodeChecked_some {s next : Readiness} {id : Nat} {check : NodeCheck}
    (stepped : s.nodeChecked config id check = some next) :
    ∃ height, s.requests[id]? = some (.checkingNode height) ∧
      next = {s with requests := s.requests.set id (.responded (s.answer config height check))} := by
  unfold nodeChecked at stepped
  split at stepped
  · rename_i height checking
    exact ⟨height,checking,(Option.some.inj stepped).symm⟩
  · contradiction

theorem step_inv (s : Readiness) (action : Action) (next : Readiness) (inv : s.Inv)
    (stepped : s.step config action = some next) : next.Inv := by
  obtain ⟨ready,event,serving⟩ := inv
  cases action with
  | start | checkShutdown | fail | becomeReady | teardown | ended =>
    simp only [step,start,checkShutdown,fail,becomeReady,teardown,ended,Option.ite_none_right_eq_some] at stepped
    obtain ⟨here,same⟩ := stepped
    cases same
    constructor <;> grind [Up]
  | signal =>
    cases Option.some.inj stepped
    exact ⟨by simp [signal],by simp [signal],by simp [signal,Up]⟩
  | request =>
    cases Option.some.inj stepped
    exact ⟨ready,event,serving⟩
  | headRead id head =>
    obtain ⟨_,rfl⟩ := headRead_some config stepped
    exact ⟨ready,event,serving⟩
  | nodeChecked id check =>
    obtain ⟨_,_,rfl⟩ := nodeChecked_some config stepped
    exact ⟨ready,event,serving⟩

/-- What brought a request where it stands after a step. -/
theorem request_step {s next : Readiness} {action : Action} {id : Nat} {standing : HealthRequest}
    (stepped : s.step config action = some next) (there : next.requests[id]? = some standing) :
    s.requests[id]? = some standing ∨
    (action = .request ∧ id = s.requests.length ∧ standing = s.opened config) ∨
    (∃ head, action = .headRead id head ∧ standing = afterHead config head) ∨
    (∃ height check, action = .nodeChecked id check ∧ s.requests[id]? = some (.checkingNode height) ∧
      standing = .responded (s.answer config height check)) := by
  cases action with
  | start | checkShutdown | fail | becomeReady | teardown | ended =>
    simp only [step,start,checkShutdown,fail,becomeReady,teardown,ended,Option.ite_none_right_eq_some] at stepped
    obtain ⟨_,same⟩ := stepped
    cases same
    exact Or.inl there
  | signal =>
    cases Option.some.inj stepped
    exact Or.inl there
  | request =>
    cases Option.some.inj stepped
    rcases mem_snoc_table there with old | ⟨last,new⟩
    · exact Or.inl old
    · exact Or.inr (Or.inl ⟨rfl,last,new⟩)
  | headRead other head =>
    obtain ⟨_,rfl⟩ := headRead_some config stepped
    rcases mem_set_table there with ⟨rfl,new⟩ | ⟨_,old⟩
    · exact Or.inr (Or.inr (Or.inl ⟨head,rfl,new⟩))
    · exact Or.inl old
  | nodeChecked other check =>
    obtain ⟨height,checking,rfl⟩ := nodeChecked_some config stepped
    rcases mem_set_table there with ⟨rfl,new⟩ | ⟨_,old⟩
    · exact Or.inr (Or.inr (Or.inr ⟨height,check,rfl,checking,new⟩))
    · exact Or.inl old

theorem answer_statusCode (s : Readiness) (height : Nat) (check : NodeCheck) :
    ((s.answer config height check).statusCode = 200 ∨ (s.answer config height check).statusCode = 503) ∧
    ((s.answer config height check).statusCode = 200 ↔ s.isReady = true ∧ check = .returned) := by
  unfold answer
  cases here : s.isReady <;> cases check <;> simp [unavailable,checkedResponse,NodeCheck.synced]

theorem opened_statusCode {s : Readiness} {response : HealthResponse} (answered : s.opened config = .responded response) :
    response.statusCode = 503 := by
  unfold opened at answered
  split at answered
  · contradiction
  · cases answered
    rfl

theorem afterHead_statusCode {head : Except Exn Nat} {response : HealthResponse}
    (answered : afterHead config head = .responded response) : response.statusCode = 503 := by
  cases head with
  | ok height => contradiction
  | error error =>
    cases answered
    rfl

theorem headRead_mem {s : Readiness} {actions : List Action} {id height : Nat}
    (ran : run (step config) init actions = some s) (checking : s.requests[id]? = some (.checkingNode height)) :
    .headRead id (.ok height) ∈ actions := by
  refine run_history (fun actions (s : Readiness) => s.requests[id]? = some (.checkingNode height) →
    .headRead id (.ok height) ∈ actions) (fun checking => by simp [init] at checking) ?_ ran checking
  intro earlier before action after _ read stepped checking
  rcases request_step config stepped checking with old | ⟨_,_,new⟩ | ⟨head,rfl,new⟩ | ⟨_,_,_,_,new⟩
  · exact List.mem_append_left _ (read old)
  · unfold opened at new
    split at new <;> contradiction
  · cases head with
    | ok read =>
      cases new
      simp
    | error error => contradiction
  · contradiction

/-- A request is answered at the step that leaves it responded. -/
theorem healthy_only_when_up (actions : List Action) (s next : Readiness) (action : Action) (id : Nat)
    (response : HealthResponse) (ran : run (step config) init actions = some s)
    (stepped : s.step config action = some next) (answered : next.requests[id]? = some (.responded response))
    (unanswered : s.requests[id]? ≠ some (.responded response)) :
    (response.statusCode = 200 ∨ response.statusCode = 503) ∧
    (response.statusCode = 200 ↔ s.Up ∧ (∃ height, .headRead id (.ok height) ∈ actions) ∧
      action = .nodeChecked id .returned) := by
  have inv : s.Inv := run_preserves Inv (step_inv config) init_inv ran
  rcases request_step config stepped answered with old | ⟨rfl,_,new⟩ | ⟨head,rfl,new⟩ | ⟨height,check,rfl,checking,new⟩
  · exact absurd old unanswered
  · have refused := opened_statusCode config new.symm
    simp [refused]
  · have refused := afterHead_statusCode config new.symm
    simp [refused]
  · cases new
    have read : ∃ height, .headRead id (.ok height) ∈ actions := ⟨height,headRead_mem config ran checking⟩
    obtain ⟨status,healthy⟩ := answer_statusCode config s height check
    refine ⟨status,healthy.trans ?_⟩
    rw [inv.isReady_iff]
    constructor
    · rintro ⟨up,rfl⟩
      exact ⟨up,read,rfl⟩
    · rintro ⟨up,_,same⟩
      cases same
      exact ⟨up,rfl⟩

def startup : List Action := [.start,.checkShutdown,.becomeReady,.request,.headRead 0 (.ok 5)]

def started : Readiness := ⟨true,false,.serving,false,[.checkingNode 5]⟩

theorem healthy_only_when_up_started :
    (checkedResponse ethereum 5 (some true)).statusCode = 200 ∧ started.Up ∧
      ∃ height, Action.headRead 0 (.ok height) ∈ startup := by
  have answered := healthy_only_when_up ethereum startup started
    {started with requests := [.responded (checkedResponse ethereum 5 (some true))]} (.nodeChecked 0 .returned) 0
    (checkedResponse ethereum 5 (some true)) rfl rfl rfl (by decide)
  have met := answered.2.mp rfl
  exact ⟨rfl,met.1,met.2.1⟩

end
end Readiness
end YPriceMagic.Server
