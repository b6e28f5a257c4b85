import Mathlib.Logic.Function.Basic
import YPriceMagic.Frontend.TokenIndex
import YPriceMagic.Server.Health

/-! The health indicator of the page header, which polls the server of the chosen chain, together
with the servers it polls: their lifespans, signals and other requests go on meanwhile. -/
namespace YPriceMagic.Frontend
open YPriceMagic.Async YPriceMagic.Server

inductive HealthIndicatorState
  | ok
  | warning
  | error
  deriving DecidableEq, Repr

def mapHealthResponseToState (response : HealthResponse) : HealthIndicatorState :=
  if response.status ≠ "ok" then .error
  else if response.synced = some (some true) then .ok
  else .warning

/-- What `updateHealth` shows for an answer: `fetchHealth` throws unless `res.ok`. -/
def indicated (response : HealthResponse) : HealthIndicatorState :=
  if 200 ≤ response.statusCode ∧ response.statusCode < 300 then mapHealthResponseToState response else .error

/-- Where a poll stands; `asked` and `settled` name the request that the server made of it. -/
inductive PollStage
  | sent
  | asked (id : Nat)
  | settled (id : Option Nat)
  deriving DecidableEq, Repr

structure Poll where
  targetChain : Chain
  stage : PollStage
  deriving DecidableEq, Repr

inductive Mounting
  | created
  | mounted
  | unmounted
  deriving DecidableEq, Repr

/-- The component. `intervals` has the target of each interval ever set, or `none` once it is cleared;
`healthPollInterval` is the place of one. -/
structure Header where
  chain : Chain
  mounting : Mounting
  healthState : HealthIndicatorState
  healthPollInterval : Option Nat
  intervals : List (Option Chain)
  polls : List Poll

namespace Header

def init (chain : Chain) : Header := ⟨chain,.created,.error,none,[],[]⟩

/-- `updateHealth` up to its await. -/
def updateHealth (h : Header) (targetChain : Chain) : Header := {h with polls := h.polls ++ [⟨targetChain,.sent⟩]}

def stopHealthPolling (h : Header) : Header :=
  match h.healthPollInterval with
  | some id => {h with intervals := h.intervals.set id none,healthPollInterval := none}
  | none => h

def startHealthPolling (h : Header) (targetChain : Chain) : Header :=
  let h := h.stopHealthPolling.updateHealth targetChain
  {h with intervals := h.intervals ++ [some targetChain],healthPollInterval := some h.intervals.length}

/-- `onMount`, then the effect's first run. -/
def mount (h : Header) : Option Header :=
  if h.mounting = .created then some (({h with mounting := .mounted}.startHealthPolling h.chain).startHealthPolling h.chain)
  else none

/-- The effect is cleaned up and runs again. -/
def changeChain (h : Header) (chain : Chain) : Option Header :=
  if h.mounting = .mounted then some ({h.stopHealthPolling with chain}.startHealthPolling chain) else none

/-- Both cleanups run. -/
def unmount (h : Header) : Option Header :=
  if h.mounting = .mounted then some {h.stopHealthPolling.stopHealthPolling with mounting := .unmounted} else none

/-- An interval fires. -/
def tick (h : Header) (id : Nat) : Option Header :=
  match h.intervals[id]? with
  | some (some targetChain) => some (h.updateHealth targetChain)
  | _ => none

def settle (h : Header) (k : Nat) (poll : Poll) (id : Option Nat) (healthState : HealthIndicatorState) : Header :=
  {h with healthState,polls := h.polls.set k {poll with stage := .settled id}}

/-- The fetch or the reading of its answer throws. -/
def failed (h : Header) (k : Nat) : Option Header :=
  match h.polls[k]? with
  | some poll => match poll.stage with
    | .settled _ => none
    | _ => some (h.settle k poll none .error)
  | none => none

/-- No interval is live but the one that is held. -/
def Held (h : Header) : Prop := ∀ (id : Nat) target, h.intervals[id]? = some (some target) → h.healthPollInterval = some id

def Quiet (h : Header) : Prop := ∀ (id : Nat) target, h.intervals[id]? ≠ some (some target)

/-- The one live interval is held and polls the chain. -/
def PollsOnly (h : Header) (chain : Chain) : Prop := ∃ id, h.healthPollInterval = some id ∧
  ∀ (other : Nat) target, h.intervals[other]? = some (some target) ↔ other = id ∧ target = chain

theorem Quiet.held {h : Header} (quiet : h.Quiet) : h.Held := fun id target live => absurd live (quiet id target)

theorem PollsOnly.held {h : Header} {chain : Chain} (polls : h.PollsOnly chain) : h.Held := by
  obtain ⟨id,held,only⟩ := polls
  intro other target live
  rw [((only other target).mp live).1]
  exact held

theorem Held.stop {h : Header} (held : h.Held) : h.stopHealthPolling.Quiet ∧ h.stopHealthPolling.healthPollInterval = none := by
  unfold stopHealthPolling
  split
  · rename_i id same
    refine ⟨fun other target live => ?_,rfl⟩
    rcases mem_set_table live with ⟨_,cleared⟩ | ⟨differs,old⟩
    · cases cleared
    · exact differs (Option.some.inj ((held other target old).symm.trans same))
  · rename_i empty
    refine ⟨fun other target live => ?_,empty⟩
    rw [held other target live] at empty
    cases empty

theorem Held.start {h : Header} (held : h.Held) (chain : Chain) : (h.startHealthPolling chain).PollsOnly chain := by
  refine ⟨_,rfl,fun other target => ?_⟩
  change (h.stopHealthPolling.intervals ++ [some chain])[other]? = _ ↔ other = h.stopHealthPolling.intervals.length ∧ _
  constructor
  · intro live
    rcases mem_snoc_table live with old | ⟨last,same⟩
    · exact absurd old (held.stop.1 other target)
    · exact ⟨last,Option.some.inj same⟩
  · rintro ⟨rfl,rfl⟩
    simp

@[simp] theorem stopHealthPolling_mounting (h : Header) : h.stopHealthPolling.mounting = h.mounting := by
  unfold stopHealthPolling
  split <;> rfl

@[simp] theorem stopHealthPolling_chain (h : Header) : h.stopHealthPolling.chain = h.chain := by
  unfold stopHealthPolling
  split <;> rfl

@[simp] theorem startHealthPolling_mounting (h : Header) (chain : Chain) : (h.startHealthPolling chain).mounting = h.mounting :=
  stopHealthPolling_mounting h

@[simp] theorem startHealthPolling_chain (h : Header) (chain : Chain) : (h.startHealthPolling chain).chain = h.chain :=
  stopHealthPolling_chain h

/-- More polls may have been sent, and nothing else is shown. -/
def Grows (h next : Header) : Prop := next.healthState = h.healthState ∧ h.polls <+: next.polls

theorem Grows.trans {first second third : Header} (early : first.Grows second) (late : second.Grows third) : first.Grows third :=
  ⟨late.1.trans early.1,early.2.trans late.2⟩

theorem grows_stop (h : Header) : h.Grows h.stopHealthPolling := by
  unfold stopHealthPolling
  split <;> exact ⟨rfl,List.prefix_rfl⟩

theorem grows_updateHealth (h : Header) (chain : Chain) : h.Grows (h.updateHealth chain) := ⟨rfl,List.prefix_append ..⟩

theorem grows_start (h : Header) (chain : Chain) : h.Grows (h.startHealthPolling chain) :=
  (grows_stop h).trans ⟨rfl,List.prefix_append ..⟩

/-- A mounted header has one live interval, that of its chain; any other has none. -/
structure Polling (h : Header) : Prop where
  mounted : h.mounting = .mounted → h.PollsOnly h.chain
  unmounted : h.mounting ≠ .mounted → h.Quiet

theorem Polling.held {h : Header} (polling : h.Polling) : h.Held := by
  by_cases mounted : h.mounting = .mounted
  · exact (polling.mounted mounted).held
  · exact (polling.unmounted mounted).held

theorem Polling.of_mounted {h : Header} (mounted : h.mounting = .mounted) (only : h.PollsOnly h.chain) : h.Polling :=
  ⟨fun _ => only,fun other => absurd mounted other⟩

/-- The intervals are as before. -/
theorem Polling.frame {h next : Header} (polling : h.Polling) (mounting : next.mounting = h.mounting) (chain : next.chain = h.chain)
    (held : next.healthPollInterval = h.healthPollInterval) (intervals : next.intervals = h.intervals) : next.Polling := by
  constructor
  · unfold PollsOnly
    rw [mounting,chain,held,intervals]
    exact polling.mounted
  · unfold Quiet
    rw [mounting,intervals]
    exact polling.unmounted

theorem mount_polling {h next : Header} (polling : h.Polling) (moved : h.mount = some next) : next.Polling ∧ h.Grows next := by
  simp only [mount,Option.ite_none_right_eq_some] at moved
  obtain ⟨_,same⟩ := moved
  cases same
  have held : Held {h with mounting := .mounted} := polling.held
  refine ⟨.of_mounted (by simp) (by simpa using (held.start h.chain).held.start h.chain),?_⟩
  have mounts : h.Grows {h with mounting := .mounted} := ⟨rfl,List.prefix_rfl⟩
  exact mounts.trans ((grows_start _ _).trans (grows_start _ _))

theorem changeChain_polling {h next : Header} {chain : Chain} (polling : h.Polling) (moved : h.changeChain chain = some next) :
    next.Polling ∧ h.Grows next := by
  simp only [changeChain,Option.ite_none_right_eq_some] at moved
  obtain ⟨mounted,same⟩ := moved
  cases same
  have held : Held {h.stopHealthPolling with chain} := polling.held.stop.1.held
  exact ⟨.of_mounted (by simp [mounted]) (by simpa using held.start chain),(grows_stop h).trans (grows_start _ chain)⟩

theorem unmount_polling {h next : Header} (polling : h.Polling) (moved : h.unmount = some next) :
    next.Polling ∧ h.Grows next := by
  simp only [unmount,Option.ite_none_right_eq_some] at moved
  obtain ⟨_,same⟩ := moved
  cases same
  exact ⟨⟨fun mounted => (by cases mounted),fun _ => polling.held.stop.1.held.stop.1⟩,(grows_stop h).trans (grows_stop _)⟩

theorem failed_some {h next : Header} {k : Nat} (moved : h.failed k = some next) :
    ∃ poll, h.polls[k]? = some poll ∧ (∀ id, poll.stage ≠ .settled id) ∧ next = h.settle k poll none .error := by
  unfold failed at moved
  split at moved
  · rename_i poll found
    split at moved
    · cases moved
    · rename_i unsettled
      exact ⟨poll,found,fun id same => unsettled id same,(Option.some.inj moved).symm⟩
  · cases moved

theorem tick_some {h next : Header} {id : Nat} (moved : h.tick id = some next) :
    ∃ target, h.intervals[id]? = some (some target) ∧ next = h.updateHealth target := by
  unfold tick at moved
  split at moved
  · rename_i target live
    exact ⟨target,live,(Option.some.inj moved).symm⟩
  · cases moved

end Header

structure Page where
  servers : Chain → Readiness
  header : Header

namespace Page

def init (chain : Chain) : Page := ⟨fun _ => .init,.init chain⟩

inductive Action
  | mount
  | changeChain (chain : Chain)
  | unmount
  | tick (id : Nat)
  | arrive (chain : Chain) (k : Nat)
  | server (chain : Chain) (action : Readiness.Action)
  | answered (k : Nat)
  | failed (k : Nat)

/-- A poll that settles, and whether it is answered. -/
def Action.settlement : Action → Option (Nat × Bool)
  | .answered k => some (k,true)
  | .failed k => some (k,false)
  | _ => none

section
variable (config : Chain → Config)

def withHeader (p : Page) (header : Header) : Page := {p with header}

/-- A poll reaches the server of its chain. -/
def arrive (p : Page) (chain : Chain) (k : Nat) : Option Page :=
  if p.header.polls[k]? = some ⟨chain,.sent⟩ then
    some ⟨Function.update p.servers chain ((p.servers chain).request (config chain)),
      {p.header with polls := p.header.polls.set k ⟨chain,.asked (p.servers chain).requests.length⟩}⟩
  else none

def server (p : Page) (chain : Chain) (action : Readiness.Action) : Option Page :=
  ((p.servers chain).step (config chain) action).map fun next => {p with servers := Function.update p.servers chain next}

/-- The answer to a poll has come, and `updateHealth` goes on. -/
def answered (p : Page) (k : Nat) : Option Page :=
  match p.header.polls[k]? with
  | some poll => match poll.stage with
    | .asked id => match (p.servers poll.targetChain).requests[id]? with
      | some (.responded response) => some (p.withHeader (p.header.settle k poll (some id) (indicated response)))
      | _ => none
    | _ => none
  | none => none

def step (p : Page) : Action → Option Page
  | .mount => p.header.mount.map p.withHeader
  | .changeChain chain => (p.header.changeChain chain).map p.withHeader
  | .unmount => p.header.unmount.map p.withHeader
  | .tick id => (p.header.tick id).map p.withHeader
  | .arrive chain k => p.arrive config chain k
  | .server chain action => p.server config chain action
  | .answered k => p.answered k
  | .failed k => (p.header.failed k).map p.withHeader

variable {p next : Page} {k : Nat}

theorem arrive_some {chain : Chain} (moved : p.arrive config chain k = some next) : p.header.polls[k]? = some ⟨chain,.sent⟩ ∧
    next = ⟨Function.update p.servers chain ((p.servers chain).request (config chain)),
      {p.header with polls := p.header.polls.set k ⟨chain,.asked (p.servers chain).requests.length⟩}⟩ := by
  simp only [arrive,Option.ite_none_right_eq_some] at moved
  exact ⟨moved.1,(Option.some.inj moved.2).symm⟩

theorem answered_some (moved : p.answered k = some next) : ∃ target id response, p.header.polls[k]? = some ⟨target,.asked id⟩ ∧
    (p.servers target).requests[id]? = some (.responded response) ∧
      next = p.withHeader (p.header.settle k ⟨target,.asked id⟩ (some id) (indicated response)) := by
  unfold answered at moved
  split at moved
  · rename_i poll found
    split at moved
    · rename_i id asked
      split at moved
      · rename_i response responded
        obtain ⟨target,stage⟩ := poll
        cases asked
        exact ⟨target,id,response,found,responded,(Option.some.inj moved).symm⟩
      · cases moved
    · cases moved
  · cases moved

/-- One poll comes further, unless it is settled; what is shown changes only where it settles. -/
def Advances (p next : Page) (action : Action) : Prop := ∃ k poll new, p.header.polls[k]? = some poll ∧
  (∀ id, poll.stage ≠ .settled id) ∧ next.header.polls = p.header.polls.set k new ∧
  (action.settlement = none → next.header.healthState = p.header.healthState)

theorem step_header {action : Action} (polling : p.header.Polling) (stepped : p.step config action = some next) :
    next.header.Polling ∧ (action.settlement = none ∧ p.header.Grows next.header ∨ p.Advances next action) := by
  cases action with
  | mount =>
    obtain ⟨header,moved,rfl⟩ := Option.map_eq_some_iff.mp stepped
    have kept := Header.mount_polling polling moved
    exact ⟨kept.1,Or.inl ⟨rfl,kept.2⟩⟩
  | changeChain chain =>
    obtain ⟨header,moved,rfl⟩ := Option.map_eq_some_iff.mp stepped
    have kept := Header.changeChain_polling polling moved
    exact ⟨kept.1,Or.inl ⟨rfl,kept.2⟩⟩
  | unmount =>
    obtain ⟨header,moved,rfl⟩ := Option.map_eq_some_iff.mp stepped
    have kept := Header.unmount_polling polling moved
    exact ⟨kept.1,Or.inl ⟨rfl,kept.2⟩⟩
  | tick id =>
    obtain ⟨header,moved,rfl⟩ := Option.map_eq_some_iff.mp stepped
    obtain ⟨target,_,rfl⟩ := Header.tick_some moved
    exact ⟨polling.frame rfl rfl rfl rfl,Or.inl ⟨rfl,Header.grows_updateHealth _ target⟩⟩
  | arrive chain k =>
    obtain ⟨found,rfl⟩ := arrive_some config stepped
    exact ⟨polling.frame rfl rfl rfl rfl,Or.inr ⟨k,_,_,found,fun _ same => (by cases same),rfl,fun _ => rfl⟩⟩
  | server chain action =>
    obtain ⟨server,_,rfl⟩ := Option.map_eq_some_iff.mp stepped
    exact ⟨polling,Or.inl ⟨rfl,rfl,List.prefix_rfl⟩⟩
  | answered k =>
    obtain ⟨_,_,_,found,_,rfl⟩ := answered_some stepped
    exact ⟨polling.frame rfl rfl rfl rfl,Or.inr ⟨k,_,_,found,fun _ same => (by cases same),rfl,fun silent => (by cases silent)⟩⟩
  | failed k =>
    obtain ⟨header,moved,rfl⟩ := Option.map_eq_some_iff.mp stepped
    obtain ⟨poll,found,pending,rfl⟩ := Header.failed_some moved
    exact ⟨polling.frame rfl rfl rfl rfl,Or.inr ⟨k,poll,_,found,pending,rfl,fun silent => (by cases silent)⟩⟩

theorem init_polling (chain : Chain) : (init chain).header.Polling := by
  refine ⟨fun mounted => ?_,fun _ id target live => ?_⟩
  · cases mounted
  · simp [init,Header.init] at live

theorem reached_polling {first : Chain} {actions : List Action} (ran : run (step config) (init first) actions = some p) :
    p.header.Polling :=
  run_preserves (fun p => p.header.Polling) (fun _ _ _ polling stepped => (step_header config polling stepped).1)
    (init_polling first) ran

/-- However the header is mounted, switched between chains and unmounted, its intervals do not pile up:
a mounted header has exactly one, and what it polls is the server of the chain shown. -/
theorem one_interval (first : Chain) (actions : List Action) (ran : run (step config) (init first) actions = some p) :
    (p.header.mounting = .mounted → ∃ id, p.header.healthPollInterval = some id ∧
      ∀ other, (p.header.tick other).isSome ↔ other = id) ∧
    (p.header.mounting ≠ .mounted → ∀ other, p.header.tick other = none) ∧
    ∀ id header, p.header.tick id = some header → header.polls = p.header.polls ++ [⟨p.header.chain,.sent⟩] := by
  have polling : p.header.Polling :=
    reached_polling config ran
  have live (id : Nat) : (p.header.tick id).isSome ↔ ∃ target, p.header.intervals[id]? = some (some target) := by
    unfold Header.tick
    split <;> simp_all
  refine ⟨fun mounted => ?_,fun unmounted other => ?_,fun id header moved => ?_⟩
  · obtain ⟨id,held,only⟩ := polling.mounted mounted
    refine ⟨id,held,fun other => ?_⟩
    rw [live]
    constructor
    · rintro ⟨target,found⟩
      exact ((only other target).mp found).1
    · intro same
      exact ⟨p.header.chain,(only other _).mpr ⟨same,rfl⟩⟩
  · rw [← Option.not_isSome_iff_eq_none,live]
    rintro ⟨target,found⟩
    exact polling.unmounted unmounted other target found
  · obtain ⟨target,found,rfl⟩ := Header.tick_some moved
    by_cases mounted : p.header.mounting = .mounted
    · obtain ⟨_,_,only⟩ := polling.mounted mounted
      rw [((only id target).mp found).2]
      rfl
    · exact absurd found (polling.unmounted mounted id target)

/-- A step moves each server by one of its own steps or not at all. -/
theorem step_server {action : Action} (stepped : p.step config action = some next) (chain : Chain) :
    next.servers chain = p.servers chain ∨ ∃ moved, (p.servers chain).step (config chain) moved = some (next.servers chain) ∧
      (action = .server chain moved ∨ moved = .request) := by
  cases action with
  | mount | changeChain | unmount | tick | failed =>
    obtain ⟨header,_,rfl⟩ := Option.map_eq_some_iff.mp stepped
    exact Or.inl rfl
  | arrive target k =>
    obtain ⟨_,rfl⟩ := arrive_some config stepped
    by_cases here : chain = target
    · subst here
      refine Or.inr ⟨.request,?_,Or.inr rfl⟩
      change _ = some (Function.update p.servers chain _ chain)
      rw [Function.update_self]
      rfl
    · exact Or.inl (Function.update_of_ne here ..)
  | server target moved =>
    obtain ⟨server,advanced,rfl⟩ := Option.map_eq_some_iff.mp stepped
    by_cases here : chain = target
    · subst here
      refine Or.inr ⟨moved,?_,Or.inl rfl⟩
      change _ = some (Function.update p.servers chain server chain)
      rw [Function.update_self]
      exact advanced
    · exact Or.inl (Function.update_of_ne here ..)
  | answered k =>
    obtain ⟨_,_,_,_,_,rfl⟩ := answered_some stepped
    exact Or.inl rfl

/-- The last poll to settle, and whether it was answered. -/
def lastSettlement (actions : List Action) : Option (Nat × Bool) := actions.reverse.findSome? Action.settlement

theorem lastSettlement_snoc (actions : List Action) (action : Action) :
    lastSettlement (actions++[action]) = action.settlement.or (lastSettlement actions) := by
  rw [lastSettlement,List.reverse_append,List.reverse_singleton,List.singleton_append,List.findSome?_cons]
  cases action.settlement <;> rfl

theorem settled_kept {action : Action} (polling : p.header.Polling) (stepped : p.step config action = some next) {target : Chain}
    {id : Option Nat} (settled : p.header.polls[k]? = some ⟨target,.settled id⟩) :
    next.header.polls[k]? = some ⟨target,.settled id⟩ := by
  rcases (step_header config polling stepped).2 with ⟨_,_,more,same⟩ | ⟨place,poll,new,found,pending,same,_⟩
  · rw [← same,List.getElem?_append_left (List.getElem?_eq_some_iff.mp settled).1,settled]
  · rw [same,List.getElem?_set_ne,settled]
    rintro rfl
    cases found.symm.trans settled
    exact pending id rfl

theorem healthState_kept {action : Action} (polling : p.header.Polling) (stepped : p.step config action = some next)
    (silent : action.settlement = none) : next.header.healthState = p.header.healthState := by
  rcases (step_header config polling stepped).2 with ⟨_,same,_⟩ | ⟨_,_,_,_,_,_,same⟩
  · exact same
  · exact same silent

end

section
variable {config : Server.Config} {s next : Readiness} {action : Readiness.Action} {id : Nat} {response : HealthResponse}

/-- An answer that has been given stays. -/
theorem responded_kept (stepped : s.step config action = some next) (responded : s.requests[id]? = some (.responded response)) :
    next.requests[id]? = some (.responded response) := by
  have other {place : Nat} {standing new : HealthRequest} (found : s.requests[place]? = some standing)
      (pending : standing ≠ .responded response) : (s.requests.set place new)[id]? = some (.responded response) := by
    rw [List.getElem?_set_ne,responded]
    rintro rfl
    exact pending (Option.some.inj (found.symm.trans responded))
  cases action with
  | start | checkShutdown | fail | becomeReady | teardown | ended =>
    simp only [Readiness.step,Readiness.start,Readiness.checkShutdown,Readiness.fail,Readiness.becomeReady,Readiness.teardown,
      Readiness.ended,Option.ite_none_right_eq_some] at stepped
    cases stepped.2
    exact responded
  | signal =>
    cases Option.some.inj stepped
    exact responded
  | request =>
    cases Option.some.inj stepped
    exact (List.getElem?_append_left (List.getElem?_eq_some_iff.mp responded).1).trans responded
  | headRead place head =>
    obtain ⟨reading,rfl⟩ := Readiness.headRead_some config stepped
    exact other reading fun same => by cases same
  | nodeChecked place check =>
    obtain ⟨height,checking,rfl⟩ := Readiness.nodeChecked_some config stepped
    exact other checking fun same => by cases same

theorem indicated_unavailable : indicated (Readiness.unavailable config) = .error := rfl

theorem indicated_rpcFailed : indicated (Readiness.rpcFailed config) = .error := rfl

theorem indicated_checkedResponse (height : Nat) (synced : Option Bool) :
    indicated (Readiness.checkedResponse config height synced) = if synced = some true then .ok else .error := by
  by_cases true_synced : synced = some true <;> simp [indicated,Readiness.checkedResponse,mapHealthResponseToState,true_synced]

/-- The server never answers a header with a warning, and with a green light only while it is up. -/
theorem indicated_answer (config : Config) (inv : s.Inv) (height : Nat) (check : NodeCheck) :
    indicated (s.answer config height check) ≠ .warning ∧
      (indicated (s.answer config height check) = .ok ↔ s.Up ∧ check = .returned) := by
  rw [← inv.isReady_iff,Readiness.answer]
  by_cases ready : s.isReady = true
  · rw [if_pos ready,indicated_checkedResponse]
    cases check <;> simp [NodeCheck.synced,ready]
  · rw [if_neg ready,indicated_unavailable]
    simp [ready]

end

section
variable (config : Chain → Config) (first : Chain)

/-- The server of the chain was up when it answered that request: it had read the head block, and
its check of the node had just returned. -/
def AnsweredWhileUp (chain : Chain) (id : Nat) (actions : List Action) : Prop := ∃ earlier later before,
  actions = earlier ++ .server chain (.nodeChecked id .returned)::later ∧ run (step config) (init first) earlier = some before ∧
    (before.servers chain).Up ∧ ∃ height, .server chain (.headRead id (.ok height)) ∈ earlier

variable {config first}

theorem AnsweredWhileUp.later {chain : Chain} {id : Nat} {actions : List Action} (answered : AnsweredWhileUp config first chain id actions)
    (action : Action) : AnsweredWhileUp config first chain id (actions++[action]) := by
  obtain ⟨earlier,later,before,same,ran,up,read⟩ := answered
  exact ⟨earlier,later++[action],before,by rw [same,List.append_assoc,List.cons_append],ran,up,read⟩

/-- What the history of a page says about a server of it. -/
structure Recorded (config : Chain → Config) (first : Chain) (actions : List Action) (chain : Chain) (s : Readiness) : Prop where
  inv : s.Inv
  read : ∀ (id : Nat) height, s.requests[id]? = some (.checkingNode height) → .server chain (.headRead id (.ok height)) ∈ actions
  answers : ∀ (id : Nat) response, s.requests[id]? = some (.responded response) → indicated response ≠ .warning ∧
    (indicated response = .ok → AnsweredWhileUp config first chain id actions)

theorem Recorded.later {chain : Chain} {s : Readiness} {actions : List Action} (recorded : Recorded config first actions chain s)
    (action : Action) : Recorded config first (actions++[action]) chain s where
  inv := recorded.inv
  read id height checking := List.mem_append_left _ (recorded.read id height checking)
  answers id response responded :=
    ⟨(recorded.answers id response responded).1,fun shown => ((recorded.answers id response responded).2 shown).later action⟩

theorem opened_cases (config : Server.Config) (s : Readiness) :
    s.opened config = .readingHead ∨ s.opened config = .responded (Readiness.unavailable config) := by
  unfold Readiness.opened
  split
  · exact Or.inl rfl
  · exact Or.inr rfl

theorem Recorded.step {chain : Chain} {p : Page} {s : Readiness} {actions : List Action} {action : Action} {moved : Readiness.Action}
    (recorded : Recorded config first actions chain (p.servers chain)) (ran : run (step config) (init first) actions = some p)
    (stepped : (p.servers chain).step (config chain) moved = some s) (same : action = .server chain moved ∨ moved = .request) :
    Recorded config first (actions++[action]) chain s := by
  have before := recorded.later action
  refine ⟨Readiness.step_inv (config chain) _ _ _ recorded.inv stepped,fun id height checking => ?_,fun id response responded => ?_⟩
  · rcases Readiness.request_step (config chain) stepped checking with old | ⟨_,_,new⟩ | ⟨head,rfl,new⟩ | ⟨_,_,_,_,new⟩
    · exact before.read id height old
    · rcases opened_cases (config chain) (p.servers chain) with reading | refused
      · cases new.trans reading
      · cases new.trans refused
    · rcases same with rfl | other
      · cases head with
        | ok read =>
          cases new
          simp
        | error error => cases new
      · cases other
    · cases new
  · rcases Readiness.request_step (config chain) stepped responded with old | ⟨_,_,new⟩ | ⟨head,_,new⟩ | ⟨height,check,rfl,checking,new⟩
    · exact before.answers id response old
    · rcases opened_cases (config chain) (p.servers chain) with reading | refused
      · cases new.trans reading
      · cases new.trans refused
        rw [indicated_unavailable]
        simp
    · cases head with
      | ok read => cases new
      | error error =>
        cases new
        rw [indicated_rpcFailed]
        simp
    · cases new
      obtain ⟨quiet,green⟩ := indicated_answer (config chain) recorded.inv height check
      refine ⟨quiet,fun shown => ?_⟩
      obtain ⟨up,rfl⟩ := green.mp shown
      rcases same with rfl | other
      · exact ⟨actions,[],p,rfl,ran,up,height,recorded.read id height checking⟩
      · cases other

variable {p : Page} {actions : List Action}

theorem reached_recorded (ran : run (step config) (init first) actions = some p) (chain : Chain) :
    Recorded config first actions chain (p.servers chain) := by
  refine run_history (fun actions p => Recorded config first actions chain (p.servers chain)) ?_ ?_ ran
  · refine ⟨Readiness.init_inv,fun id height checking => ?_,fun id response responded => ?_⟩
    · simp [init,Readiness.init] at checking
    · simp [init,Readiness.init] at responded
  · intro actions before action after ran recorded stepped
    rcases step_server config stepped chain with same | ⟨moved,advanced,same⟩
    · rw [same]
      exact recorded.later action
    · exact recorded.step ran advanced same

theorem responded_later {chain : Chain} {id : Nat} {response : HealthResponse} {before : Page} {later : List Action}
    (ran : run (step config) before later = some p) (responded : (before.servers chain).requests[id]? = some (.responded response)) :
    (p.servers chain).requests[id]? = some (.responded response) := by
  refine run_preserves (fun p => (p.servers chain).requests[id]? = some (.responded response)) ?_ responded ran
  intro before action after responded stepped
  rcases step_server config stepped chain with same | ⟨moved,advanced,_⟩
  · rw [same]
    exact responded
  · exact responded_kept advanced responded

theorem AnsweredWhileUp.responded {chain : Chain} {id : Nat} (answered : AnsweredWhileUp config first chain id actions)
    (ran : run (step config) (init first) actions = some p) :
    ∃ response, (p.servers chain).requests[id]? = some (.responded response) ∧ indicated response = .ok := by
  obtain ⟨earlier,later,before,rfl,ranBefore,up,_⟩ := answered
  obtain ⟨middle,ranMiddle,remaining⟩ := run_append_some ran
  cases Option.some.inj (ranBefore.symm.trans ranMiddle)
  obtain ⟨after,stepped,remaining⟩ := run_cons_some remaining
  obtain ⟨server,advanced,rfl⟩ := Option.map_eq_some_iff.mp stepped
  obtain ⟨height,checking,rfl⟩ := Readiness.nodeChecked_some (config chain) advanced
  have inv := (reached_recorded ranBefore chain).inv
  have green := (indicated_answer (config chain) inv height .returned).2.mpr ⟨up,rfl⟩
  refine ⟨(before.servers chain).answer (config chain) height .returned,responded_later remaining ?_,green⟩
  change (Function.update before.servers chain _ chain).requests[id]? = _
  rw [Function.update_self,List.getElem?_set_self (List.getElem?_eq_some_iff.mp checking).1]

/-- The light is that of the answer to the last poll that settled. -/
def Shows (actions : List Action) (p : Page) : Prop :=
  match lastSettlement actions with
  | some (k,true) => ∃ target id response, p.header.polls[k]? = some ⟨target,.settled (some id)⟩ ∧
      (p.servers target).requests[id]? = some (.responded response) ∧ p.header.healthState = indicated response
  | _ => p.header.healthState = .error

theorem reached_shows (ran : run (step config) (init first) actions = some p) : Shows actions p := by
  refine run_history Shows (show Shows [] (init first) from rfl) ?_ ran
  intro actions before action after ran shows stepped
  have polling := reached_polling config ran
  unfold Shows
  rw [lastSettlement_snoc]
  cases settles : action.settlement with
  | none =>
    have kept := healthState_kept config polling stepped settles
    rw [Option.none_or]
    unfold Shows at shows
    split at shows
    · obtain ⟨target,id,response,settled,responded,shown⟩ := shows
      have answered := responded_later ((run_single before action).trans stepped) responded
      exact ⟨target,id,response,settled_kept config polling stepped settled,answered,kept.trans shown⟩
    · exact kept.trans shows
  | some settlement =>
    rw [Option.some_or]
    cases action with
    | answered k =>
      cases settles
      obtain ⟨target,id,response,found,responded,rfl⟩ := answered_some stepped
      refine ⟨target,id,response,?_,responded,rfl⟩
      exact List.getElem?_set_self (List.getElem?_eq_some_iff.mp found).1
    | failed k =>
      cases settles
      obtain ⟨header,moved,rfl⟩ := Option.map_eq_some_iff.mp stepped
      obtain ⟨_,_,_,rfl⟩ := Header.failed_some moved
      rfl
    | _ => cases settles

/-- The warning light is never shown. The green one is shown exactly if the poll that settled last,
whichever chain it was for, was answered by a server that was up, with a synced node. -/
theorem green_light (config : Chain → Config) (first : Chain) (actions : List Action) (p : Page)
    (ran : run (step config) (init first) actions = some p) : p.header.healthState ≠ .warning ∧
      (p.header.healthState = .ok ↔ ∃ k target id, lastSettlement actions = some (k,true) ∧
        p.header.polls[k]? = some ⟨target,.settled (some id)⟩ ∧ AnsweredWhileUp config first target id actions) := by
  have shows := reached_shows ran
  unfold Shows at shows
  split at shows
  · rename_i k last
    obtain ⟨target,id,response,settled,responded,shown⟩ := shows
    obtain ⟨quiet,green⟩ := (reached_recorded ran target).answers id response responded
    rw [shown]
    refine ⟨quiet,fun ok => ⟨k,target,id,last,settled,green ok⟩,?_⟩
    rintro ⟨other,chain,request,same,found,answered⟩
    cases last.symm.trans same
    cases settled.symm.trans found
    obtain ⟨answer,given,ok⟩ := answered.responded ran
    cases responded.symm.trans given
    exact ok
  · rename_i unanswered
    rw [shows]
    refine ⟨by decide,fun green => (by cases green),?_⟩
    rintro ⟨k,_,_,last,_⟩
    exact absurd last (unanswered k)

/-- The server starts up, and the first of the two polls that mounting sends is answered. -/
def polled : List Action :=
  [.mount,.server .base .start,.server .base .checkShutdown,.server .base .becomeReady,.arrive .base 0,
    .server .base (.headRead 0 (.ok 5)),.server .base (.nodeChecked 0 .returned),.answered 0]

def answeredPage : Page := (run (step fun _ => ethereum) (init .base) polled).getD (init .base)

theorem one_interval_answered : ∃ id, answeredPage.header.healthPollInterval = some id ∧
    ∀ other, (answeredPage.header.tick other).isSome ↔ other = id :=
  (one_interval (fun _ => ethereum) .base polled rfl).1 rfl

theorem green_light_answered : ∃ k target id, lastSettlement polled = some (k,true) ∧
    answeredPage.header.polls[k]? = some ⟨target,.settled (some id)⟩ ∧
      AnsweredWhileUp (fun _ => ethereum) .base target id polled :=
  (green_light (fun _ => ethereum) .base polled answeredPage rfl).2.mp rfl

end
end Page
end YPriceMagic.Frontend
