import YPriceMagic.Async.Run
import YPriceMagic.Server.Handlers

/-! Any number of requests and their supervised lookups over one cache. Each operation of
each coroutine is a step of its own, in any order; the supervisor only delays, refuses or
cancels lookups, so here it is left open when one starts and how a caller leaves it. -/
namespace YPriceMagic.Server
open YPriceMagic.Async YPriceMagic.Async.Coroutine

inductive Request
  | price (params : PriceParams) (force : Bool)
  | prices (params : BatchParams)

def Request.program (config : Config) : Request → Program Response
  | .price params force => Server.price config params force
  | .prices params => Server.prices config params

structure Process where
  request : Request
  handler : Program Response
  lookup : Option ((lookup : Lookup) × Program lookup.Result)

abbrev Event := (op : Op) × Reply op

structure Logged where
  id : Nat
  request : Request
  supervised : Bool
  event : Event

structure Backend where
  cache : Cache
  processes : List Process
  log : List Logged

/-- What an operation does to the cache; `none` where the cache replies otherwise. -/
def shared (cache : Cache) : (op : Op) → Reply op → Option Cache
  | .getCachedPrice token block,reply => if reply = cache.getCachedPrice token block then some cache else none
  | .getCachedError token block,reply => if reply = cache.getCachedError token block then some cache else none
  | .setCachedPrice token block price blockTimestamp,_ =>
    some (cache.setCachedPrice token block price blockTimestamp)
  | .setCachedError token block error,_ => some (cache.setCachedError token block error)
  | _,_ => some cache

def Op.store (cache : Cache) : Op → Cache
  | .setCachedPrice token block price blockTimestamp => cache.setCachedPrice token block price blockTimestamp
  | .setCachedError token block error => cache.setCachedError token block error
  | _ => cache

theorem shared_some {cache after : Cache} {op : Op} {reply : Reply op} (served : shared cache op reply = some after) :
    after = op.store cache := by
  cases op with
  | getCachedPrice token block =>
    simp only [shared,Option.ite_none_right_eq_some] at served
    exact (Option.some.inj served.2).symm
  | getCachedError token block =>
    simp only [shared,Option.ite_none_right_eq_some] at served
    exact (Option.some.inj served.2).symm
  | _ => exact (Option.some.inj served).symm

def Op.isLookup : Op → Bool
  | .runLookup _ => true
  | _ => false

namespace Backend

def start (cache : Cache) : Backend := ⟨cache,[],[]⟩

def handle (s : Backend) (id : Nat) (process : Process) (op : Op) (reply : Reply op) : Option Backend := do
  let handler ← process.handler.answer op reply
  let cache ← shared s.cache op reply
  some ⟨cache,s.processes.set id {process with handler},s.log++[⟨id,process.request,false,⟨op,reply⟩⟩]⟩

inductive Action
  | request (request : Request)
  | handlerStep (id : Nat) (op : Op) (reply : Reply op)
  | startLookup (id : Nat)
  | lookupStep (id : Nat) (op : Op) (reply : Reply op)
  | lookupDone (id : Nat)
  | refuseLookup (id : Nat) (message : String)
  | cancelCaller (id : Nat)
  | expire (key : String)

def step (config : Config) (s : Backend) : Action → Option Backend
  | .request request => some {s with processes := s.processes++[⟨request,request.program config,none⟩]}
  | .handlerStep id op reply => do
    let process ← s.processes[id]?
    if op.isLookup then none else s.handle id process op reply
  | .startLookup id => do
    let process ← s.processes[id]?
    match process.lookup,process.handler with
    | none,.perform (.runLookup lookup) _ =>
      some {s with processes := s.processes.set id {process with lookup := some ⟨lookup,lookup.program config⟩}}
    | _,_ => none
  | .lookupStep id op reply => do
    let process ← s.processes[id]?
    let ⟨lookup,program⟩ ← process.lookup
    let program ← program.answer op reply
    let cache ← shared s.cache op reply
    some ⟨cache,s.processes.set id {process with lookup := some ⟨lookup,program⟩},s.log++[⟨id,process.request,true,⟨op,reply⟩⟩]⟩
  | .lookupDone id => do
    let process ← s.processes[id]?
    match process.lookup with
    | some ⟨lookup,.finished outcome⟩ => s.handle id process (.runLookup lookup) outcome
    | _ => none
  | .refuseLookup id message => do
    let process ← s.processes[id]?
    match process.lookup,process.handler with
    | none,.perform (.runLookup lookup) _ => s.handle id process (.runLookup lookup) (.raised (.overloaded message))
    | _,_ => none
  | .cancelCaller id => do
    let process ← s.processes[id]?
    match process.handler with
    | .perform (.runLookup lookup) _ => s.handle id process (.runLookup lookup) .cancelled
    | _ => none
  | .expire key => (s.cache.expire key).map fun cache => {s with cache}

def LookupReply (process : Process) (event : Event) : Prop :=
  match event with
  | ⟨.runLookup lookup,reply⟩ => ∀ value, reply = .returned value → process.lookup = some ⟨lookup,.finished (.returned value)⟩
  | _ => True

variable {config : Config} {s next : Backend}

theorem handle_some {id : Nat} {process : Process} {op : Op} {reply : Reply op}
    (handled : s.handle id process op reply = some next) :
    ∃ resume cache, process.handler = perform op resume ∧ shared s.cache op reply = some cache ∧
      next = ⟨cache,s.processes.set id {process with handler := resume reply},s.log++[⟨id,process.request,false,⟨op,reply⟩⟩]⟩ := by
  obtain ⟨handler,answered,handled⟩ := Option.bind_eq_some_iff.mp handled
  obtain ⟨cache,served,handled⟩ := Option.bind_eq_some_iff.mp handled
  obtain ⟨resume,performed,rfl⟩ := answer_some answered
  exact ⟨resume,cache,performed,served,(Option.some.inj handled).symm⟩

/-- Everything a step can be: a new request, an operation of a handler, the start of a lookup,
an operation of a lookup, or an entry that expires. -/
inductive Stepped (config : Config) (s : Backend) (action : Action) : Backend → Prop
  | request (request : Request) :
    Stepped config s action {s with processes := s.processes++[⟨request,request.program config,none⟩]}
  | handler {id : Nat} {process : Process} {op : Op} {resume : Reply op → Program Response} {reply : Reply op}
      {cache : Cache} (found : s.processes[id]? = some process) (performed : process.handler = perform op resume)
      (served : shared s.cache op reply = some cache) (looked : LookupReply process ⟨op,reply⟩)
      (acted : op.isLookup = false → action = .handlerStep id op reply) :
    Stepped config s action
      ⟨cache,s.processes.set id {process with handler := resume reply},s.log++[⟨id,process.request,false,⟨op,reply⟩⟩]⟩
  | started {id : Nat} {process : Process} {lookup : Lookup} {resume : Reply (.runLookup lookup) → Program Response}
      (found : s.processes[id]? = some process) (absent : process.lookup = none)
      (waiting : process.handler = perform (.runLookup lookup) resume) :
    Stepped config s action
      {s with processes := s.processes.set id {process with lookup := some ⟨lookup,lookup.program config⟩}}
  | lookup {id : Nat} {process : Process} {lookup : Lookup} {op : Op} {resume : Reply op → Program lookup.Result}
      {reply : Reply op} {cache : Cache} (found : s.processes[id]? = some process)
      (performed : process.lookup = some ⟨lookup,perform op resume⟩) (served : shared s.cache op reply = some cache) :
    Stepped config s action
      ⟨cache,s.processes.set id {process with lookup := some ⟨lookup,resume reply⟩},s.log++[⟨id,process.request,true,⟨op,reply⟩⟩]⟩
  | expired {key : String} {cache : Cache} (gone : s.cache.expire key = some cache) :
    Stepped config s action {s with cache}

theorem step_stepped {action : Action} (stepped : s.step config action = some next) :
    Stepped config s action next := by
  cases action with
  | request request =>
    cases Option.some.inj stepped
    exact .request request
  | handlerStep id op reply =>
    obtain ⟨process,found,stepped⟩ := Option.bind_eq_some_iff.mp stepped
    split at stepped
    · simp at stepped
    · rename_i plain
      obtain ⟨resume,cache,performed,served,rfl⟩ := handle_some stepped
      refine .handler found performed served ?_ fun _ => rfl
      cases op <;> simp_all [LookupReply,Op.isLookup]
  | startLookup id =>
    obtain ⟨process,found,stepped⟩ := Option.bind_eq_some_iff.mp stepped
    split at stepped
    · rename_i lookup resume absent waiting
      cases Option.some.inj stepped
      exact .started found absent waiting
    · simp at stepped
  | lookupStep id op reply =>
    obtain ⟨process,found,stepped⟩ := Option.bind_eq_some_iff.mp stepped
    obtain ⟨⟨lookup,program⟩,running,stepped⟩ := Option.bind_eq_some_iff.mp stepped
    obtain ⟨after,answered,stepped⟩ := Option.bind_eq_some_iff.mp stepped
    obtain ⟨cache,served,stepped⟩ := Option.bind_eq_some_iff.mp stepped
    obtain ⟨resume,rfl,rfl⟩ := answer_some answered
    cases Option.some.inj stepped
    exact .lookup found running served
  | lookupDone id =>
    obtain ⟨process,found,stepped⟩ := Option.bind_eq_some_iff.mp stepped
    split at stepped
    · rename_i lookup outcome running
      obtain ⟨resume,cache,performed,served,rfl⟩ := handle_some stepped
      exact .handler found performed served (fun value returned => by rw [running,returned]) fun plain => by cases plain
    · simp at stepped
  | refuseLookup id message =>
    obtain ⟨process,found,stepped⟩ := Option.bind_eq_some_iff.mp stepped
    split at stepped
    · obtain ⟨resume,cache,performed,served,rfl⟩ := handle_some stepped
      exact .handler found performed served (fun value returned => by simp at returned) fun plain => by cases plain
    · simp at stepped
  | cancelCaller id =>
    obtain ⟨process,found,stepped⟩ := Option.bind_eq_some_iff.mp stepped
    split at stepped
    · obtain ⟨resume,cache,performed,served,rfl⟩ := handle_some stepped
      exact .handler found performed served (fun value returned => by simp at returned) fun plain => by cases plain
    · simp at stepped
  | expire key =>
    obtain ⟨cache,gone,rfl⟩ := Option.map_eq_some_iff.mp stepped
    exact .expired gone

end Backend

end YPriceMagic.Server
