import YPriceMagic.Async.Gather
import YPriceMagic.Runtime.SlotConservation
import YPriceMagic.Server.Lookup

/-! Supervised lookups with the upstream calls they start. The supervisor owns the task of
a lookup; the calls a lookup awaits together are tasks of their own. -/
namespace YPriceMagic.Server
open YPriceMagic.Async YPriceMagic.Async.Coroutine YPriceMagic.Runtime

abbrev Done := (lookup : Lookup) × lookup.Result

/-- A lookup where its coroutine stands, with the calls it awaits and the calls of the
awaits it has left. -/
structure Work where
  lookup : Lookup
  program : Program lookup.Result
  awaiting : Option (Gather Exn)
  left : List (Gather Exn)

structure Lookups (Env : Type) where
  supervisor : LookupSupervisor Env Exn Done
  works : List Work

/-- The calls a coroutine starts when it comes to its next operation. -/
def started {α : Type} : Program α → Option (Gather Exn)
  | .perform (.await queries) _ => some (.start queries.length)
  | _ => none

def endingOf {α : Type} : Program α → Option (Outcome Exn α)
  | .finished outcome => some outcome
  | .perform _ _ => none

/-- Whether a coroutine can resume with a reply. A cancellation is delivered as soon as the
await is decided, whatever decided it. -/
def resumable (awaiting : Option (Gather Exn)) (cancelled : Bool) : (op : Op) → Reply op → Bool
  | .await _,reply => match awaiting.bind (·.outcome) with
    | some outcome => decide (reply.map (fun _ => ()) = outcome) || (cancelled && reply.isCancelled)
    | none => false
  | _,_ => true

namespace Work

def begin (config : Config) (lookup : Lookup) : Work := ⟨lookup,lookup.program config,none,[]⟩

def upstream (work : Work) : Bool := work.awaiting.any (·.running) || work.left.any (·.running)

def ending (work : Work) : Option (Outcome Exn Done) := (endingOf work.program).map (·.map (⟨work.lookup,·⟩))

def resume (work : Work) (cancelled : Bool) (op : Op) (reply : Reply op) : Option Work := do
  let program ← work.program.answer op reply
  if resumable work.awaiting cancelled op reply then
    some {work with
      program
      awaiting := started program
      left := work.left++work.awaiting.toList}
  else none

end Work

namespace Lookups

inductive Action
  | call (lookup : Lookup)
  | cancelCaller (id : Nat)
  | resume (id : Nat)
  | enter (id : Nat)
  | answer (id : Nat) (op : Op) (reply : Reply op)
  | childEnds (id child : Nat) (outcome : Outcome Exn Unit)
  | orphanEnds (id gather child : Nat) (outcome : Outcome Exn Unit)
  | finished (id : Nat)
  | cancel

variable {Env : Type}

def init (active maxQueued : Nat) (env : Env) : Lookups Env := ⟨LookupSupervisor.init active maxQueued env,[]⟩

def task (s : Lookups Env) (id : Nat) : Option (Task Exn Done) := s.supervisor.calls[id]?.bind (·.task)

/-- The first step of a task; one that is cancelled before it never enters its coroutine. -/
def enter (s : Lookups Env) (id : Nat) : Option (Lookups Env) := do
  let task ← s.task id
  let work ← s.works[id]?
  if task.entered then none
  else
    let supervisor ← s.supervisor.workStep id work.ending
    if task.cancelRequested then some {s with supervisor}
    else some ⟨supervisor,s.works.set id {work with awaiting := started work.program}⟩

def answer (s : Lookups Env) (id : Nat) (op : Op) (reply : Reply op) : Option (Lookups Env) := do
  let task ← s.task id
  let work ← s.works[id]?
  if task.entered then
    let work ← work.resume task.cancelRequested op reply
    let supervisor ← s.supervisor.workStep id work.ending
    some ⟨supervisor,s.works.set id work⟩
  else none

def childEnds (s : Lookups Env) (id child : Nat) (outcome : Outcome Exn Unit) : Option (Lookups Env) := do
  let work ← s.works[id]?
  let gather ← work.awaiting
  let gather ← gather.endChild child outcome
  some {s with works := s.works.set id {work with awaiting := some gather}}

def orphanEnds (s : Lookups Env) (id place child : Nat) (outcome : Outcome Exn Unit) : Option (Lookups Env) := do
  let work ← s.works[id]?
  let gather ← work.left[place]?
  let gather ← gather.endChild child outcome
  some {s with works := s.works.set id {work with left := work.left.set place gather}}

def step (config : Config) (hooks : Hooks Env) (s : Lookups Env) : Action → Option (Lookups Env)
  | .call lookup => some ⟨s.supervisor.call hooks,s.works++[Work.begin config lookup]⟩
  | .cancelCaller id => (s.supervisor.cancelCaller id).map fun supervisor => {s with supervisor}
  | .resume id => (s.supervisor.resume hooks id).map fun supervisor => {s with supervisor}
  | .enter id => s.enter id
  | .answer id op reply => s.answer id op reply
  | .childEnds id child outcome => s.childEnds id child outcome
  | .orphanEnds id gather child outcome => s.orphanEnds id gather child outcome
  | .finished id => (s.supervisor.finished hooks id).map fun supervisor => {s with supervisor}
  | .cancel => some {s with supervisor := s.supervisor.cancel}

def upstream (s : Lookups Env) (id : Nat) : Bool := s.works[id]?.any (·.upstream)

end Lookups

end YPriceMagic.Server
