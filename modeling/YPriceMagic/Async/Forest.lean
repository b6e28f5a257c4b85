import YPriceMagic.Async.Coroutine
import YPriceMagic.Async.Entries
import YPriceMagic.Async.Run

/-! Tasks that create tasks, cancel them and await them. A task runs the coroutine its kind
stands for; between two awaits it is not interrupted. Calls are answered in any way at all,
the other awaits as `asyncio` decides them from the tasks they are about. -/
namespace YPriceMagic.Async
open Coroutine

/-- `join` is a `gather` with `return_exceptions`, `group` the end of a `TaskGroup` and
`firstOf` a `wait` with `FIRST_COMPLETED`. -/
inductive Await (Query : Type)
  | call (query : Query)
  | task (task : Nat)
  | gather (tasks : List Nat)
  | join (tasks : List Nat)
  | group (tasks : List Nat)
  | firstOf (tasks : List Nat)
  deriving DecidableEq

inductive TaskOp (Kind Query : Type)
  | spawn (kind : Kind)
  | cancel (tasks : List Nat)
  | await (awaited : Await Query)
  deriving DecidableEq

section
variable {Query : Type} (Kind : Type) (Answer : Query → Type) (ε : Type)

abbrev Await.Reply : Await Query → Type
  | .call query => Outcome ε (Answer query)
  | .group _ => Outcome (List ε) Unit
  | .firstOf _ => Outcome ε (List Nat)
  | .task _ | .gather _ | .join _ => Outcome ε Unit

abbrev TaskOp.Reply : TaskOp Kind Query → Type
  | .spawn _ => Nat
  | .cancel _ => Unit
  | .await awaited => awaited.Reply Answer ε

abbrev Script (α : Type) := Coroutine (TaskOp Kind Query) (TaskOp.Reply Kind Answer ε) ε α

inductive Standing
  | created
  | suspended (awaited : Await Query) (resume : awaited.Reply Answer ε → Script Kind Answer ε Unit)
  | ended (outcome : Outcome ε Unit)

/-- `parent` is the task that created this one. `cancelRequested` is a cancellation that was
not delivered yet, and `aborted` a task group that has cancelled its tasks. -/
structure Node where
  kind : Kind
  parent : Option Nat
  cancelRequested : Bool := false
  aborted : Bool := false
  standing : Standing Kind Answer ε := .created

abbrev Forest := List (Node Kind Answer ε)

end

section
variable {Kind Query : Type} {Answer : Query → Type} {ε : Type}

namespace Node

def outcome (node : Node Kind Answer ε) : Option (Outcome ε Unit) :=
  match node.standing with
  | .ended outcome => some outcome
  | _ => none

def done (node : Node Kind Answer ε) : Bool := node.outcome.isSome

def stand (standing : Standing Kind Answer ε) (node : Node Kind Answer ε) : Node Kind Answer ε :=
  {node with cancelRequested := false,aborted := false,standing}

/-- What of a task no cancellation changes. -/
def core (node : Node Kind Answer ε) : Kind × Option Nat × Standing Kind Answer ε :=
  (node.kind,node.parent,node.standing)

end Node

namespace Script

def call (query : Query) : Script Kind Answer ε (Answer query) := perform (.await (.call query)) finished

def awaitTask (task : Nat) : Script Kind Answer ε Unit := perform (.await (.task task)) finished

def gather (tasks : List Nat) : Script Kind Answer ε Unit := perform (.await (.gather tasks)) finished

def join (tasks : List Nat) : Script Kind Answer ε Unit := perform (.await (.join tasks)) finished

def group (raiseGroup : List ε → ε) (tasks : List Nat) : Script Kind Answer ε Unit :=
  perform (.await (.group tasks)) fun
    | .returned value => finished (.returned value)
    | .raised errors => finished (.raised (raiseGroup errors))
    | .cancelled => finished .cancelled

def firstOf (tasks : List Nat) : Script Kind Answer ε (List Nat) := perform (.await (.firstOf tasks)) finished

/-- `task.cancel()` for those that are not done. -/
def cancel (tasks : List Nat) : Script Kind Answer ε Unit := perform (.cancel tasks) pure

def spawn (kind : Kind) : Script Kind Answer ε Nat := perform (.spawn kind) pure

def spawnAll : List Kind → Script Kind Answer ε (List Nat)
  | [] => pure []
  | kind::kinds => do
    let task ← spawn kind
    let tasks ← spawnAll kinds
    return task::tasks

/-- Cancel what still runs and wait for all of it. -/
def reap (tasks : List Nat) : Script Kind Answer ε Unit := do
  cancel tasks
  join tasks

end Script

namespace Forest

def outcome (s : Forest Kind Answer ε) (id : Nat) : Option (Outcome ε Unit) := s[id]?.bind (·.outcome)

def done (s : Forest Kind Answer ε) (id : Nat) : Bool := (s.outcome id).isSome

def failed (s : Forest Kind Answer ε) (id : Nat) : Bool :=
  match s.outcome id with
  | some (.raised _) | some .cancelled => true
  | _ => false

def raised (s : Forest Kind Answer ε) (tasks : List Nat) : List ε :=
  tasks.filterMap fun id =>
    match s.outcome id with
    | some (.raised error) => some error
    | _ => none

/-- Whom a task passes a cancellation to before it is resumed. A gather that is decided
passes nothing on, and a task group does so in a step of its own. -/
def forwards (s : Forest Kind Answer ε) (id : Nat) : List Nat :=
  match s[id]? with
  | some {standing := .suspended (.task task) _,..} => [task]
  | some {standing := .suspended (.gather tasks) _,..} => if tasks.any s.failed then [] else tasks
  | some {standing := .suspended (.join tasks) _,..} => tasks
  | _ => []

def reached (s : Forest Kind Answer ε) : Nat → List Nat → List Nat
  | 0,tasks => tasks
  | depth+1,tasks => tasks++reached s depth (tasks.flatMap s.forwards)

def cancel (s : Forest Kind Answer ε) (tasks : List Nat) : Forest Kind Answer ε :=
  s.mapIdx fun id node =>
    if node.done || !(s.reached s.length tasks).contains id then node else {node with cancelRequested := true}

section
variable [DecidableEq ε]

/-- Which replies an await can have. A gather has the failure of any task that failed. -/
def admits (s : Forest Kind Answer ε) (cancelled : Bool) : (awaited : Await Query) → awaited.Reply Answer ε → Bool
  | .call _,_ => true
  | .task task,reply =>
    (s.outcome task).any fun outcome => decide (reply = outcome) || (cancelled && reply.isCancelled)
  | .gather tasks,.returned _ => !cancelled && tasks.all (s.outcome · = some (.returned ()))
  | .gather tasks,.raised error => tasks.any (s.outcome · = some (.raised error))
  | .gather tasks,.cancelled => tasks.any (s.outcome · = some .cancelled) ||
      (cancelled && (tasks.all s.done || tasks.any s.failed))
  | .join tasks,reply => tasks.all s.done && decide (reply = if cancelled then .cancelled else .returned ())
  | .group tasks,reply => tasks.all s.done && decide (reply =
      if s.raised tasks ≠ [] then .raised (s.raised tasks) else if cancelled then .cancelled else .returned ())
  | .firstOf tasks,.returned ended => !cancelled && decide (ended = tasks.filter s.done) && !ended.isEmpty
  | .firstOf _,.raised _ => false
  | .firstOf _,.cancelled => cancelled

end

def stand (s : Forest Kind Answer ε) (id : Nat) (standing : Standing Kind Answer ε) : Forest Kind Answer ε :=
  s.modify id (·.stand standing)

/-- A task runs until it suspends or ends. Awaiting a task that is done does not suspend. -/
def proceed (id : Nat) : Script Kind Answer ε Unit → Forest Kind Answer ε → Forest Kind Answer ε
  | .finished outcome,s => s.stand id (.ended outcome)
  | .perform (.spawn kind) resume,s => proceed id (resume s.length) (s++[{kind,parent := some id}])
  | .perform (.cancel tasks) resume,s => proceed id (resume ()) (s.cancel tasks)
  | .perform (.await (.task task)) resume,s =>
    match s.outcome task with
    | some outcome => proceed id (resume outcome) s
    | none => s.stand id (.suspended (.task task) resume)
  | .perform (.await awaited) resume,s => s.stand id (.suspended awaited resume)

/-- `start` creates a task from outside, and `cancel` cancels one from outside. -/
inductive Action (Kind : Type) (Answer : Query → Type) (ε : Type)
  | start (kind : Kind)
  | cancel (id : Nat)
  | enter (id : Nat)
  | answer (id : Nat) (awaited : Await Query) (reply : awaited.Reply Answer ε)
  | abort (id : Nat)

section
variable (code : Kind → Script Kind Answer ε Unit)

def start (s : Forest Kind Answer ε) (kind : Kind) : Forest Kind Answer ε := s++[{kind,parent := none}]

def enter (s : Forest Kind Answer ε) (id : Nat) : Option (Forest Kind Answer ε) := do
  let node ← s[id]?
  match node.standing with
  | .created => some (s.proceed id (if node.cancelRequested then finished .cancelled else code node.kind))
  | _ => none

/-- The tasks of a group are cancelled when one of them fails or the group is cancelled. -/
def abort (s : Forest Kind Answer ε) (id : Nat) : Option (Forest Kind Answer ε) := do
  let node ← s[id]?
  match node.standing with
  | .suspended (.group tasks) _ =>
    if node.aborted || (!node.cancelRequested && (s.raised tasks).isEmpty) then none
    else some ((s.cancel tasks).modify id ({· with aborted := true}))
  | _ => none

variable [DecidableEq ε] [DecidableEq Query]

def answer (s : Forest Kind Answer ε) (id : Nat) (awaited : Await Query) (reply : awaited.Reply Answer ε) :
    Option (Forest Kind Answer ε) := do
  let node ← s[id]?
  match node.standing with
  | .suspended pending resume =>
    if same : awaited = pending then
      if s.admits node.cancelRequested awaited reply then some (s.proceed id (resume (same ▸ reply))) else none
    else none
  | _ => none

def step (s : Forest Kind Answer ε) : Action Kind Answer ε → Option (Forest Kind Answer ε)
  | .start kind => some (s.start kind)
  | .cancel id => some (s.cancel [id])
  | .enter id => s.enter code id
  | .answer id awaited reply => s.answer id awaited reply
  | .abort id => s.abort id

end
end Forest
end
end YPriceMagic.Async
