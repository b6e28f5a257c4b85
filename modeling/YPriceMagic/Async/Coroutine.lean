import Mathlib.Data.List.Basic
import YPriceMagic.Async.Task

/-! Coroutines as trees of the operations they perform. Whoever runs one answers its
operations; what it has performed so far, with the replies, is its history. `Ensures`
is the weakest precondition over every reply, and `eval` a run with fixed replies. -/
namespace YPriceMagic.Async

inductive Coroutine (Op : Type) (Reply : Op → Type) (ε α : Type)
  | finished (outcome : Outcome ε α)
  | perform (op : Op) (resume : Reply op → Coroutine Op Reply ε α)

namespace Coroutine

variable {Op : Type} {Reply : Op → Type} {ε α β : Type}

def andThen (first : Coroutine Op Reply ε α) (next : Outcome ε α → Coroutine Op Reply ε β) :
    Coroutine Op Reply ε β :=
  match first with
  | finished outcome => next outcome
  | perform op resume => perform op fun reply => (resume reply).andThen next

def onValue (next : α → Coroutine Op Reply ε β) : Outcome ε α → Coroutine Op Reply ε β
  | .returned value => next value
  | .raised error => finished (.raised error)
  | .cancelled => finished .cancelled

instance : Monad (Coroutine Op Reply ε) where
  pure value := finished (.returned value)
  bind first next := first.andThen (onValue next)

def raise (error : ε) : Coroutine Op Reply ε α := finished (.raised error)

/-- `try: body` with `except Exception`, which a cancellation passes by. -/
def onError (handler : ε → Coroutine Op Reply ε α) : Outcome ε α → Coroutine Op Reply ε α
  | .raised error => handler error
  | outcome => finished outcome

def tryExcept (body : Coroutine Op Reply ε α) (handler : ε → Coroutine Op Reply ε α) :
    Coroutine Op Reply ε α :=
  body.andThen (onError handler)

def tryFinally (body : Coroutine Op Reply ε α) (cleanup : Coroutine Op Reply ε Unit) :
    Coroutine Op Reply ε α :=
  body.andThen fun outcome => cleanup.andThen (onValue fun _ => finished outcome)

theorem andThen_assoc {γ : Type} (first : Coroutine Op Reply ε α) (next : Outcome ε α → Coroutine Op Reply ε β)
    (last : Outcome ε β → Coroutine Op Reply ε γ) :
    (first.andThen next).andThen last = first.andThen fun outcome => (next outcome).andThen last := by
  induction first with
  | finished outcome => rfl
  | perform op resume ih => exact congrArg (perform op) (funext ih)

@[simp] theorem andThen_finished (coroutine : Coroutine Op Reply ε α) : coroutine.andThen finished = coroutine := by
  induction coroutine with
  | finished outcome => rfl
  | perform op resume ih => exact congrArg (perform op) (funext ih)

def pending : Coroutine Op Reply ε α → Option Op
  | perform op _ => some op
  | finished _ => none

def answer [DecidableEq Op] (coroutine : Coroutine Op Reply ε α) (op : Op) (reply : Reply op) :
    Option (Coroutine Op Reply ε α) :=
  match coroutine with
  | perform pending resume => if same : op = pending then some (resume (same ▸ reply)) else none
  | finished _ => none

theorem answer_some [DecidableEq Op] {coroutine next : Coroutine Op Reply ε α} {op : Op} {reply : Reply op}
    (answered : coroutine.answer op reply = some next) :
    ∃ resume, coroutine = perform op resume ∧ next = resume reply := by
  cases coroutine with
  | finished outcome => simp [answer] at answered
  | perform pending resume =>
    simp only [answer] at answered
    split at answered
    · rename_i same
      subst same
      exact ⟨resume,rfl,(Option.some.inj answered).symm⟩
    · simp at answered

section
variable {Event : Type} {allowed : List Event → Op → Prop} {record : (op : Op) → Reply op → Event}
  {post final : Outcome ε α → List Event → Prop} {ended : Outcome ε β → List Event → Prop}

/-- Every operation is allowed by the history before it, and every end meets `post`. -/
def Ensures (allowed : List Event → Op → Prop) (record : (op : Op) → Reply op → Event)
    (post : Outcome ε α → List Event → Prop) : Coroutine Op Reply ε α → List Event → Prop
  | finished outcome, history => post outcome history
  | perform op resume, history => allowed history op ∧
      ∀ reply, Ensures allowed record post (resume reply) (history++[record op reply])

theorem Ensures.weaken {coroutine : Coroutine Op Reply ε α} {history : List Event}
    (ensured : Ensures allowed record post coroutine history)
    (weaker : ∀ outcome later, post outcome later → final outcome later) :
    Ensures allowed record final coroutine history := by
  induction coroutine generalizing history with
  | finished outcome => exact weaker outcome history ensured
  | perform op resume ih => exact ⟨ensured.1,fun reply => ih reply (ensured.2 reply)⟩

/-- The operations and replies of a history bring one coroutine to the other. -/
inductive Leads : Coroutine Op Reply ε α → List ((op : Op) × Reply op) → Coroutine Op Reply ε α → Prop
  | here (coroutine : Coroutine Op Reply ε α) : Leads coroutine [] coroutine
  | answered {coroutine : Coroutine Op Reply ε α} {history : List ((op : Op) × Reply op)} {op : Op}
      {resume : Reply op → Coroutine Op Reply ε α} (reply : Reply op) :
      Leads coroutine history (perform op resume) → Leads coroutine (history++[⟨op,reply⟩]) (resume reply)

theorem Ensures.leads {allowed : List ((op : Op) × Reply op) → Op → Prop}
    {post : Outcome ε α → List ((op : Op) × Reply op) → Prop} {first last : Coroutine Op Reply ε α}
    {history : List ((op : Op) × Reply op)} (ensured : Ensures allowed Sigma.mk post first [])
    (leads : Leads first history last) : Ensures allowed Sigma.mk post last history := by
  induction leads with
  | here => exact ensured
  | answered reply _ ih => exact ih.2 reply

theorem Ensures.andThen {first : Coroutine Op Reply ε α} {next : Outcome ε α → Coroutine Op Reply ε β}
    {history : List Event} (ensured : Ensures allowed record post first history)
    (continued : ∀ outcome later, history <+: later → post outcome later →
      Ensures allowed record ended (next outcome) later) :
    Ensures allowed record ended (first.andThen next) history := by
  induction first generalizing history with
  | finished outcome => exact continued outcome history List.prefix_rfl ensured
  | perform op resume ih =>
    refine ⟨ensured.1,fun reply => ih reply (ensured.2 reply) fun outcome later extended held => ?_⟩
    exact continued outcome later ((List.prefix_append history _).trans extended) held

theorem Ensures.bind {first : Coroutine Op Reply ε α} {next : α → Coroutine Op Reply ε β} {history : List Event}
    (ensured : Ensures allowed record post first history)
    (continued : ∀ value later, history <+: later → post (.returned value) later →
      Ensures allowed record ended (next value) later)
    (failed : ∀ error later, history <+: later → post (.raised error) later → ended (.raised error) later)
    (cancelled : ∀ later, history <+: later → post .cancelled later → ended .cancelled later) :
    Ensures allowed record ended (first >>= next) history := by
  refine ensured.andThen fun outcome later extended held => ?_
  cases outcome with
  | returned value => exact continued value later extended held
  | raised error => exact failed error later extended held
  | cancelled => exact cancelled later extended held

theorem Ensures.tryExcept {body : Coroutine Op Reply ε α} {handler : ε → Coroutine Op Reply ε α}
    {history : List Event} (ensured : Ensures allowed record post body history)
    (returned : ∀ value later, history <+: later → post (.returned value) later → final (.returned value) later)
    (handled : ∀ error later, history <+: later → post (.raised error) later →
      Ensures allowed record final (handler error) later)
    (cancelled : ∀ later, history <+: later → post .cancelled later → final .cancelled later) :
    Ensures allowed record final (body.tryExcept handler) history := by
  refine ensured.andThen fun outcome later extended held => ?_
  cases outcome with
  | returned value => exact returned value later extended held
  | raised error => exact handled error later extended held
  | cancelled => exact cancelled later extended held

theorem Ensures.any (coroutine : Coroutine Op Reply ε α) (history : List Event) :
    Ensures (fun _ _ => True) record (fun _ _ => True) coroutine history := by
  induction coroutine generalizing history with
  | finished outcome => trivial
  | perform op resume ih => exact ⟨trivial,fun reply => ih reply _⟩

/-- Nothing is raised past a handler that raises nothing. -/
theorem Ensures.guarded {body : Coroutine Op Reply ε α} {handler : ε → Coroutine Op Reply ε α} {history : List Event}
    (handled : ∀ error later, Ensures (fun _ _ => True) record (fun outcome _ => ∀ error, outcome ≠ .raised error) (handler error) later) :
    Ensures (fun _ _ => True) record (fun outcome _ => ∀ error, outcome ≠ .raised error) (body.tryExcept handler) history :=
  Ensures.tryExcept (Ensures.any body history) (fun _ _ _ _ => by simp) (fun error later _ _ => handled error later) fun _ _ _ => by simp

end

section
variable {σ : Type} (answers : (op : Op) → σ → Reply op × σ)

def eval : Coroutine Op Reply ε α → σ → Outcome ε α × σ
  | finished outcome, state => (outcome,state)
  | perform op resume, state => eval (resume (answers op state).1) (answers op state).2

@[simp] theorem eval_finished (outcome : Outcome ε α) (state : σ) :
    eval answers (finished outcome : Coroutine Op Reply ε α) state = (outcome,state) := rfl

@[simp] theorem eval_pure (value : α) (state : σ) :
    eval answers (pure value : Coroutine Op Reply ε α) state = (.returned value,state) := rfl

@[simp] theorem eval_perform (op : Op) (resume : Reply op → Coroutine Op Reply ε α) (state : σ) :
    eval answers (perform op resume) state = eval answers (resume (answers op state).1) (answers op state).2 := rfl

theorem eval_andThen (first : Coroutine Op Reply ε α) (next : Outcome ε α → Coroutine Op Reply ε β) (state : σ) :
    eval answers (first.andThen next) state =
      eval answers (next (eval answers first state).1) (eval answers first state).2 := by
  induction first generalizing state with
  | finished outcome => rfl
  | perform op resume ih => exact ih _ _

theorem eval_bind (first : Coroutine Op Reply ε α) (next : α → Coroutine Op Reply ε β) (state : σ) :
    eval answers (first >>= next) state =
      eval answers (onValue next (eval answers first state).1) (eval answers first state).2 :=
  eval_andThen answers first (onValue next) state

theorem eval_bind_returned {first : Coroutine Op Reply ε α} {next : α → Coroutine Op Reply ε β} {state after : σ}
    {value : α} (returned : eval answers first state = (.returned value,after)) :
    eval answers (first >>= next) state = eval answers (next value) after := by
  rw [eval_bind,returned]
  rfl

theorem eval_bind_raised {first : Coroutine Op Reply ε α} {next : α → Coroutine Op Reply ε β} {state after : σ}
    {error : ε} (raised : eval answers first state = (.raised error,after)) :
    eval answers (first >>= next) state = (.raised error,after) := by
  rw [eval_bind,raised]
  rfl

theorem eval_tryExcept_raised {body : Coroutine Op Reply ε α} {handler : ε → Coroutine Op Reply ε α}
    {state after : σ} {error : ε} (raised : eval answers body state = (.raised error,after)) :
    eval answers (body.tryExcept handler) state = eval answers (handler error) after := by
  rw [tryExcept,eval_andThen,raised]
  rfl

theorem eval_tryExcept_returned {body : Coroutine Op Reply ε α} {handler : ε → Coroutine Op Reply ε α}
    {state after : σ} {value : α} (returned : eval answers body state = (.returned value,after)) :
    eval answers (body.tryExcept handler) state = (.returned value,after) := by
  rw [tryExcept,eval_andThen,returned]
  rfl

end

end Coroutine

end YPriceMagic.Async
