import Mathlib.Data.Rat.Floor
import YPriceMagic.Async.Run
import YPriceMagic.Async.Task

/-! `DeadlineMiddleware`: one guarded request with its three racing parties, the
application task, the client watcher and the timer. The middleware examines the race
when it resumes from `asyncio.wait`, which may be later than the event that ended it. -/
namespace YPriceMagic.Runtime
open YPriceMagic.Async

structure Scope where
  type : String
  routePath : String
  requestId : Option String
  deriving DecidableEq, Repr

structure JSONResponse where
  statusCode : Nat
  headers : List (String × String)
  error : String
  deriving DecidableEq, Repr

/-- What is passed to `send`: a message the application produced, or one of the two
messages of a response of the middleware. -/
inductive Message (M : Type)
  | app (message : M)
  | responseStart (response : JSONResponse)
  | responseBody (response : JSONResponse)
  deriving DecidableEq, Repr

inductive ClientMessage (C : Type)
  | request (message : C)
  | disconnect
  deriving DecidableEq, Repr

inductive Watching (C : Type)
  | receiving
  | putting (message : C)
  deriving DecidableEq, Repr

def Watching.isReceiving {C : Type} : Watching C → Bool
  | .receiving => true
  | .putting _ => false

/-- Where `__call__` is suspended: `refusing` keeps the messages of its response that
are still to be sent, `joining` and `ended` the way the call ends. -/
inductive Phase (ε M : Type)
  | waiting
  | forwarding (index : Nat)
  | refusing (rest : List (Message M))
  | joining (ending : Outcome ε Unit)
  | ended (ending : Outcome ε Unit)
  deriving DecidableEq, Repr

structure DeadlineMiddleware (ε M C : Type) where
  scope : Scope
  budget : Rat
  task : Task ε Unit
  messages : List M
  waiter : Task ε Unit
  watching : Watching C
  incoming : Option (ClientMessage C)
  disconnected : Bool
  released : Bool
  cancelled : Bool
  phase : Phase ε M
  sent : List (Message M)

namespace DeadlineMiddleware

variable {ε M C : Type}

def guarded (scope : Scope) : Bool :=
  scope.type == "http" && ["/price","/prices","/check_bucket"].contains scope.routePath

/-- `f"{seconds:.0f}"`, which rounds half to even. -/
def formatSeconds (seconds : Rat) : String :=
  let whole := seconds.floor
  let part := seconds-whole
  toString (if part < 1/2 ∨ (part = 1/2 ∧ whole % 2 = 0) then whole else whole+1)

def timeoutResponse (scope : Scope) (budget : Rat) : JSONResponse where
  statusCode := 504
  headers := match scope.requestId with
    | some requestId => if requestId.isEmpty then [] else [("X-Request-ID",requestId)]
    | none => []
  error := "Price lookup timed out after " ++ formatSeconds budget ++ " seconds"

def timeoutMessages (scope : Scope) (budget : Rat) : List (Message M) :=
  [.responseStart (timeoutResponse scope budget),.responseBody (timeoutResponse scope budget)]

def init (scope : Scope) (budget : Rat) : DeadlineMiddleware ε M C where
  scope := scope
  budget := budget
  task := {}
  messages := []
  waiter := {}
  watching := .receiving
  incoming := none
  disconnected := false
  released := false
  cancelled := false
  phase := .waiting
  sent := []

/-- `__call__` on a request: `none` where it goes straight to the application. -/
def enter (scope : Scope) (budget : Rat) : Option (DeadlineMiddleware ε M C) :=
  if guarded scope then some (init scope budget) else none

/-- The `finally` clause up to its suspension. -/
def join (s : DeadlineMiddleware ε M C) (ending : Outcome ε Unit) : DeadlineMiddleware ε M C :=
  {s with waiter := s.waiter.cancel,phase := .joining ending}

/-- The `except asyncio.CancelledError` clause. -/
def interrupt (s : DeadlineMiddleware ε M C) : DeadlineMiddleware ε M C :=
  {s with task := s.task.cancel,cancelled := false}.join .cancelled

/-- What follows `asyncio.wait`: the application's task is looked at first. -/
def examine (s : DeadlineMiddleware ε M C) : DeadlineMiddleware ε M C :=
  match s.task.outcome with
  | some (.returned ()) => {s with phase := .forwarding 0}
  | some (.raised error) => s.join (.raised error)
  | some .cancelled => s.interrupt
  | none =>
    let s : DeadlineMiddleware ε M C := {s with task := s.task.cancel}
    if s.disconnected then s.join (.returned ())
    else {s with phase := .refusing (timeoutMessages s.scope s.budget)}

/-- One stretch of `__call__`, with at most one `await send(message)`. -/
def resume (s : DeadlineMiddleware ε M C) : Option (DeadlineMiddleware ε M C) :=
  match s.phase with
  | .waiting =>
    if s.cancelled then some s.interrupt else if s.released then some s.examine else none
  | .forwarding index =>
    if s.cancelled then some s.interrupt
    else match s.messages[index]? with
      | some message => some {s with sent := s.sent++[.app message],phase := .forwarding (index+1)}
      | none => some (s.join (.returned ()))
  | .refusing rest =>
    if s.cancelled then some s.interrupt
    else match rest with
      | message::rest => some {s with sent := s.sent++[message],phase := .refusing rest}
      | [] => some (s.join (.returned ()))
  | .joining ending =>
    if s.waiter.done then some {s with phase := .ended (if s.cancelled then .cancelled else ending)} else none
  | .ended _ => none

def watch (s : DeadlineMiddleware ε M C) (message : ClientMessage C) : Option (DeadlineMiddleware ε M C) :=
  match s.waiter.inProgress,s.watching,message with
  | true,.receiving,.disconnect => some {s with
      disconnected := true
      incoming := some .disconnect
      waiter := {s.waiter with outcome := some (.returned ())}}
  | true,.receiving,.request chunk =>
    if s.incoming.isSome then some {s with watching := .putting chunk}
    else some {s with incoming := some (.request chunk)}
  | _,_,_ => none

inductive Action (ε M C : Type)
  | appStep (ending : Option (Outcome ε Unit))
  | collect (message : M)
  | appReceive
  | finished
  | watcherStep
  | received (message : ClientMessage C)
  | receiveRaised (error : ε)
  | watcherPut
  | watcherCancelled
  | deadline
  | completed
  | resume
  | cancel
  deriving DecidableEq, Repr

/-- `send` is taken to return; `cancel` is a cancellation of the middleware itself. -/
def step (s : DeadlineMiddleware ε M C) : Action ε M C → Option (DeadlineMiddleware ε M C)
  | .appStep ending => (s.task.step ending).map fun task => {s with task}
  | .collect message => if s.task.inProgress then some {s with messages := s.messages++[message]} else none
  | .appReceive => if s.task.inProgress && s.incoming.isSome then some {s with incoming := none} else none
  | .finished => s.task.callback.map fun task => {s with task}
  | .watcherStep => if s.waiter.entered then none else (s.waiter.step none).map fun waiter => {s with waiter}
  | .received message => s.watch message
  | .receiveRaised error =>
    if s.waiter.inProgress && s.watching.isReceiving then
      some {s with waiter := {s.waiter with outcome := some (.raised error)}}
    else none
  | .watcherPut =>
    match s.waiter.inProgress,s.watching,s.incoming with
    | true,.putting chunk,none => some {s with incoming := some (.request chunk),watching := .receiving}
    | _,_,_ => none
  | .watcherCancelled =>
    if s.waiter.inProgress && s.waiter.cancelRequested then
      some {s with waiter := {s.waiter with outcome := some .cancelled}}
    else none
  | .deadline =>
    match s.phase with
    | .waiting => if s.released then none else some {s with released := true}
    | _ => none
  | .completed =>
    match s.phase with
    | .waiting => if s.task.done || s.waiter.done then some {s with released := true} else none
    | _ => none
  | .resume => s.resume
  | .cancel =>
    match s.phase with
    | .ended _ => none
    | _ => some {s with cancelled := true}

def remaining (s : DeadlineMiddleware ε M C) : List (Message M) :=
  match s.phase with
  | .forwarding index => (s.messages.drop index).map .app
  | .refusing rest => rest
  | _ => []

def answer (s : DeadlineMiddleware ε M C) : List (Message M) :=
  match s.task.outcome with
  | some (.returned ()) => s.messages.map .app
  | some _ => []
  | none => if s.disconnected then [] else timeoutMessages s.scope s.budget

variable {s next before : DeadlineMiddleware ε M C}

theorem watch_cases {message : ClientMessage C} (watched : s.watch message = some next) :
    (∃ waiter, next = {s with disconnected := true,incoming := some .disconnect,waiter}) ∨
    (∃ chunk, next = {s with watching := .putting chunk}) ∨
    (∃ chunk, next = {s with incoming := some (.request chunk)}) := by
  unfold watch at watched
  split at watched
  · exact Or.inl ⟨_,(Option.some.inj watched).symm⟩
  · rename_i chunk _ _
    split at watched
    · exact Or.inr (Or.inl ⟨chunk,(Option.some.inj watched).symm⟩)
    · exact Or.inr (Or.inr ⟨chunk,(Option.some.inj watched).symm⟩)
  · simp at watched

structure Aside (s next : DeadlineMiddleware ε M C) : Prop where
  phase : next.phase = s.phase
  sent : next.sent = s.sent
  cancelled : next.cancelled = s.cancelled
  ended : s.task.done = true → next.task.outcome = s.task.outcome ∧ next.messages = s.messages
  requested : s.task.cancelRequested = true → next.task.cancelRequested = true

theorem step_aside {action : Action ε M C} (stepped : s.step action = some next)
    (other : action ≠ .resume) (uninterrupted : action ≠ .cancel) : Aside s next := by
  cases action with
  | appStep ending =>
    obtain ⟨task,worked,rfl⟩ := Option.map_eq_some_iff.mp stepped
    obtain ⟨unfinished,ways⟩ := Task.step_cases worked
    refine ⟨rfl,rfl,rfl,fun ended => by simp [unfinished] at ended,fun requested => ?_⟩
    rcases ways with ⟨_,_,rfl⟩ | ⟨_,rfl⟩ <;> exact requested
  | collect message =>
    simp only [step] at stepped
    split at stepped
    · rename_i running
      cases Option.some.inj stepped
      simp only [Task.inProgress,Bool.and_eq_true,Bool.not_eq_true'] at running
      exact ⟨rfl,rfl,rfl,fun ended => by simp [running.2] at ended,id⟩
    · simp at stepped
  | appReceive | receiveRaised error | watcherCancelled =>
    simp only [step] at stepped
    split at stepped
    · cases Option.some.inj stepped
      exact ⟨rfl,rfl,rfl,fun _ => ⟨rfl,rfl⟩,id⟩
    · simp at stepped
  | finished =>
    obtain ⟨task,called,rfl⟩ := Option.map_eq_some_iff.mp stepped
    obtain ⟨_,_,rfl⟩ := Task.callback_cases called
    exact ⟨rfl,rfl,rfl,fun _ => ⟨rfl,rfl⟩,id⟩
  | watcherStep =>
    simp only [step] at stepped
    split at stepped
    · simp at stepped
    · obtain ⟨waiter,_,rfl⟩ := Option.map_eq_some_iff.mp stepped
      exact ⟨rfl,rfl,rfl,fun _ => ⟨rfl,rfl⟩,id⟩
  | received message =>
    rcases watch_cases stepped with ⟨_,rfl⟩ | ⟨_,rfl⟩ | ⟨_,rfl⟩ <;>
      exact ⟨rfl,rfl,rfl,fun _ => ⟨rfl,rfl⟩,id⟩
  | watcherPut =>
    simp only [step] at stepped
    split at stepped
    · cases Option.some.inj stepped
      exact ⟨rfl,rfl,rfl,fun _ => ⟨rfl,rfl⟩,id⟩
    · simp at stepped
  | deadline | completed =>
    simp only [step] at stepped
    split at stepped
    · split at stepped <;> simp only [reduceCtorEq,Option.some.injEq] at stepped
      subst stepped
      exact ⟨rfl,rfl,rfl,fun _ => ⟨rfl,rfl⟩,id⟩
    · simp at stepped
  | resume => exact absurd rfl other
  | cancel => exact absurd rfl uninterrupted

/-- The race was examined in `before`: its answer is sent in order, an application that
had returned is left as it was, and any other one has ended or is cancelled. -/
structure Decided (before s : DeadlineMiddleware ε M C) : Prop where
  away : s.phase ≠ .waiting
  uninterrupted : s.cancelled = false
  response : s.sent++s.remaining = before.answer
  forwards : ∀ index, s.phase = .forwarding index → before.task.outcome = some (.returned ())
  kept : before.task.outcome = some (.returned ()) →
    s.task.outcome = some (.returned ()) ∧ s.messages = before.messages
  dropped : before.task.outcome ≠ some (.returned ()) → s.task.done = true ∨ s.task.cancelRequested = true

theorem cancel_dropped (task : Task ε Unit) : task.cancel.done = true ∨ task.cancel.cancelRequested = true := by
  cases ended : task.done with
  | true => exact Or.inl (by simpa using ended)
  | false => exact Or.inr (task.cancel_requested ended)

theorem examine_decided (fresh : s.sent = []) (undisturbed : s.cancelled = false) : Decided s s.examine := by
  unfold examine
  cases outcome : s.task.outcome with
  | none =>
    have different : s.task.outcome ≠ some (.returned ()) := by simp [outcome]
    dsimp only
    split
    · rename_i gone
      exact ⟨by simp [join],undisturbed,by simp_all [join,remaining,answer],by simp [join],
        fun same => absurd same different,fun _ => cancel_dropped s.task⟩
    · rename_i present
      exact ⟨by simp,undisturbed,by simp_all [remaining,answer],by simp,
        fun same => absurd same different,fun _ => cancel_dropped s.task⟩
  | some ending =>
    have ended : s.task.done = true := by simp [Task.done,outcome]
    cases ending with
    | returned value =>
      exact ⟨by simp,undisturbed,by simp [remaining,answer,outcome,fresh],fun _ _ => outcome,
        fun _ => ⟨outcome,rfl⟩,fun other => absurd outcome other⟩
    | raised error =>
      exact ⟨by simp [join],undisturbed,by simp [join,remaining,answer,outcome,fresh],by simp [join],
        fun same => by simp [outcome] at same,fun _ => Or.inl ended⟩
    | cancelled =>
      exact ⟨by simp [interrupt,join],rfl,by simp [interrupt,join,remaining,answer,outcome,fresh],
        by simp [interrupt,join],fun same => by simp [outcome] at same,fun _ => cancel_dropped s.task⟩

theorem Decided.aside (decided : Decided before s) (aside : Aside s next) : Decided before next := by
  have same : next.remaining = s.remaining := by
    unfold remaining
    rw [aside.phase]
    cases phase : s.phase with
    | forwarding index =>
      have returned := (decided.kept (decided.forwards index phase)).1
      dsimp only
      rw [(aside.ended (by simp [Task.done,returned])).2]
    | waiting | refusing rest | joining ending | ended ending => rfl
  refine ⟨aside.phase ▸ decided.away,aside.cancelled.trans decided.uninterrupted,?_,?_,?_,?_⟩
  · rw [aside.sent,same]
    exact decided.response
  · rw [aside.phase]
    exact decided.forwards
  · intro returned
    obtain ⟨outcome,messages⟩ := decided.kept returned
    obtain ⟨sameOutcome,sameMessages⟩ := aside.ended (by simp [Task.done,outcome])
    exact ⟨sameOutcome.trans outcome,sameMessages.trans messages⟩
  · intro other
    rcases decided.dropped other with ended | requested
    · left
      rw [Task.done,(aside.ended ended).1]
      exact ended
    · exact Or.inr (aside.requested requested)

theorem Decided.resume (decided : Decided before s) (resumed : s.resume = some next) : Decided before next := by
  have undisturbed := decided.uninterrupted
  have response := decided.response
  unfold DeadlineMiddleware.resume at resumed
  simp only [undisturbed,Bool.false_eq_true,if_false] at resumed
  cases phase : s.phase with
  | waiting => exact absurd phase decided.away
  | forwarding index =>
    simp only [phase] at resumed
    have forwarded := decided.forwards index phase
    cases found : s.messages[index]? with
    | some message =>
      simp only [found,Option.some.injEq] at resumed
      subst resumed
      obtain ⟨inside,here⟩ := List.getElem?_eq_some_iff.mp found
      refine ⟨by simp,rfl,?_,fun _ _ => forwarded,decided.kept,decided.dropped⟩
      rw [remaining,phase] at response
      simpa [remaining,List.drop_eq_getElem_cons inside,here] using response
    | none =>
      simp only [found,Option.some.injEq] at resumed
      subst resumed
      refine ⟨by simp [join],undisturbed,?_,by simp [join],decided.kept,decided.dropped⟩
      rw [remaining,phase] at response
      simpa [join,remaining,List.drop_eq_nil_of_le (List.getElem?_eq_none_iff.mp found)] using response
  | refusing rest =>
    simp only [phase] at resumed
    cases rest with
    | cons message rest =>
      simp only [Option.some.injEq] at resumed
      subst resumed
      refine ⟨by simp,rfl,?_,by simp,decided.kept,decided.dropped⟩
      rw [remaining,phase] at response
      simpa [remaining] using response
    | nil =>
      simp only [Option.some.injEq] at resumed
      subst resumed
      refine ⟨by simp [join],undisturbed,?_,by simp [join],decided.kept,decided.dropped⟩
      rw [remaining,phase] at response
      simpa [join,remaining] using response
  | joining ending =>
    simp only [phase] at resumed
    split at resumed
    · simp only [Option.some.injEq] at resumed
      subst resumed
      refine ⟨by simp,rfl,?_,by simp,decided.kept,decided.dropped⟩
      rw [remaining,phase] at response
      simpa [remaining] using response
    · simp at resumed
  | ended ending => simp [phase] at resumed

theorem run_decided {actions : List (Action ε M C)} (decided : Decided before s) (uninterrupted : .cancel ∉ actions)
    (ran : run step s actions = some next) : Decided before next := by
  induction actions generalizing s with
  | nil =>
    cases Option.some.inj ran
    exact decided
  | cons action rest ih =>
    obtain ⟨middle,stepped,remaining⟩ := run_cons_some ran
    simp only [List.mem_cons,not_or] at uninterrupted
    refine ih ?_ uninterrupted.2 remaining
    by_cases own : action = .resume
    · subst own
      exact decided.resume stepped
    · exact decided.aside (step_aside stepped own (Ne.symm uninterrupted.1))

theorem run_examined {actions : List (Action ε M C)} (waiting : s.phase = .waiting) (fresh : s.sent = [])
    (undisturbed : s.cancelled = false) (uninterrupted : .cancel ∉ actions) (ran : run step s actions = some next) :
    (next.phase = .waiting ∧ next.sent = []) ∨
    ∃ first later before, actions = first++.resume::later ∧ run step s first = some before ∧
      before.phase = .waiting ∧ Decided before next := by
  induction actions generalizing s with
  | nil =>
    cases Option.some.inj ran
    exact Or.inl ⟨waiting,fresh⟩
  | cons action rest ih =>
    obtain ⟨middle,stepped,remaining⟩ := run_cons_some ran
    simp only [List.mem_cons,not_or] at uninterrupted
    -- the race is examined in the first step of the middleware itself
    by_cases own : action = .resume
    · subst own
      have resumed : s.resume = some middle := stepped
      rw [DeadlineMiddleware.resume] at resumed
      simp only [waiting,undisturbed,Bool.false_eq_true,if_false] at resumed
      split at resumed
      · cases Option.some.inj resumed
        exact Or.inr ⟨[],rest,s,rfl,rfl,waiting,
          run_decided (examine_decided fresh undisturbed) uninterrupted.2 remaining⟩
      · simp at resumed
    · have aside := step_aside stepped own (Ne.symm uninterrupted.1)
      rcases ih (aside.phase.trans waiting) (aside.sent.trans fresh) (aside.cancelled.trans undisturbed)
          uninterrupted.2 remaining with still | ⟨first,later,before,rfl,ran,rest⟩
      · exact Or.inl still
      · refine Or.inr ⟨action::first,later,before,rfl,?_,rest⟩
        rw [run_cons,stepped]
        exact ran

/-- A guarded request sends nothing before the race is examined, and from then on the one
answer that belongs to the state in which it was examined: what the application produced if
it had returned, one 504 if it was running and the client was there, and nothing otherwise.
An application whose response is not sent has ended or is cancelled. -/
theorem one_response (scope : Scope) (budget : Rat) (start : DeadlineMiddleware ε M C)
    (entered : enter scope budget = some start) (actions : List (Action ε M C)) (uninterrupted : .cancel ∉ actions)
    (s : DeadlineMiddleware ε M C) (reached : run step start actions = some s) :
    (s.phase = .waiting ∧ s.sent = []) ∨
    ∃ first later before, actions = first++.resume::later ∧ run step start first = some before ∧
      before.phase = .waiting ∧ s.sent <+: before.answer ∧
      (∀ ending, s.phase = .ended ending → s.sent = before.answer) ∧
      (before.task.outcome = some (.returned ()) →
        s.task.outcome = some (.returned ()) ∧ s.messages = before.messages) ∧
      (before.task.outcome ≠ some (.returned ()) → s.task.done = true ∨ s.task.cancelRequested = true) := by
  have initial : start = init scope budget := by
    unfold enter at entered
    split at entered
    · exact (Option.some.inj entered).symm
    · simp at entered
  subst initial
  rcases run_examined rfl rfl rfl uninterrupted reached with waiting | ⟨first,later,before,split,ran,raced,decided⟩
  · exact Or.inl waiting
  · refine Or.inr ⟨first,later,before,split,ran,raced,⟨s.remaining,decided.response⟩,?_,decided.kept,decided.dropped⟩
    intro ending settled
    have response := decided.response
    rw [remaining,settled] at response
    simpa using response

def priceScope : Scope := ⟨"http","/price",none⟩

/-- The application answers after the deadline or a disconnect, but before the middleware resumes. -/
def overtaking : List (Action Unit Nat Unit) :=
  [.collect 0,.appStep (some (.returned ())),.completed,.resume,.resume,.resume]

theorem one_response_late :
    ∃ s : DeadlineMiddleware Unit Nat Unit, run step (init priceScope 300)
        ([.appStep none,.watcherStep]++.deadline::overtaking++[.watcherCancelled,.resume]) = some s ∧
      s.phase = .ended (.returned ()) ∧
      ((s.phase = .waiting ∧ s.sent = []) ∨ ∃ before : DeadlineMiddleware Unit Nat Unit, s.sent = before.answer) := by
  refine ⟨_,rfl,rfl,?_⟩
  refine (one_response priceScope 300 (init priceScope 300) rfl
    ([.appStep none,.watcherStep]++.deadline::overtaking++[.watcherCancelled,.resume]) (by decide) _ rfl).imp_right ?_
  rintro ⟨_,_,before,_,_,_,_,complete,_⟩
  exact ⟨before,complete _ rfl⟩

/-- Neither the deadline nor a disconnect keeps a later message of the application from
being sent: it may still return before the middleware resumes. -/
theorem late_message_sent :
    (¬ ∀ (first later : List (Action Unit Nat Unit)) (s : DeadlineMiddleware Unit Nat Unit) (m : Nat),
      .cancel ∉ first++later → run step (init priceScope 300) (first++.deadline::later) = some s →
      .collect m ∉ first → .app m ∉ s.sent) ∧
    (¬ ∀ (first later : List (Action Unit Nat Unit)) (s : DeadlineMiddleware Unit Nat Unit) (m : Nat),
      .cancel ∉ first++later → run step (init priceScope 300) (first++.received .disconnect::later) = some s →
      .collect m ∉ first → .app m ∉ s.sent) := by
  constructor
  · intro claimed
    exact claimed [.appStep none,.watcherStep] overtaking _ 0 (by decide) rfl (by decide) (by decide)
  · intro claimed
    exact claimed [.appStep none,.watcherStep] overtaking _ 0 (by decide) rfl (by decide) (by decide)

end DeadlineMiddleware

end YPriceMagic.Runtime
