import YPriceMagic.Runtime.DeadlineMiddleware

/-! `_watch_client` between the server's `receive` and a queue of one place that the
application may never read. The chunks that have been received are in the queue, in the
watcher's hands or read, so the watcher is held up exactly two chunks after the last read. -/
namespace YPriceMagic.Runtime
open YPriceMagic.Async

namespace DeadlineMiddleware

variable {ε M C : Type} {s next : DeadlineMiddleware ε M C} {actions : List (Action ε M C)}

def Action.byWatcher : Action ε M C → Bool
  | .watcherStep | .received _ | .receiveRaised _ | .watcherPut | .watcherCancelled => true
  | _ => false

/-- The watcher has not ended and cannot take a step, whatever `receive` would yield. -/
def Stalled (s : DeadlineMiddleware ε M C) : Prop :=
  s.waiter.done = false ∧ ∀ action : Action ε M C, action.byWatcher = true → s.step action = none

def received : List (Action ε M C) → List (ClientMessage C) :=
  List.filterMap fun
    | .received message => some message
    | _ => none

def reads : List (Action ε M C) → Nat :=
  List.countP fun
    | .appReceive => true
    | _ => false

/-- `receive` yields the chunks in order and then the disconnect, and does not raise. -/
structure Serves (chunks : List C) (actions : List (Action ε M C)) : Prop where
  inOrder : received actions <+: chunks.map .request++[.disconnect]
  unfailing : ∀ error, .receiveRaised error ∉ actions

theorem stalled_iff : s.Stalled ↔ s.waiter.inProgress = true ∧ s.waiter.cancelRequested = false ∧
    s.watching.isReceiving = false ∧ s.incoming.isSome = true := by
  constructor
  · rintro ⟨unfinished,stuck⟩
    have entered : s.waiter.entered = true := by
      have unable := stuck .watcherStep rfl
      cases entered : s.waiter.entered with
      | true => rfl
      | false =>
        cases requested : s.waiter.cancelRequested <;> simp [step,Task.step,entered,unfinished,requested] at unable
    have running : s.waiter.inProgress = true := by simp [Task.inProgress,entered,unfinished]
    have uncancelled : s.waiter.cancelRequested = false := by
      have unable := stuck .watcherCancelled rfl
      simpa [step,running] using unable
    have holding : s.watching.isReceiving = false := by
      have unable := stuck (.received .disconnect) rfl
      cases watching : s.watching with
      | receiving => simp [step,watch,running,watching] at unable
      | putting chunk => rfl
    refine ⟨running,uncancelled,holding,?_⟩
    have unable := stuck .watcherPut rfl
    cases watching : s.watching with
    | receiving => simp [watching,Watching.isReceiving] at holding
    | putting chunk =>
      cases incoming : s.incoming with
      | none => simp [step,running,watching,incoming] at unable
      | some message => rfl
  · rintro ⟨running,uncancelled,holding,full⟩
    have state := running
    simp only [Task.inProgress,Bool.and_eq_true,Bool.not_eq_true'] at state
    refine ⟨state.2,fun action own => ?_⟩
    obtain ⟨chunk,watching⟩ : ∃ chunk, s.watching = .putting chunk := by
      cases watching : s.watching with
      | receiving => simp [watching,Watching.isReceiving] at holding
      | putting chunk => exact ⟨chunk,rfl⟩
    obtain ⟨message,incoming⟩ := Option.isSome_iff_exists.mp full
    cases action with
    | watcherStep => simp [step,state.1]
    | received message => simp [step,watch,watching]
    | receiveRaised error => simp [step,holding]
    | watcherPut => simp [step,watching,incoming]
    | watcherCancelled => simp [step,uncancelled]
    | _ => cases own

theorem resume_frame (resumed : s.resume = some next) :
    next.incoming = s.incoming ∧ next.watching = s.watching ∧ next.waiter.done = s.waiter.done ∧ next.phase ≠ .waiting := by
  unfold resume at resumed
  split at resumed
  · split at resumed
    · cases Option.some.inj resumed
      simp [interrupt,join]
    · split at resumed
      · cases Option.some.inj resumed
        unfold examine
        split
        · simp
        · simp [join]
        · simp [interrupt,join]
        · dsimp only
          split <;> simp [join]
      · cases resumed
  · split at resumed
    · cases Option.some.inj resumed
      simp [interrupt,join]
    · split at resumed <;> cases Option.some.inj resumed <;> simp [join]
  · split at resumed
    · cases Option.some.inj resumed
      simp [interrupt,join]
    · split at resumed <;> cases Option.some.inj resumed <;> simp [join]
  · split at resumed
    · cases Option.some.inj resumed
      simp
    · cases resumed
  · cases resumed

def inQueue (s : DeadlineMiddleware ε M C) : Nat := if s.incoming.isSome then 1 else 0

def inHand (s : DeadlineMiddleware ε M C) : Nat := if s.watching.isReceiving then 0 else 1

/-- Until the watcher ends, every chunk it has received is in the queue, in its hands or
read; while the race is on, nothing but the disconnect ends it. -/
structure Flow (actions : List (Action ε M C)) (s : DeadlineMiddleware ε M C) : Prop where
  counted : s.waiter.done = false → s.inQueue+s.inHand+reads actions = (received actions).length
  unheard : s.waiter.done = false → .disconnect ∉ received actions
  uncancelled : s.phase = .waiting → s.waiter.cancelRequested = false
  heard : s.phase = .waiting → s.waiter.done = true → s.disconnected = true

@[simp] theorem received_append (first second : List (Action ε M C)) :
    received (first++second) = received first++received second := List.filterMap_append

@[simp] theorem reads_append (first second : List (Action ε M C)) :
    reads (first++second) = reads first+reads second := List.countP_append

theorem init_flow (scope : Scope) (budget : Rat) : Flow [] (init scope budget : DeadlineMiddleware ε M C) :=
  ⟨fun _ => rfl,fun _ member => by simp [received] at member,fun _ => rfl,fun _ ended => by simp [init,Task.done] at ended⟩

/-- A step that neither receives nor reads and leaves the queue and the watcher's hands alone. -/
theorem Flow.aside {action : Action ε M C} (flow : Flow actions s) (silent : received [action] = []) (unread : reads [action] = 0)
    (incoming : next.incoming = s.incoming) (watching : next.watching = s.watching)
    (undone : next.waiter.done = false → s.waiter.done = false)
    (uncancelled : next.phase = .waiting → s.phase = .waiting ∧ next.waiter.cancelRequested = s.waiter.cancelRequested ∧
      (next.waiter.done = true → s.waiter.done = true) ∧ next.disconnected = s.disconnected) :
    Flow (actions++[action]) next := by
  refine ⟨fun live => ?_,fun live => ?_,fun waits => ?_,fun waits ended => ?_⟩
  · simpa [inQueue,inHand,incoming,watching,silent,unread] using flow.counted (undone live)
  · simpa [silent] using flow.unheard (undone live)
  · obtain ⟨before,same,_⟩ := uncancelled waits
    rw [same]
    exact flow.uncancelled before
  · obtain ⟨before,_,earlier,same⟩ := uncancelled waits
    rw [same]
    exact flow.heard before (earlier ended)

/-- A step that moves a chunk on, by the balance of the queue and the watcher's hands. -/
theorem Flow.moves {action : Action ε M C} (flow : Flow actions s) (waiter : next.waiter = s.waiter)
    (phase : next.phase = s.phase) (disconnected : next.disconnected = s.disconnected)
    (balance : next.inQueue+next.inHand+reads [action] = s.inQueue+s.inHand+(received [action]).length)
    (chunk : .disconnect ∉ received [action]) : Flow (actions++[action]) next := by
  refine ⟨fun live => ?_,fun live => ?_,?_,?_⟩
  · rw [waiter] at live
    have counted := flow.counted live
    rw [reads_append,received_append,List.length_append]
    omega
  · rw [waiter] at live
    rw [received_append,List.mem_append,not_or]
    exact ⟨flow.unheard live,chunk⟩
  · rw [waiter,phase]
    exact flow.uncancelled
  · rw [waiter,phase,disconnected]
    exact flow.heard

theorem flow_ended (ended : next.waiter.done = true) (uncancelled : next.phase = .waiting → next.waiter.cancelRequested = false)
    (heard : next.phase = .waiting → next.disconnected = true) : Flow actions next := by
  refine ⟨fun live => ?_,fun live => ?_,uncancelled,fun waits _ => heard waits⟩ <;> simp [ended] at live

/-- The application, the timer and the middleware itself leave the queue and the watcher alone,
but for the cancellation at the end of the race. -/
theorem Flow.outside {action : Action ε M C} (flow : Flow actions s) (other : action.byWatcher = false)
    (unread : action ≠ .appReceive) (stepped : s.step action = some next) : Flow (actions++[action]) next := by
  cases action with
  | appStep ending =>
    obtain ⟨task,_,rfl⟩ := Option.map_eq_some_iff.mp stepped
    exact flow.aside rfl rfl rfl rfl id fun waits => ⟨waits,rfl,id,rfl⟩
  | collect message =>
    simp only [step] at stepped
    split at stepped
    · cases Option.some.inj stepped
      exact flow.aside rfl rfl rfl rfl id fun waits => ⟨waits,rfl,id,rfl⟩
    · cases stepped
  | finished =>
    obtain ⟨task,_,rfl⟩ := Option.map_eq_some_iff.mp stepped
    exact flow.aside rfl rfl rfl rfl id fun waits => ⟨waits,rfl,id,rfl⟩
  | deadline | completed =>
    simp only [step] at stepped
    split at stepped
    · split at stepped <;> simp only [reduceCtorEq,Option.some.injEq] at stepped
      subst stepped
      exact flow.aside rfl rfl rfl rfl id fun waits => ⟨waits,rfl,id,rfl⟩
    · cases stepped
  | cancel =>
    simp only [step] at stepped
    split at stepped
    · cases stepped
    · cases Option.some.inj stepped
      exact flow.aside rfl rfl rfl rfl id fun waits => ⟨waits,rfl,id,rfl⟩
  | resume =>
    obtain ⟨incoming,watching,done,away⟩ := resume_frame stepped
    exact flow.aside rfl rfl incoming watching (fun live => done ▸ live) fun waits => absurd waits away
  | appReceive => exact absurd rfl unread
  | watcherStep | received message | receiveRaised error | watcherPut | watcherCancelled => cases other

/-- A chunk goes to the queue or stays in the watcher's hands; the disconnect ends the watcher. -/
theorem Flow.watched {message : ClientMessage C} (flow : Flow actions s) (watched : s.watch message = some next) :
    Flow (actions++[.received message]) next := by
  unfold watch at watched
  split at watched
  · cases Option.some.inj watched
    exact flow_ended rfl flow.uncancelled fun _ => rfl
  · rename_i chunk running watching
    split at watched
    · rename_i full
      cases Option.some.inj watched
      refine flow.moves rfl rfl rfl ?_ (by simp [received])
      simp [inQueue,inHand,watching,full,Watching.isReceiving,received,reads]
    · rename_i room
      cases Option.some.inj watched
      refine flow.moves rfl rfl rfl ?_ (by simp [received])
      simp [inQueue,inHand,watching,room,Watching.isReceiving,received,reads]
  · cases watched

theorem step_flow {action : Action ε M C} (unfailing : ∀ error, action ≠ .receiveRaised error) (flow : Flow actions s)
    (stepped : s.step action = some next) : Flow (actions++[action]) next := by
  cases action with
  | received message => exact flow.watched stepped
  | receiveRaised error => exact absurd rfl (unfailing error)
  | watcherCancelled =>
    simp only [step] at stepped
    split at stepped
    · rename_i asked
      simp only [Bool.and_eq_true] at asked
      cases Option.some.inj stepped
      refine flow_ended rfl flow.uncancelled fun waits => ?_
      simp [flow.uncancelled waits] at asked
    · cases stepped
  | watcherStep =>
    simp only [step] at stepped
    split at stepped
    · cases stepped
    · obtain ⟨waiter,entered,rfl⟩ := Option.map_eq_some_iff.mp stepped
      obtain ⟨unfinished,ways⟩ := Task.step_cases entered
      rcases ways with ⟨_,asked,rfl⟩ | ⟨_,rfl⟩
      · refine flow_ended rfl flow.uncancelled fun waits => ?_
        simp [flow.uncancelled waits] at asked
      · exact flow.aside rfl rfl rfl rfl (fun _ => unfinished) fun waits => ⟨waits,rfl,(absurd · Bool.false_ne_true),rfl⟩
  | appReceive =>
    simp only [step] at stepped
    split at stepped
    · rename_i ready
      simp only [Bool.and_eq_true] at ready
      cases Option.some.inj stepped
      refine flow.moves rfl rfl rfl ?_ (by simp [received])
      simp [inQueue,inHand,ready.2,received,reads]
      omega
    · cases stepped
  | watcherPut =>
    simp only [step] at stepped
    split at stepped
    · rename_i running watching incoming
      cases Option.some.inj stepped
      refine flow.moves rfl rfl rfl ?_ (by simp [received])
      simp [inQueue,inHand,watching,incoming,Watching.isReceiving,received,reads]
    · cases stepped
  | appStep ending => exact flow.outside rfl (by simp) stepped
  | collect message => exact flow.outside rfl (by simp) stepped
  | finished | deadline | completed | resume | cancel => exact flow.outside rfl (by simp) stepped

theorem run_flow {scope : Scope} {budget : Rat} (unfailing : ∀ error, .receiveRaised error ∉ actions)
    (ran : run step (init scope budget) actions = some s) : Flow actions s := by
  refine run_history (fun actions s => (∀ error, .receiveRaised error ∉ actions) → Flow actions s)
    (fun _ => init_flow scope budget) (fun actions before action after _ flow stepped unfailing => ?_) ran unfailing
  refine step_flow (fun error same => unfailing error ?_) (flow fun error member => unfailing error ?_) stepped
  · simp [same]
  · exact List.mem_append_left _ member

section
variable {scope : Scope} {budget : Rat} {chunks : List C}

theorem Serves.chunks_only (serves : Serves chunks actions) (unheard : .disconnect ∉ received actions) :
    (received actions).length ≤ chunks.length := by
  obtain ⟨rest,split⟩ := serves.inOrder
  have sizes := congrArg List.length split
  simp only [List.length_append,List.length_map,List.length_singleton] at sizes
  cases rest with
  | cons message rest =>
    simp only [List.length_cons] at sizes
    omega
  | nil =>
    rw [List.append_nil] at split
    exact absurd (by simp [split]) unheard

theorem Serves.silent {action : Action ε M C} (serves : Serves chunks actions) (silent : received [action] = [])
    (unfailing : ∀ error, action ≠ .receiveRaised error) : Serves chunks (actions++[action]) := by
  refine ⟨by simpa [silent] using serves.inOrder,fun error member => ?_⟩
  rcases List.mem_append.mp member with earlier | here
  · exact serves.unfailing error earlier
  · exact unfailing error (List.mem_singleton.mp here).symm

theorem Serves.delivered {message : ClientMessage C} {rest : List (ClientMessage C)} (serves : Serves chunks actions)
    (split : received actions++message::rest = chunks.map .request++[.disconnect]) :
    Serves chunks (actions++[.received message]) := by
  refine ⟨⟨rest,?_⟩,fun error member => ?_⟩
  · rw [received_append]
    simpa [received] using split
  · rcases List.mem_append.mp member with earlier | here
    · exact serves.unfailing error earlier
    · cases List.mem_singleton.mp here

theorem stalled_bound (ran : run step (init scope budget) actions = some s) (serves : Serves chunks actions)
    (stalled : s.Stalled) : reads actions+2 ≤ chunks.length := by
  have flow := run_flow serves.unfailing ran
  have counted := flow.counted stalled.1
  have bound := serves.chunks_only (flow.unheard stalled.1)
  obtain ⟨_,_,holding,full⟩ := stalled_iff.mp stalled
  simp [inQueue,inHand,holding,full] at counted
  omega

/-- The race is on in a state that the application leaves with its reads so far. -/
structure Racing (scope : Scope) (budget : Rat) (chunks : List C) (actions : List (Action ε M C))
    (s : DeadlineMiddleware ε M C) : Prop where
  reached : run step (init scope budget) actions = some s
  serves : Serves chunks actions
  short : chunks.length ≤ reads actions+1
  waits : s.phase = .waiting
  uninterrupted : s.cancelled = false

theorem watcher_frame {action : Action ε M C} (own : action.byWatcher = true) (stepped : s.step action = some next) :
    next.phase = s.phase ∧ next.cancelled = s.cancelled := by
  have aside := step_aside stepped (fun same => by subst same; cases own) (fun same => by subst same; cases own)
  exact ⟨aside.phase,aside.cancelled⟩

theorem Racing.moved {action : Action ε M C} (racing : Racing scope budget chunks actions s) (own : action.byWatcher = true)
    (serves : Serves chunks (actions++[action])) (stepped : s.step action = some next) :
    Racing scope budget chunks (actions++[action]) next := by
  obtain ⟨phase,cancelled⟩ := watcher_frame own stepped
  have short := racing.short
  refine ⟨run_snoc racing.reached stepped,serves,?_,phase.trans racing.waits,cancelled.trans racing.uninterrupted⟩
  rw [reads_append]
  omega

/-- The watcher's own steps lead on to such a state. -/
def Onward (scope : Scope) (budget : Rat) (chunks : List C) (actions : List (Action ε M C)) (s : DeadlineMiddleware ε M C)
    (wanted : List (Action ε M C) → DeadlineMiddleware ε M C → Prop) : Prop :=
  ∃ later next, (∀ action ∈ later, action.byWatcher = true) ∧ run step s later = some next ∧
    Racing scope budget chunks (actions++later) next ∧ wanted (actions++later) next

variable {wanted : List (Action ε M C) → DeadlineMiddleware ε M C → Prop}

theorem Racing.here (racing : Racing scope budget chunks actions s) (has : wanted actions s) :
    Onward scope budget chunks actions s wanted :=
  ⟨[],s,by simp,rfl,by simpa using racing,by simpa using has⟩

theorem Onward.after {action : Action ε M C} (own : action.byWatcher = true) (stepped : s.step action = some next)
    (onward : Onward scope budget chunks (actions++[action]) next wanted) :
    Onward scope budget chunks actions s wanted := by
  obtain ⟨later,last,owned,ran,racing,has⟩ := onward
  rw [List.append_assoc] at racing has
  refine ⟨action::later,last,?_,?_,racing,has⟩
  · simpa [own] using owned
  · rw [run_cons,stepped]
    exact ran

/-- A watcher that is not held up takes what it has in hand to the queue. -/
theorem Racing.receives (racing : Racing scope budget chunks actions s) (running : s.waiter.inProgress = true) :
    Onward scope budget chunks actions s fun later next =>
      received later = received actions ∧ next.waiter.inProgress = true ∧ next.watching = .receiving := by
  cases watching : s.watching with
  | receiving => exact racing.here ⟨rfl,running,watching⟩
  | putting chunk =>
    cases incoming : s.incoming with
    | none =>
      have put : s.step .watcherPut = some {s with incoming := some (.request chunk),watching := .receiving} := by
        simp [step,running,watching,incoming]
      have serves : Serves chunks (actions++[.watcherPut]) := racing.serves.silent rfl (by simp)
      exact Onward.after rfl put ((racing.moved rfl serves put).here ⟨by simp [received],running,rfl⟩)
    | some message =>
      have uncancelled := (run_flow racing.serves.unfailing racing.reached).uncancelled racing.waits
      have stalled : s.Stalled := stalled_iff.mpr ⟨running,uncancelled,by simp [watching,Watching.isReceiving],by simp [incoming]⟩
      have bound := stalled_bound racing.reached racing.serves stalled
      have short := racing.short
      omega

theorem Onward.trans {middle : List (Action ε M C) → DeadlineMiddleware ε M C → Prop}
    (onward : Onward scope budget chunks actions s middle)
    (further : ∀ later next, Racing scope budget chunks later next → middle later next →
      Onward scope budget chunks later next wanted) : Onward scope budget chunks actions s wanted := by
  obtain ⟨first,between,owned,ran,racing,has⟩ := onward
  obtain ⟨second,last,alsoOwned,alsoRan,final,reached⟩ := further _ _ racing has
  rw [List.append_assoc] at final reached
  refine ⟨first++second,last,?_,?_,final,reached⟩
  · intro action member
    rcases List.mem_append.mp member with early | late
    · exact owned action early
    · exact alsoOwned action late
  · rw [run_append,ran]
    exact alsoRan

def Heard (_ : List (Action ε M C)) (s : DeadlineMiddleware ε M C) : Prop := s.waiter.done = true ∧ s.disconnected = true

/-- By induction on what `receive` still yields, the disconnect being the last of it. -/
theorem Racing.hears (rest : List (ClientMessage C)) : ∀ {actions : List (Action ε M C)} {s : DeadlineMiddleware ε M C}
    {message : ClientMessage C}, received actions++message::rest = chunks.map .request++[.disconnect] →
    Racing scope budget chunks actions s → s.waiter.inProgress = true → Onward scope budget chunks actions s Heard := by
  induction rest with
  | nil =>
    intro actions s message split racing running
    obtain rfl : message = .disconnect := by simpa using (List.append_inj' split rfl).2
    refine (racing.receives running).trans fun later next racing has => ?_
    obtain ⟨same,running,watching⟩ := has
    have heard : ∃ after, next.step (.received .disconnect) = some after ∧ after.waiter.done = true ∧
        after.disconnected = true := by
      simp [step,watch,running,watching,Task.done]
    obtain ⟨after,stepped,heard⟩ := heard
    have serves : Serves chunks (later++[.received .disconnect]) := racing.serves.delivered (by rw [same]; exact split)
    exact Onward.after rfl stepped ((racing.moved rfl serves stepped).here heard)
  | cons following rest ih =>
    intro actions s message split racing running
    have chunk : ∃ chunk, message = .request chunk := by
      have before : message ∈ chunks.map ClientMessage.request := by
        have shorter : (received actions++message::following::rest).dropLast = chunks.map .request := by simp [split]
        rw [← shorter]
        simp
      obtain ⟨chunk,_,same⟩ := List.mem_map.mp before
      exact ⟨chunk,same.symm⟩
    obtain ⟨chunk,rfl⟩ := chunk
    refine (racing.receives running).trans fun later next racing has => ?_
    obtain ⟨same,running,watching⟩ := has
    have serves : Serves chunks (later++[.received (.request chunk)]) := racing.serves.delivered (by rw [same]; exact split)
    have onward : received (later++[.received (.request chunk)])++following::rest = chunks.map .request++[.disconnect] := by
      rw [received_append,same]
      simpa [received] using split
    cases full : next.incoming.isSome with
    | true =>
      have held : next.step (.received (.request chunk)) = some {next with watching := .putting chunk} := by
        simp [step,watch,running,watching,full]
      exact Onward.after rfl held (ih onward (racing.moved rfl serves held) running)
    | false =>
      have queued : next.step (.received (.request chunk)) = some {next with incoming := some (.request chunk)} := by
        simp [step,watch,running,watching,full]
      exact Onward.after rfl queued (ih onward (racing.moved rfl serves queued) running)

/-- What is left of `receive` while the disconnect has not come. -/
theorem Serves.undelivered (serves : Serves chunks actions) (unheard : .disconnect ∉ received actions) :
    ∃ message rest, received actions++message::rest = chunks.map .request++[.disconnect] := by
  obtain ⟨rest,split⟩ := serves.inOrder
  cases rest with
  | nil =>
    rw [List.append_nil] at split
    exact absurd (by simp [split]) unheard
  | cons message rest => exact ⟨message,rest,split⟩

theorem Racing.heard (racing : Racing scope budget chunks actions s) : Onward scope budget chunks actions s Heard := by
  have flow := run_flow racing.serves.unfailing racing.reached
  cases unfinished : s.waiter.done with
  | true => exact racing.here ⟨unfinished,flow.heard racing.waits unfinished⟩
  | false =>
    obtain ⟨message,rest,split⟩ := racing.serves.undelivered (flow.unheard unfinished)
    cases entered : s.waiter.entered with
    | true => exact racing.hears rest split (by simp [Task.inProgress,entered,unfinished])
    | false =>
      have uncancelled := flow.uncancelled racing.waits
      have unset : s.waiter.outcome = none := by simpa [Task.done] using unfinished
      have begun : ∃ after, s.step .watcherStep = some after ∧ after.waiter.inProgress = true := by
        simp [step,Task.step,entered,unset,uncancelled,Task.inProgress,Task.done]
      obtain ⟨after,stepped,running⟩ := begun
      have serves : Serves chunks (actions++[.watcherStep]) := racing.serves.silent rfl (by simp)
      have same : received (actions++[.watcherStep])++message::rest = chunks.map .request++[.disconnect] := by
        simpa [received] using split
      exact Onward.after rfl stepped ((racing.moved rfl serves stepped).hears rest same running)

theorem examine_cancels (s : DeadlineMiddleware ε M C) :
    (s.examine.task.done = true ∨ s.examine.task.cancelRequested = true) ∧ s.examine.disconnected = s.disconnected := by
  unfold examine
  cases outcome : s.task.outcome with
  | none =>
    dsimp only
    split <;> exact ⟨cancel_dropped s.task,rfl⟩
  | some ending =>
    have ended : s.task.done = true := by simp [Task.done,outcome]
    cases ending with
    | returned value => exact ⟨Or.inl ended,rfl⟩
    | raised error => exact ⟨Or.inl ended,rfl⟩
    | cancelled => exact ⟨cancel_dropped s.task,rfl⟩

/-- The watcher's steps up to the disconnect, and those of the middleware that follow them. -/
theorem Racing.cancels (racing : Racing scope budget chunks actions s) :
    ∃ later after, (∀ action ∈ later, action.byWatcher = true) ∧ Serves chunks (actions++later) ∧
      run step s (later++[.completed,.resume]) = some after ∧ after.disconnected = true ∧
      (after.task.done = true ∨ after.task.cancelRequested = true) := by
  obtain ⟨later,next,owned,ran,racing,done,disconnected⟩ := racing.heard
  obtain ⟨ended,same⟩ := examine_cancels {next with released := true}
  refine ⟨later,_,owned,racing.serves,?_,same.trans disconnected,ended⟩
  rw [run_append,ran]
  simp [run_cons,step,resume,racing.waits,racing.uninterrupted,done]

def readAll (chunks : List C) : List (Action ε M C) :=
  chunks.flatMap fun chunk => [.received (.request chunk),.appReceive]

theorem readAll_counts (chunks : List C) :
    received (readAll chunks : List (Action ε M C)) = chunks.map .request ∧
      reads (readAll chunks : List (Action ε M C)) = chunks.length := by
  induction chunks with
  | nil => exact ⟨rfl,rfl⟩
  | cons chunk rest ih =>
    have front : (readAll (chunk::rest) : List (Action ε M C)) =
      [.received (.request chunk),.appReceive]++readAll rest := rfl
    rw [front,received_append,reads_append,ih.1,ih.2]
    exact ⟨rfl,Nat.add_comm ..⟩

theorem readAll_unfailing (chunks : List C) (error : ε) : (.receiveRaised error : Action ε M C) ∉ readAll chunks := by
  simp [readAll]

/-- An application that reads every chunk as it comes leaves everything as it was. -/
theorem run_reads (chunks : List C) (running : s.waiter.inProgress = true) (working : s.task.inProgress = true)
    (receiving : s.watching = .receiving) (empty : s.incoming = none) :
    run step s (readAll chunks) = some s := by
  induction chunks with
  | nil => rfl
  | cons chunk rest ih =>
    have queued : s.step (.received (.request chunk)) = some {s with incoming := some (.request chunk)} := by
      simp [step,watch,running,receiving,empty]
    have read : ({s with incoming := some (.request chunk)} : DeadlineMiddleware ε M C).step .appReceive = some s := by
      simp [step,working,← empty]
    rw [readAll,List.flatMap_cons,List.cons_append,List.cons_append,List.nil_append,run_cons,queued,Option.bind_some,
      run_cons,read]
    exact ih

theorem stalled_run (ε M : Type) (scope : Scope) (budget : Rat) {chunks : List C} {k : Nat} (many : k+2 ≤ chunks.length) :
    ∃ (actions : List (Action ε M C)) (s : DeadlineMiddleware ε M C), Serves chunks actions ∧ reads actions = k ∧
      run step (init scope budget) actions = some s ∧ s.Stalled := by
  obtain ⟨read,first,second,rest,rfl,size⟩ : ∃ read first second rest, chunks = read++first::second::rest ∧ read.length = k := by
    refine ⟨chunks.take k,chunks[k],chunks[k+1],chunks.drop (k+2),?_,by simp; omega⟩
    rw [← List.drop_eq_getElem_cons,← List.drop_eq_getElem_cons,List.take_append_drop]
  let ready : DeadlineMiddleware ε M C := {init scope budget with task := {entered := true},waiter := {entered := true}}
  obtain ⟨heard,taken⟩ := readAll_counts (ε := ε) (M := M) read
  refine ⟨[.appStep none,.watcherStep]++readAll read++[.received (.request first),.received (.request second)],
    {ready with incoming := some (.request first),watching := .putting second},⟨⟨rest.map .request++[.disconnect],?_⟩,?_⟩,
    ?_,?_,?_⟩
  · rw [received_append,received_append,heard]
    simp [received]
  · simp [readAll_unfailing]
  · rw [reads_append,reads_append,taken]
    simp [reads,size]
  · rw [run_append,run_append]
    have begun : run step (init scope budget) [.appStep none,.watcherStep] = some ready := rfl
    rw [begun,Option.bind_some,run_reads read rfl rfl rfl rfl,Option.bind_some]
    rfl
  · exact stalled_iff.mpr ⟨rfl,rfl,rfl,rfl⟩

end

/-- What an application can rely on that reads `k` messages and then never again: in no
state is the watcher held up, and while the race is on its steps lead to the disconnect,
upon which the middleware cancels a task that has not ended. -/
def Noticed (ε M : Type) (scope : Scope) (budget : Rat) (chunks : List C) (k : Nat) : Prop :=
  ∀ (actions : List (Action ε M C)) (s : DeadlineMiddleware ε M C), Serves chunks actions → reads actions = k →
    run step (init scope budget) actions = some s → ¬s.Stalled ∧
    (s.phase = .waiting → s.cancelled = false →
      ∃ later after, (∀ action ∈ later, action.byWatcher = true) ∧ Serves chunks (actions++later) ∧
        run step s (later++[.completed,.resume]) = some after ∧ after.disconnected = true ∧
        (after.task.done = true ∨ after.task.cancelRequested = true))

/-- Held up for good by two chunks more than are read, and for a while by any two. -/
theorem disconnect_noticed_iff (ε M : Type) (scope : Scope) (budget : Rat) (chunks : List C) (k : Nat) :
    (Noticed ε M scope budget chunks k ↔ chunks.length ≤ k+1) ∧
    ((∀ (actions : List (Action ε M C)) (s : DeadlineMiddleware ε M C), Serves chunks actions → reads actions ≤ k →
      run step (init scope budget) actions = some s → ¬s.Stalled) ↔ chunks.length ≤ 1) := by
  refine ⟨⟨fun noticed => ?_,fun short actions s serves read ran => ⟨fun stalled => ?_,fun waits uninterrupted => ?_⟩⟩,
    fun never => ?_,fun short actions s serves _ ran stalled => ?_⟩
  · by_contra many
    obtain ⟨actions,s,serves,read,ran,stalled⟩ := stalled_run ε M scope budget (k := k) (by omega : k+2 ≤ chunks.length)
    exact (noticed actions s serves read ran).1 stalled
  · have bound := stalled_bound ran serves stalled
    omega
  · exact Racing.cancels ⟨ran,serves,by omega,waits,uninterrupted⟩
  · by_contra many
    obtain ⟨actions,s,serves,read,ran,stalled⟩ := stalled_run ε M scope budget (k := 0) (by omega : 0+2 ≤ chunks.length)
    exact never actions s serves (by omega) ran stalled
  · have bound := stalled_bound ran serves stalled
    omega

/-- A body in two parts that the handler of a GET never reads. -/
theorem two_chunks_unnoticed : ¬Noticed Unit Nat priceScope 300 ["tok","en"] 0 := by
  intro noticed
  let actions : List (Action Unit Nat String) :=
    [.appStep none,.watcherStep,.received (.request "tok"),.received (.request "en")]
  have serves : Serves ["tok","en"] actions := ⟨⟨[.disconnect],rfl⟩,by simp [actions]⟩
  refine (noticed actions _ serves rfl rfl).1 ?_
  exact stalled_iff.mpr ⟨rfl,rfl,rfl,rfl⟩

end DeadlineMiddleware

end YPriceMagic.Runtime
