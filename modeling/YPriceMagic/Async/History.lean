import Mathlib.Logic.Relation
import YPriceMagic.Async.Forest

/-! What a task of a forest has performed, and what that says about the tasks it created.
A task whose coroutine ends only after it has seen each of its tasks done leaves none behind. -/
namespace YPriceMagic.Async
open Coroutine

section
variable {Kind Query : Type} {Answer : Query → Type} {ε : Type}

namespace Forest

def Extends (s next : Forest Kind Answer ε) : Prop :=
  ∀ (id : Nat) (node : Node Kind Answer ε), s[id]? = some node → ∃ later : Node Kind Answer ε, next[id]? = some later ∧
    later.kind = node.kind ∧ later.parent = node.parent ∧ ∀ outcome, node.outcome = some outcome → later.outcome = some outcome

/-- Task `id` took a step: the others keep their cores, and new ones are its own. -/
structure Moved (id : Nat) (s next : Forest Kind Answer ε) : Prop where
  grows : s.length ≤ next.length
  self : ∀ node : Node Kind Answer ε, s[id]? = some node → ∃ later : Node Kind Answer ε, next[id]? = some later ∧ later.kind = node.kind ∧
    later.parent = node.parent
  others : ∀ other : Nat, other < s.length → other ≠ id → next[other]?.map Node.core = s[other]?.map Node.core
  created : ∀ (other : Nat) (node : Node Kind Answer ε), s.length ≤ other → next[other]? = some node →
    node.standing = .created ∧ node.parent = some id

theorem Extends.refl (s : Forest Kind Answer ε) : s.Extends s :=
  fun _ node found => ⟨node,found,rfl,rfl,fun _ ended => ended⟩

theorem Extends.trans {s middle next : Forest Kind Answer ε} (first : s.Extends middle) (second : middle.Extends next) :
    s.Extends next := by
  intro id node found
  obtain ⟨between,there,kind,parent,outcome⟩ := first id node found
  obtain ⟨later,here,kind',parent',outcome'⟩ := second id between there
  exact ⟨later,here,kind'.trans kind,parent'.trans parent,fun ending ended => outcome' ending (outcome ending ended)⟩

theorem outcome_some {s : Forest Kind Answer ε} {id : Nat} {ending : Outcome ε Unit} :
    s.outcome id = some ending ↔ ∃ node : Node Kind Answer ε, s[id]? = some node ∧ node.outcome = some ending :=
  Option.bind_eq_some_iff

theorem done_eq {s : Forest Kind Answer ε} {id : Nat} {node : Node Kind Answer ε} (found : s[id]? = some node) :
    s.done id = node.done := by
  simp [Forest.done,Forest.outcome,Node.done,found]

theorem Extends.outcome {s next : Forest Kind Answer ε} (extended : s.Extends next) {id : Nat} {ending : Outcome ε Unit}
    (ended : s.outcome id = some ending) : next.outcome id = some ending := by
  obtain ⟨node,found,here⟩ := outcome_some.mp ended
  obtain ⟨later,there,_,_,kept⟩ := extended id node found
  exact outcome_some.mpr ⟨later,there,kept ending here⟩

theorem Extends.done {s next : Forest Kind Answer ε} (extended : s.Extends next) {id : Nat}
    (ended : s.done id = true) : next.done id = true := by
  obtain ⟨ending,here⟩ := Option.isSome_iff_exists.mp ended
  exact Option.isSome_iff_exists.mpr ⟨ending,extended.outcome here⟩

theorem outcome_of_core {node later : Node Kind Answer ε} (same : later.core = node.core) :
    later.kind = node.kind ∧ later.parent = node.parent ∧ later.standing = node.standing ∧
      later.outcome = node.outcome := by
  simp only [Node.core,Prod.mk.injEq] at same
  exact ⟨same.1,same.2.1,same.2.2,by simp only [Node.outcome,same.2.2]⟩

theorem core_some {s next : Forest Kind Answer ε} {id : Nat} {node : Node Kind Answer ε}
    (same : next[id]?.map Node.core = s[id]?.map Node.core) (found : s[id]? = some node) :
    ∃ later : Node Kind Answer ε, next[id]? = some later ∧ later.core = node.core := by
  rw [found,Option.map_some] at same
  exact Option.map_eq_some_iff.mp same

theorem Moved.refl (id : Nat) (s : Forest Kind Answer ε) : Moved id s s := by
  refine ⟨Nat.le_refl _,fun node found => ⟨node,found,rfl,rfl⟩,fun _ _ _ => rfl,fun other node outside found => ?_⟩
  have inside := (List.getElem?_eq_some_iff.mp found).1
  omega

theorem Moved.trans {id : Nat} {s middle next : Forest Kind Answer ε} (inside : id < s.length)
    (first : Moved id s middle) (second : Moved id middle next) : Moved id s next := by
  have grown := first.grows
  refine ⟨Nat.le_trans grown second.grows,?_,?_,?_⟩
  · intro node found
    obtain ⟨between,there,kind,parent⟩ := first.self node found
    obtain ⟨later,here,kind',parent'⟩ := second.self between there
    exact ⟨later,here,kind'.trans kind,parent'.trans parent⟩
  · intro other bound different
    exact (second.others other (by omega) different).trans (first.others other bound different)
  · intro other node outside found
    by_cases between : middle.length ≤ other
    · exact second.created other node between found
    · have same := second.others other (by omega) (by omega)
      obtain ⟨before,there,core⟩ := core_some same.symm found
      obtain ⟨standing,parent⟩ := first.created other before outside there
      obtain ⟨_,sameParent,sameStanding,_⟩ := outcome_of_core core
      exact ⟨sameStanding.symm.trans standing,sameParent.symm.trans parent⟩

theorem Moved.extends {id : Nat} {s next : Forest Kind Answer ε} (moved : Moved id s next)
    (running : s.outcome id = none) : s.Extends next := by
  intro other node found
  by_cases here : other = id
  · subst here
    obtain ⟨later,there,kind,parent⟩ := moved.self node found
    refine ⟨later,there,kind,parent,fun ending ended => ?_⟩
    simp [Forest.outcome,found,ended] at running
  · have same := moved.others other (List.getElem?_eq_some_iff.mp found).1 here
    obtain ⟨later,there,core⟩ := core_some same found
    obtain ⟨kind,parent,_,outcome⟩ := outcome_of_core core
    exact ⟨later,there,kind,parent,fun ending ended => outcome.trans ended⟩

theorem Moved.child {id : Nat} {s next : Forest Kind Answer ε} (moved : Moved id s next) (running : s.outcome id = none)
    {task : Nat} {child : Node Kind Answer ε} (found : next[task]? = some child) :
    (∃ earlier : Node Kind Answer ε, s[task]? = some earlier ∧ earlier.parent = child.parent) ∨
      (s.length ≤ task ∧ child.parent = some id) := by
  by_cases old : task < s.length
  · obtain ⟨later,same,_,parent,_⟩ := moved.extends running task s[task] (List.getElem?_eq_getElem old)
    cases Option.some.inj (found.symm.trans same)
    exact Or.inl ⟨s[task],List.getElem?_eq_getElem old,parent.symm⟩
  · exact Or.inr ⟨Nat.not_lt.mp old,(moved.created task child (Nat.not_lt.mp old) found).2⟩

theorem cancel_core (s : Forest Kind Answer ε) (tasks : List Nat) : (s.cancel tasks).map Node.core = s.map Node.core := by
  apply List.ext_getElem?
  intro id
  simp only [cancel,List.getElem?_map,List.getElem?_mapIdx]
  cases s[id]? with
  | none => rfl
  | some node =>
    simp only [Option.map_some,Option.some.injEq]
    split <;> rfl

theorem abort_core (s : Forest Kind Answer ε) (id : Nat) (tasks : List Nat) :
    ((s.cancel tasks).modify id ({· with aborted := true})).map Node.core = s.map Node.core := by
  rw [← cancel_core s tasks]
  apply List.ext_getElem?
  intro other
  simp only [List.getElem?_map,List.getElem?_modify]
  cases (s.cancel tasks)[other]? with
  | none => rfl
  | some node =>
    simp only [Option.map_some,Option.map_eq_map,Option.some.injEq]
    split <;> rfl

theorem same_core {s next : Forest Kind Answer ε} (same : next.map Node.core = s.map Node.core) (id : Nat) :
    next[id]?.map Node.core = s[id]?.map Node.core := by
  rw [← List.getElem?_map,← List.getElem?_map,same]

theorem Extends.of_core {s next : Forest Kind Answer ε} (same : next.map Node.core = s.map Node.core) : s.Extends next := by
  intro id node found
  obtain ⟨later,there,core⟩ := core_some (same_core same id) found
  obtain ⟨kind,parent,_,outcome⟩ := outcome_of_core core
  exact ⟨later,there,kind,parent,fun ending ended => outcome.trans ended⟩

theorem Extends.start (s : Forest Kind Answer ε) (kind : Kind) : s.Extends (s.start kind) :=
  fun _ node found => ⟨node,by
    rw [Forest.start,List.getElem?_append_left (List.getElem?_eq_some_iff.mp found).1]
    exact found,rfl,rfl,fun _ ended => ended⟩

theorem Moved.of_core {id : Nat} {s next : Forest Kind Answer ε} (same : next.map Node.core = s.map Node.core) :
    Moved id s next := by
  have sized : next.length = s.length := by simpa using congrArg List.length same
  refine ⟨by omega,?_,fun other _ _ => same_core same other,fun other node outside found => ?_⟩
  · intro node found
    obtain ⟨later,there,core⟩ := core_some (same_core same id) found
    exact ⟨later,there,(outcome_of_core core).1,(outcome_of_core core).2.1⟩
  · have inside := (List.getElem?_eq_some_iff.mp found).1
    omega

theorem Moved.stand (id : Nat) (s : Forest Kind Answer ε) (standing : Standing Kind Answer ε) :
    Moved id s (s.stand id standing) := by
  refine ⟨by simp [Forest.stand],?_,?_,?_⟩
  · intro node found
    exact ⟨node.stand standing,by simp [Forest.stand,found],rfl,rfl⟩
  · intro other _ different
    simp [Forest.stand,Ne.symm different]
  · intro other node outside found
    have inside := (List.getElem?_eq_some_iff.mp found).1
    simp only [Forest.stand,List.length_modify] at inside
    omega

theorem Moved.spawn {id : Nat} {s : Forest Kind Answer ε} (inside : id < s.length) (kind : Kind) :
    Moved id s (s++[{kind,parent := some id}]) := by
  refine ⟨by simp,?_,?_,?_⟩
  · intro node found
    exact ⟨node,by rw [List.getElem?_append_left inside]; exact found,rfl,rfl⟩
  · intro other bound _
    rw [List.getElem?_append_left bound]
  · intro other node outside found
    rcases mem_snoc_table found with old | ⟨_,rfl⟩
    · have bound := (List.getElem?_eq_some_iff.mp old).1
      omega
    · exact ⟨rfl,rfl⟩

abbrev Event (Kind : Type) (Answer : Query → Type) (ε : Type) :=
  (op : TaskOp Kind Query) × op.Reply Kind Answer ε

def AtOnce (s : Forest Kind Answer ε) : (awaited : Await Query) → awaited.Reply Answer ε → Prop
  | .task task,reply => s.outcome task = some reply
  | _,_ => False

/-- What an event in the history of task `id` says about a later forest, where `answered`
says which awaits were answered in a step of their own. -/
def Known (answered : Nat → (awaited : Await Query) → awaited.Reply Answer ε → Prop) (s : Forest Kind Answer ε) (id : Nat) :
    Event Kind Answer ε → Prop
  | ⟨.spawn kind,task⟩ => ∃ node : Node Kind Answer ε, s[task]? = some node ∧ node.kind = kind ∧ node.parent = some id
  | ⟨.cancel _,_⟩ => True
  | ⟨.await awaited,reply⟩ => answered id awaited reply ∨ AtOnce s awaited reply

def Follows (code : Kind → Script Kind Answer ε Unit) (kind : Kind) (history : List (Event Kind Answer ε)) :
    Standing Kind Answer ε → Prop
  | .created => history = []
  | .suspended awaited resume => Leads (code kind) history (perform (.await awaited) resume)
  | .ended outcome => Leads (code kind) history (finished outcome) ∨ (history = [] ∧ outcome = .cancelled)

structure Story (answered : Nat → (awaited : Await Query) → awaited.Reply Answer ε → Prop) (s : Forest Kind Answer ε) (id : Nat)
    (history : List (Event Kind Answer ε)) : Prop where
  known : ∀ event ∈ history, Known answered s id event
  created : ∀ (task : Nat) (node : Node Kind Answer ε), s[task]? = some node → node.parent = some id →
    ∃ kind, ⟨.spawn kind,task⟩ ∈ history

section
variable {answered later : Nat → (awaited : Await Query) → awaited.Reply Answer ε → Prop}

theorem AtOnce.mono {s next : Forest Kind Answer ε} {awaited : Await Query} {reply : awaited.Reply Answer ε}
    (seen : AtOnce s awaited reply) (extended : s.Extends next) : AtOnce next awaited reply := by
  cases awaited with
  | task task => exact extended.outcome seen
  | call | gather | join | group | firstOf => exact seen.elim

theorem Known.mono {s next : Forest Kind Answer ε} {id : Nat} {event : Event Kind Answer ε} (known : Known answered s id event)
    (extended : s.Extends next) (still : ∀ id awaited reply, answered id awaited reply → later id awaited reply) :
    Known later next id event := by
  obtain ⟨op,reply⟩ := event
  cases op with
  | spawn kind =>
    obtain ⟨node,found,same,parent⟩ := known
    obtain ⟨after,there,kind',parent',_⟩ := extended _ node found
    exact ⟨after,there,kind'.trans same,parent'.trans parent⟩
  | cancel tasks => trivial
  | await awaited => exact Or.imp (still id awaited reply) (fun seen => seen.mono extended) known

theorem Story.grow {s next : Forest Kind Answer ε} {id : Nat} {history events : List (Event Kind Answer ε)}
    (story : Story answered s id history) (moved : Moved id s next) (running : s.outcome id = none)
    (known : ∀ event ∈ events, Known answered next id event)
    (fresh : ∀ task, s.length ≤ task → task < next.length → ∃ kind, ⟨.spawn kind,task⟩ ∈ events) :
    Story answered next id (history++events) := by
  refine ⟨?_,?_⟩
  · intro event member
    rcases List.mem_append.mp member with old | new
    · exact (story.known event old).mono (moved.extends running) fun _ _ _ held => held
    · exact known event new
  · intro task node found parent
    rcases moved.child running found with ⟨earlier,there,same⟩ | ⟨outside,_⟩
    · obtain ⟨kind,member⟩ := story.created task earlier there (same.trans parent)
      exact ⟨kind,List.mem_append_left _ member⟩
    · obtain ⟨kind,member⟩ := fresh task outside (List.getElem?_eq_some_iff.mp found).1
      exact ⟨kind,List.mem_append_right _ member⟩

theorem Story.perform {s next : Forest Kind Answer ε} {id : Nat} {history : List (Event Kind Answer ε)}
    (story : Story answered s id history) (moved : Moved id s next) (running : s.outcome id = none)
    (sized : next.length = s.length) {event : Event Kind Answer ε} (known : Known answered next id event) :
    Story answered next id (history++[event]) :=
  story.grow moved running (by simpa using known) fun task outside inside => by omega

theorem Story.spawn {s : Forest Kind Answer ε} {id : Nat} {history : List (Event Kind Answer ε)}
    (story : Story answered s id history) (inside : id < s.length) (running : s.outcome id = none) (kind : Kind) :
    Story answered (s++[{kind,parent := some id}]) id (history++[⟨.spawn kind,s.length⟩]) := by
  refine story.grow (Moved.spawn inside kind) running ?_ ?_
  · simp [Known]
  · intro task outside bound
    have last : task = s.length := by
      simp at bound
      omega
    exact ⟨kind,by simp [last]⟩

theorem Story.stand {s : Forest Kind Answer ε} {id : Nat} {history : List (Event Kind Answer ε)}
    (story : Story answered s id history) (running : s.outcome id = none) (standing : Standing Kind Answer ε) :
    Story answered (s.stand id standing) id history := by
  have grown := story.grow (Moved.stand id s standing) running (fun event member => by simp at member : ∀ event ∈ [],_)
    fun task outside inside => by simp [Forest.stand] at inside; omega
  simpa using grown

theorem stand_self {s : Forest Kind Answer ε} {id : Nat} {node : Node Kind Answer ε} (here : s[id]? = some node)
    (standing : Standing Kind Answer ε) : (s.stand id standing)[id]? = some (node.stand standing) := by
  simp [Forest.stand,here]

theorem unended {s : Forest Kind Answer ε} {id : Nat} {node : Node Kind Answer ε} (here : s[id]? = some node)
    (running : node.outcome = none) : s.outcome id = none := by
  simp [Forest.outcome,here,running]

/-- Task `id` took a step and has a history of all it has performed. -/
def Progressed (answered : Nat → (awaited : Await Query) → awaited.Reply Answer ε → Prop) (code : Kind → Script Kind Answer ε Unit)
    (id : Nat) (kind : Kind) (s next : Forest Kind Answer ε) : Prop :=
  Moved id s next ∧ ∃ (node : Node Kind Answer ε) (history : List (Event Kind Answer ε)), next[id]? = some node ∧
    node.kind = kind ∧ Follows code kind history node.standing ∧ Story answered next id history

variable {code : Kind → Script Kind Answer ε Unit} {id : Nat} {kind : Kind} {s : Forest Kind Answer ε}
  {history : List (Event Kind Answer ε)} {node : Node Kind Answer ε}

theorem Progressed.stand (here : s[id]? = some node) (named : node.kind = kind) (running : node.outcome = none)
    {standing : Standing Kind Answer ε} (follows : Follows code kind history standing) (story : Story answered s id history) :
    Progressed answered code id kind s (s.stand id standing) :=
  ⟨Moved.stand id s standing,_,history,stand_self here standing,named,follows,story.stand (unended here running) standing⟩

theorem Progressed.after {middle next : Forest Kind Answer ε} (here : s[id]? = some node) (moved : Moved id s middle)
    (progressed : Progressed answered code id kind middle next) : Progressed answered code id kind s next :=
  ⟨moved.trans (List.getElem?_eq_some_iff.mp here).1 progressed.1,progressed.2⟩

theorem proceed_progressed (program : Script Kind Answer ε Unit) (here : s[id]? = some node) (named : node.kind = kind)
    (running : node.outcome = none) (leads : Leads (code kind) history program) (story : Story answered s id history) :
    Progressed answered code id kind s (s.proceed id program) := by
  induction program generalizing s history node with
  | finished outcome => exact Progressed.stand here named running (Or.inl leads) story
  | perform op resume ih =>
    have inside := (List.getElem?_eq_some_iff.mp here).1
    have idle := unended here running
    cases op with
    | spawn fresh =>
      have still : (s++[{kind := fresh,parent := some id}])[id]? = some node := by
        rw [List.getElem?_append_left inside]
        exact here
      have grown := story.spawn inside idle fresh
      exact (ih s.length still named running (leads.answered s.length) grown).after here (Moved.spawn inside fresh)
    | cancel tasks =>
      have moved : Moved id s (s.cancel tasks) := Moved.of_core (cancel_core s tasks)
      obtain ⟨later,there,core⟩ := core_some (same_core (cancel_core s tasks) id) here
      obtain ⟨kind',_,_,outcome'⟩ := outcome_of_core core
      have sized : (s.cancel tasks).length = s.length := by simp [cancel]
      have known : Known answered (s.cancel tasks) id ⟨.cancel tasks,()⟩ := trivial
      have grown := story.perform moved idle sized known
      exact (ih () there (kind'.trans named) (outcome'.trans running) (leads.answered ()) grown).after here moved
    | await awaited =>
      cases awaited with
      | task task =>
        cases seen : s.outcome task with
        | none =>
          have same : s.proceed id (perform (.await (.task task)) resume) = s.stand id (.suspended (.task task) resume) := by
            simp [proceed,seen]
          rw [same]
          exact Progressed.stand here named running leads story
        | some outcome =>
          have same : s.proceed id (perform (.await (.task task)) resume) = s.proceed id (resume outcome) := by
            simp [proceed,seen]
          rw [same]
          have known : Known answered s id ⟨.await (.task task),outcome⟩ := Or.inr seen
          have grown := story.perform (Moved.refl id s) idle rfl known
          exact ih outcome here named running (leads.answered outcome) grown
      | call | gather | join | group | firstOf => exact Progressed.stand here named running leads story

theorem enter_some {next : Forest Kind Answer ε} (entered : s.enter code id = some next) :
    ∃ node : Node Kind Answer ε, s[id]? = some node ∧ node.standing = .created ∧
      next = s.proceed id (if node.cancelRequested then finished .cancelled else code node.kind) := by
  obtain ⟨node,found,entered⟩ := Option.bind_eq_some_iff.mp entered
  cases standing : node.standing with
  | created =>
    rw [standing] at entered
    exact ⟨node,found,standing,(Option.some.inj entered).symm⟩
  | suspended | ended =>
    rw [standing] at entered
    contradiction

theorem abort_some {next : Forest Kind Answer ε} (aborted : s.abort id = some next) :
    ∃ (node : Node Kind Answer ε) (tasks : List Nat) (resume : (Await.group tasks : Await Query).Reply Answer ε → Script Kind Answer ε Unit),
      s[id]? = some node ∧ node.standing = .suspended (.group tasks) resume ∧
      (node.cancelRequested = true ∨ s.raised tasks ≠ []) ∧ next = (s.cancel tasks).modify id ({· with aborted := true}) := by
  obtain ⟨node,found,aborted⟩ := Option.bind_eq_some_iff.mp aborted
  split at aborted
  · rename_i tasks resume standing
    split at aborted
    · contradiction
    · rename_i permitted
      refine ⟨node,tasks,resume,found,standing,?_,(Option.some.inj aborted).symm⟩
      simp only [Bool.or_eq_true,Bool.and_eq_true,Bool.not_eq_true',List.isEmpty_iff,not_or,not_and] at permitted
      cases requested : node.cancelRequested with
      | true => exact Or.inl rfl
      | false => exact Or.inr (permitted.2 requested)
  · contradiction

/-- Task `other` is as it was, but for a cancellation that may have been requested. -/
def Retains (s next : Forest Kind Answer ε) (other : Nat) : Prop :=
  ∀ node : Node Kind Answer ε, s[other]? = some node → ∃ later : Node Kind Answer ε, next[other]? = some later ∧
    later.core = node.core ∧ (node.cancelRequested = true → later.cancelRequested = true)

theorem Retains.refl (s : Forest Kind Answer ε) (other : Nat) : Retains s s other :=
  fun node found => ⟨node,found,rfl,id⟩

theorem Retains.trans {s middle next : Forest Kind Answer ε} {other : Nat} (first : Retains s middle other)
    (second : Retains middle next other) : Retains s next other := by
  intro node found
  obtain ⟨between,there,core,requested⟩ := first node found
  obtain ⟨later,here,core',requested'⟩ := second between there
  exact ⟨later,here,core'.trans core,requested' ∘ requested⟩

theorem cancel_retains (s : Forest Kind Answer ε) (tasks : List Nat) (other : Nat) : Retains s (s.cancel tasks) other := by
  intro node found
  simp only [cancel,List.getElem?_mapIdx,found,Option.map_some,Option.some.injEq,exists_eq_left']
  split
  · exact ⟨rfl,id⟩
  · exact ⟨rfl,fun _ => rfl⟩

theorem snoc_retains (s : Forest Kind Answer ε) (fresh : Node Kind Answer ε) (other : Nat) : Retains s (s++[fresh]) other :=
  fun node found => ⟨node,by rw [List.getElem?_append_left (List.getElem?_eq_some_iff.mp found).1]; exact found,rfl,id⟩

theorem stand_retains (s : Forest Kind Answer ε) (standing : Standing Kind Answer ε) {id other : Nat} (different : other ≠ id) :
    Retains s (s.stand id standing) other :=
  fun node found => ⟨node,by simp [Forest.stand,Ne.symm different,found],rfl,fun requested => requested⟩

/-- Induction along what a task does until it ends or waits. -/
theorem proceed_induct {id : Nat} (property : Forest Kind Answer ε → Forest Kind Answer ε → Prop)
    (stood : ∀ s standing, standing ≠ .created → property s (s.stand id standing))
    (spawned : ∀ s kind next, property (s++[{kind,parent := some id}]) next → property s next)
    (cancelled : ∀ s tasks next, property (s.cancel tasks) next → property s next)
    (program : Script Kind Answer ε Unit) (s : Forest Kind Answer ε) : property s (s.proceed id program) := by
  induction program generalizing s with
  | finished outcome => exact stood s _ (by simp)
  | perform op resume ih =>
    cases op with
    | spawn fresh => exact spawned s fresh _ (ih s.length _)
    | cancel tasks => exact cancelled s tasks _ (ih () _)
    | await awaited =>
      cases awaited with
      | task task =>
        cases seen : s.outcome task with
        | none => simpa [proceed,seen] using stood s _ (by simp)
        | some outcome => simpa [proceed,seen] using ih outcome s
      | call | gather | join | group | firstOf => exact stood s _ (by simp)

theorem proceed_retains {id other : Nat} (different : other ≠ id) (program : Script Kind Answer ε Unit) (s : Forest Kind Answer ε) :
    Retains s (s.proceed id program) other := by
  refine proceed_induct (fun s next => Retains s next other) ?_ ?_ ?_ program s
  · exact fun s standing _ => stand_retains s standing different
  · exact fun s fresh next rest => (snoc_retains s _ other).trans rest
  · exact fun s tasks next rest => (cancel_retains s tasks other).trans rest

theorem reached_self (s : Forest Kind Answer ε) (depth : Nat) (tasks : List Nat) : tasks ⊆ s.reached depth tasks := by
  cases depth with
  | zero => exact List.Subset.refl tasks
  | succ depth => exact List.subset_append_left _ _

theorem cancel_requests {s : Forest Kind Answer ε} {id : Nat} {node : Node Kind Answer ε} (found : s[id]? = some node)
    (running : node.done = false) {tasks : List Nat} (asked : id ∈ tasks) :
    ∃ later : Node Kind Answer ε, (s.cancel tasks)[id]? = some later ∧ later.core = node.core ∧ later.cancelRequested = true := by
  have hit : id ∈ s.reached s.length tasks := reached_self s _ tasks asked
  exact ⟨{node with cancelRequested := true},by simp [cancel,found,running,hit],rfl,rfl⟩

/-- A task that took a step has entered its coroutine, or ended before. -/
theorem proceed_self {id : Nat} (program : Script Kind Answer ε Unit) {s : Forest Kind Answer ε} {node : Node Kind Answer ε}
    (found : s[id]? = some node) : ∃ later : Node Kind Answer ε, (s.proceed id program)[id]? = some later ∧ later.standing ≠ .created := by
  refine proceed_induct (fun s next => ∀ node : Node Kind Answer ε, s[id]? = some node →
    ∃ later : Node Kind Answer ε, next[id]? = some later ∧ later.standing ≠ .created) ?_ ?_ ?_ program s node found
  · exact fun s standing entered node found => ⟨_,stand_self found _,entered⟩
  · intro s fresh next rest node found
    obtain ⟨later,there,_⟩ := snoc_retains s {kind := fresh,parent := some id} id node found
    exact rest later there
  · intro s tasks next rest node found
    obtain ⟨later,there,_⟩ := cancel_retains s tasks id node found
    exact rest later there

theorem abort_retains (s : Forest Kind Answer ε) (tasks : List Nat) (id other : Nat) :
    Retains s ((s.cancel tasks).modify id ({· with aborted := true})) other := by
  refine (cancel_retains s tasks other).trans fun node found => ?_
  simp only [List.getElem?_modify,found,Option.map_eq_map,Option.map_some,Option.some.injEq,exists_eq_left']
  split <;> exact ⟨rfl,fun requested => requested⟩

end

section
variable [DecidableEq ε] [DecidableEq Query] (code : Kind → Script Kind Answer ε Unit)

/-- The await of a task was answered at some step of a run, with a reply it could have there. -/
def Answered (actions : List (Action Kind Answer ε)) (id : Nat) (awaited : Await Query) (reply : awaited.Reply Answer ε) : Prop :=
  ∃ (before after : List (Action Kind Answer ε)) (middle : Forest Kind Answer ε) (node : Node Kind Answer ε),
    actions = before++.answer id awaited reply::after ∧ run (step code) [] before = some middle ∧
    middle[id]? = some node ∧ middle.admits node.cancelRequested awaited reply = true

structure Recorded (actions : List (Action Kind Answer ε)) (s : Forest Kind Answer ε) : Prop where
  story : ∀ (id : Nat) (node : Node Kind Answer ε), s[id]? = some node →
    ∃ history, Follows code node.kind history node.standing ∧ Story (Answered code actions) s id history
  parents : ∀ (id parent : Nat) (node : Node Kind Answer ε), s[id]? = some node → node.parent = some parent →
    parent < s.length

variable {code} {actions : List (Action Kind Answer ε)} {s next : Forest Kind Answer ε} {id : Nat}

theorem Answered.later {awaited : Await Query} {reply : awaited.Reply Answer ε} (answered : Answered code actions id awaited reply)
    (more : List (Action Kind Answer ε)) : Answered code (actions++more) id awaited reply := by
  obtain ⟨before,after,middle,node,rfl,rest⟩ := answered
  exact ⟨before,after++more,middle,node,by simp,rest⟩

theorem answer_some {awaited : Await Query} {reply : awaited.Reply Answer ε} (answered : s.answer id awaited reply = some next) :
    ∃ (node : Node Kind Answer ε) (resume : awaited.Reply Answer ε → Script Kind Answer ε Unit), s[id]? = some node ∧
      node.standing = .suspended awaited resume ∧ s.admits node.cancelRequested awaited reply = true ∧
      next = s.proceed id (resume reply) := by
  obtain ⟨node,found,answered⟩ := Option.bind_eq_some_iff.mp answered
  cases standing : node.standing with
  | created | ended =>
    rw [standing] at answered
    contradiction
  | suspended pending resume =>
    rw [standing] at answered
    simp only [Option.dite_none_right_eq_some,Option.ite_none_right_eq_some] at answered
    obtain ⟨same,admitted,answered⟩ := answered
    subst same
    exact ⟨node,resume,found,standing,admitted,(Option.some.inj answered).symm⟩

theorem Recorded.init : Recorded code [] ([] : Forest Kind Answer ε) := ⟨by simp,by simp⟩

theorem Recorded.of_core (recorded : Recorded code actions s) (same : next.map Node.core = s.map Node.core)
    (action : Action Kind Answer ε) : Recorded code (actions++[action]) next := by
  have sized : next.length = s.length := by simpa using congrArg List.length same
  have before {id : Nat} {node : Node Kind Answer ε} (found : next[id]? = some node) :
      ∃ earlier : Node Kind Answer ε, s[id]? = some earlier ∧ earlier.core = node.core :=
    core_some (same_core same id).symm found
  refine ⟨fun id node found => ?_,fun id parent node found mine => ?_⟩
  · obtain ⟨earlier,there,core⟩ := before found
    obtain ⟨kind,_,standing,_⟩ := outcome_of_core core
    obtain ⟨history,follows,story⟩ := recorded.story id earlier there
    refine ⟨history,by rw [← kind,← standing]; exact follows,?_,?_⟩
    · intro event member
      exact (story.known event member).mono (Extends.of_core same) fun _ _ _ answered => answered.later _
    · intro task child here mine
      obtain ⟨old,there,core⟩ := before here
      exact story.created task old there ((outcome_of_core core).2.1.trans mine)
  · obtain ⟨earlier,there,core⟩ := before found
    have bound := recorded.parents id parent earlier there ((outcome_of_core core).2.1.trans mine)
    omega

theorem Recorded.start (recorded : Recorded code actions s) (kind : Kind) (action : Action Kind Answer ε) :
    Recorded code (actions++[action]) (s.start kind) := by
  have extended := Extends.start s kind
  refine ⟨fun id node found => ?_,fun id parent node found mine => ?_⟩
  · rcases mem_snoc_table found with old | ⟨last,rfl⟩
    · obtain ⟨history,follows,story⟩ := recorded.story id node old
      refine ⟨history,follows,fun event member => ?_,fun task child here mine => ?_⟩
      · exact (story.known event member).mono extended fun _ _ _ answered => answered.later _
      · rcases mem_snoc_table here with before | ⟨_,rfl⟩
        · exact story.created task child before mine
        · contradiction
    · refine ⟨[],rfl,by simp,fun task child here mine => ?_⟩
      rcases mem_snoc_table here with before | ⟨_,rfl⟩
      · have bound := recorded.parents task id child before mine
        omega
      · contradiction
  · rcases mem_snoc_table found with old | ⟨_,rfl⟩
    · have bound := recorded.parents id parent node old mine
      simp only [Forest.start,List.length_append,List.length_singleton]
      omega
    · contradiction

/-- While one task goes on, the others keep their stories. -/
theorem Story.aside {other : Nat} {history : List (Event Kind Answer ε)} (story : Story (Answered code actions) s other history)
    (moved : Moved id s next) (running : s.outcome id = none) (apart : other ≠ id) (action : Action Kind Answer ε) :
    Story (Answered code (actions++[action])) next other history := by
  refine ⟨fun event member => ?_,fun task child found mine => ?_⟩
  · exact (story.known event member).mono (moved.extends running) fun _ _ _ answered => answered.later _
  · rcases moved.child running found with ⟨earlier,before,same⟩ | ⟨_,created⟩
    · exact story.created task earlier before (same.trans mine)
    · exact absurd (Option.some.inj (mine.symm.trans created)) apart

theorem Recorded.parents_moved (recorded : Recorded code actions s) (moved : Moved id s next) (running : s.outcome id = none)
    (inside : id < s.length) {task parent : Nat} {child : Node Kind Answer ε} (found : next[task]? = some child)
    (mine : child.parent = some parent) : parent < s.length := by
  rcases moved.child running found with ⟨earlier,before,same⟩ | ⟨_,created⟩
  · exact recorded.parents task parent earlier before (same.trans mine)
  · cases Option.some.inj (mine.symm.trans created)
    exact inside

theorem Recorded.progressed (recorded : Recorded code actions s) {node : Node Kind Answer ε} (here : s[id]? = some node)
    (running : node.outcome = none) {action : Action Kind Answer ε}
    (progressed : Progressed (Answered code (actions++[action])) code id node.kind s next) :
    Recorded code (actions++[action]) next := by
  obtain ⟨moved,after,performed,there,named,follows,story⟩ := progressed
  have idle := unended here running
  have parents {task parent : Nat} {child : Node Kind Answer ε} (found : next[task]? = some child)
      (mine : child.parent = some parent) : parent < s.length :=
    recorded.parents_moved moved idle (List.getElem?_eq_some_iff.mp here).1 found mine
  refine ⟨fun other found known => ?_,fun other parent child found mine => Nat.lt_of_lt_of_le (parents found mine) moved.grows⟩
  by_cases same : other = id
  · subst same
    cases Option.some.inj (there.symm.trans known)
    exact ⟨performed,by rw [named]; exact follows,story⟩
  · by_cases bound : other < s.length
    · obtain ⟨earlier,before,core⟩ := core_some (moved.others other bound same).symm known
      obtain ⟨kind,_,standing,_⟩ := outcome_of_core core
      obtain ⟨history,follows,story⟩ := recorded.story other earlier before
      exact ⟨history,by rw [← kind,← standing]; exact follows,story.aside moved idle same action⟩
    · obtain ⟨standing,_⟩ := moved.created other found (by omega) known
      refine ⟨[],by rw [standing]; rfl,by simp,fun task child here mine => ?_⟩
      exact absurd (parents here mine) bound

/-- What a step can do: nothing but cancel, start a task, or let one task go on. -/
theorem Recorded.step_cases (recorded : Recorded code actions s) (ran : run (step code) [] actions = some s)
    {action : Action Kind Answer ε} (stepped : s.step code action = some next) :
    next.map Node.core = s.map Node.core ∨ (∃ kind, next = s.start kind) ∨
    ∃ (id : Nat) (node : Node Kind Answer ε), s[id]? = some node ∧ node.outcome = none ∧
      Progressed (Answered code (actions++[action])) code id node.kind s next := by
  have earlier {id : Nat} {history : List (Event Kind Answer ε)} (story : Story (Answered code actions) s id history) :
      Story (Answered code (actions++[action])) s id history :=
    ⟨fun event member => (story.known event member).mono (Extends.refl s) fun _ _ _ answered => answered.later _,story.created⟩
  cases action with
  | start kind => exact Or.inr (Or.inl ⟨kind,(Option.some.inj stepped).symm⟩)
  | cancel id =>
    cases Option.some.inj stepped
    exact Or.inl (cancel_core s [id])
  | abort id =>
    obtain ⟨_,tasks,_,_,_,_,rfl⟩ := abort_some stepped
    exact Or.inl (abort_core s id tasks)
  | enter id =>
    obtain ⟨node,here,standing,rfl⟩ := enter_some stepped
    obtain ⟨history,follows,story⟩ := recorded.story id node here
    have running : node.outcome = none := by simp [Node.outcome,standing]
    rw [standing] at follows
    cases follows
    refine Or.inr (Or.inr ⟨id,node,here,running,?_⟩)
    cases early : node.cancelRequested with
    | true => exact Progressed.stand here rfl running (Or.inr ⟨rfl,rfl⟩) (earlier story)
    | false => exact proceed_progressed _ here rfl running (Leads.here _) (earlier story)
  | answer id awaited reply =>
    obtain ⟨node,resume,here,standing,admitted,rfl⟩ := answer_some stepped
    obtain ⟨history,follows,story⟩ := recorded.story id node here
    have running : node.outcome = none := by simp [Node.outcome,standing]
    rw [standing] at follows
    have leads : Leads (code node.kind) history (perform (.await awaited) resume) := follows
    have known : Known (Answered code (actions++[.answer id awaited reply])) s id ⟨.await awaited,reply⟩ :=
      Or.inl ⟨actions,[],s,node,rfl,ran,here,admitted⟩
    have grown := (earlier story).perform (Moved.refl id s) (unended here running) rfl known
    have further : Leads (code node.kind) (history++[⟨.await awaited,reply⟩]) (resume reply) := by
      exact Leads.answered _ leads
    exact Or.inr (Or.inr ⟨id,node,here,running,proceed_progressed _ here rfl running further grown⟩)

theorem run_recorded (ran : run (step code) [] actions = some s) : Recorded code actions s := by
  refine run_history (Recorded code) Recorded.init (fun earlier before action after ranBefore recorded stepped => ?_) ran
  rcases recorded.step_cases ranBefore stepped with same | ⟨kind,rfl⟩ | ⟨_,_,here,running,progressed⟩
  · exact recorded.of_core same action
  · exact recorded.start kind action
  · exact recorded.progressed here running progressed

theorem run_extends {earlier more : List (Action Kind Answer ε)} (ran : run (step code) [] earlier = some s)
    (ranOn : run (step code) s more = some next) : s.Extends next := by
  suffices extended : ∀ later : Forest Kind Answer ε, run (step code) s more = some later →
      s.Extends later ∧ run (step code) [] (earlier++more) = some later from (extended next ranOn).1
  refine fun later ranOn => run_history (fun actions later => s.Extends later ∧ run (step code) [] (earlier++actions) = some later)
    ⟨Extends.refl s,by simpa using ran⟩ (fun actions before action after _ held stepped => ?_) ranOn
  obtain ⟨extended,whole⟩ := held
  refine ⟨extended.trans ?_,by rw [← List.append_assoc]; exact run_snoc whole stepped⟩
  rcases (run_recorded whole).step_cases whole stepped with same | ⟨kind,rfl⟩ | ⟨_,_,here,running,progressed⟩
  · exact Extends.of_core same
  · exact Extends.start before kind
  · exact progressed.1.extends (unended here running)

theorem ended_story (ran : run (step code) [] actions = some s) {node : Node Kind Answer ε} (here : s[id]? = some node)
    {outcome : Outcome ε Unit} (ended : node.outcome = some outcome) :
    ∃ history, (Leads (code node.kind) history (finished outcome) ∨ (history = [] ∧ outcome = .cancelled)) ∧
      Story (Answered code actions) s id history := by
  obtain ⟨history,follows,story⟩ := (run_recorded ran).story id node here
  cases standing : node.standing with
  | created | suspended => simp [Node.outcome,standing] at ended
  | ended ending =>
    rw [standing] at follows
    simp only [Node.outcome,standing,Option.some.injEq] at ended
    subst ended
    exact ⟨history,follows,story⟩

end
end Forest
end
end YPriceMagic.Async
