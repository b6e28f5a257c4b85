import YPriceMagic.Async.History

/-! Structured concurrency: a coroutine that ends only after it has seen each task it created
done has no task running when it is done itself, and neither has any task below it. -/
namespace YPriceMagic.Async
open Coroutine

section
variable {Kind Query : Type} {Answer : Query → Type} {ε : Type}

namespace Forest

/-- The tasks that are done once an await is answered. With `waits` a gather may be relied on
to be answered only when all of its tasks are done. -/
def settled (waits : Bool) : Event Kind Answer ε → List Nat
  | ⟨.await (.task task),_⟩ => [task]
  | ⟨.await (.gather tasks),reply⟩ =>
    match reply with
    | .returned _ => tasks
    | .raised _ | .cancelled => if waits then tasks else []
  | ⟨.await (.join tasks),_⟩ | ⟨.await (.group tasks),_⟩ => tasks
  | _ => []

/-- A created task is owned or was seen done. -/
def Pending (waits : Bool) (owned : List Nat) (history : List (Event Kind Answer ε)) : Prop :=
  ∀ kind task, ⟨.spawn kind,task⟩ ∈ history → task ∈ owned ∨ ∃ event ∈ history, task ∈ settled waits event

def Settling (waits : Kind → Bool) (s : Forest Kind Answer ε) : Action Kind Answer ε → Prop
  | .answer id (.gather tasks) _ => ∀ node : Node Kind Answer ε, s[id]? = some node → waits node.kind = true →
      ∀ task ∈ tasks, s.done task = true
  | _ => True

section
variable {waits : Bool} {owned : List Nat} {history : List (Event Kind Answer ε)}

theorem Pending.start (waits : Bool) : Pending waits [] ([] : List (Event Kind Answer ε)) := by
  intro kind task member
  contradiction

theorem Pending.keep (pending : Pending waits owned history) {op : TaskOp Kind Query} {reply : op.Reply Kind Answer ε}
    (other : ∀ kind, op ≠ .spawn kind) : Pending waits owned (history++[⟨op,reply⟩]) := by
  intro kind task member
  rcases List.mem_append.mp member with old | new
  · refine (pending kind task old).imp_right ?_
    rintro ⟨event,before,seen⟩
    exact ⟨event,List.mem_append_left _ before,seen⟩
  · cases List.mem_singleton.mp new
    exact absurd rfl (other kind)

theorem Pending.spawn (pending : Pending waits owned history) (kind : Kind) (task : Nat) :
    Pending waits (owned++[task]) (history++[⟨.spawn kind,task⟩]) := by
  intro kind' task' member
  rcases List.mem_append.mp member with old | new
  · rcases pending kind' task' old with mine | ⟨event,before,seen⟩
    · exact Or.inl (List.mem_append_left _ mine)
    · exact Or.inr ⟨event,List.mem_append_left _ before,seen⟩
  · cases List.mem_singleton.mp new
    exact Or.inl (List.mem_append_right _ (List.mem_singleton.mpr rfl))

theorem Pending.settle (pending : Pending waits owned history) {op : TaskOp Kind Query} {reply : op.Reply Kind Answer ε}
    (other : ∀ kind, op ≠ .spawn kind) (all : owned ⊆ settled waits ⟨op,reply⟩) :
    Pending waits [] (history++[⟨op,reply⟩]) := by
  intro kind task member
  right
  rcases pending.keep other kind task member with mine | seen
  · exact ⟨⟨op,reply⟩,List.mem_append_right _ (List.mem_singleton.mpr rfl),all mine⟩
  · exact seen

end

/-- However a coroutine ends, it has seen each task it created done. -/
def Closes (waits : Bool) {α : Type} (program : Script Kind Answer ε α) (history : List (Event Kind Answer ε)) : Prop :=
  Ensures (fun _ _ => True) Sigma.mk (fun _ later => Pending waits [] later) program history

section
variable {waits : Bool} {owned tasks : List Nat} {history : List (Event Kind Answer ε)} {α β : Type}

theorem Pending.closes {outcome : Outcome ε α} (pending : Pending waits [] history) :
    Closes waits (finished outcome : Script Kind Answer ε α) history := pending

theorem Pending.call (pending : Pending waits [] history) (query : Query) :
    Closes waits (Script.call query : Script Kind Answer ε (Answer query)) history :=
  ⟨trivial,fun _ => pending.keep (by simp)⟩

theorem Closes.bind {first : Script Kind Answer ε α} {next : α → Script Kind Answer ε β} (closes : Closes waits first history)
    (continued : ∀ value later, Pending waits [] later → Closes waits (next value) later) :
    Closes waits (first >>= next) history :=
  Ensures.bind closes (fun value later _ pending => continued value later pending) (fun _ _ _ pending => pending)
    fun _ _ pending => pending

theorem Closes.tryExcept {body : Script Kind Answer ε α} {handler : ε → Script Kind Answer ε α} (closes : Closes waits body history)
    (handled : ∀ error later, Pending waits [] later → Closes waits (handler error) later) :
    Closes waits (body.tryExcept handler) history :=
  Ensures.tryExcept closes (fun _ _ _ pending => pending) (fun error later _ pending => handled error later pending)
    fun _ _ pending => pending

def spawns (kinds : List Kind) (tasks : List Nat) : List (Event Kind Answer ε) :=
  List.zipWith (fun kind task => ⟨.spawn kind,task⟩) kinds tasks

theorem mem_spawns {kinds : List Kind} {tasks : List Nat} (sized : tasks.length = kinds.length) {kind : Kind} (member : kind ∈ kinds) :
    ∃ task ∈ tasks, (⟨.spawn kind,task⟩ : Event Kind Answer ε) ∈ spawns kinds tasks := by
  obtain ⟨i,inside,same⟩ := List.mem_iff_getElem.mp member
  refine ⟨tasks[i],List.getElem_mem (by omega),?_⟩
  apply List.mem_of_getElem?
  rw [spawns,List.getElem?_zipWith_eq_some]
  exact ⟨kinds[i],tasks[i],List.getElem?_eq_getElem inside,List.getElem?_eq_getElem (by omega),by rw [same]⟩

theorem spawnAll_exact {allowed : List (Event Kind Answer ε) → TaskOp Kind Query → Prop} (kinds : List Kind)
    (permitted : ∀ kind ∈ kinds, ∀ history, allowed history (.spawn kind)) (history : List (Event Kind Answer ε)) :
    Ensures allowed Sigma.mk (fun outcome later => ∃ tasks, outcome = .returned tasks ∧
        tasks.length = kinds.length ∧ later = history++spawns kinds tasks)
      (Script.spawnAll kinds : Script Kind Answer ε (List Nat)) history := by
  induction kinds generalizing history with
  | nil => exact ⟨[],rfl,rfl,by simp [spawns]⟩
  | cons kind kinds ih =>
    obtain ⟨first,others⟩ := List.forall_mem_cons.mp permitted
    refine ⟨first history,fun task => ?_⟩
    change Ensures _ _ _ (Script.spawnAll kinds >>= fun tasks => pure (task::tasks)) _
    refine Ensures.bind (ih others _) ?_ ?_ ?_
    · rintro tasks later _ ⟨_,⟨⟩,sized,rfl⟩
      exact ⟨task::tasks,rfl,by simp [sized],by simp [spawns]⟩
    · rintro error later _ ⟨_,⟨⟩,_⟩
    · rintro later _ ⟨_,⟨⟩,_⟩

theorem Ensures.bindSpawnAll {allowed : List (Event Kind Answer ε) → TaskOp Kind Query → Prop}
    {post : Outcome ε β → List (Event Kind Answer ε) → Prop} {kinds : List Kind} {next : List Nat → Script Kind Answer ε β}
    (permitted : ∀ kind ∈ kinds, ∀ history, allowed history (.spawn kind))
    (continued : ∀ tasks : List Nat, tasks.length = kinds.length →
      Ensures allowed Sigma.mk post (next tasks) (history++spawns kinds tasks)) :
    Ensures allowed Sigma.mk post (Script.spawnAll kinds >>= next) history := by
  refine Ensures.bind (spawnAll_exact kinds permitted history) ?_ ?_ ?_
  · rintro tasks _ _ ⟨_,⟨⟩,sized,rfl⟩
    exact continued tasks sized
  · rintro error later _ ⟨_,⟨⟩,_⟩
  · rintro later _ ⟨_,⟨⟩,_⟩

theorem mem_of_spawns {kinds : List Kind} {tasks : List Nat} {kind : Kind} {task : Nat}
    (spawned : (⟨.spawn kind,task⟩ : Event Kind Answer ε) ∈ spawns kinds tasks) : task ∈ tasks := by
  obtain ⟨i,found⟩ := List.mem_iff_getElem?.mp spawned
  obtain ⟨kind',task',_,here,same⟩ := List.getElem?_zipWith_eq_some.mp found
  cases same
  exact List.mem_of_getElem? here

theorem Pending.spawns (pending : Pending waits [] history) (kinds : List Kind) (tasks : List Nat) :
    Pending waits tasks (history++spawns kinds tasks) := by
  intro kind task member
  rcases List.mem_append.mp member with old | new
  · rcases pending kind task old with owned | ⟨event,before,seen⟩
    · contradiction
    · exact Or.inr ⟨event,List.mem_append_left _ before,seen⟩
  · exact Or.inl (mem_of_spawns new)

theorem Pending.bindSpawnAll (pending : Pending waits [] history) {kinds : List Kind} {next : List Nat → Script Kind Answer ε β}
    (continued : ∀ tasks later, Pending waits tasks later → Closes waits (next tasks) later) :
    Closes waits (Script.spawnAll kinds >>= next) history :=
  Ensures.bindSpawnAll (fun _ _ _ => trivial) fun tasks _ => continued tasks _ (pending.spawns kinds tasks)

theorem Pending.reap (pending : Pending waits owned history) (all : owned ⊆ tasks) :
    Closes waits (Script.reap tasks : Script Kind Answer ε Unit) history := by
  refine ⟨trivial,fun _ => ⟨trivial,fun reply => ?_⟩⟩
  have cancelled : Pending waits owned (history++[⟨.cancel tasks,()⟩]) := pending.keep (by simp)
  have joined : Pending waits [] (history++[⟨.cancel tasks,()⟩]++[⟨.await (.join tasks),reply⟩]) :=
    cancelled.settle (by simp) all
  cases reply <;> exact joined

/-- What is awaited in a `try` is reaped in its `finally`. -/
theorem Pending.tryReap {body : Script Kind Answer ε Unit} (pending : Pending waits owned history) (all : owned ⊆ tasks)
    (kept : ∀ history, Pending waits owned history →
      Ensures (fun _ _ => True) Sigma.mk (fun _ later => Pending waits owned later) body history) :
    Closes waits (body.tryFinally (Script.reap tasks)) history := by
  refine Ensures.andThen (kept history pending) fun outcome later _ still => ?_
  refine Ensures.andThen (still.reap all) fun ending latest _ closed => ?_
  cases ending <;> exact closed

theorem Pending.gatherReap (pending : Pending waits tasks history) :
    Closes waits ((Script.gather tasks).tryFinally (Script.reap tasks) : Script Kind Answer ε Unit) history :=
  pending.tryReap (List.Subset.refl tasks) fun _ held => ⟨trivial,fun _ => held.keep (by simp)⟩

theorem Pending.group (pending : Pending waits tasks history) (raiseGroup : List ε → ε) :
    Closes waits (Script.group raiseGroup tasks : Script Kind Answer ε Unit) history := by
  refine ⟨trivial,fun reply => ?_⟩
  have joined : Pending waits [] (history++[⟨.await (.group tasks),reply⟩]) := pending.settle (by simp) (List.Subset.refl tasks)
  cases reply <;> exact joined

/-- A bare gather closes nothing unless it waits for all of its tasks. -/
theorem Pending.gather (pending : Pending true tasks history) :
    Closes true (Script.gather tasks : Script Kind Answer ε Unit) history := by
  refine ⟨trivial,fun reply => ?_⟩
  have joined : Pending true [] (history++[⟨.await (.gather tasks),reply⟩]) :=
    pending.settle (by simp) (by cases reply <;> exact List.Subset.refl tasks)
  cases reply <;> exact joined

end

section
variable [DecidableEq ε] [DecidableEq Query] {code : Kind → Script Kind Answer ε Unit} {actions : List (Action Kind Answer ε)}
  {s : Forest Kind Answer ε} {id : Nat} {node : Node Kind Answer ε}

theorem Answered.earlier {awaited : Await Query} {reply : awaited.Reply Answer ε} (answered : Answered code actions id awaited reply)
    (ran : run (step code) [] actions = some s) :
    ∃ (middle : Forest Kind Answer ε) (before : Node Kind Answer ε), middle.Extends s ∧ middle[id]? = some before ∧
      middle.admits before.cancelRequested awaited reply = true := by
  obtain ⟨first,rest,middle,before,rfl,ranFirst,found,admitted⟩ := answered
  obtain ⟨between,ranAgain,ranRest⟩ := run_append_some ran
  cases Option.some.inj (ranFirst.symm.trans ranAgain)
  exact ⟨middle,before,run_extends ranFirst ranRest,found,admitted⟩

theorem Answered.settling {waits : Kind → Bool} {tasks : List Nat} {reply : Outcome ε Unit}
    (answered : Answered code actions id (.gather tasks) reply) (ran : run (step code) [] actions = some s)
    (met : Throughout (step code) (Settling waits) [] actions) (here : s[id]? = some node) (relied : waits node.kind = true) :
    ∀ task ∈ tasks, s.done task = true := by
  obtain ⟨first,rest,middle,before,rfl,ranFirst,found,_⟩ := answered
  obtain ⟨between,ranAgain,ranRest⟩ := run_append_some ran
  cases Option.some.inj (ranFirst.symm.trans ranAgain)
  have extended := run_extends ranFirst ranRest
  obtain ⟨later,there,kind,_,_⟩ := extended id before found
  cases Option.some.inj (here.symm.trans there)
  intro task member
  exact extended.done (met.among ranFirst before found (by rw [← kind]; exact relied) task member)

theorem settled_done {waits : Kind → Bool} (ran : run (step code) [] actions = some s)
    (met : Throughout (step code) (Settling waits) [] actions) (here : s[id]? = some node) {event : Event Kind Answer ε}
    (known : Known (Answered code actions) s id event) {task : Nat} (seen : task ∈ settled (waits node.kind) event) :
    s.done task = true := by
  obtain ⟨op,reply⟩ := event
  cases op with
  | spawn kind | cancel tasks => contradiction
  | await awaited =>
    rcases known with answered | once
    · obtain ⟨middle,before,extended,_,admitted⟩ := answered.earlier ran
      cases awaited with
      | call query | firstOf tasks => contradiction
      | task other =>
        obtain ⟨outcome,ended,_⟩ := (Option.any_eq_true _ _).mp admitted
        cases List.mem_singleton.mp seen
        exact extended.done (Option.isSome_iff_exists.mpr ⟨outcome,ended⟩)
      | gather tasks =>
        cases reply with
        | returned value =>
          simp only [admits,Bool.and_eq_true,List.all_eq_true,decide_eq_true_eq] at admitted
          exact extended.done (Option.isSome_iff_exists.mpr ⟨_,admitted.2 task seen⟩)
        | raised | cancelled =>
          simp only [settled] at seen
          split at seen
          · rename_i relied
            exact answered.settling ran met here relied task seen
          · contradiction
      | join tasks | group tasks =>
        simp only [admits,Bool.and_eq_true,List.all_eq_true] at admitted
        exact extended.done (admitted.1 task seen)
    · cases awaited with
      | task other =>
        cases List.mem_singleton.mp seen
        exact Option.isSome_iff_exists.mpr ⟨reply,once⟩
      | call | gather | join | group | firstOf => exact once.elim

theorem gathered_returned {tasks : List Nat} (ran : run (step code) [] actions = some s)
    (known : Known (Answered code actions) s id ⟨.await (.gather tasks),.returned ()⟩) :
    ∀ task ∈ tasks, s.outcome task = some (.returned ()) := by
  rcases known with answered | once
  · obtain ⟨middle,before,extended,_,admitted⟩ := answered.earlier ran
    simp only [admits,Bool.and_eq_true,List.all_eq_true,decide_eq_true_eq] at admitted
    exact fun task member => extended.outcome (admitted.2 task member)
  · exact once.elim

theorem awaited_returned {task : Nat} (ran : run (step code) [] actions = some s)
    (known : Known (Answered code actions) s id ⟨.await (.task task),.returned ()⟩) : s.outcome task = some (.returned ()) := by
  rcases known with answered | once
  · obtain ⟨middle,before,extended,_,admitted⟩ := answered.earlier ran
    obtain ⟨outcome,ended,same⟩ := (Option.any_eq_true _ _).mp admitted
    simp only [Outcome.isCancelled,Bool.and_false,Bool.or_false,decide_eq_true_eq] at same
    exact extended.outcome (by rw [ended,same])
  · exact once

/-- Who awaits the first of several tasks sees which of them are done when it goes on. -/
theorem left_waiting {tasks done : List Nat}
    (known : Known (Answered code actions) s id ⟨.await (.firstOf tasks),.returned done⟩) {task : Nat} (member : task ∈ tasks)
    (left : task ∉ done) :
    ∃ before after middle, actions = before++.answer id (.firstOf tasks) (.returned done)::after ∧
      run (step code) [] before = some middle ∧ middle.done task = false := by
  rcases known with answered | once
  · obtain ⟨before,after,middle,_,split,ran,_,admitted⟩ := answered
    refine ⟨before,after,middle,split,ran,?_⟩
    simp only [admits,Bool.and_eq_true,decide_eq_true_eq] at admitted
    rw [admitted.1.2,List.mem_filter] at left
    simpa [member] using left
  · exact once.elim

/-- A task that is done has no task of its own running. -/
theorem created_done {waits : Kind → Bool} (closes : ∀ node : Node Kind Answer ε, s[id]? = some node → Closes (waits node.kind) (code node.kind) [])
    (ran : run (step code) [] actions = some s) (met : Throughout (step code) (Settling waits) [] actions)
    (ended : s.done id = true) {task : Nat} {child : Node Kind Answer ε} (found : s[task]? = some child)
    (mine : child.parent = some id) : s.done task = true := by
  obtain ⟨outcome,here⟩ := Option.isSome_iff_exists.mp ended
  obtain ⟨node,there,finished⟩ := outcome_some.mp here
  obtain ⟨history,leads | cancelled,story⟩ := ended_story ran there finished
  · obtain ⟨kind,spawned⟩ := story.created task child found mine
    have pending : Pending (waits node.kind) [] history := (closes node there).leads leads
    rcases pending kind task spawned with owned | ⟨event,member,seen⟩
    · contradiction
    · exact settled_done ran met there (story.known event member) seen
  · obtain ⟨kind,spawned⟩ := story.created task child found mine
    rw [cancelled.1] at spawned
    contradiction

/-- `child` was created by `parent`. -/
def Creates (s : Forest Kind Answer ε) (parent child : Nat) : Prop :=
  ∃ node : Node Kind Answer ε, s[child]? = some node ∧ node.parent = some parent

theorem below_done {waits : Kind → Bool}
    (closes : ∀ (id : Nat) (node : Node Kind Answer ε), s[id]? = some node → Closes (waits node.kind) (code node.kind) [])
    (ran : run (step code) [] actions = some s) (met : Throughout (step code) (Settling waits) [] actions)
    (ended : s.done id = true) {task : Nat} (below : Relation.ReflTransGen s.Creates id task) : s.done task = true := by
  induction below with
  | refl => exact ended
  | tail _ created ih =>
    obtain ⟨child,found,mine⟩ := created
    exact created_done (closes _) ran met ih found mine

theorem throughout_relying_on_none (actions : List (Action Kind Answer ε)) (s : Forest Kind Answer ε) :
    Throughout (step code) (Settling fun _ => false) s actions := by
  refine throughout_of_all (fun before action => ?_) s actions
  cases action with
  | answer id awaited reply =>
    cases awaited with
    | gather tasks => exact fun node _ relied => by contradiction
    | call | task | join | group | firstOf => trivial
  | start | cancel | enter | abort => trivial

end
end Forest
end
end YPriceMagic.Async
