import YPriceMagic.Async.Scopes

/-! Coroutines that cancel and await nothing but tasks they created. Where all tasks of a
forest run such coroutines, a cancellation reaches only tasks below the one it is meant for. -/
namespace YPriceMagic.Async
open Coroutine

section
variable {Kind Query : Type} {Answer : Query → Type} {ε : Type}

def Await.tasks : Await Query → List Nat
  | .call _ => []
  | .task other => [other]
  | .gather tasks | .join tasks | .group tasks | .firstOf tasks => tasks

namespace Forest

def Spawned (history : List (Event Kind Answer ε)) (tasks : List Nat) : Prop :=
  ∀ task ∈ tasks, ∃ kind, ⟨.spawn kind,task⟩ ∈ history

/-- Only tasks of the kinds `children` are created, and with `reaps` off none is cancelled. -/
def Tended (children : Kind → Prop) (reaps : Bool) (history : List (Event Kind Answer ε)) : TaskOp Kind Query → Prop
  | .spawn kind => children kind
  | .cancel tasks => reaps = true ∧ Spawned history tasks
  | .await awaited => Spawned history awaited.tasks

def Tends (children : Kind → Prop) (reaps : Bool) {α : Type} (program : Script Kind Answer ε α)
    (history : List (Event Kind Answer ε)) : Prop :=
  Ensures (Tended children reaps) Sigma.mk (fun _ _ => True) program history

section
variable {children : Kind → Prop} {reaps : Bool} {tasks : List Nat} {history : List (Event Kind Answer ε)} {α β : Type}

theorem Spawned.later {later : List (Event Kind Answer ε)} (spawned : Spawned history tasks) (extended : history <+: later) :
    Spawned later tasks := by
  intro task member
  obtain ⟨kind,known⟩ := spawned task member
  exact ⟨kind,extended.subset known⟩

theorem spawns_within (history : List (Event Kind Answer ε)) {kinds : List Kind} (sized : tasks.length = kinds.length) {task : Nat}
    (member : task ∈ tasks) : ∃ kind ∈ kinds, ⟨.spawn kind,task⟩ ∈ history++spawns kinds tasks := by
  obtain ⟨i,inside,rfl⟩ := List.mem_iff_getElem.mp member
  refine ⟨kinds[i],List.getElem_mem (by omega),List.mem_append_right _ (List.mem_of_getElem? (i := i) ?_)⟩
  rw [spawns,List.getElem?_zipWith_eq_some]
  exact ⟨kinds[i],tasks[i],List.getElem?_eq_getElem (by omega),List.getElem?_eq_getElem inside,rfl⟩

theorem spawned_all (history : List (Event Kind Answer ε)) {kinds : List Kind} (sized : tasks.length = kinds.length) :
    Spawned (history++spawns kinds tasks) tasks := by
  intro task member
  obtain ⟨kind,_,known⟩ := spawns_within history sized member
  exact ⟨kind,known⟩

theorem Tends.finished (outcome : Outcome ε α) (history : List (Event Kind Answer ε)) :
    Tends children reaps (finished outcome : Script Kind Answer ε α) history := trivial

theorem Tends.call (query : Query) (history : List (Event Kind Answer ε)) :
    Tends children reaps (Script.call query : Script Kind Answer ε (Answer query)) history :=
  ⟨fun _ member => absurd member List.not_mem_nil,fun _ => trivial⟩

theorem Tends.bind {first : Script Kind Answer ε α} {next : α → Script Kind Answer ε β} (tends : Tends children reaps first history)
    (continued : ∀ value later, Tends children reaps (next value) later) : Tends children reaps (first >>= next) history :=
  Ensures.bind tends (fun value later _ _ => continued value later) (fun _ _ _ _ => trivial) fun _ _ _ => trivial

theorem Tends.tryExcept {body : Script Kind Answer ε α} {handler : ε → Script Kind Answer ε α} (tends : Tends children reaps body history)
    (handled : ∀ error later, Tends children reaps (handler error) later) : Tends children reaps (body.tryExcept handler) history :=
  Ensures.tryExcept tends (fun _ _ _ _ => trivial) (fun error later _ _ => handled error later) fun _ _ _ => trivial

theorem Tends.bindSpawnAll {kinds : List Kind} {next : List Nat → Script Kind Answer ε β} (within : ∀ kind ∈ kinds, children kind)
    (continued : ∀ tasks later, Spawned later tasks → Tends children reaps (next tasks) later) :
    Tends children reaps (Script.spawnAll kinds >>= next) history :=
  Ensures.bindSpawnAll (fun kind member _ => within kind member) fun tasks sized => continued tasks _ (spawned_all history sized)

theorem Tends.spawned {within : Kind → Prop} {reaping : Bool} {first last : Script Kind Answer ε Unit} {history : List (Event Kind Answer ε)}
    (tends : Tends within reaping first []) (leads : Leads first history last) {kind : Kind} {task : Nat}
    (member : ⟨.spawn kind,task⟩ ∈ history) : within kind := by
  induction leads with
  | here => contradiction
  | answered reply leads ih =>
    rcases List.mem_append.mp member with old | new
    · exact ih old
    · cases List.mem_singleton.mp new
      exact (tends.leads leads).1

theorem Spawned.gather (spawned : Spawned history tasks) :
    Tends children reaps (Script.gather tasks : Script Kind Answer ε Unit) history :=
  ⟨spawned,fun _ => trivial⟩

theorem Spawned.group (spawned : Spawned history tasks) (raiseGroup : List ε → ε) :
    Tends children reaps (Script.group raiseGroup tasks : Script Kind Answer ε Unit) history := by
  refine ⟨spawned,fun reply => ?_⟩
  cases reply <;> trivial

theorem Spawned.reap (spawned : Spawned history tasks) :
    Tends children true (Script.reap tasks : Script Kind Answer ε Unit) history :=
  ⟨⟨rfl,spawned⟩,fun _ => ⟨spawned.later (List.prefix_append _ _),fun reply => by cases reply <;> trivial⟩⟩

theorem Spawned.gatherReap (spawned : Spawned history tasks) :
    Tends children true ((Script.gather tasks).tryFinally (Script.reap tasks) : Script Kind Answer ε Unit) history := by
  refine Ensures.andThen spawned.gather fun outcome later extended _ => ?_
  refine Ensures.andThen (spawned.later extended).reap fun ending latest _ _ => ?_
  cases ending <;> trivial

end

/-- A cancellation of the task was requested and not delivered yet. -/
def Asked (s : Forest Kind Answer ε) (id : Nat) : Prop :=
  ∃ node : Node Kind Answer ε, s[id]? = some node ∧ node.cancelRequested = true

/-- What a task waits for are tasks it created. -/
def Wired (s : Forest Kind Answer ε) : Prop :=
  ∀ (id : Nat) (node : Node Kind Answer ε) (awaited : Await Query) (resume : awaited.Reply Answer ε → Script Kind Answer ε Unit),
    s[id]? = some node → node.standing = .suspended awaited resume → ∀ task ∈ awaited.tasks, s.Creates id task

section
variable {s next : Forest Kind Answer ε} {id other : Nat} {tasks : List Nat}

theorem Creates.mono (extended : s.Extends next) {parent child : Nat} (created : s.Creates parent child) :
    next.Creates parent child := by
  obtain ⟨node,found,mine⟩ := created
  obtain ⟨later,there,_,parent,_⟩ := extended child node found
  exact ⟨later,there,parent.trans mine⟩

theorem Creates.unique {parent before child : Nat} (created : s.Creates parent child) (also : s.Creates before child) :
    parent = before := by
  obtain ⟨node,found,mine⟩ := created
  obtain ⟨same,there,again⟩ := also
  cases Option.some.inj (found.symm.trans there)
  exact Option.some.inj (mine.symm.trans again)

/-- Below a task that nobody created is only what it created itself. -/
theorem above_root {node : Node Kind Answer ε} (found : s[other]? = some node) (root : node.parent = none)
    (below : Relation.ReflTransGen s.Creates id other) : id = other := by
  cases below with
  | refl => rfl
  | tail _ created =>
    obtain ⟨same,there,mine⟩ := created
    cases Option.some.inj (found.symm.trans there)
    simp [root] at mine

theorem Wired.forwards (wired : s.Wired) {task : Nat} (passed : task ∈ s.forwards id) : s.Creates id task := by
  unfold Forest.forwards at passed
  split at passed
  · rename_i found
    exact wired id _ _ _ found rfl task passed
  · rename_i found
    split at passed
    · contradiction
    · exact wired id _ _ _ found rfl task passed
  · rename_i found
    exact wired id _ _ _ found rfl task passed
  · contradiction

theorem Wired.reached (wired : s.Wired) (depth : Nat) (hit : other ∈ s.reached depth tasks) :
    ∃ task ∈ tasks, Relation.ReflTransGen s.Creates task other := by
  induction depth generalizing tasks with
  | zero => exact ⟨other,hit,.refl⟩
  | succ depth ih =>
    rcases List.mem_append.mp hit with here | further
    · exact ⟨other,here,.refl⟩
    · obtain ⟨passed,member,below⟩ := ih further
      obtain ⟨task,first,passes⟩ := List.mem_flatMap.mp member
      exact ⟨task,first,.head (wired.forwards passes) below⟩

theorem cancel_asked (asked : (s.cancel tasks).Asked other) :
    s.Asked other ∨ (s.done other = false ∧ other ∈ s.reached s.length tasks) := by
  obtain ⟨node,found,requested⟩ := asked
  simp only [cancel,List.getElem?_mapIdx,Option.map_eq_some_iff] at found
  obtain ⟨before,there,rfl⟩ := found
  split at requested
  · exact Or.inl ⟨before,there,requested⟩
  · rename_i running
    simp only [Bool.or_eq_true,Bool.not_eq_true',not_or,Bool.not_eq_true,Bool.not_eq_false,List.contains_iff_mem] at running
    exact Or.inr ⟨(done_eq there).trans running.1,running.2⟩

theorem snoc_asked {fresh : Node Kind Answer ε} (unasked : fresh.cancelRequested = false) (asked : Asked (s++[fresh]) other) :
    s.Asked other := by
  obtain ⟨node,found,requested⟩ := asked
  rcases mem_snoc_table found with old | ⟨_,rfl⟩
  · exact ⟨node,old,requested⟩
  · simp [unasked] at requested

theorem Wired.cancel (wired : s.Wired) (tasks : List Nat) : (s.cancel tasks).Wired := by
  intro id node awaited resume found suspended task member
  obtain ⟨before,there,core⟩ := core_some (same_core (cancel_core s tasks) id).symm found
  have standing := (outcome_of_core core).2.2.1.trans suspended
  exact (wired id before awaited resume there standing task member).mono (Extends.of_core (cancel_core s tasks))

theorem Wired.spawn (wired : s.Wired) (inside : id < s.length) (idle : s.outcome id = none) (kind : Kind) :
    Wired (s++[{kind,parent := some id}]) := by
  intro other node awaited resume found suspended task member
  rcases mem_snoc_table found with old | ⟨_,rfl⟩
  · exact (wired other node awaited resume old suspended task member).mono ((Moved.spawn inside kind).extends idle)
  · contradiction

theorem proceed_moved (inside : id < s.length) (program : Script Kind Answer ε Unit) : Moved id s (s.proceed id program) := by
  refine proceed_induct (fun s next => id < s.length → Moved id s next) ?_ ?_ ?_ program s inside
  · exact fun s standing _ _ => Moved.stand id s standing
  · exact fun s kind next rest inside => (Moved.spawn inside kind).trans inside (rest (by simp; omega))
  · exact fun s tasks next rest inside => (Moved.of_core (cancel_core s tasks)).trans inside (rest (by simpa [cancel] using inside))

/-- A cancellation is delivered with the next step of its task. -/
theorem proceed_unasked (program : Script Kind Answer ε Unit) : ¬(s.proceed id program).Asked id := by
  refine proceed_induct (fun _ next => ¬next.Asked id) ?_ (fun _ _ _ rest => rest) (fun _ _ _ rest => rest) program s
  rintro s standing _ ⟨node,found,requested⟩
  simp only [Forest.stand,List.getElem?_modify,if_true,Option.map_eq_map,Option.map_eq_some_iff] at found
  obtain ⟨before,_,rfl⟩ := found
  contradiction

theorem stand_asked {standing : Standing Kind Answer ε} (apart : other ≠ id) (asked : (s.stand id standing).Asked other) :
    s.Asked other := by
  obtain ⟨node,found,requested⟩ := asked
  exact ⟨node,by simpa [Forest.stand,Ne.symm apart] using found,requested⟩

theorem outcome_core (same : next.map Node.core = s.map Node.core) (id : Nat) : next.outcome id = s.outcome id := by
  have here := same_core same id
  cases found : s[id]? with
  | none =>
    rw [found,Option.map_none,Option.map_eq_none_iff] at here
    simp [Forest.outcome,found,here]
  | some node =>
    obtain ⟨later,there,core⟩ := core_some here found
    simp [Forest.outcome,found,there,(outcome_of_core core).2.2.2]

theorem proceed_spawnAll (kinds : List Kind) (next : Outcome ε (List Nat) → Script Kind Answer ε Unit) :
    s.proceed id ((Script.spawnAll kinds).andThen next) =
      Forest.proceed id (next (.returned (List.range' s.length kinds.length))) (s++kinds.map fun kind => {kind,parent := some id}) := by
  induction kinds generalizing s next with
  | nil => simp [Script.spawnAll,pure,Coroutine.andThen]
  | cons kind kinds ih =>
    change Forest.proceed id (((Script.spawnAll kinds).andThen (onValue fun tasks => pure (s.length::tasks))).andThen next)
      (s++[{kind,parent := some id}]) = _
    rw [andThen_assoc,ih]
    simp [List.range'_succ,onValue,pure,Coroutine.andThen]

theorem done_forwards (ended : s.done id = true) : s.forwards id = [] := by
  obtain ⟨outcome,here⟩ := Option.isSome_iff_exists.mp ended
  obtain ⟨node,found,finished⟩ := outcome_some.mp here
  unfold Forest.forwards
  split
  all_goals
    rename_i there
    first
      | rfl
      | (cases Option.some.inj (found.symm.trans there); contradiction)

theorem reached_leaves (leaves : ∀ task ∈ tasks, s.forwards task = []) (depth : Nat) : s.reached depth tasks = tasks := by
  have nothing (depth : Nat) : s.reached depth [] = [] := by
    induction depth with
    | zero => rfl
    | succ depth ih => exact ih
  cases depth with
  | zero => rfl
  | succ depth => rw [Forest.reached,List.flatMap_eq_nil_iff.mpr leaves,nothing,List.append_nil]

theorem cancel_done (all : ∀ task ∈ tasks, s.done task = true) : s.cancel tasks = s := by
  apply List.ext_getElem?
  intro other
  simp only [cancel,List.getElem?_mapIdx,reached_leaves fun task member => done_forwards (all task member)]
  cases found : s[other]? with
  | none => rfl
  | some node =>
    rw [Option.map_some,if_pos]
    by_cases hit : other ∈ tasks
    · simp [← done_eq found,all other hit]
    · simp [hit]

/-- The tasks a history names are tasks that `id` created. -/
def Mine (s : Forest Kind Answer ε) (id : Nat) (history : List (Event Kind Answer ε)) : Prop :=
  ∀ kind task, ⟨.spawn kind,task⟩ ∈ history → s.Creates id task

theorem Mine.keep {history : List (Event Kind Answer ε)} (mine : s.Mine id history) (extended : s.Extends next)
    {op : TaskOp Kind Query} {reply : op.Reply Kind Answer ε} (other : ∀ kind, op ≠ .spawn kind) :
    next.Mine id (history++[⟨op,reply⟩]) := by
  intro kind task member
  rcases List.mem_append.mp member with old | new
  · exact (mine kind task old).mono extended
  · cases List.mem_singleton.mp new
    exact absurd rfl (other kind)

theorem Mine.spawn {history : List (Event Kind Answer ε)} (mine : s.Mine id history) (inside : id < s.length)
    (idle : s.outcome id = none) (kind : Kind) : Mine (s++[{kind,parent := some id}]) id (history++[⟨.spawn kind,s.length⟩]) := by
  intro other task member
  rcases List.mem_append.mp member with old | new
  · exact (mine other task old).mono ((Moved.spawn inside kind).extends idle)
  · cases List.mem_singleton.mp new
    exact ⟨_,List.getElem?_concat_length,rfl⟩

theorem Story.mine {answered : Nat → (awaited : Await Query) → awaited.Reply Answer ε → Prop} {id : Nat}
    {history : List (Event Kind Answer ε)} (story : Story answered s id history) : s.Mine id history := by
  intro kind task member
  obtain ⟨node,found,_,mine⟩ := story.known _ member
  exact ⟨node,found,mine⟩

theorem Extends.unfinished (extended : s.Extends next) (running : next.done other = false) : s.done other = false := by
  by_contra ended
  rw [Bool.not_eq_false] at ended
  simp [extended.done ended] at running

/-- Whom a task asks while it goes on is below it. -/
theorem proceed_asks {children : Kind → Prop} {reaps : Bool} {history : List (Event Kind Answer ε)}
    (program : Script Kind Answer ε Unit) (inside : id < s.length) (idle : s.outcome id = none) (wired : s.Wired)
    (tends : Tends children reaps program history) (mine : s.Mine id history) (asked : (s.proceed id program).Asked other) :
    s.Asked other ∨ (reaps = true ∧ s.done other = false ∧ Relation.TransGen (s.proceed id program).Creates id other) := by
  by_cases apart : other = id
  · subst apart
    exact absurd asked (proceed_unasked program)
  induction program generalizing s history with
  | finished outcome => exact Or.inl (stand_asked apart asked)
  | perform op resume ih =>
    obtain ⟨allowed,continued⟩ := tends
    cases op with
    | spawn kind =>
      have grown := (Moved.spawn inside kind).extends idle
      have still : Forest.outcome (s++[{kind,parent := some id}]) id = none := by
        simpa [Forest.outcome,List.getElem?_append_left inside] using idle
      have later := ih s.length (by simp; omega) still (wired.spawn inside idle kind) (continued s.length) (mine.spawn inside idle kind) asked
      rcases later with before | ⟨reaping,running,below⟩
      · exact Or.inl (snoc_asked rfl before)
      · exact Or.inr ⟨reaping,grown.unfinished running,below⟩
    | cancel tasks =>
      have same := Extends.of_core (cancel_core s tasks)
      have bound : id < (s.cancel tasks).length := by simpa [cancel] using inside
      have still : (s.cancel tasks).outcome id = none := (outcome_core (cancel_core s tasks) id).trans idle
      rcases ih () bound still (wired.cancel tasks) (continued ()) (mine.keep same (by simp)) asked with before | ⟨reaping,running,below⟩
      · refine (cancel_asked before).imp_right ?_
        rintro ⟨running,hit⟩
        refine ⟨allowed.1,running,?_⟩
        obtain ⟨task,member,below⟩ := wired.reached _ hit
        obtain ⟨kind,spawned⟩ := allowed.2 task member
        have path := Relation.TransGen.head' (mine kind task spawned) below
        have grown := same.trans ((proceed_moved bound (resume ())).extends still)
        exact Relation.TransGen.mono (fun _ _ => Creates.mono grown) _ _ path
      · exact Or.inr ⟨reaping,same.unfinished running,below⟩
    | await awaited =>
      cases awaited with
      | task task =>
        cases seen : s.outcome task with
        | none => exact Or.inl (stand_asked apart (by simpa [proceed,seen] using asked))
        | some outcome =>
          have goes : s.proceed id (perform (.await (.task task)) resume) = s.proceed id (resume outcome) := by simp [proceed,seen]
          rw [goes] at asked ⊢
          exact ih outcome inside idle wired (continued outcome) (mine.keep (Extends.refl s) (by simp)) asked
      | call | gather | join | group | firstOf => exact Or.inl (stand_asked apart asked)

end

section
variable [DecidableEq ε] [DecidableEq Query] {code : Kind → Script Kind Answer ε Unit} {actions : List (Action Kind Answer ε)}
  {s next : Forest Kind Answer ε} {children : Kind → Kind → Prop} {reaps : Kind → Bool}

/-- Every task of the forest tends its own. -/
def Minded (code : Kind → Script Kind Answer ε Unit) (children : Kind → Kind → Prop) (reaps : Kind → Bool)
    (s : Forest Kind Answer ε) : Prop :=
  ∀ (id : Nat) (node : Node Kind Answer ε), s[id]? = some node → Tends (children node.kind) (reaps node.kind) (code node.kind) []

theorem run_wired (ran : run (step code) [] actions = some s) (minded : s.Minded code children reaps) : s.Wired := by
  intro id node awaited resume found suspended task member
  obtain ⟨history,follows,story⟩ := (run_recorded ran).story id node found
  rw [suspended] at follows
  have leads : Leads (code node.kind) history (perform (.await awaited) resume) := follows
  obtain ⟨kind,spawned⟩ := ((minded id node found).leads leads).1 task member
  exact story.mine kind task spawned

theorem run_children (ran : run (step code) [] actions = some s) {parent task : Nat} {creator child : Node Kind Answer ε}
    (here : s[parent]? = some creator) (tends : Tends (children creator.kind) (reaps creator.kind) (code creator.kind) [])
    (found : s[task]? = some child) (mine : child.parent = some parent) : children creator.kind child.kind := by
  obtain ⟨history,follows,story⟩ := (run_recorded ran).story parent creator here
  obtain ⟨kind,spawned⟩ := story.created task child found mine
  obtain ⟨same,there,rfl,_⟩ := story.known _ spawned
  cases Option.some.inj (found.symm.trans there)
  cases standing : creator.standing with
  | created =>
    rw [standing] at follows
    cases follows
    contradiction
  | suspended awaited resume =>
    rw [standing] at follows
    have leads : Leads (code creator.kind) history (perform (.await awaited) resume) := follows
    exact tends.spawned leads spawned
  | ended outcome =>
    rw [standing] at follows
    rcases follows with leads | ⟨rfl,_⟩
    · exact tends.spawned leads spawned
    · contradiction

/-- What was started is among the good kinds, and so is what such tasks create. -/
theorem run_within {good : Kind → Prop} (tends : ∀ kind, good kind → Tends (children kind) (reaps kind) (code kind) [])
    (closed : ∀ kind child, good kind → children kind child → good child) (ran : run (step code) [] actions = some s)
    (started : ∀ kind, .start kind ∈ actions → good kind) {id : Nat} {node : Node Kind Answer ε} (found : s[id]? = some node) :
    good node.kind := by
  refine run_history (fun actions s => (∀ kind, .start kind ∈ actions → good kind) →
    ∀ (id : Nat) (node : Node Kind Answer ε), s[id]? = some node → good node.kind) (by simp) ?_ ran started id node found
  intro earlier before action after ranBefore held stepped started task child found
  have among := held fun kind member => started kind (List.mem_append_left _ member)
  have kept (same : after.map Node.core = before.map Node.core) : good child.kind := by
    obtain ⟨old,there,core⟩ := core_some (same_core same task).symm found
    rw [← (outcome_of_core core).1]
    exact among task old there
  have moved {id : Nat} {node : Node Kind Answer ε} (here : before[id]? = some node) (running : node.outcome = none)
      (moves : Moved id before after) : good child.kind := by
    have extended := moves.extends (unended here running)
    by_cases old : task < before.length
    · obtain ⟨later,there,kind,_⟩ := extended task _ (List.getElem?_eq_getElem old)
      cases Option.some.inj (found.symm.trans there)
      rw [kind]
      exact among task _ (List.getElem?_eq_getElem old)
    · obtain ⟨creator,there,kind,_⟩ := extended id node here
      have able : good creator.kind := by
        rw [kind]
        exact among id node here
      have mine := (moves.created task child (Nat.not_lt.mp old) found).2
      exact closed _ _ able (run_children (run_snoc ranBefore stepped) there (tends _ able) found mine)
  cases action with
  | start kind =>
    cases Option.some.inj stepped
    rcases mem_snoc_table found with old | ⟨_,rfl⟩
    · exact among task child old
    · exact started kind (by simp)
  | cancel id =>
    cases Option.some.inj stepped
    exact kept (cancel_core before [id])
  | abort id =>
    obtain ⟨_,tasks,_,_,_,_,rfl⟩ := abort_some stepped
    exact kept (abort_core before id tasks)
  | enter id =>
    obtain ⟨node,here,standing,rfl⟩ := enter_some stepped
    exact moved here (by simp [Node.outcome,standing]) (proceed_moved (List.getElem?_eq_some_iff.mp here).1 _)
  | answer id awaited reply =>
    obtain ⟨node,resume,here,suspended,_,rfl⟩ := answer_some stepped
    exact moved here (by simp [Node.outcome,suspended]) (proceed_moved (List.getElem?_eq_some_iff.mp here).1 _)

/-- Why a step asks task `other` to cancel. -/
def Asks (reaps : Kind → Bool) (s next : Forest Kind Answer ε) (other : Nat) : Action Kind Answer ε → Prop
  | .start _ => False
  | .cancel id => Relation.ReflTransGen s.Creates id other
  | .enter id | .answer id _ _ => (∃ node : Node Kind Answer ε, s[id]? = some node ∧ reaps node.kind = true) ∧
      Relation.TransGen next.Creates id other
  | .abort id => (∃ (node : Node Kind Answer ε) (tasks : List Nat) (resume : (Await.group tasks : Await Query).Reply Answer ε → Script Kind Answer ε Unit),
      s[id]? = some node ∧ node.standing = .suspended (.group tasks) resume ∧ (node.cancelRequested = true ∨ s.raised tasks ≠ [])) ∧
      Relation.TransGen s.Creates id other

theorem step_asks (ran : run (step code) [] actions = some s) (minded : s.Minded code children reaps) {action : Action Kind Answer ε}
    (stepped : s.step code action = some next) {other : Nat} (asked : next.Asked other) :
    s.Asked other ∨ (s.done other = false ∧ Asks reaps s next other action) := by
  have wired := run_wired ran minded
  cases action with
  | start kind =>
    cases Option.some.inj stepped
    exact Or.inl (snoc_asked rfl asked)
  | cancel id =>
    cases Option.some.inj stepped
    refine (cancel_asked asked).imp_right ?_
    rintro ⟨running,hit⟩
    refine ⟨running,?_⟩
    obtain ⟨task,member,below⟩ := wired.reached _ hit
    cases List.mem_singleton.mp member
    exact below
  | abort id =>
    obtain ⟨node,tasks,resume,here,standing,permitted,rfl⟩ := abort_some stepped
    have cancelled : (s.cancel tasks).Asked other := by
      obtain ⟨later,found,requested⟩ := asked
      simp only [List.getElem?_modify,Option.map_eq_map,Option.map_eq_some_iff] at found
      obtain ⟨before,there,rfl⟩ := found
      refine ⟨before,there,?_⟩
      split at requested <;> exact requested
    refine (cancel_asked cancelled).imp_right ?_
    rintro ⟨running,hit⟩
    refine ⟨running,⟨node,tasks,resume,here,standing,permitted⟩,?_⟩
    obtain ⟨task,member,below⟩ := wired.reached _ hit
    exact Relation.TransGen.head' (wired id node _ resume here standing task member) below
  | enter id =>
    obtain ⟨node,here,standing,rfl⟩ := enter_some stepped
    have inside := (List.getElem?_eq_some_iff.mp here).1
    have idle := unended here (by simp [Node.outcome,standing])
    have tends : Tends (children node.kind) (reaps node.kind) (if node.cancelRequested then finished .cancelled else code node.kind) [] := by
      split
      · trivial
      · exact minded id node here
    have mine : s.Mine id [] := fun _ _ member => by contradiction
    refine (proceed_asks _ inside idle wired tends mine asked).imp_right ?_
    rintro ⟨reaping,running,below⟩
    exact ⟨running,⟨node,here,reaping⟩,below⟩
  | answer id awaited reply =>
    obtain ⟨node,resume,here,suspended,_,rfl⟩ := answer_some stepped
    have inside := (List.getElem?_eq_some_iff.mp here).1
    have idle := unended here (by simp [Node.outcome,suspended])
    obtain ⟨history,follows,story⟩ := (run_recorded ran).story id node here
    rw [suspended] at follows
    have leads : Leads (code node.kind) history (perform (.await awaited) resume) := follows
    have tends := ((minded id node here).leads leads).2 reply
    have mine : s.Mine id (history++[⟨.await awaited,reply⟩]) := story.mine.keep (Extends.refl s) (by simp)
    refine (proceed_asks _ inside idle wired tends mine asked).imp_right ?_
    rintro ⟨reaping,running,below⟩
    exact ⟨running,⟨node,here,reaping⟩,below⟩

end
end Forest
end
end YPriceMagic.Async
