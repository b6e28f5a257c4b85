import YPriceMagic.Runtime.BackgroundWarmup
import YPriceMagic.Server.RequiredPrewarm

/-! The background warm-up with the scans it starts: which of them can still run when the task
that `BackgroundWarmup` tracks is done. -/
namespace YPriceMagic.Server
open YPriceMagic.Async YPriceMagic.Async.Coroutine YPriceMagic.Async.Forest YPriceMagic.Runtime

/-- The loader whose scans are awaited by a gather that nothing cleans up behind. -/
def bareGather : Warming → Bool
  | .prewarmBalancer => true
  | _ => false

section
variable (protocols : Protocols) {waits : Bool} {history : List (Event Warming Scan.Answer Exn)}

theorem swallow_closes {body : WarmScript Unit} (closes : Closes waits body history) : Closes waits (swallow body) history :=
  closes.tryExcept fun _ _ pending => pending

theorem ask_closes (pending : Pending waits [] history) (scan : Scan) : Closes waits (ask scan) history :=
  pending.call scan

theorem consume_closes (pending : Pending waits [] history) (scan : Scan) : Closes waits (consume scan) history :=
  (ask_closes pending scan).bind fun _ _ later => later

theorem load_closes (router : Router) (block : Nat) (required : Bool) : Closes waits (load protocols router block required) [] := by
  refine Closes.tryExcept ?_ fun error later pending => ?_
  · exact (Pending.start waits).bindSpawnAll fun tasks later pending => pending.gatherReap
  · split <;> exact pending

theorem prewarmUniswap_closes (required : Bool) : Closes waits (prewarmUniswap protocols required) [] :=
  (ask_closes (Pending.start waits) .headBlock).bind fun _ _ pending =>
    pending.bindSpawnAll fun _ _ owned => owned.gatherReap

theorem prewarmBalancer_closes : Closes true prewarmBalancer [] := by
  refine swallow_closes ?_
  refine (ask_closes (Pending.start true) .balancerVersions).bind fun _ later pending => ?_
  refine (ask_closes pending .balancerV2).bind fun v2 later pending => ?_
  refine (ask_closes pending .headBlock).bind fun block later pending => ?_
  cases v2 with
  | none => exact pending
  | some vaults => exact pending.bindSpawnAll fun _ _ scans => scans.gather

theorem backgroundPrewarm_closes : Closes waits backgroundPrewarm [] :=
  swallow_closes ((Pending.start waits).bindSpawnAll fun _ _ tasks => tasks.group exceptionGroup)

theorem warmingCode_closes (kind : Warming) : Closes (bareGather kind) (warmingCode protocols kind) [] := by
  cases kind with
  | prewarmWithShutdown => exact prewarmWithShutdown_closes protocols
  | prewarmCurve =>
    change Closes false (if protocols.curveRegistry then ask .curvePools else pure ()) []
    split
    · exact ask_closes (Pending.start false) .curvePools
    · exact Pending.start false
  | waitForShutdown => exact ask_closes (Pending.start false) .shutdownEvent
  | runPrewarm prewarmTasks => exact ⟨trivial,fun _ => (Pending.start false).keep (by simp)⟩
  | backgroundPrewarm => exact backgroundPrewarm_closes
  | prewarmUniswap required => exact prewarmUniswap_closes protocols required
  | load router block required => exact load_closes protocols router block required
  | consumeRouter router token block => exact consume_closes (Pending.start false) _
  | consumeVault vault block => exact consume_closes (Pending.start false) _
  | prewarmBalancer => exact prewarmBalancer_closes
  | prewarmCompound => exact swallow_closes (ask_closes (Pending.start false) .compoundMarkets)
  | prewarmChainlink => exact swallow_closes (ask_closes (Pending.start false) .chainlinkFeeds)
  | prewarmAave => exact swallow_closes (ask_closes (Pending.start false) .aavePools)
  | prewarmGearbox => exact swallow_closes (ask_closes (Pending.start false) .dieselTokens)

end

/-- `roots` holds the tasks of the forest that run `_background_prewarm`, in the order in which
`BackgroundWarmup` created them. -/
structure BackgroundScans where
  warmup : BackgroundWarmup
  forest : WarmForest
  roots : List Nat

namespace BackgroundScans

inductive Action
  | pause
  | resume
  | cancel
  | finished (i : Nat)
  | enter (id : Nat)
  | answer (id : Nat) (awaited : Await Scan) (reply : awaited.Reply Scan.Answer Exn)
  | abort (id : Nat)

def init : BackgroundScans := ⟨BackgroundWarmup.init,[],[]⟩

def cancelTask (s : BackgroundScans) : WarmForest :=
  match s.warmup.task.bind (s.roots[·]?) with
  | some root => s.forest.cancel [root]
  | none => s.forest

/-- A task that `BackgroundWarmup` creates is a task of the forest. -/
def supervise (s : BackgroundScans) (warmup : BackgroundWarmup) : BackgroundScans :=
  if s.roots.length < warmup.spawned.length then
    ⟨warmup,s.forest.start .backgroundPrewarm,s.roots++[s.forest.length]⟩
  else {s with warmup}

def untyped : Outcome Exn Unit → Outcome Unit Unit
  | .returned value => .returned value
  | .raised _ => .raised ()
  | .cancelled => .cancelled

/-- A step of task `id` is one of the warm-up's own task when it is that. -/
def proceeds (s : BackgroundScans) (id : Nat) (forest : WarmForest) : Option BackgroundScans :=
  match s.roots.idxOf? id with
  | some i => (s.warmup.step (.workStep i ((forest.outcome id).map untyped))).map fun warmup => {s with warmup,forest}
  | none => some {s with forest}

variable (protocols : Protocols)

def step (s : BackgroundScans) : Action → Option BackgroundScans
  | .pause => some {s with warmup := s.warmup.pause,forest := s.cancelTask}
  | .cancel => some {s with warmup := s.warmup.cancel,forest := s.cancelTask}
  | .resume => some (s.supervise s.warmup.resume)
  | .finished i => (s.warmup.step (.finished i)).map s.supervise
  | .enter id => (warmStep protocols s.forest (.enter id)).bind (s.proceeds id)
  | .answer id awaited reply => (warmStep protocols s.forest (.answer id awaited reply)).bind (s.proceeds id)
  | .abort id => (warmStep protocols s.forest (.abort id)).map fun forest => {s with forest}

/-- No Balancer loader leaves its gather while one of its scans is still running. -/
def Gathered (s : BackgroundScans) : Action → Prop
  | .answer id (.gather scans) _ => (s.forest[id]?.any fun node => bareGather node.kind) = true →
      ∀ scan ∈ scans, s.forest.done scan = true
  | _ => True

instance decidableGathered (s : BackgroundScans) : (action : Action) → Decidable (s.Gathered action)
  | .answer id (.gather scans) _ => inferInstanceAs (Decidable ((s.forest[id]?.any fun node => bareGather node.kind) = true →
      ∀ scan ∈ scans, s.forest.done scan = true))
  | .answer _ (.call _) _ | .answer _ (.task _) _ | .answer _ (.join _) _ | .answer _ (.group _) _ | .answer _ (.firstOf _) _
  | .pause | .resume | .cancel | .finished _ | .enter _ | .abort _ => inferInstanceAs (Decidable True)

structure Tracks (task : Task Unit Unit) (node : Node Warming Scan.Answer Exn) : Prop where
  done : task.done = true → node.done = true
  unentered : task.entered = false → node.done = true ∨ node.standing = .created
  requested : task.cancelRequested = true → node.standing = .created → node.cancelRequested = true

structure Linked (s : BackgroundScans) : Prop where
  sized : s.roots.length = s.warmup.spawned.length
  distinct : s.roots.Nodup
  tracks : ∀ (i root : Nat) (task : Task Unit Unit), s.warmup.spawned[i]? = some task → s.roots[i]? = some root →
    ∃ node : Node Warming Scan.Answer Exn, s.forest[root]? = some node ∧ Tracks task node

theorem init_linked : init.Linked := ⟨rfl,by simp [init],by simp [init]⟩

theorem Tracks.retained {task : Task Unit Unit} {node later : Node Warming Scan.Answer Exn} (tracks : Tracks task node)
    (core : later.core = node.core) (requested : node.cancelRequested = true → later.cancelRequested = true) : Tracks task later := by
  obtain ⟨_,_,standing,outcome⟩ := outcome_of_core core
  refine ⟨fun ended => ?_,fun unentered => ?_,fun asked created => ?_⟩
  · rw [Node.done,outcome]
    exact tracks.done ended
  · rw [Node.done,outcome,standing]
    exact tracks.unentered unentered
  · exact requested (tracks.requested asked (standing.symm.trans created))

theorem Linked.bound {s : BackgroundScans} (linked : s.Linked) {root : Nat} (member : root ∈ s.roots) :
    root < s.forest.length := by
  obtain ⟨i,found⟩ := List.mem_iff_getElem?.mp member
  have inside : i < s.warmup.spawned.length := by
    rw [← linked.sized]
    exact (List.getElem?_eq_some_iff.mp found).1
  obtain ⟨node,there,_⟩ := linked.tracks i root _ (List.getElem?_eq_getElem inside) found
  exact (List.getElem?_eq_some_iff.mp there).1

theorem Linked.cancelTask {s : BackgroundScans} (linked : s.Linked) {warmup : BackgroundWarmup}
    (cancelled : warmup.spawned = s.warmup.cancelTask) : ({s with warmup,forest := s.cancelTask} : BackgroundScans).Linked := by
  have retained (other : Nat) : Retains s.forest s.cancelTask other := by
    unfold BackgroundScans.cancelTask
    split
    · exact cancel_retains s.forest _ other
    · exact Retains.refl s.forest other
  refine ⟨?_,linked.distinct,fun i root task found here => ?_⟩
  · have same : s.warmup.cancelTask.length = s.warmup.spawned.length := by
      simpa using congrArg List.length (s.warmup.spawned_map_cancelTask Task.entered Task.cancel_entered)
    rw [cancelled,same]
    exact linked.sized
  · rw [cancelled,BackgroundWarmup.cancelTask_getElem?] at found
    split at found
    · rename_i current
      obtain ⟨before,earlier,rfl⟩ := Option.map_eq_some_iff.mp found
      obtain ⟨node,there,tracks⟩ := linked.tracks i root before earlier here
      obtain ⟨later,kept,core,requested⟩ := retained root node there
      have still := tracks.retained core requested
      refine ⟨later,kept,⟨by simpa using still.done,by simpa using still.unentered,fun _ created => ?_⟩⟩
      have idle : node.done = false := by
        have same := (outcome_of_core core).2.2.1
        simp [Node.done,Node.outcome,← same,created]
      obtain ⟨asked,again,_,hit⟩ := cancel_requests there idle (List.mem_singleton.mpr rfl)
      have forest : s.cancelTask = s.forest.cancel [root] := by simp [BackgroundScans.cancelTask,current,here]
      rw [forest,again] at kept
      cases Option.some.inj kept
      exact hit
    · obtain ⟨node,there,tracks⟩ := linked.tracks i root task found here
      obtain ⟨later,kept,core,requested⟩ := retained root node there
      exact ⟨later,kept,tracks.retained core requested⟩

theorem Linked.supervise {s : BackgroundScans} (linked : s.Linked) {warmup : BackgroundWarmup}
    (grown : warmup.spawned = s.warmup.spawned ∨ warmup.spawned = s.warmup.spawned++[({} : Task Unit Unit)]) : (s.supervise warmup).Linked := by
  rcases grown with same | grown
  · have unchanged : s.supervise warmup = {s with warmup} := by
      simp [BackgroundScans.supervise,same,linked.sized]
    rw [unchanged]
    refine ⟨by rw [same]; exact linked.sized,linked.distinct,?_⟩
    rw [same]
    exact linked.tracks
  · have created : s.supervise warmup = ⟨warmup,s.forest.start .backgroundPrewarm,s.roots++[s.forest.length]⟩ := by
      simp [BackgroundScans.supervise,grown,linked.sized]
    rw [created]
    refine ⟨by simp [grown,linked.sized],?_,fun i root task found here => ?_⟩
    · refine List.nodup_append.mpr ⟨linked.distinct,by simp,?_⟩
      intro root member other last same
      cases List.mem_singleton.mp last
      have bound := linked.bound member
      omega
    · rw [grown] at found
      rcases mem_snoc_table here with old | ⟨last,rfl⟩
      · have inside := (List.getElem?_eq_some_iff.mp old).1
        rw [List.getElem?_append_left (by rw [← linked.sized]; exact inside)] at found
        obtain ⟨node,there,tracks⟩ := linked.tracks i root task found old
        obtain ⟨later,kept,core,requested⟩ := snoc_retains s.forest {kind := .backgroundPrewarm,parent := none} root node there
        exact ⟨later,kept,tracks.retained core requested⟩
      · have fresh : task = {} := by
          rw [last,linked.sized,List.getElem?_concat_length] at found
          exact (Option.some.inj found).symm
        subst fresh
        exact ⟨_,List.getElem?_concat_length,by simp [Task.done],fun _ => Or.inr rfl,by simp⟩

theorem Linked.calledBack {s : BackgroundScans} (linked : s.Linked) {i : Nat} {task : Task Unit Unit}
    (found : s.warmup.spawned[i]? = some task) :
    ({s with warmup := {s.warmup with spawned := s.warmup.spawned.set i {task with calledBack := true}}} : BackgroundScans).Linked := by
  refine ⟨by simpa using linked.sized,linked.distinct,fun j root other there here => ?_⟩
  rcases mem_set_table there with ⟨rfl,rfl⟩ | ⟨_,old⟩
  · obtain ⟨node,known,tracks⟩ := linked.tracks j root task found here
    exact ⟨node,known,tracks.done,tracks.unentered,tracks.requested⟩
  · exact linked.tracks j root other old here

theorem Linked.retained {s : BackgroundScans} (linked : s.Linked) {forest : WarmForest}
    (retained : ∀ root ∈ s.roots, Retains s.forest forest root) : ({s with forest} : BackgroundScans).Linked := by
  refine ⟨linked.sized,linked.distinct,fun i root task found here => ?_⟩
  obtain ⟨node,there,tracks⟩ := linked.tracks i root task found here
  obtain ⟨later,kept,core,requested⟩ := retained root (List.mem_of_getElem? here) node there
  exact ⟨later,kept,tracks.retained core requested⟩

/-- What a step of the tracked task makes of its node. -/
theorem Tracks.step {task after : Task Unit Unit} {node later : Node Warming Scan.Answer Exn} (tracks : Tracks task node)
    (worked : task.step (later.outcome.map untyped) = some after) (entered : later.standing ≠ .created)
    (early : task.entered = false → node.standing = .created → node.cancelRequested = true → later.done = true)
    (running : node.done = false) : Tracks after later := by
  have created (unentered : task.entered = false) : node.standing = .created := by
    rcases tracks.unentered unentered with ended | created
    · rw [running] at ended
      contradiction
    · exact created
  rcases (Task.step_cases worked).2 with ⟨unentered,asked,rfl⟩ | ⟨_,rfl⟩
  · have ended := early unentered (created unentered) (tracks.requested asked (created unentered))
    exact ⟨fun _ => ended,fun _ => Or.inl ended,fun _ created => absurd created entered⟩
  · refine ⟨fun ended => ?_,fun unentered => by simp at unentered,fun _ created => absurd created entered⟩
    simpa [Task.done,Node.done] using ended

theorem Linked.proceeds {s next : BackgroundScans} (linked : s.Linked) {id : Nat} {forest : WarmForest}
    {node later : Node Warming Scan.Answer Exn} (here : s.forest[id]? = some node) (running : node.done = false)
    (there : forest[id]? = some later) (entered : later.standing ≠ .created)
    (early : node.standing = .created → node.cancelRequested = true → later.done = true)
    (retained : ∀ other, other ≠ id → Retains s.forest forest other) (proceeded : s.proceeds id forest = some next) :
    next.Linked := by
  unfold BackgroundScans.proceeds at proceeded
  cases place : s.roots.idxOf? id with
  | none =>
    rw [place] at proceeded
    cases Option.some.inj proceeded
    refine linked.retained fun root member => retained root fun same => ?_
    rw [same] at member
    exact List.idxOf?_eq_none_iff.mp place member
  | some i =>
    rw [place] at proceeded
    obtain ⟨warmup,worked,rfl⟩ := Option.map_eq_some_iff.mp proceeded
    obtain ⟨task,after,found,stepped,rfl⟩ := BackgroundWarmup.workStep_some worked
    obtain ⟨inside,same,_⟩ := List.idxOf?_eq_some_iff.mp place
    have root : s.roots[i]? = some id := by rw [List.getElem?_eq_getElem inside,same]
    have outcome : forest.outcome id = later.outcome := by simp [Forest.outcome,there]
    rw [outcome] at stepped
    refine ⟨by simpa using linked.sized,linked.distinct,fun j other current spawned rooted => ?_⟩
    rcases mem_set_table spawned with ⟨rfl,rfl⟩ | ⟨different,old⟩
    · cases Option.some.inj (root.symm.trans rooted)
      obtain ⟨earlier,known,tracks⟩ := linked.tracks j id task found root
      cases Option.some.inj (here.symm.trans known)
      exact ⟨later,there,tracks.step stepped entered (fun _ => early) running⟩
    · obtain ⟨earlier,known,tracks⟩ := linked.tracks j other current old rooted
      have elsewhere : other ≠ id := by
        rintro rfl
        exact different ((List.getElem?_inj (List.getElem?_eq_some_iff.mp rooted).1 linked.distinct).mp (rooted.trans root.symm))
      obtain ⟨kept,stays,core,requested⟩ := retained other elsewhere earlier known
      exact ⟨kept,stays,tracks.retained core requested⟩

section
variable {protocols}

theorem Linked.enter {s next : BackgroundScans} (linked : s.Linked) {id : Nat}
    (stepped : s.step protocols (.enter id) = some next) : next.Linked := by
  obtain ⟨forest,moved,proceeded⟩ := Option.bind_eq_some_iff.mp stepped
  obtain ⟨node,here,created,rfl⟩ := enter_some moved
  obtain ⟨later,there,entered⟩ := proceed_self (if node.cancelRequested then finished .cancelled else warmingCode protocols node.kind) here
  refine linked.proceeds here (by simp [Node.done,Node.outcome,created]) there entered (fun _ asked => ?_)
    (fun other different => proceed_retains different _ _) proceeded
  rw [if_pos asked] at there
  cases Option.some.inj ((stand_self here _).symm.trans there)
  rfl

theorem Linked.answer {s next : BackgroundScans} (linked : s.Linked) {id : Nat} {awaited : Await Scan}
    {reply : awaited.Reply Scan.Answer Exn} (stepped : s.step protocols (.answer id awaited reply) = some next) : next.Linked := by
  obtain ⟨forest,moved,proceeded⟩ := Option.bind_eq_some_iff.mp stepped
  obtain ⟨node,resume,here,suspended,_,rfl⟩ := answer_some moved
  obtain ⟨later,there,entered⟩ := proceed_self (resume reply) here
  exact linked.proceeds here (by simp [Node.done,Node.outcome,suspended]) there entered
    (fun created => by rw [suspended] at created; contradiction) (fun other different => proceed_retains different _ _) proceeded

theorem step_linked (s : BackgroundScans) (action : Action) (next : BackgroundScans) (linked : s.Linked)
    (stepped : s.step protocols action = some next) : next.Linked := by
  cases action with
  | pause | cancel =>
    cases Option.some.inj stepped
    exact linked.cancelTask rfl
  | resume =>
    cases Option.some.inj stepped
    exact linked.supervise s.warmup.resume_spawned
  | finished i =>
    obtain ⟨warmup,worked,rfl⟩ := Option.map_eq_some_iff.mp stepped
    obtain ⟨task,found,_,_,rfl⟩ := BackgroundWarmup.finished_some worked
    exact (linked.calledBack found).supervise (BackgroundWarmup.finished_spawned _ _)
  | enter id => exact linked.enter stepped
  | answer id awaited reply => exact linked.answer stepped
  | abort id =>
    obtain ⟨forest,moved,rfl⟩ := Option.map_eq_some_iff.mp stepped
    obtain ⟨_,tasks,_,_,_,_,rfl⟩ := abort_some moved
    exact linked.retained fun root _ => abort_retains s.forest tasks id root

end

/-- The forest is one that its own steps bring about, with every gather of a Balancer loader
left in the way the condition asks. -/
def Projected (s : BackgroundScans) : Prop :=
  ∃ moves, run (warmStep protocols) [] moves = some s.forest ∧ Throughout (warmStep protocols) (Settling bareGather) [] moves

/-- The forest is one that its own steps bring about, all of them as `met` asks. -/
def Traced (met : WarmForest → WarmAction → Prop) (s : BackgroundScans) : Prop :=
  ∃ moves, run (warmStep protocols) [] moves = some s.forest ∧ Throughout (warmStep protocols) met [] moves

/-- Which steps of the forest an action can be. -/
def Moves (s : BackgroundScans) : Action → WarmAction → Prop
  | .pause,move | .cancel,move => ∃ root, s.warmup.task.bind (s.roots[·]?) = some root ∧ move = .cancel root
  | .resume,move | .finished _,move => move = .start .backgroundPrewarm
  | .enter id,move => move = .enter id
  | .answer id awaited reply,move => move = .answer id awaited reply
  | .abort id,move => move = .abort id

section
variable {protocols}

theorem proceeds_cases {s next : BackgroundScans} {id : Nat} {forest : WarmForest} (proceeded : s.proceeds id forest = some next) :
    (next.warmup = s.warmup ∨ ∃ made, s.warmup.step made = some next.warmup) ∧ next.forest = forest ∧ next.roots = s.roots := by
  unfold BackgroundScans.proceeds at proceeded
  split at proceeded
  · obtain ⟨warmup,worked,rfl⟩ := Option.map_eq_some_iff.mp proceeded
    exact ⟨Or.inr ⟨_,worked⟩,rfl,rfl⟩
  · cases Option.some.inj proceeded
    exact ⟨Or.inl rfl,rfl,rfl⟩

theorem supervise_cases (s : BackgroundScans) (warmup : BackgroundWarmup) : s.supervise warmup = {s with warmup} ∨
    s.supervise warmup = ⟨warmup,s.forest.start .backgroundPrewarm,s.roots++[s.forest.length]⟩ := by
  unfold BackgroundScans.supervise
  split
  · exact Or.inr rfl
  · exact Or.inl rfl

theorem cancelTask_forest (s : BackgroundScans) : s.cancelTask = s.forest ∨
    ∃ root, s.warmup.task.bind (s.roots[·]?) = some root ∧ s.cancelTask = s.forest.cancel [root] := by
  unfold BackgroundScans.cancelTask
  split
  · rename_i root current
    exact Or.inr ⟨root,current,rfl⟩
  · exact Or.inl rfl

/-- An action is at most one step of the warm-up and one of the forest, where a new task of the warm-up is a root. -/
theorem step_cases {s next : BackgroundScans} {action : Action} (stepped : s.step protocols action = some next) :
    (next.warmup = s.warmup ∨ ∃ made, s.warmup.step made = some next.warmup) ∧
    ((next.forest = s.forest ∧ next.roots = s.roots) ∨ ∃ move, s.Moves action move ∧ warmStep protocols s.forest move = some next.forest ∧
      (next.roots = s.roots ∨ next.roots = s.roots++[s.forest.length] ∧ next.forest = s.forest.start .backgroundPrewarm)) := by
  cases action with
  | pause | cancel =>
    cases Option.some.inj stepped
    refine ⟨Or.inr (by first | exact ⟨.pause,rfl⟩ | exact ⟨.cancel,rfl⟩),?_⟩
    rcases s.cancelTask_forest with same | ⟨root,current,asked⟩
    · exact Or.inl ⟨same,rfl⟩
    · exact Or.inr ⟨.cancel root,⟨root,current,rfl⟩,congrArg some asked.symm,Or.inl rfl⟩
  | resume =>
    cases Option.some.inj stepped
    rcases s.supervise_cases s.warmup.resume with same | started
    · rw [same]
      exact ⟨Or.inr ⟨.resume,rfl⟩,Or.inl ⟨rfl,rfl⟩⟩
    · rw [started]
      exact ⟨Or.inr ⟨.resume,rfl⟩,Or.inr ⟨_,rfl,rfl,Or.inr ⟨rfl,rfl⟩⟩⟩
  | finished i =>
    obtain ⟨warmup,worked,rfl⟩ := Option.map_eq_some_iff.mp stepped
    rcases s.supervise_cases warmup with same | started
    · rw [same]
      exact ⟨Or.inr ⟨.finished i,worked⟩,Or.inl ⟨rfl,rfl⟩⟩
    · rw [started]
      exact ⟨Or.inr ⟨.finished i,worked⟩,Or.inr ⟨_,rfl,rfl,Or.inr ⟨rfl,rfl⟩⟩⟩
  | enter id | answer id awaited reply =>
    obtain ⟨forest,moved,proceeded⟩ := Option.bind_eq_some_iff.mp stepped
    obtain ⟨warmup,rfl,roots⟩ := proceeds_cases proceeded
    exact ⟨warmup,Or.inr ⟨_,rfl,moved,Or.inl roots⟩⟩
  | abort id =>
    obtain ⟨forest,moved,rfl⟩ := Option.map_eq_some_iff.mp stepped
    exact ⟨Or.inl rfl,Or.inr ⟨_,rfl,moved,Or.inl rfl⟩⟩

theorem step_moves {s next : BackgroundScans} {action : Action} (stepped : s.step protocols action = some next) :
    next.forest = s.forest ∨ ∃ move, s.Moves action move ∧ warmStep protocols s.forest move = some next.forest := by
  rcases (step_cases stepped).2 with ⟨same,_⟩ | ⟨move,made,further,_⟩
  · exact Or.inl same
  · exact Or.inr ⟨move,made,further⟩

theorem step_roots {s next : BackgroundScans} {action : Action} (stepped : s.step protocols action = some next) :
    next.roots = s.roots ∨ (next.roots = s.roots++[s.forest.length] ∧ next.forest = s.forest.start .backgroundPrewarm) := by
  rcases (step_cases stepped).2 with ⟨_,same⟩ | ⟨_,_,_,roots⟩
  · exact Or.inl same
  · exact roots

theorem run_traced {met : WarmForest → WarmAction → Prop} {condition : BackgroundScans → Action → Prop}
    (carried : ∀ s action move, condition s action → s.Moves action move → met s.forest move) {actions : List Action}
    {s : BackgroundScans} (throughout : Throughout (step protocols) condition init actions)
    (ran : run (step protocols) init actions = some s) : s.Traced protocols met := by
  refine run_preserves_throughout (Traced protocols met) condition ?_ ⟨[],rfl,trivial⟩ throughout ran
  rintro before action after ⟨moves,moved,all⟩ holds stepped
  rcases step_moves stepped with same | ⟨move,made,further⟩
  · exact ⟨moves,moved.trans (congrArg some same.symm),all⟩
  · refine ⟨moves++[move],run_snoc moved further,throughout_append.mpr ⟨all,fun middle same => ?_⟩⟩
    cases Option.some.inj (moved.symm.trans same)
    exact ⟨carried before action move holds made,fun _ _ => trivial⟩

theorem settling_of_gathered (s : BackgroundScans) (action : Action) (move : WarmAction) (met : s.Gathered action)
    (moves : s.Moves action move) : Settling bareGather s.forest move := by
  cases action with
  | answer id awaited reply =>
    cases moves
    cases awaited with
    | gather scans => exact fun node found balancer => met (by simp [found,balancer])
    | call | task | join | group | firstOf => trivial
  | pause | cancel =>
    obtain ⟨root,_,rfl⟩ := moves
    trivial
  | resume | finished | enter | abort =>
    cases moves
    trivial

/-- Whenever a warm-up task is done, so is every task below it. -/
theorem no_scan_outlives {actions : List Action} {s : BackgroundScans} (ran : run (step protocols) init actions = some s)
    (met : Throughout (step protocols) Gathered init actions) (i root scan : Nat) (task : Task Unit Unit)
    (tracked : s.warmup.spawned[i]? = some task) (rooted : s.roots[i]? = some root) (ended : task.done = true)
    (below : Relation.ReflTransGen s.forest.Creates root scan) : s.forest.done scan = true := by
  have linked : s.Linked := run_preserves Linked step_linked init_linked ran
  have projected : s.Projected protocols := run_traced settling_of_gathered met ran
  obtain ⟨node,here,tracks⟩ := linked.tracks i root task tracked rooted
  obtain ⟨moves,moved,settled⟩ := projected
  exact below_done (fun _ node _ => warmingCode_closes protocols node.kind) moved settled ((done_eq here).trans (tracks.done ended)) below

end

def quietMainnet : Protocols := ⟨"ethereum",true,[],[],none,[]⟩

/-- Everything but the Balancer loader has ended, and that has two vaults to scan. -/
def scanning : List Action := [.resume,.enter 0,.enter 1,.enter 2,.enter 3,.enter 4,.enter 5,.enter 6,
  .answer 1 (.call .headBlock) (.returned (7 : Nat)),.answer 1 (.gather []) (.returned ()),.answer 1 (.join []) (.returned ()),
  .answer 2 (.call .compoundMarkets) (.returned ()),.answer 3 (.call .chainlinkFeeds) (.returned ()),
  .answer 4 (.call .aavePools) (.returned ()),.answer 6 (.call .dieselTokens) (.returned ()),
  .answer 5 (.call .balancerVersions) (.returned ()),.answer 5 (.call .balancerV2) (.returned (some 2 : Option Nat)),
  .answer 5 (.call .headBlock) (.returned (7 : Nat)),.enter 7,.enter 8]

def completed : List Action := scanning++[.answer 7 (.call (.vaultMetadata 0 7)) (.returned (1 : Nat)),
  .answer 8 (.call (.vaultMetadata 1 7)) (.raised (.value "")),.answer 5 (.gather [7,8]) (.raised (.value "")),
  .answer 0 (.group [1,2,3,4,5,6]) (.returned ())]

def abandoned : List Action := scanning++[.answer 7 (.call (.vaultMetadata 0 7)) (.raised (.value "")),
  .answer 5 (.gather [7,8]) (.raised (.value "")),.answer 0 (.group [1,2,3,4,5,6]) (.returned ())]

theorem creates_below {forest : WarmForest} {root scan : Nat} (loader : Nat) (first : forest.Creates root loader) (second : forest.Creates loader scan) :
    Relation.ReflTransGen forest.Creates root scan :=
  (Relation.ReflTransGen.single first).tail second

/-- The last scan fails when the other has ended. -/
theorem no_scan_outlives_completed : ∃ s task, run (step quietMainnet) init completed = some s ∧ s.warmup.spawned[0]? = some task ∧
    task.done = true ∧ s.forest.done 8 = true := by
  have ran : run (step quietMainnet) init completed = some ((run (step quietMainnet) init completed).get rfl) :=
    (Option.some_get _).symm
  refine ⟨_,_,ran,rfl,rfl,no_scan_outlives ran (by decide) 0 0 8 _ rfl rfl rfl ?_⟩
  exact creates_below 5 ⟨_,rfl,rfl⟩ ⟨_,rfl,rfl⟩

theorem failed_scan_leaves_the_other : ∃ s task, run (step quietMainnet) init abandoned = some s ∧ s.warmup.spawned[0]? = some task ∧
    s.roots[0]? = some 0 ∧ task.done = true ∧ Relation.ReflTransGen s.forest.Creates 0 8 ∧ s.forest.done 8 = false := by
  have ran : run (step quietMainnet) init abandoned = some ((run (step quietMainnet) init abandoned).get rfl) :=
    (Option.some_get _).symm
  exact ⟨_,_,ran,rfl,rfl,rfl,creates_below 5 ⟨_,rfl,rfl⟩ ⟨_,rfl,rfl⟩,rfl⟩

end BackgroundScans
end YPriceMagic.Server
