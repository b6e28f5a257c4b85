import YPriceMagic.Server.BackgroundScans
import YPriceMagic.Server.WarmupTasks

/-! The loaders of the background warm-up against each other. Its task group cancels all of them
once one raises, and the Uniswap loader reads the head block where nothing catches that. -/
namespace YPriceMagic.Server
open YPriceMagic.Async YPriceMagic.Async.Coroutine YPriceMagic.Async.Forest YPriceMagic.Runtime

section
variable {protocols : Protocols}

/-- Where an exception comes from that leaves the Uniswap loader. -/
theorem prewarmUniswap_raising (required : Bool) :
    Ensures (fun _ _ => True) Sigma.mk (fun outcome history => ∀ error, outcome = .raised error →
        ⟨.await (.call .headBlock),.raised error⟩ ∈ history ∨
        ∃ owned : List Nat, (∀ task ∈ owned, ∃ router block, ⟨.spawn (.load router block required),task⟩ ∈ history) ∧
          (⟨.await (.gather owned),.raised error⟩ ∈ history ∨ ⟨.await (.join owned),.raised error⟩ ∈ history))
      (prewarmUniswap protocols required) [] := by
  refine ⟨trivial,fun read => ?_⟩
  cases read with
  | cancelled => exact fun error same => by contradiction
  | raised failure =>
    intro error same
    cases same
    exact Or.inl (List.mem_singleton.mpr rfl)
  | returned block =>
    refine Ensures.bindSpawnAll (fun _ _ _ => trivial) fun owned sized => ⟨trivial,fun gathered => ⟨trivial,fun _ => ⟨trivial,fun joined => ?_⟩⟩⟩
    have loads (read gather cancel join : List (Forest.Event Warming Scan.Answer Exn)) : ∀ task ∈ owned, ∃ router head,
        (⟨.spawn (.load router head required),task⟩ : Forest.Event Warming Scan.Answer Exn) ∈
          read++spawns ((routers protocols).map (Warming.load · block required)) owned++gather++cancel++join := by
      intro task member
      obtain ⟨kind,among,known⟩ := spawns_within read sized member
      obtain ⟨router,_,rfl⟩ := List.mem_map.mp among
      exact ⟨router,block,List.mem_append_left _ (List.mem_append_left _ (List.mem_append_left _ known))⟩
    cases joined with
    | returned value =>
      intro error same
      cases same
      exact Or.inr ⟨owned,loads _ _ _ _,Or.inl (by simp)⟩
    | raised failure =>
      intro error same
      cases same
      exact Or.inr ⟨owned,loads _ _ _ _,Or.inr (by simp)⟩
    | cancelled => exact fun error same => by contradiction

section
variable {moves : List WarmAction} {s : WarmForest} {id : Nat} {node : Node Warming Scan.Answer Exn}

/-- A loader that is not required raises what the read of the head block raised, and nothing else. -/
theorem prewarmUniswap_raised (ran : run (warmStep protocols) [] moves = some s) (here : s[id]? = some node)
    (uniswap : node.kind = .prewarmUniswap false) {error : Exn} (ended : node.outcome = some (.raised error)) :
    Forest.Answered (warmingCode protocols) moves id (.call .headBlock) (.raised error) := by
  obtain ⟨history,leads | early,story⟩ := ended_story ran here ended
  · rw [uniswap] at leads
    rcases (prewarmUniswap_raising false).leads leads error rfl with read | ⟨owned,loads,gathered | joined⟩
    · exact (story.known _ read).resolve_right (·.elim)
    · obtain ⟨middle,before,extended,_,admitted⟩ := ((story.known _ gathered).resolve_right (·.elim)).earlier ran
      simp only [admits,List.any_eq_true,decide_eq_true_eq] at admitted
      obtain ⟨task,member,failed⟩ := admitted
      obtain ⟨router,block,spawned⟩ := loads task member
      obtain ⟨child,found,kind,_⟩ := story.known _ spawned
      obtain ⟨same,there,raised⟩ := outcome_some.mp (extended.outcome failed)
      cases Option.some.inj (found.symm.trans there)
      refine absurd raised (quiet_never_raised ran found ?_ error)
      rw [kind]
      exact load_quiet protocols router block
    · obtain ⟨middle,before,_,_,admitted⟩ := ((story.known _ joined).resolve_right (·.elim)).earlier ran
      simp only [admits,Bool.and_eq_true,decide_eq_true_eq] at admitted
      cases requested : before.cancelRequested <;> simp [requested] at admitted
  · simp at early

end
end

namespace BackgroundScans

def failsToRead : (awaited : Await Scan) → awaited.Reply Scan.Answer Exn → Bool
  | .call .headBlock,.raised _ => true
  | _,_ => false

def readsUnguarded (forest : WarmForest) (id : Nat) : Bool := forest[id]?.any fun node => node.kind = .prewarmUniswap false

/-- The Uniswap loader gets to know the head block; the Balancer loader may fail to. -/
def HeadRead (s : BackgroundScans) : Action → Prop
  | .answer id awaited reply => failsToRead awaited reply = true → readsUnguarded s.forest id = false
  | _ => True

instance decidableHeadRead (s : BackgroundScans) : (action : Action) → Decidable (s.HeadRead action)
  | .answer id awaited reply => inferInstanceAs (Decidable (failsToRead awaited reply = true → readsUnguarded s.forest id = false))
  | .pause | .resume | .cancel | .finished _ | .enter _ | .abort _ => inferInstanceAs (Decidable True)

/-- The same of a step of the forest, in which only warm-ups are started. -/
def Reads (forest : WarmForest) : WarmAction → Prop
  | .start kind => kind = .backgroundPrewarm
  | .answer id awaited reply => failsToRead awaited reply = true → readsUnguarded forest id = false
  | _ => True

theorem reads_of_headRead (s : BackgroundScans) (action : Action) (move : WarmAction) (met : s.HeadRead action)
    (moves : s.Moves action move) : Reads s.forest move := by
  cases action with
  | answer id awaited reply =>
    cases moves
    exact met
  | pause | cancel =>
    obtain ⟨root,_,rfl⟩ := moves
    trivial
  | resume | finished =>
    cases moves
    rfl
  | enter | abort =>
    cases moves
    trivial

section
variable {protocols : Protocols}

def Rooted (s : BackgroundScans) : Prop :=
  ∀ root ∈ s.roots, ∃ node : Node Warming Scan.Answer Exn, s.forest[root]? = some node ∧ node.kind = .backgroundPrewarm ∧ node.parent = none

section
variable {actions : List Action} {s next : BackgroundScans}

theorem step_extends {action : Action} (ran : run (step protocols) init actions = some s)
    (stepped : s.step protocols action = some next) : s.forest.Extends next.forest := by
  have anyhow : Throughout (step protocols) (fun _ _ => True) init actions := throughout_of_all (fun _ _ => trivial) init actions
  have traced : s.Traced protocols fun _ _ => True := run_traced (fun _ _ _ _ _ => trivial) anyhow ran
  obtain ⟨moves,moved,_⟩ := traced
  rcases step_moves stepped with same | ⟨move,_,further⟩
  · rw [same]
    exact Extends.refl s.forest
  · exact run_extends moved ((run_single _ _).trans further)

theorem run_rooted (ran : run (step protocols) init actions = some s) : s.Rooted := by
  refine run_history (fun _ s => s.Rooted) (by simp [Rooted,init]) (fun earlier before action after ranBefore rooted stepped => ?_) ran
  have kept : ∀ root ∈ before.roots, ∃ node : Node Warming Scan.Answer Exn, after.forest[root]? = some node ∧
      node.kind = .backgroundPrewarm ∧ node.parent = none := by
    intro root member
    obtain ⟨node,here,kind,parent⟩ := rooted root member
    obtain ⟨later,there,same,still,_⟩ := step_extends ranBefore stepped root node here
    exact ⟨later,there,same.trans kind,still.trans parent⟩
  rcases step_roots stepped with same | ⟨grown,started⟩
  · intro root member
    exact kept root (by rwa [same] at member)
  · intro root member
    rw [grown] at member
    rcases List.mem_append.mp member with old | new
    · exact kept root old
    · cases List.mem_singleton.mp new
      rw [started]
      exact ⟨_,List.getElem?_concat_length,rfl,rfl⟩

/-- A loader is asked to cancel, or its warm-up is, only when `BackgroundWarmup` asks. -/
def Heeded (s : BackgroundScans) : Prop :=
  ∀ (i root id : Nat) (task : Task Unit Unit), s.warmup.spawned[i]? = some task → s.roots[i]? = some root →
    (id = root ∨ s.forest.Creates root id) → s.forest.Asked id → task.cancelRequested = true

theorem run_reads (ran : run (step protocols) init actions = some s) (met : Throughout (step protocols) HeadRead init actions) :
    s.Traced protocols Reads := run_traced reads_of_headRead met ran

theorem started_warmups {moves : List WarmAction} {forest : WarmForest} (moved : run (warmStep protocols) [] moves = some forest)
    (reads : Throughout (warmStep protocols) Reads [] moves) {kind : Warming} (started : .start kind ∈ moves) : kind = .backgroundPrewarm := by
  obtain ⟨before,after,rfl⟩ := List.append_of_mem started
  obtain ⟨middle,ranBefore,_⟩ := run_append_some moved
  exact reads.among ranBefore

theorem reads_minded {moves : List WarmAction} {forest : WarmForest} (moved : run (warmStep protocols) [] moves = some forest)
    (reads : Throughout (warmStep protocols) Reads [] moves) : forest.Minded (warmingCode protocols) Fosters reaping := by
  intro id node found
  have own : keepsToOwn node.kind = true :=
    run_within (warmingCode_tends protocols) fosters_own moved (fun kind started => by rw [started_warmups moved reads started]; rfl) found
  exact warmingCode_tends protocols node.kind own

/-- No loader of the background raises, where the head block is read. -/
theorem loader_never_raised {moves : List WarmAction} {forest : WarmForest} (moved : run (warmStep protocols) [] moves = some forest)
    (reads : Throughout (warmStep protocols) Reads [] moves) {id : Nat} {node : Node Warming Scan.Answer Exn}
    (found : forest[id]? = some node) (loader : node.kind ∈ backgroundLoaders) (error : Exn) : node.outcome ≠ some (.raised error) := by
  by_cases uniswap : node.kind = .prewarmUniswap false
  · intro raised
    obtain ⟨before,after,middle,earlier,rfl,ranBefore,there,_⟩ := prewarmUniswap_raised moved found uniswap raised
    obtain ⟨between,ranAgain,ranRest⟩ := run_append_some moved
    cases Option.some.inj (ranBefore.symm.trans ranAgain)
    obtain ⟨later,same,kind,_⟩ := run_extends ranBefore ranRest id earlier there
    cases Option.some.inj (found.symm.trans same)
    have read : readsUnguarded middle id = false := reads.among ranBefore rfl
    simp [readsUnguarded,there,← kind,uniswap] at read
  · refine quiet_never_raised moved found ?_ error
    simp only [backgroundLoaders,List.mem_cons,List.not_mem_nil,or_false] at loader
    rcases loader with same | same | same | same | same | same
    · exact absurd same uniswap
    all_goals
      rw [same]
      exact swallow_quiet _

/-- Below the task of a warm-up, a task that it created itself is asked by it alone. -/
theorem asked_by_root {forest : WarmForest} {root id other : Nat} {node : Node Warming Scan.Answer Exn} (here : forest[root]? = some node)
    (top : node.parent = none) (among : other = root ∨ forest.Creates root other) (below : Relation.TransGen forest.Creates id other) :
    id = root := by
  obtain ⟨creator,above,created⟩ := Relation.TransGen.tail'_iff.mp below
  rcases among with rfl | mine
  · obtain ⟨same,there,parent⟩ := created
    cases Option.some.inj (here.symm.trans there)
    simp [top] at parent
  · cases created.unique mine
    exact above_root here top above

theorem group_never_raised {moves : List WarmAction} {forest : WarmForest} (moved : run (warmStep protocols) [] moves = some forest)
    (reads : Throughout (warmStep protocols) Reads [] moves) {root : Nat} {top : Node Warming Scan.Answer Exn}
    (here : forest[root]? = some top) (kind : top.kind = .backgroundPrewarm) {tasks : List Nat}
    {resume : (Await.group tasks : Await Scan).Reply Scan.Answer Exn → WarmScript Unit}
    (waiting : top.standing = .suspended (.group tasks) resume) : forest.raised tasks = [] := by
  have minded := reads_minded moved reads
  rw [Forest.raised,List.filterMap_eq_nil_iff]
  intro task member
  obtain ⟨child,found,mine⟩ := run_wired moved minded root top _ resume here waiting task member
  have loader := run_children moved here (minded root top here) found mine
  rw [kind] at loader
  have never := loader_never_raised moved reads found loader
  cases ended : child.outcome with
  | none => simp [Forest.outcome,found,ended]
  | some outcome =>
    cases outcome with
    | raised error => exact absurd ended (never error)
    | returned | cancelled => simp [Forest.outcome,found,ended]

theorem top_undone {forest : WarmForest} {moves : List WarmAction} (moved : run (warmStep protocols) [] moves = some forest) {root id : Nat}
    {top : Node Warming Scan.Answer Exn} (here : forest[root]? = some top) (kind : top.kind = .backgroundPrewarm)
    (among : id = root ∨ forest.Creates root id) (running : forest.done id = false) : forest.done root = false := by
  by_contra ended
  rw [Bool.not_eq_false] at ended
  have closes : ∀ node : Node Warming Scan.Answer Exn, forest[root]? = some node → Closes false (warmingCode protocols node.kind) [] := by
    intro node there
    cases Option.some.inj (here.symm.trans there)
    rw [kind]
    exact backgroundPrewarm_closes
  rcases among with rfl | ⟨child,found,mine⟩
  · simp [ended] at running
  · have met : Throughout (warmStep protocols) (Settling fun _ => false) [] moves := throughout_relying_on_none moves []
    simp [created_done closes moved met ended found mine] at running

/-- Whom `pause` or `cancel` newly asks is the task they cancel or what that waits for. -/
theorem cancelTask_asks {s : BackgroundScans} (linked : s.Linked) {moves : List WarmAction} (moved : run (warmStep protocols) [] moves = some s.forest)
    {i root current id : Nat} {task : Task Unit Unit} {top : Node Warming Scan.Answer Exn} (tracked : s.warmup.cancelTask[i]? = some task)
    (rooted : s.roots[i]? = some root) (here : s.forest[root]? = some top) (kind : top.kind = .backgroundPrewarm)
    (same : current = root) (aimed : s.warmup.task.bind (s.roots[·]?) = some current) (among : id = root ∨ s.forest.Creates root id)
    (running : s.forest.done id = false) : task.cancelRequested = true := by
  subst same
  obtain ⟨j,now,there⟩ := Option.bind_eq_some_iff.mp aimed
  have place : j = i :=
    (List.getElem?_inj (List.getElem?_eq_some_iff.mp there).1 linked.distinct).mp (there.trans rooted.symm)
  subst place
  rw [BackgroundWarmup.cancelTask_getElem?,if_pos now] at tracked
  obtain ⟨before,found,rfl⟩ := Option.map_eq_some_iff.mp tracked
  obtain ⟨node,known,tracks⟩ := linked.tracks j current before found rooted
  refine before.cancel_requested ?_
  by_contra ended
  rw [Bool.not_eq_false] at ended
  have undone := top_undone moved here kind among running
  rw [done_eq known,tracks.done ended] at undone
  contradiction

theorem among_earlier {forest later : WarmForest} (extended : forest.Extends later) {root id : Nat} {node : Node Warming Scan.Answer Exn}
    (here : forest[id]? = some node) (among : id = root ∨ later.Creates root id) : id = root ∨ forest.Creates root id := by
  rcases among with same | ⟨child,found,mine⟩
  · exact Or.inl same
  · obtain ⟨same,again,_,parent,_⟩ := extended id node here
    cases Option.some.inj (found.symm.trans again)
    exact Or.inr ⟨node,here,parent.symm.trans mine⟩

theorem requested_kept {action : Action} (linked : s.Linked) (stepped : s.step protocols action = some next) {i root : Nat}
    (rooted : s.roots[i]? = some root) {task : Task Unit Unit} (tracked : next.warmup.spawned[i]? = some task) :
    ∃ earlier, s.warmup.spawned[i]? = some earlier ∧ (earlier.cancelRequested = true → task.cancelRequested = true) := by
  have inside : i < s.warmup.spawned.length := by
    rw [← linked.sized]
    exact (List.getElem?_eq_some_iff.mp rooted).1
  refine ⟨_,List.getElem?_eq_getElem inside,?_⟩
  rcases (step_cases stepped).1 with same | ⟨made,worked⟩
  · rw [same,List.getElem?_eq_getElem inside] at tracked
    cases Option.some.inj tracked
    exact id
  · obtain ⟨later,found,still⟩ := BackgroundWarmup.step_requested worked (List.getElem?_eq_getElem inside)
    cases Option.some.inj (tracked.symm.trans found)
    exact still

theorem step_heeded {action : Action} (ran : run (step protocols) init actions = some s)
    (met : Throughout (step protocols) HeadRead init actions) (heeded : s.Heeded) (stepped : s.step protocols action = some next) :
    next.Heeded := by
  have linked : s.Linked := run_preserves Linked step_linked init_linked ran
  have extended := step_extends ran stepped
  obtain ⟨moves,moved,reads⟩ := run_reads ran met
  intro i root id task tracked rooted among asked
  have earlier {node : Node Warming Scan.Answer Exn} (here : s.forest[id]? = some node) := among_earlier extended here among
  have place : s.roots[i]? = some root ∨ (root = s.forest.length ∧ next.forest = s.forest.start .backgroundPrewarm) := by
    rcases step_roots stepped with same | ⟨grown,started⟩
    · exact Or.inl (by rwa [same] at rooted)
    · rw [grown] at rooted
      exact (mem_snoc_table rooted).imp_right fun last => ⟨last.2,started⟩
  rcases place with before | ⟨rfl,started⟩
  · obtain ⟨_,tracked',kept⟩ := requested_kept linked stepped before tracked
    have asked_before (there : s.forest.Asked id) : task.cancelRequested = true := by
      obtain ⟨node,here,requested⟩ := there
      exact kept (heeded i root id _ tracked' before (earlier here) ⟨node,here,requested⟩)
    obtain ⟨top,here,kind,parent⟩ := run_rooted ran root (List.mem_of_getElem? before)
    have below_root {id' : Nat} (below : Relation.TransGen s.forest.Creates id' id) : id' = root := by
      obtain ⟨_,_,node,found,_⟩ := Relation.TransGen.tail'_iff.mp below
      exact asked_by_root here parent (earlier found) below
    rcases step_moves stepped with same | ⟨move,made,further⟩
    · exact asked_before (by rwa [same] at asked)
    · have minded := reads_minded moved reads
      rcases step_asks moved minded further asked with there | ⟨running,reason⟩
      · exact asked_before there
      · cases action with
        | pause | cancel =>
          obtain ⟨current,aimed,rfl⟩ := made
          cases Option.some.inj stepped
          obtain ⟨j,_,held⟩ := Option.bind_eq_some_iff.mp aimed
          obtain ⟨base,there,_,single⟩ := run_rooted ran current (List.mem_of_getElem? held)
          rcases Relation.reflTransGen_iff_eq_or_transGen.mp reason with rfl | below
          · rcases earlier there with rfl | ⟨same,found,mine⟩
            · exact cancelTask_asks linked moved tracked before here kind rfl aimed (Or.inl rfl) running
            · cases Option.some.inj (there.symm.trans found)
              simp [single] at mine
          · obtain ⟨_,_,node,found,_⟩ := Relation.TransGen.tail'_iff.mp below
            exact cancelTask_asks linked moved tracked before here kind (below_root below) aimed (earlier found) running
        | resume | finished =>
          cases made
          exact reason.elim
        | enter | answer =>
          cases made
          obtain ⟨⟨node,found,reaps⟩,below⟩ := reason
          obtain ⟨later,there,_,still,_⟩ := extended root top here
          cases asked_by_root there (still.trans parent) among below
          cases Option.some.inj (here.symm.trans found)
          simp [kind,reaping] at reaps
        | abort =>
          cases made
          obtain ⟨⟨node,tasks,resume,found,waiting,permitted⟩,below⟩ := reason
          cases below_root below
          cases Option.some.inj (here.symm.trans found)
          rcases permitted with requested | raised
          · exact kept (heeded i root root _ tracked' before (Or.inl rfl) ⟨top,here,requested⟩)
          · exact absurd (group_never_raised moved reads here kind waiting) raised
  · rw [started] at asked
    obtain ⟨node,found,_⟩ := snoc_asked rfl asked
    have bound := (List.getElem?_eq_some_iff.mp found).1
    rcases earlier found with rfl | ⟨same,there,mine⟩
    · omega
    · have above := (run_recorded moved).parents id _ same there mine
      omega

theorem run_heeded (ran : run (step protocols) init actions = some s) (met : Throughout (step protocols) HeadRead init actions) :
    s.Heeded := by
  refine run_history (fun actions s => Throughout (step protocols) HeadRead init actions → s.Heeded) ?_ ?_ ran met
  · intro _ i root id task tracked
    simp [init,BackgroundWarmup.init] at tracked
  · intro earlier before action after ranBefore held stepped meets
    have first := (throughout_append.mp meets).1
    exact step_heeded ranBefore first (held first) stepped

/-- Whatever a loader fails at, the others are asked to cancel only when the warm-up itself is,
and the warm-up is not over before they are. -/
theorem loaders_isolated (ran : run (step protocols) init actions = some s) (met : Throughout (step protocols) HeadRead init actions)
    (i root loader : Nat) (task : Task Unit Unit) (child : Node Warming Scan.Answer Exn) (tracked : s.warmup.spawned[i]? = some task)
    (rooted : s.roots[i]? = some root) (found : s.forest[loader]? = some child) (mine : child.parent = some root) :
    (child.cancelRequested = true → task.cancelRequested = true) ∧ (task.done = true → child.done = true) := by
  have linked : s.Linked := run_preserves Linked step_linked init_linked ran
  obtain ⟨moves,moved,_⟩ := run_reads ran met
  obtain ⟨top,here,kind,_⟩ := run_rooted ran root (List.mem_of_getElem? rooted)
  refine ⟨fun requested => run_heeded ran met i root loader task tracked rooted (Or.inr ⟨child,found,mine⟩) ⟨child,found,requested⟩,fun ended => ?_⟩
  obtain ⟨node,there,tracks⟩ := linked.tracks i root task tracked rooted
  by_contra running
  rw [Bool.not_eq_true] at running
  have undone := top_undone moved here kind (Or.inr ⟨child,found,mine⟩) ((done_eq found).trans running)
  rw [done_eq there,tracks.done ended] at undone
  contradiction

end
end

/-- The Compound loader fails, and so does the Balancer loader when it reads the head block. -/
def contained : List Action := [.resume,.enter 0,.enter 1,.enter 2,.enter 3,.enter 4,.enter 5,.enter 6,
  .answer 1 (.call .headBlock) (.returned (7 : Nat)),.answer 1 (.gather []) (.returned ()),.answer 1 (.join []) (.returned ()),
  .answer 2 (.call .compoundMarkets) (.raised (.value "")),.answer 5 (.call .balancerVersions) (.returned ()),
  .answer 5 (.call .balancerV2) (.returned (some 2 : Option Nat)),.answer 5 (.call .headBlock) (.raised (.value "")),
  .answer 3 (.call .chainlinkFeeds) (.returned ()),.answer 4 (.call .aavePools) (.returned ()),
  .answer 6 (.call .dieselTokens) (.returned ()),.answer 0 (.group [1,2,3,4,5,6]) (.returned ())]

theorem loaders_isolated_contained : ∃ s task child, run (step quietMainnet) init contained = some s ∧ s.warmup.spawned[0]? = some task ∧
    s.forest[3]? = some child ∧ (child.cancelRequested = true → task.cancelRequested = true) ∧ child.done = true := by
  have ran : run (step quietMainnet) init contained = some ((run (step quietMainnet) init contained).get rfl) :=
    (Option.some_get _).symm
  have isolated := loaders_isolated ran (by decide) 0 0 3 _ _ rfl rfl rfl rfl
  exact ⟨_,_,_,ran,rfl,rfl,isolated.1,isolated.2 rfl⟩

def unguarded : List Action := [.resume,.enter 0,.enter 1,.enter 2,.enter 3,.enter 4,.enter 5,.enter 6,
  .answer 1 (.call .headBlock) (.raised (.value "")),.abort 0]

/-- Nobody asked the warm-up to cancel. -/
theorem head_block_failure_cancels_the_others : ∃ s task, run (step quietMainnet) init unguarded = some s ∧
    s.warmup.spawned[0]? = some task ∧ s.roots[0]? = some 0 ∧ task.cancelRequested = false ∧
    ∀ loader ∈ [2,3,4,5,6], ∃ child, s.forest[loader]? = some child ∧ child.parent = some 0 ∧ child.cancelRequested = true := by
  have ran : run (step quietMainnet) init unguarded = some ((run (step quietMainnet) init unguarded).get rfl) :=
    (Option.some_get _).symm
  refine ⟨_,_,ran,rfl,rfl,rfl,fun loader among => ?_⟩
  simp only [List.mem_cons,List.not_mem_nil,or_false] at among
  rcases among with rfl | rfl | rfl | rfl | rfl <;> exact ⟨_,rfl,rfl,rfl⟩

end BackgroundScans
end YPriceMagic.Server
