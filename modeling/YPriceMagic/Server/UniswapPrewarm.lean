import YPriceMagic.Server.BackgroundScans
import YPriceMagic.Server.WarmupTasks

/-! `_prewarm_uniswap` and its caller, who may cancel it at any step: a load for every router and
below it a scan for every token, each level gathered and then reaped. -/
namespace YPriceMagic.Server
open YPriceMagic.Async YPriceMagic.Async.Coroutine YPriceMagic.Async.Forest

/-- What both levels do with their tasks. -/
def owning (kinds : List Warming) : WarmScript Unit := do
  let owned ← Script.spawnAll kinds
  (Script.gather owned).tryFinally (Script.reap owned)

section
variable (protocols : Protocols) {history : List (Forest.Event Warming Scan.Answer Exn)} {kinds : List Warming} {tasks : List Nat}

/-- What it has performed when it returns. -/
def owned (kinds : List Warming) (tasks : List Nat) : List (Forest.Event Warming Scan.Answer Exn) :=
  spawns kinds tasks++[⟨.await (.gather tasks),.returned ()⟩,⟨.cancel tasks,()⟩,⟨.await (.join tasks),.returned ()⟩]

theorem owning_returning (kinds : List Warming) (history : List (Forest.Event Warming Scan.Answer Exn)) :
    Ensures (fun _ _ => True) Sigma.mk (fun outcome later => outcome = .returned () →
        ∃ tasks, tasks.length = kinds.length ∧ later = history++owned kinds tasks) (owning kinds) history := by
  refine Ensures.bindSpawnAll (fun _ _ _ => trivial) fun tasks sized => ⟨trivial,fun gathered => ⟨trivial,fun _ => ⟨trivial,fun joined => ?_⟩⟩⟩
  cases joined with
  | returned value =>
    intro same
    cases same
    exact ⟨tasks,sized,by simp [owned]⟩
  | raised | cancelled => exact fun same => by contradiction

theorem prewarmUniswap_returning (required : Bool) :
    Ensures (fun _ _ => True) Sigma.mk (fun outcome later => outcome = .returned () →
        ∃ block tasks, tasks.length = ((routers protocols).map (Warming.load · block required)).length ∧
          later = [⟨.await (.call .headBlock),.returned block⟩]++owned ((routers protocols).map (Warming.load · block required)) tasks)
      (prewarmUniswap protocols required) [] := by
  refine ⟨trivial,fun read => ?_⟩
  cases read with
  | returned block =>
    refine (owning_returning ((routers protocols).map (Warming.load · block required)) _).weaken fun outcome later returned same => ?_
    obtain ⟨tasks,sized,performed⟩ := returned same
    exact ⟨block,tasks,sized,performed⟩
  | raised | cancelled => exact fun same => by contradiction

theorem load_returning (router : Router) (block : Nat) :
    Ensures (fun _ _ => True) Sigma.mk (fun outcome later => outcome = .returned () →
        ∃ tasks, tasks.length = ((usdcTokens protocols).map (Warming.consumeRouter router · block)).length ∧
          later = owned ((usdcTokens protocols).map (Warming.consumeRouter router · block)) tasks)
      (load protocols router block true) [] := by
  refine Ensures.tryExcept (owning_returning ((usdcTokens protocols).map (Warming.consumeRouter router · block)) []) ?_ ?_ ?_
  · intro value later _ returned same
    exact returned same
  · exact fun error later _ _ same => by contradiction
  · exact fun later _ _ same => by contradiction

/-- The tasks of one that returned have returned, and there is one for each kind. -/
theorem owned_returned {moves : List WarmAction} {s : WarmForest} {id : Nat} (ran : run (warmStep protocols) [] moves = some s)
    (story : Story (Forest.Answered (warmingCode protocols) moves) s id history) (sized : tasks.length = kinds.length)
    {before : List (Forest.Event Warming Scan.Answer Exn)} (performed : history = before++owned kinds tasks)
    (none_before : ∀ kind task, ⟨.spawn kind,task⟩ ∉ before) :
    (∀ task, s.Creates id task → s.outcome task = some (.returned ())) ∧
    ∀ kind ∈ kinds, ∃ (task : Nat) (child : Node Warming Scan.Answer Exn), s[task]? = some child ∧ child.parent = some id ∧ child.kind = kind := by
  subst performed
  have returned := gathered_returned ran (story.known ⟨.await (.gather tasks),.returned ()⟩ (by simp [owned]))
  refine ⟨fun task ⟨child,found,mine⟩ => ?_,fun kind member => ?_⟩
  · obtain ⟨kind,spawned⟩ := story.created task child found mine
    refine returned task ?_
    rcases List.mem_append.mp spawned with early | late
    · exact absurd early (none_before kind task)
    · rcases List.mem_append.mp late with here | after
      · exact mem_of_spawns here
      · simp at after
  · obtain ⟨task,_,spawned⟩ := mem_spawns sized member
    obtain ⟨child,found,same,mine⟩ := story.known _ (List.mem_append_right _ (List.mem_append_left _ spawned))
    exact ⟨task,child,found,mine,same⟩

/-- The kinds of tasks below the caller. -/
def Within (required : Bool) : Warming → Prop
  | .prewarmUniswap mode | .load _ _ mode => mode = required
  | .consumeRouter _ _ _ => True
  | _ => False

theorem within_own {required : Bool} (kind : Warming) (within : Within required kind) : keepsToOwn kind = true := by
  cases kind with
  | prewarmWithShutdown | runPrewarm => exact within.elim
  | _ => rfl

theorem within_fosters {required : Bool} (kind child : Warming) (within : Within required kind) (fosters : Fosters kind child) :
    Within required child := by
  cases kind with
  | prewarmUniswap mode =>
    obtain ⟨router,block,rfl⟩ := fosters
    exact within
  | load router block mode =>
    obtain ⟨token,rfl⟩ := fosters
    trivial
  | backgroundPrewarm | prewarmBalancer => exact within.elim
  | _ => exact fosters.elim

theorem within_closes {required : Bool} {kind : Warming} (within : Within required kind) : Closes false (warmingCode protocols kind) [] := by
  cases kind with
  | prewarmUniswap mode => exact prewarmUniswap_closes protocols mode
  | load router block mode => exact load_closes protocols router block mode
  | consumeRouter router token block => exact consume_closes (Pending.start false) _
  | _ => exact within.elim

namespace UniswapPrewarm

/-- The caller is task 0. -/
inductive Move
  | cancelCaller
  | enter (id : Nat)
  | answer (id : Nat) (awaited : Await Scan) (reply : awaited.Reply Scan.Answer Exn)

def Move.action : Move → WarmAction
  | .cancelCaller => .cancel 0
  | .enter id => .enter id
  | .answer id awaited reply => .answer id awaited reply

def schedule (required : Bool) (moves : List Move) : List WarmAction :=
  .start (.prewarmUniswap required)::moves.map Move.action

theorem schedule_snoc (required : Bool) (moves : List Move) (move : Move) :
    schedule required (moves++[move]) = schedule required moves++[move.action] := by simp [schedule]

section
variable {protocols} {required : Bool} {moves : List Move} {s : WarmForest}

theorem schedule_within {kind : Warming} (started : .start kind ∈ schedule required moves) : Within required kind := by
  rcases List.mem_cons.mp started with same | later
  · cases same
    rfl
  · obtain ⟨move,_,same⟩ := List.mem_map.mp later
    cases move <;> cases same

theorem run_kinds (ran : run (warmStep protocols) [] (schedule required moves) = some s) {id : Nat} {node : Node Warming Scan.Answer Exn}
    (found : s[id]? = some node) : Within required node.kind :=
  run_within (fun kind within => warmingCode_tends protocols kind (within_own kind within)) within_fosters ran
    (fun _ started => schedule_within started) found

theorem run_minded (ran : run (warmStep protocols) [] (schedule required moves) = some s) :
    s.Minded (warmingCode protocols) Fosters reaping :=
  fun _ node found => warmingCode_tends protocols node.kind (within_own node.kind (run_kinds ran found))

theorem caller_kind (ran : run (warmStep protocols) [] (schedule required moves) = some s) :
    ∃ node : Node Warming Scan.Answer Exn, s[0]? = some node ∧ node.kind = .prewarmUniswap required ∧ node.parent = none := by
  obtain ⟨first,started,rest⟩ := run_cons_some ran
  cases Option.some.inj started
  have alone : run (warmStep protocols) [] [.start (.prewarmUniswap required)] = some (start [] (.prewarmUniswap required)) := rfl
  obtain ⟨node,found,kind,parent,_⟩ := run_extends alone rest 0 _ rfl
  exact ⟨node,found,kind,parent⟩

theorem load_kind (ran : run (warmStep protocols) [] (schedule required moves) = some s) {load : Nat}
    {child : Node Warming Scan.Answer Exn} (found : s[load]? = some child) (mine : child.parent = some 0) :
    ∃ router block, child.kind = .load router block required := by
  obtain ⟨caller,here,kind,_⟩ := caller_kind ran
  have fosters := run_children ran here (run_minded ran 0 caller here) found mine
  rwa [kind] at fosters

theorem scan_kind (ran : run (warmStep protocols) [] (schedule required moves) = some s) {load scan : Nat}
    (created : s.Creates 0 load) {child : Node Warming Scan.Answer Exn} (found : s[scan]? = some child) (mine : child.parent = some load) :
    ∃ router token block, child.kind = .consumeRouter router token block := by
  obtain ⟨loader,here,above⟩ := created
  obtain ⟨router,block,kind⟩ := load_kind ran here above
  have fosters := run_children ran here (run_minded ran load loader here) found mine
  rw [kind] at fosters
  obtain ⟨token,same⟩ := fosters
  exact ⟨router,token,block,same⟩

theorem no_scan_left (ran : run (warmStep protocols) [] (schedule required moves) = some s) (ended : s.done 0 = true) {task : Nat}
    (below : Relation.ReflTransGen s.Creates 0 task) : s.done task = true :=
  have met : Throughout (warmStep protocols) (Settling fun _ => false) [] (schedule required moves) := throughout_relying_on_none _ _
  below_done (fun _ _ found => within_closes protocols (run_kinds ran found)) ran met ended below

section
variable {id : Nat} {node : Node Warming Scan.Answer Exn}

theorem prewarmUniswap_complete (ran : run (warmStep protocols) [] (schedule true moves) = some s) (here : s[id]? = some node)
    (kind : node.kind = .prewarmUniswap true) (ended : node.outcome = some (.returned ())) :
    (∀ task, s.Creates id task → s.outcome task = some (.returned ())) ∧
    ∃ block, ∀ router ∈ routers protocols, ∃ (load : Nat) (loader : Node Warming Scan.Answer Exn), s[load]? = some loader ∧
      loader.parent = some id ∧ loader.kind = .load router block true := by
  obtain ⟨history,leads | early,story⟩ := ended_story ran here ended
  · rw [kind] at leads
    obtain ⟨block,tasks,sized,performed⟩ := (prewarmUniswap_returning protocols true).leads leads rfl
    obtain ⟨returned,created⟩ := owned_returned protocols ran story sized performed (by simp)
    exact ⟨returned,block,fun router member => created _ (List.mem_map_of_mem member)⟩
  · simp at early

theorem load_complete (ran : run (warmStep protocols) [] (schedule true moves) = some s) (here : s[id]? = some node)
    {router : Router} {block : Nat} (kind : node.kind = .load router block true) (ended : node.outcome = some (.returned ())) :
    (∀ task, s.Creates id task → s.outcome task = some (.returned ())) ∧
    ∀ token ∈ usdcTokens protocols, ∃ (scan : Nat) (child : Node Warming Scan.Answer Exn), s[scan]? = some child ∧
      child.parent = some id ∧ child.kind = .consumeRouter router token block := by
  obtain ⟨history,leads | early,story⟩ := ended_story ran here ended
  · rw [kind] at leads
    obtain ⟨tasks,sized,performed⟩ := (load_returning protocols router block).leads leads rfl
    obtain ⟨returned,created⟩ := owned_returned protocols ran story sized (performed.trans (List.nil_append _).symm) (by simp)
    exact ⟨returned,fun token member => created _ (List.mem_map_of_mem member)⟩
  · simp at early

theorem created_returned (ran : run (warmStep protocols) [] (schedule true moves) = some s) (returned : s.outcome id = some (.returned ()))
    {task : Nat} (created : s.Creates id task) : s.outcome task = some (.returned ()) := by
  obtain ⟨node,here,ended⟩ := outcome_some.mp returned
  have within := run_kinds ran here
  cases kind : node.kind with
  | prewarmUniswap mode =>
    rw [kind] at within
    cases within
    exact (prewarmUniswap_complete ran here kind ended).1 task created
  | load router block mode =>
    rw [kind] at within
    cases within
    exact (load_complete ran here kind ended).1 task created
  | consumeRouter =>
    obtain ⟨child,found,mine⟩ := created
    have fosters := run_children ran here (run_minded ran id node here) found mine
    rw [kind] at fosters
    exact fosters.elim
  | _ =>
    rw [kind] at within
    exact within.elim

theorem all_returned (ran : run (warmStep protocols) [] (schedule true moves) = some s) (returned : s.outcome 0 = some (.returned ()))
    {task : Nat} (below : Relation.ReflTransGen s.Creates 0 task) : s.outcome task = some (.returned ()) := by
  induction below with
  | refl => exact returned
  | tail _ created ih => exact created_returned ran ih created

theorem all_scanned (ran : run (warmStep protocols) [] (schedule true moves) = some s) (returned : s.outcome 0 = some (.returned ()))
    {router : Router} (listed : router ∈ routers protocols) {token : String} (stable : token ∈ usdcTokens protocols) :
    ∃ (load scan block : Nat) (child : Node Warming Scan.Answer Exn), s.Creates 0 load ∧ s[scan]? = some child ∧
      child.parent = some load ∧ child.kind = .consumeRouter router token block := by
  obtain ⟨caller,here,kind,_⟩ := caller_kind ran
  have ended : caller.outcome = some (.returned ()) := by simpa [Forest.outcome,here] using returned
  obtain ⟨_,block,loads⟩ := prewarmUniswap_complete ran here kind ended
  obtain ⟨load,loader,found,above,loading⟩ := loads router listed
  obtain ⟨same,there,finished⟩ := outcome_some.mp (created_returned ran returned ⟨loader,found,above⟩)
  cases Option.some.inj (found.symm.trans there)
  obtain ⟨scan,child,here,mine,scanning⟩ := (load_complete ran found loading finished).2 token stable
  exact ⟨load,scan,block,child,⟨loader,found,above⟩,here,mine,scanning⟩

end
end
end UniswapPrewarm
end
end YPriceMagic.Server
