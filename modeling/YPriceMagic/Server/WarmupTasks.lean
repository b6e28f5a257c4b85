import YPriceMagic.Async.Tending
import YPriceMagic.Server.RequiredPrewarm

/-! What the tasks of a warm-up create, cancel and raise, kind by kind. -/
namespace YPriceMagic.Server
open YPriceMagic.Async YPriceMagic.Async.Coroutine YPriceMagic.Async.Forest

def backgroundLoaders : List Warming :=
  [.prewarmUniswap false,.prewarmCompound,.prewarmChainlink,.prewarmAave,.prewarmBalancer,.prewarmGearbox]

/-- The kinds of tasks that a task creates. -/
def Fosters : Warming → Warming → Prop
  | .backgroundPrewarm,kind => kind ∈ backgroundLoaders
  | .prewarmUniswap required,kind => ∃ router block, kind = .load router block required
  | .load router block _,kind => ∃ token, kind = .consumeRouter router token block
  | .prewarmBalancer,kind => ∃ vault block, kind = .consumeVault vault block
  | _,_ => False

/-- The kinds that cancel tasks they created. -/
def reaping : Warming → Bool
  | .prewarmUniswap _ | .load _ _ _ => true
  | _ => false

/-- The kinds that await only tasks they created; the race of the required part is not. -/
def keepsToOwn : Warming → Bool
  | .prewarmWithShutdown | .runPrewarm _ => false
  | _ => true

theorem fosters_own (kind child : Warming) (own : keepsToOwn kind = true) (fosters : Fosters kind child) : keepsToOwn child = true := by
  cases kind with
  | backgroundPrewarm =>
    simp only [Fosters,backgroundLoaders,List.mem_cons,List.not_mem_nil,or_false] at fosters
    rcases fosters with rfl | rfl | rfl | rfl | rfl | rfl <;> rfl
  | prewarmUniswap | prewarmBalancer =>
    obtain ⟨_,_,rfl⟩ := fosters
    rfl
  | load =>
    obtain ⟨_,rfl⟩ := fosters
    rfl
  | prewarmWithShutdown | runPrewarm => contradiction
  | _ => exact fosters.elim

section
variable (protocols : Protocols) {children : Warming → Prop} {reaps : Bool} {history : List (Forest.Event Warming Scan.Answer Exn)}

theorem swallow_tends {body : WarmScript Unit} (tends : Tends children reaps body history) : Tends children reaps (swallow body) history :=
  tends.tryExcept fun _ _ => trivial

theorem ask_tends (scan : Scan) (history : List (Forest.Event Warming Scan.Answer Exn)) : Tends children reaps (ask scan) history :=
  Tends.call scan history

theorem consume_tends (scan : Scan) : Tends children reaps (consume scan) history :=
  (ask_tends scan history).bind fun _ _ => trivial

theorem load_tends (router : Router) (block : Nat) (required : Bool) :
    Tends (Fosters (.load router block required)) true (load protocols router block required) [] := by
  refine Tends.tryExcept (Tends.bindSpawnAll ?_ fun _ _ spawned => spawned.gatherReap) fun error later => ?_
  · intro kind member
    obtain ⟨token,_,rfl⟩ := List.mem_map.mp member
    exact ⟨token,rfl⟩
  · split <;> trivial

theorem prewarmUniswap_tends (required : Bool) :
    Tends (Fosters (.prewarmUniswap required)) true (prewarmUniswap protocols required) [] := by
  refine (ask_tends .headBlock []).bind fun block _ => Tends.bindSpawnAll ?_ fun _ _ spawned => spawned.gatherReap
  intro kind member
  obtain ⟨router,_,rfl⟩ := List.mem_map.mp member
  exact ⟨router,block,rfl⟩

theorem prewarmBalancer_tends : Tends (Fosters .prewarmBalancer) false prewarmBalancer [] := by
  refine swallow_tends ((ask_tends .balancerVersions []).bind fun _ later => ?_)
  refine (ask_tends .balancerV2 later).bind fun v2 later => (ask_tends .headBlock later).bind fun block _ => ?_
  cases v2 with
  | none => trivial
  | some vaults =>
    refine Tends.bindSpawnAll (fun kind member => ?_) fun _ _ spawned => spawned.gather
    obtain ⟨vault,_,rfl⟩ := List.mem_map.mp member
    exact ⟨vault,block,rfl⟩

theorem warmingCode_tends (kind : Warming) (own : keepsToOwn kind = true) :
    Tends (Fosters kind) (reaping kind) (warmingCode protocols kind) [] := by
  cases kind with
  | prewarmWithShutdown | runPrewarm => contradiction
  | backgroundPrewarm => exact swallow_tends (Tends.bindSpawnAll (fun _ member => member) fun _ _ spawned => spawned.group exceptionGroup)
  | prewarmUniswap required => exact prewarmUniswap_tends protocols required
  | load router block required => exact load_tends protocols router block required
  | prewarmBalancer => exact prewarmBalancer_tends
  | prewarmCurve =>
    change Tends _ _ (if protocols.curveRegistry then ask .curvePools else pure ()) []
    split
    · exact ask_tends .curvePools []
    · trivial
  | waitForShutdown => exact ask_tends .shutdownEvent []
  | consumeRouter | consumeVault => exact consume_tends _
  | prewarmCompound => exact swallow_tends (ask_tends .compoundMarkets [])
  | prewarmChainlink => exact swallow_tends (ask_tends .chainlinkFeeds [])
  | prewarmAave => exact swallow_tends (ask_tends .aavePools [])
  | prewarmGearbox => exact swallow_tends (ask_tends .dieselTokens [])

/-- However it ends, it raises nothing. -/
def Quiet (program : WarmScript Unit) : Prop :=
  Ensures (fun _ _ => True) Sigma.mk (fun outcome _ => ∀ error, outcome ≠ .raised error) program []

theorem swallow_quiet (body : WarmScript Unit) : Quiet (swallow body) :=
  Ensures.guarded fun _ _ _ => nofun

theorem load_quiet (router : Router) (block : Nat) : Quiet (load protocols router block false) :=
  Ensures.guarded fun _ _ _ => nofun

variable {protocols}

theorem quiet_never_raised {moves : List WarmAction} {s : WarmForest} {id : Nat} {node : Node Warming Scan.Answer Exn}
    (ran : run (warmStep protocols) [] moves = some s) (here : s[id]? = some node) (quiet : Quiet (warmingCode protocols node.kind)) (error : Exn) : node.outcome ≠ some (.raised error) := by
  intro ended
  obtain ⟨history,leads | early,_⟩ := ended_story ran here ended
  · exact quiet.leads leads error rfl
  · simp at early

end
end YPriceMagic.Server
