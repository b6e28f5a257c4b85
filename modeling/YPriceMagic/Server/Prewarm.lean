import YPriceMagic.Async.Forest
import YPriceMagic.Server.Upstream

/-! The warm-up of the server: the loaders and the scans they start, the required part that
runs before the server is ready and the optional part that runs behind the lookups. -/
namespace YPriceMagic.Server
open YPriceMagic.Async YPriceMagic.Async.Coroutine

/-- `_load` takes a router with its version and its name. -/
structure Router where
  version : String
  name : String
  deriving DecidableEq, Repr

/-- What the price library offers on the chain. -/
structure Protocols where
  chainName : String
  curveRegistry : Bool
  stablecoins : List (String × String)
  v2Routers : List String
  v3 : Option String
  v3Forks : List String

/-- The tasks by the coroutines they run; loads and scans carry their arguments. -/
inductive Warming
  | prewarmWithShutdown
  | prewarmCurve
  | waitForShutdown
  | runPrewarm (prewarmTasks : List Nat)
  | backgroundPrewarm
  | prewarmUniswap (required : Bool)
  | load (router : Router) (block : Nat) (required : Bool)
  | consumeRouter (router : Router) (token : String) (block : Nat)
  | prewarmCompound
  | prewarmChainlink
  | prewarmAave
  | prewarmBalancer
  | consumeVault (vault block : Nat)
  | prewarmGearbox
  deriving DecidableEq, Repr

inductive Scan
  | headBlock
  | curvePools
  | shutdownEvent
  | routerMetadata (router : Router) (token : String) (block : Nat)
  | compoundMarkets
  | chainlinkFeeds
  | aavePools
  | balancerVersions
  | balancerV2
  | vaultMetadata (vault block : Nat)
  | dieselTokens
  deriving DecidableEq, Repr

/-- `balancerV2` answers with the number of its vaults. -/
abbrev Scan.Answer : Scan → Type
  | .headBlock | .routerMetadata _ _ _ | .vaultMetadata _ _ => Nat
  | .balancerV2 => Option Nat
  | _ => Unit

abbrev WarmScript (α : Type) := Script Warming Scan.Answer Exn α

abbrev WarmForest := Forest Warming Scan.Answer Exn

open Script

section
variable (protocols : Protocols)

def usdcTokens : List String := (protocols.stablecoins.filter fun stablecoin => stablecoin.2 = "usdc").map (·.1)

def routers : List Router :=
  protocols.v2Routers.map (Router.mk "v2")++protocols.v3.toList.map (Router.mk "v3")++protocols.v3Forks.map (Router.mk "v3")

def ask (scan : Scan) : WarmScript scan.Answer := call scan

/-- `_consume_pool_metadata`; what was consumed is only logged. -/
def consume (scan : Scan) : WarmScript Unit := ask scan >>= fun _ => pure ()

def swallow (body : WarmScript Unit) : WarmScript Unit := body.tryExcept fun _ => pure ()

def load (router : Router) (block : Nat) (required : Bool) : WarmScript Unit :=
  tryExcept (do
    let tasks ← spawnAll ((usdcTokens protocols).map (.consumeRouter router · block))
    (gather tasks).tryFinally (reap tasks)) fun error => if required then raise error else pure ()

def prewarmUniswap (required : Bool) : WarmScript Unit := do
  let block ← ask .headBlock
  let owned ← spawnAll ((routers protocols).map (.load · block required))
  (gather owned).tryFinally (reap owned)

/-- The scans are awaited by a bare `asyncio.gather`. -/
def prewarmBalancer : WarmScript Unit := swallow do
  ask .balancerVersions
  let v2 ← ask .balancerV2
  let block ← ask .headBlock
  match v2 with
  | some vaults => do
    let scans ← spawnAll ((List.range vaults).map (.consumeVault · block))
    gather scans
  | none => pure ()

def prewarmCurve : WarmScript Unit := if protocols.curveRegistry then ask .curvePools else pure ()

def requiredLoaders : List Warming :=
  [.prewarmCurve]++if protocols.chainName = "base" then [.prewarmUniswap true] else []

def prewarmWithShutdown : WarmScript Unit := do
  let prewarmTasks ← spawnAll (requiredLoaders protocols)
  let shutdownWaiter ← spawn .waitForShutdown
  let prewarmTask ← spawn (.runPrewarm prewarmTasks)
  tryFinally (do
    let done ← firstOf [prewarmTask,shutdownWaiter]
    if shutdownWaiter ∈ done then raise (.other "shutdown during required warmup")
    else awaitTask prewarmTask) (reap (prewarmTask::shutdownWaiter::prewarmTasks))

def exceptionGroup (errors : List Exn) : Exn :=
  .other ("unhandled errors in a TaskGroup (" ++ toString errors.length ++
    if errors.length = 1 then " sub-exception)" else " sub-exceptions)")

def backgroundPrewarm : WarmScript Unit := swallow do
  let tasks ← spawnAll [.prewarmUniswap false,.prewarmCompound,.prewarmChainlink,.prewarmAave,.prewarmBalancer,.prewarmGearbox]
  group exceptionGroup tasks

def warmingCode : Warming → WarmScript Unit
  | .prewarmWithShutdown => prewarmWithShutdown protocols
  | .prewarmCurve => prewarmCurve protocols
  | .waitForShutdown => ask .shutdownEvent
  | .runPrewarm prewarmTasks => gather prewarmTasks
  | .backgroundPrewarm => backgroundPrewarm
  | .prewarmUniswap required => prewarmUniswap protocols required
  | .load router block required => load protocols router block required
  | .consumeRouter router token block => consume (.routerMetadata router token block)
  | .prewarmCompound => swallow (ask .compoundMarkets)
  | .prewarmChainlink => swallow (ask .chainlinkFeeds)
  | .prewarmAave => swallow (ask .aavePools)
  | .prewarmBalancer => prewarmBalancer
  | .consumeVault vault block => consume (.vaultMetadata vault block)
  | .prewarmGearbox => swallow (ask .dieselTokens)

end
end YPriceMagic.Server
