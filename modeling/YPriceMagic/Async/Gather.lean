import Mathlib.Data.List.Basic
import YPriceMagic.Async.Task

/-! `asyncio.gather` without `return_exceptions`, as who awaits it sees it. The first
child that fails or ends cancelled decides it, and the others run on. -/
namespace YPriceMagic.Async

/-- A failure has no value, so what decides a gather early is never a return. -/
structure Gather (ε : Type) where
  children : List (Option (Outcome ε Unit))
  failure : Option (Outcome ε Empty)
  deriving DecidableEq

namespace Gather

variable {ε : Type}

def start (children : Nat) : Gather ε := ⟨List.replicate children none,none⟩

def running (gather : Gather ε) : Bool := gather.children.any (·.isNone)

def failureOf : Outcome ε Unit → Option (Outcome ε Empty)
  | .returned _ => none
  | .raised error => some (.raised error)
  | .cancelled => some .cancelled

/-- A child ends and reports to the gather, where only the first failure counts. -/
def endChild (gather : Gather ε) (child : Nat) (outcome : Outcome ε Unit) : Option (Gather ε) :=
  match gather.children[child]? with
  | some none => some ⟨gather.children.set child (some outcome),gather.failure <|> failureOf outcome⟩
  | _ => none

def outcome (gather : Gather ε) : Option (Outcome ε Unit) :=
  match gather.failure with
  | some failure => some (failure.map Empty.elim)
  | none => if gather.running then none else some (.returned ())

/-- Only a failure decides a gather while a child still runs. -/
theorem joined {gather : Gather ε} (decided : gather.outcome.isSome = true)
    (failed : gather.failure.isSome = true → gather.running = false) : gather.running = false := by
  unfold outcome at decided
  split at decided
  · rename_i failure found
    exact failed (by rw [found]; rfl)
  · split at decided
    · simp at decided
    · rename_i ended
      simpa using ended

theorem endChild_running {gather after : Gather ε} {child : Nat} {outcome : Outcome ε Unit}
    (ended : gather.endChild child outcome = some after) : gather.running = true := by
  unfold endChild at ended
  split at ended
  · rename_i found
    exact List.any_eq_true.mpr ⟨none,List.mem_of_getElem? found,rfl⟩
  · simp at ended

end Gather

end YPriceMagic.Async
