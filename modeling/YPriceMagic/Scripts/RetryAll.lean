import YPriceMagic.Async.Pool
import YPriceMagic.Server.DiskCache

/-! `retry_failed_prices`: every error entry of the cache is requested again from the running
server, at most `concurrency` of them at a time. -/
namespace YPriceMagic.Scripts
open YPriceMagic.Async YPriceMagic.Server

/-- The body as `resp.json()` reads it; `fault` is the text of what is raised. -/
inductive Json
  | object (price error : Option String)
  | other (fault : String)
  | unreadable (fault : String)

structure HttpResponse where
  statusCode : Nat
  isJson : Bool
  json : Json
  text : String

/-- `_retry_one` with the response, or with the text of the exception of the request: whether
it succeeded, and its message. -/
def retryOne (dryRun : Bool) (response : Except String HttpResponse) : Bool × String :=
  if dryRun then (false,"dry-run, skipped")
  else match response with
    | .error fault => (false,"request_error: " ++ fault)
    | .ok resp =>
      if resp.statusCode = 200 then
        match resp.json with
        | .object price _ => (true,"price=" ++ price.getD "None")
        | .other fault | .unreadable fault => (false,"request_error: " ++ fault)
      else match resp.isJson,resp.json with
        | true,.unreadable fault => (false,"request_error: " ++ fault)
        | true,.object _ error => (false,"HTTP " ++ toString resp.statusCode ++ ": " ++ error.getD resp.text)
        | _,_ => (false,"HTTP " ++ toString resp.statusCode ++ ": " ++ resp.text)

/-- `retry_all` once it has found errors and is not a dry run. -/
structure RetryAll where
  errors : List (String × Int × DiskEntry)
  pool : Pool (Bool × String)
  successCount : Nat
  failureCount : Nat

namespace RetryAll

def init (errors : List (String × Int × DiskEntry)) (concurrency : Nat) : RetryAll :=
  ⟨errors,Pool.init errors.length concurrency,0,0⟩

inductive Action
  | start (id : Nat)
  | resume (id : Nat)
  | respond (id : Nat) (response : Except String HttpResponse)

def step (s : RetryAll) : Action → Option RetryAll
  | .start id => (s.pool.start id).map fun pool => {s with pool}
  | .resume id => (s.pool.resume id).map fun pool => {s with pool}
  | .respond id response =>
    let result := retryOne false response
    (s.pool.finish id result).map fun pool =>
      if result.1 then {s with pool,successCount := s.successCount+1} else {s with pool,failureCount := s.failureCount+1}

def entryOf (found : String × Int × DiskEntry) : String × Int := (found.1,found.2.1)

/-- The tokens and blocks that have been requested, in order. -/
def requests (s : RetryAll) : List (String × Int) := s.pool.begun.filterMap fun id => s.errors[id]?.map entryOf

def ended : Phase (Bool × String) → Bool := Phase.isEnded

variable {s next : RetryAll} {errors : List (String × Int × DiskEntry)} {concurrency : Nat} {actions : List Action}

def Action.ofPool : Action → Pool.Action (Bool × String)
  | .start id => .start id
  | .resume id => .resume id
  | .respond id response => .finish id (retryOne false response)

theorem step_pool {action : Action} (stepped : s.step action = some next) :
    s.pool.step action.ofPool = some next.pool ∧ next.errors = s.errors := by
  cases action with
  | start id | resume id =>
    obtain ⟨pool,moved,rfl⟩ := Option.map_eq_some_iff.mp stepped
    exact ⟨moved,rfl⟩
  | respond id response =>
    obtain ⟨pool,moved,rfl⟩ := Option.map_eq_some_iff.mp stepped
    split <;> exact ⟨moved,rfl⟩

theorem run_pool {first : RetryAll} (ran : run step first actions = some s) :
    run Pool.step first.pool (actions.map Action.ofPool) = some s.pool ∧ s.errors = first.errors := by
  induction actions generalizing first with
  | nil =>
    cases Option.some.inj ran
    exact ⟨rfl,rfl⟩
  | cons action rest ih =>
    obtain ⟨middle,stepped,remaining⟩ := run_cons_some ran
    obtain ⟨moved,same⟩ := step_pool stepped
    obtain ⟨further,kept⟩ := ih remaining
    refine ⟨?_,kept.trans same⟩
    rw [List.map_cons,run_cons,moved]
    exact further

/-- The two counters together count the tasks that are over. -/
theorem step_counted {action : Action} (counted : s.successCount + s.failureCount = s.pool.workers.countP ended)
    (stepped : s.step action = some next) : next.successCount + next.failureCount = next.pool.workers.countP ended := by
  have kept {pool : Pool (Bool × String)} {id : Nat} {phase after : Phase (Bool × String)} (found : s.pool.workers[id]? = some phase)
      (running : ended phase = false) (stays : ended after = false) (same : pool.workers = s.pool.workers.set id after) :
      s.successCount + s.failureCount = pool.workers.countP ended := by
    rw [same,countP_set_same s.pool.workers ended found (stays.trans running.symm)]
    exact counted
  cases action with
  | start id =>
    obtain ⟨pool,moved,rfl⟩ := Option.map_eq_some_iff.mp stepped
    have moved : s.pool.step (.start id) = some pool := moved
    cases Pool.step_stepped moved with
    | took found | queued found => exact kept found rfl rfl rfl
  | resume id =>
    obtain ⟨pool,moved,rfl⟩ := Option.map_eq_some_iff.mp stepped
    have moved : s.pool.step (.resume id) = some pool := moved
    cases Pool.step_stepped moved with
    | resumed found => exact kept found rfl rfl rfl
  | respond id response =>
    obtain ⟨pool,moved,rfl⟩ := Option.map_eq_some_iff.mp stepped
    have moved : s.pool.step (.finish id (retryOne false response)) = some pool := moved
    cases Pool.step_stepped moved with
    | finished result found =>
      have more : (s.pool.workers.set id (.ended (retryOne false response))).countP ended = s.pool.workers.countP ended + 1 := by
        have inside := (List.getElem?_eq_some_iff.mp found).1
        have here := (List.getElem?_eq_some_iff.mp found).2
        rw [List.countP_set inside,here]
        simp [ended,Phase.isEnded]
      split <;> dsimp only <;> omega

theorem run_counted (ran : run step (init errors concurrency) actions = some s) :
    s.successCount + s.failureCount = s.pool.workers.countP ended := by
  refine run_preserves (fun s => s.successCount + s.failureCount = s.pool.workers.countP ended)
    (fun _ _ _ counted stepped => step_counted counted stepped) ?_ ran
  have created : (List.replicate errors.length (Phase.created : Phase (Bool × String))).countP ended = 0 := by
    rw [List.countP_eq_zero]
    intro phase member
    rw [List.eq_of_mem_replicate member]
    simp [ended,Phase.isEnded]
  exact created.symm

theorem requests_range (errors : List (String × Int × DiskEntry)) :
    (List.range errors.length).filterMap (fun id => errors[id]?.map entryOf) = errors.map entryOf := by
  have places : (List.range errors.length).map (fun id => errors[id]?.map entryOf) = (errors.map entryOf).map some := by
    apply List.ext_getElem?
    intro i
    rcases Nat.lt_or_ge i errors.length with inside | beyond
    · simp [inside]
    · simp [Nat.not_lt.mpr beyond]
  have read := congrArg (List.filterMap id) places
  simpa [List.filterMap_map,Function.comp_def] using read

theorem begun_sublist {limit : Nat} {pool : Pool (Bool × String)} (balanced : pool.Balanced limit) :
    ∃ places, pool.begun.Perm places ∧ places.Sublist (List.range pool.workers.length) := by
  have within : pool.begun ⊆ List.range pool.workers.length := by
    intro id member
    obtain ⟨phase,found,_⟩ := (balanced.works id).mp member
    exact List.mem_range.mpr (List.getElem?_eq_some_iff.mp found).1
  obtain ⟨places,same,sublist⟩ := balanced.begun.subperm within
  exact ⟨places,same.symm,sublist⟩

theorem stuck_pool (stuck : ∀ action, s.step action = none) (action : Pool.Action (Bool × String)) : s.pool.step action = none := by
  cases action with
  | start id => exact Option.map_eq_none_iff.mp (stuck (.start id))
  | resume id => exact Option.map_eq_none_iff.mp (stuck (.resume id))
  | finish id result =>
    have refused : s.pool.finish id _ = none := Option.map_eq_none_iff.mp (stuck (.respond id (.error "")))
    simp only [Pool.finish] at refused
    split at refused
    · cases refused
    · rename_i idle
      simp only [Pool.step,Pool.finish]

/-- Every error entry is requested at most once and at most `concurrency` of them at a time,
nothing but error entries is requested, and when nothing more can happen all of them were,
and every one was counted. -/
theorem retry_all_complete (lower : String → String) (writes : List DiskCache.Action)
    (ran : run step (init (DiskCache.run lower writes).getCachedErrors concurrency) actions = some s) :
    s.pool.working ≤ concurrency ∧ s.requests.Nodup ∧
    (∀ token block, (token,block) ∈ s.requests →
      ∃ entry, (DiskCache.Writes.run lower writes token block).bind DiskCache.Write.asError = some entry) ∧
    actions.length ≤ 3 * (DiskCache.run lower writes).getCachedErrors.length ∧
    (0 < concurrency → (∀ action, s.step action = none) →
      s.requests.Perm ((DiskCache.run lower writes).getCachedErrors.map entryOf) ∧
      s.successCount + s.failureCount = (DiskCache.run lower writes).getCachedErrors.length) := by
  have refines : DiskCache.Refines (DiskCache.run lower writes) (DiskCache.Writes.run lower writes) :=
    DiskCache.refines_empty.run writes
  have counted := run_counted ran
  obtain ⟨moved,same⟩ := run_pool ran
  have balanced := Pool.run_balanced moved
  have size : s.pool.workers.length = (DiskCache.run lower writes).getCachedErrors.length :=
    (Pool.run_progress moved).2.trans (by simp [init,Pool.init])
  obtain ⟨places,begun,sublist⟩ := begun_sublist balanced
  rw [size] at sublist
  have distinct : ((DiskCache.run lower writes).getCachedErrors.map entryOf).Nodup := refines.getCachedErrors_nodup
  have requested : ∃ part, s.requests.Perm part ∧ part.Sublist ((DiskCache.run lower writes).getCachedErrors.map entryOf) := by
    refine ⟨places.filterMap fun id => s.errors[id]?.map entryOf,begun.filterMap _,?_⟩
    rw [← requests_range,same]
    exact sublist.filterMap _
  obtain ⟨part,permuted,within⟩ := requested
  refine ⟨balanced.working_le,permuted.nodup_iff.mpr (within.nodup distinct),fun token block member => ?_,?_,fun positive stuck => ?_⟩
  · obtain ⟨⟨t,b,entry⟩,found,named⟩ := List.mem_map.mp (within.subset (permuted.mem_iff.mp member))
    cases named
    exact ⟨entry,((refines.mem_getCachedErrors t b entry).mp found).2⟩
  · have bound := Pool.run_length_le moved
    simpa [init] using bound
  · have finished := balanced.live positive (stuck_pool stuck)
    have everyone : ∀ id < (DiskCache.run lower writes).getCachedErrors.length, id ∈ s.pool.begun := by
      intro id inside
      rw [← size] at inside
      have last := finished _ (List.getElem_mem inside)
      refine (balanced.works id).mpr ⟨_,List.getElem?_eq_getElem inside,?_⟩
      cases phase : s.pool.workers[id] <;> simp_all [Phase.isEnded,Phase.rank]
    have all : s.pool.begun.Perm (List.range (DiskCache.run lower writes).getCachedErrors.length) := by
      refine (List.perm_ext_iff_of_nodup balanced.begun List.nodup_range).mpr fun id => ⟨fun member => ?_,fun member => ?_⟩
      · exact sublist.subset (begun.mem_iff.mp member)
      · exact everyone id (List.mem_range.mp member)
    constructor
    · rw [← requests_range]
      have asked := all.filterMap fun id => (DiskCache.run lower writes).getCachedErrors[id]?.map entryOf
      unfold requests
      rw [same]
      exact asked
    · rw [counted,← size]
      exact List.countP_eq_length.mpr finished

def failedWrites : List DiskCache.Action := [
  .setError "0xab" 5 "No price found" "2023-11-14T22:13:20+00:00",
  .setError "0xcd" 7 "No price found" "2023-11-14T22:13:20+00:00"]

/-- The second entry waits for the slot of the first, and is refused. -/
def retriedBoth : List Action := [
  .start 0,
  .start 1,
  .respond 0 (.ok ⟨200,true,.object (some "2.5") none,""⟩),
  .resume 1,
  .respond 1 (.ok ⟨404,true,.object none (some "No price found"),""⟩)]

theorem retry_all_complete_once :
    ∃ s, run step (init (DiskCache.run id failedWrites).getCachedErrors 1) retriedBoth = some s ∧ s.requests.Nodup ∧
      s.requests.Perm [("0xcd",7),("0xab",5)] ∧ s.successCount + s.failureCount = 2 := by
  have errors : (DiskCache.run id failedWrites).getCachedErrors.map entryOf = [("0xcd",7),("0xab",5)] := by rfl
  have ran : (run step (init (DiskCache.run id failedWrites).getCachedErrors 1) retriedBoth).map (·.pool.workers) =
      some [.ended (true,"price=2.5"),.ended (false,"HTTP 404: No price found")] := by rfl
  obtain ⟨s,ran,workers⟩ := Option.map_eq_some_iff.mp ran
  have stuck : ∀ action, s.step action = none := by
    intro action
    rcases action with ⟨id⟩ | ⟨id⟩ | ⟨id,response⟩ <;> rcases id with _ | _ | id <;>
      simp [step,Pool.start,Pool.resume,Pool.finish,workers]
  obtain ⟨_,once,_,_,complete⟩ := retry_all_complete id failedWrites ran
  obtain ⟨all,counted⟩ := complete (by decide) stuck
  rw [errors] at all
  have size : (DiskCache.run id failedWrites).getCachedErrors.length = 2 := by rfl
  exact ⟨s,ran,once,all,counted.trans size⟩

end RetryAll

end YPriceMagic.Scripts
