import YPriceMagic.Server.Batch
import YPriceMagic.Server.Interleaving

/-! What handlers and lookups ensure about what they write to the cache: every write is
allowed by the replies the same coroutine has received before it. -/
namespace YPriceMagic.Server
open YPriceMagic.Async YPriceMagic.Async.Coroutine

def Answered (events : List Event) (query : Query) (answer : Answer query) : Prop :=
  ∃ (queries : List Query) (answers : Answers queries),
    (⟨.await queries,.returned answers⟩ : Event) ∈ events ∧ ⟨query,answer⟩ ∈ answers.toList

def ValidSpot (events : List Event) (token : String) (block : Nat) (price : PyFloat) : Prop :=
  price.valid = true ∧ ∃ query answer result, Answered events query answer ∧
    SpotAnswer query answer token block (some result) ∧ result.value = price

def StampOf (events : List Event) (block : Nat) (blockTimestamp : Option Int) : Prop :=
  ∀ time, blockTimestamp = some time → Answered events (.blockTimestamp block) time

def BlankAt (amounts : Option (List (Option Rat))) (k : Nat) : Prop :=
  ∀ list ∈ amounts, list[k]? = some none

theorem Answered.mono {events later : List Event} {query : Query} {answer : Answer query}
    (answered : Answered events query answer) (kept : events ⊆ later) : Answered later query answer := by
  obtain ⟨queries,answers,member,has⟩ := answered
  exact ⟨queries,answers,kept member,has⟩

theorem ValidSpot.mono {events later : List Event} {token : String} {block : Nat} {price : PyFloat}
    (valid : ValidSpot events token block price) (kept : events ⊆ later) : ValidSpot later token block price := by
  obtain ⟨sound,query,answer,result,answered,rest⟩ := valid
  exact ⟨sound,query,answer,result,answered.mono kept,rest⟩

theorem StampOf.mono {events later : List Event} {block : Nat} {blockTimestamp : Option Int}
    (stamp : StampOf events block blockTimestamp) (kept : events ⊆ later) : StampOf later block blockTimestamp :=
  fun time same => (stamp time same).mono kept

section
variable {α β : Type} {allowed : List Event → Op → Prop} {fact : α → List Event → Prop} {after : β → List Event → Prop}
  {history : List Event}

/-- A fact about a returned value; other ends promise nothing. -/
def OnReturn (fact : α → List Event → Prop) : Outcome Exn α → List Event → Prop
  | .returned value,history => fact value history
  | _,_ => True

abbrev Spec (allowed : List Event → Op → Prop) (fact : α → List Event → Prop) (program : Program α)
    (history : List Event) : Prop :=
  Ensures allowed Sigma.mk (OnReturn fact) program history

theorem Spec.bind {program : Program α} {next : α → Program β} (spec : Spec allowed fact program history)
    (continued : ∀ value later, history <+: later → fact value later → Spec allowed after (next value) later) :
    Spec allowed after (program >>= next) history :=
  Ensures.bind spec continued (fun _ _ _ _ => trivial) fun _ _ _ => trivial

theorem Spec.tryExcept {program : Program α} {handler : Exn → Program α} (spec : Spec allowed fact program history)
    (handled : ∀ error later, history <+: later → Spec allowed fact (handler error) later) :
    Spec allowed fact (program.tryExcept handler) history :=
  Ensures.tryExcept spec (fun _ _ _ held => held) (fun error later extended _ => handled error later extended)
    fun _ _ _ => trivial

theorem spec_pure {value : α} (held : fact value history) : Spec allowed fact (pure value) history := held

theorem spec_raise (error : Exn) : Spec allowed fact (raise error) history := trivial

theorem gather_spec {queries : List Query} (permitted : allowed history (.await queries)) :
    Spec allowed (fun answers later => (⟨.await queries,.returned answers⟩ : Event) ∈ later) (gather queries) history := by
  refine ⟨permitted,fun reply => ?_⟩
  cases reply with
  | returned answers => exact List.mem_append_right _ (List.mem_singleton.mpr rfl)
  | raised error => trivial
  | cancelled => trivial

theorem call_spec {query : Query} (permitted : allowed history (.await [query])) :
    Spec allowed (fun answer later => Answered later query answer) (call query) history := by
  refine (gather_spec permitted).bind fun answers later _ member => ?_
  exact spec_pure ⟨[query],answers,member,List.mem_singleton.mpr rfl⟩

def Op.writes : Op → Bool
  | .setCachedPrice _ _ _ _ | .setCachedError _ _ _ => true
  | _ => false

def Lenient (allowed : List Event → Op → Prop) : Prop :=
  ∀ history op, op.writes = false → allowed history op

theorem retrying_spec {attemptText : Exn → String} (slept : ∀ history seconds, allowed history (.sleep seconds)) {attempt : Program α}
    (spec : ∀ history, Spec allowed fact attempt history) (waits : List Nat) (history : List Event) :
    Spec allowed fact (retrying attemptText attempt waits) history := by
  induction waits generalizing history with
  | nil =>
    refine (spec history).tryExcept fun error later _ => ?_
    split <;> exact spec_raise _
  | cons seconds waits ih =>
    refine (spec history).tryExcept fun error later _ => ?_
    split
    · have waited : Spec allowed (fun _ _ => True) (sleep seconds) later :=
        ⟨slept later seconds,fun reply => by cases reply <;> trivial⟩
      exact waited.bind fun _ later _ _ => ih later
    · exact spec_raise _

theorem fetchBlockTimestamp_spec {block : Nat} (permitted : allowed history (.await [.blockTimestamp block])) :
    Spec allowed (fun stamp later => StampOf later block stamp) (fetchBlockTimestamp block) history := by
  have read : Spec allowed (fun stamp later => StampOf later block stamp)
      (call (.blockTimestamp block) >>= fun time => pure (some time)) history :=
    (call_spec permitted).bind fun time later _ answered =>
      spec_pure fun other same => by
        cases Option.some.inj same
        exact answered
  exact Spec.tryExcept read fun error later _ => spec_pure fun time same => by simp at same

theorem withLock_spec {lock : LockName} (acquired : ∀ history, allowed history (.acquire lock))
    (released : ∀ history, allowed history (.release lock)) {body : Program α}
    (spec : ∀ history, Spec allowed (fun _ _ => True) body history) (history : List Event) :
    Spec allowed (fun _ _ => True) (withLock lock body) history := by
  have taken : Spec allowed (fun _ _ => True) (acquire lock) history :=
    ⟨acquired history,fun reply => by cases reply <;> trivial⟩
  refine taken.bind fun _ later _ _ => ?_
  refine Ensures.andThen (spec later) fun outcome latest _ _ => ?_
  exact ⟨released latest,fun _ => by cases outcome <;> trivial⟩

end

section
variable {allowed : List Event → Op → Prop} (lenient : Lenient allowed) (config : Config) (history : List Event)

include lenient

theorem fetchPriceOnce_spec (token : String) (block : Nat) (amount : Option Rat) (ignorePools : List String) :
    Spec allowed (fun result later => match result with
      | none => Answered later (.price token block amount ignorePools) none
      | some (price,_) => price.valid = true ∧ ∃ p : PriceResult,
          Answered later (.price token block amount ignorePools) (some p) ∧ p.value = price)
      (fetchPriceOnce config token block amount ignorePools) history := by
  refine (call_spec (lenient history _ rfl)).bind fun p later _ answered => ?_
  cases p with
  | none => exact spec_pure answered
  | some p =>
    dsimp only
    split
    · exact spec_raise _
    · rename_i real
      split
      · exact spec_raise _
      · rename_i positive
        refine spec_pure ⟨?_,p,answered,rfl⟩
        simp only [PyFloat.valid,Bool.not_eq_true',Bool.or_eq_false_iff]
        simp_all

theorem fetchPrice_spec (token : String) (block : Nat) (amount : Option Rat) (ignorePools : List String) :
    Spec allowed (fun result later => match result with
      | none => Answered later (.price token block amount ignorePools) none
      | some (price,_) => price.valid = true ∧ ∃ p : PriceResult,
          Answered later (.price token block amount ignorePools) (some p) ∧ p.value = price)
      (fetchPrice config token block amount ignorePools) history :=
  retrying_spec (fun history _ => lenient history _ rfl)
    (fun history => fetchPriceOnce_spec lenient config history token block amount ignorePools)
    [1] history

end

theorem scatter_mem {α : Type} (results : List α) (indices : List Nat) (values : List α) {k : Nat} {value : α}
    (found : (scatter results indices values)[k]? = some value) :
    results[k]? = some value ∨ ∃ j : Nat, indices[j]? = some k ∧ values[j]? = some value := by
  have written (pairs : List (Nat × α)) (results : List α)
      (found : (pairs.foldl (fun results entry => results.set entry.1 entry.2) results)[k]? = some value) :
      results[k]? = some value ∨ (k,value) ∈ pairs := by
    induction pairs generalizing results with
    | nil => exact Or.inl found
    | cons pair rest ih =>
      rcases ih _ found with before | later
      · rw [List.getElem?_set] at before
        split at before
        · rename_i here
          split at before
          · right
            rw [← here,← Option.some.inj before]
            exact List.mem_cons_self
          · simp at before
        · exact Or.inl before
      · exact Or.inr (List.mem_cons_of_mem _ later)
  refine (written _ _ found).imp_right fun member => ?_
  obtain ⟨j,pair⟩ := List.mem_iff_getElem?.mp member
  exact ⟨j,List.getElem?_zip_eq_some.mp pair⟩

section
variable {allowed : List Event → Op → Prop} (lenient : Lenient allowed) (history : List Event)

include lenient

/-- An answer at a place without an amount answers a spot query for its token. -/
theorem lookupBatchPrices_spec (tokens : List String) (block : Nat) (amounts : Option (List (Option Rat))) :
    Spec allowed (fun results later => ∀ (k : Nat) token result, tokens[k]? = some token → BlankAt amounts k →
        results[k]? = some (some result) → ∃ query answer, Answered later query answer ∧
          SpotAnswer query answer token block (some result))
      (lookupBatchPrices tokens block amounts) history := by
  have spots : Spec allowed (fun results later => ∀ (k : Nat) token result, tokens[k]? = some token →
      BlankAt amounts k → results[k]? = some (some result) → ∃ query answer, Answered later query answer ∧
        SpotAnswer query answer token block (some result))
      (call (.prices tokens block none) >>= fun answers => pure answers.1) history := by
    refine (call_spec (lenient history _ rfl)).bind fun answers later _ answered => spec_pure ?_
    intro k token result asked _ found
    exact ⟨_,answers,answered,rfl,rfl,k,asked,found⟩
  unfold lookupBatchPrices
  cases amounts with
  | none => exact spots
  | some amounts =>
    dsimp only
    split
    · exact spots
    · split
      · rename_i full
        refine (call_spec (lenient history _ rfl)).bind fun answers later _ _ => spec_pure ?_
        intro k token result _ blank _
        have member := List.mem_of_getElem? (blank amounts rfl)
        simpa using List.all_eq_true.mp full none member
      · refine (gather_spec (lenient history _ rfl)).bind fun answers later _ member => ?_
        obtain ⟨spotResults,quoteResults,_⟩ := answers
        refine spec_pure ?_
        intro k token result asked blank found
        have here := blank amounts rfl
        rcases scatter_mem _ _ _ found with spot | ⟨j,place,_⟩
        · rcases scatter_mem _ _ _ spot with initial | ⟨j,place,value⟩
          · simp [List.getElem?_replicate] at initial
          · refine ⟨_,spotResults,⟨_,_,member,List.mem_cons_self⟩,rfl,rfl,j,?_,value⟩
            rw [List.getElem?_map,place]
            simp [asked]
        · -- a place without an amount is not among the quotes
          have quoted := (mem_indicesWhere.mp (List.mem_of_getElem? place)).2
          simp [here] at quoted

theorem fetchBatchPrices_spec (tokens : List String) (block : Nat) (amounts : Option (List (Option Rat))) :
    Spec allowed (fun prices later => ∀ (k : Nat) token price path, tokens[k]? = some token → BlankAt amounts k →
        prices[k]? = some (some (price,path)) → ValidSpot later token block price)
      (fetchBatchPrices tokens block amounts) history := by
  refine (lookupBatchPrices_spec lenient history tokens block amounts).bind fun results later _ answered => spec_pure ?_
  intro k token price path asked blank found
  rw [List.getElem?_map] at found
  obtain ⟨result,here,valid⟩ := Option.map_eq_some_iff.mp found
  obtain ⟨p,rfl,checked⟩ := Option.bind_eq_some_iff.mp valid
  obtain ⟨query,answer,known,spot⟩ := answered k token p asked blank here
  split at checked
  · simp at checked
  · rename_i sound
    obtain ⟨rfl,_⟩ := Prod.mk.inj (Option.some.inj checked)
    exact ⟨by simpa [PyFloat.valid] using sound,query,answer,p,known,spot,rfl⟩

end

def lookupAllowed (history : List Event) : Op → Prop
  | .setCachedPrice token block price blockTimestamp =>
    ValidSpot history token block price ∧ StampOf history block blockTimestamp
  | .setCachedError _ _ _ => False
  | _ => True

theorem lookupAllowed_lenient : Lenient lookupAllowed := by
  intro history op plain
  cases op <;> simp_all [lookupAllowed,Op.writes]

def lookupFact : (lookup : Lookup) → lookup.Result → List Event → Prop
  | .price token block amount ignorePools,none,events => Answered events (.price token block amount ignorePools) none
  | .price _ _ _ _,some _,_ => True
  | .batch tokens block amounts,prices,events => ∀ (k : Nat) token price path, tokens[k]? = some token →
      BlankAt amounts k → prices[k]? = some (some (price,path)) → ValidSpot events token block price
  | .classify _,_,_ => True

theorem lookupFact_mono {lookup : Lookup} {value : lookup.Result} {events later : List Event}
    (held : lookupFact lookup value events) (kept : events ⊆ later) : lookupFact lookup value later := by
  cases lookup with
  | price token block amount ignorePools =>
    cases value with
    | none => exact Answered.mono held kept
    | some value => trivial
  | batch tokens block amounts =>
    exact fun k token price path asked blank found => (held k token price path asked blank found).mono kept
  | classify token => trivial

theorem fetchPriceAndCache_spec (config : Config) (history : List Event) (token : String) (block : Nat)
    (amount : Option Rat) (ignorePools : List String) :
    Spec lookupAllowed (lookupFact (.price token block amount ignorePools))
      (fetchPriceAndCache config token block amount ignorePools) history := by
  refine (fetchPrice_spec lookupAllowed_lenient config history token block amount ignorePools).bind
    fun result later _ known => ?_
  match result,known with
  | none,answered => exact spec_pure answered
  | some (price,tradePath),⟨sound,p,answered,same⟩ =>
    refine (fetchBlockTimestamp_spec (lookupAllowed_lenient later _ rfl)).bind fun stamp latest extended stamped => ?_
    have stored : Spec lookupAllowed (fun _ _ => True) (if amount.isNone && ignorePools.isEmpty then
        setCachedPrice token block price stamp else pure ()) latest := by
      split
      · rename_i spot
        simp only [Bool.and_eq_true,Option.isNone_iff_eq_none,List.isEmpty_iff] at spot
        obtain ⟨rfl,rfl⟩ := spot
        refine ⟨⟨⟨sound,_,_,p,answered.mono extended.subset,⟨rfl,rfl,rfl,rfl,rfl⟩,same⟩,stamped⟩,fun _ => ?_⟩
        exact spec_pure trivial
      · exact spec_pure trivial
    exact stored.bind fun _ _ _ _ => spec_pure trivial

theorem classifyToken_spec (config : Config) (history : List Event) (token : String) :
    Spec lookupAllowed (fun _ _ => True) (classifyToken config token) history := by
  have metadata (events : List Event) : Spec lookupAllowed (fun _ _ => True) (fetchMetadata token) events :=
    ((gather_spec (lookupAllowed_lenient _ _ rfl)).bind fun _ _ _ _ => spec_pure trivial).tryExcept fun _ _ _ =>
      spec_pure trivial
  have locked : Spec lookupAllowed (fun _ _ => True) (getTokenLock token) history :=
    withLock_spec (fun events => lookupAllowed_lenient events _ rfl)
      (fun events => lookupAllowed_lenient events _ rfl) (fun _ => spec_pure trivial) history
  refine locked.bind fun tokenLock later _ _ => withLock_spec
    (fun events => lookupAllowed_lenient events _ rfl) (fun events => lookupAllowed_lenient events _ rfl)
    (fun events => ?_) later
  refine Spec.tryExcept ?_ fun _ _ _ => spec_pure trivial
  refine (call_spec (lookupAllowed_lenient events _ rfl)).bind fun bucket latest _ _ => ?_
  exact (metadata latest).bind fun _ _ _ _ => spec_pure trivial

/-- Every lookup writes only what its own answers allow. -/
theorem program_spec (config : Config) (lookup : Lookup) (history : List Event) :
    Spec lookupAllowed (lookupFact lookup) (lookup.program config) history := by
  cases lookup with
  | price token block amount ignorePools => exact fetchPriceAndCache_spec config history token block amount ignorePools
  | batch tokens block amounts => exact fetchBatchPrices_spec lookupAllowed_lenient history tokens block amounts
  | classify token => exact classifyToken_spec config history token

end YPriceMagic.Server
