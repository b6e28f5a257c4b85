import YPriceMagic.Server.HandlerSpecs

/-! Where the prices of a lookup come from. Whatever a lookup returns for a token is the
upstream's answer to a query for that token, at its block and with its amount. -/
namespace YPriceMagic.Server
open YPriceMagic.Async YPriceMagic.Async.Coroutine

/-- The query asks for one token at a block with an amount or without, and this is its answer. -/
def AmountAnswer : (query : Query) → Answer query → String → Nat → Option Rat → Option PriceResult → Prop
  | .prices tokens at_ amounts,answers,token,block,amount,result => at_ = block ∧ ∃ i : Nat, tokens[i]? = some token ∧
      answers.1[i]? = some result ∧ match amounts with
        | none => amount = none
        | some amounts => ∃ value, amount = some value ∧ amounts[i]? = some value
  | _,_,_,_,_,_ => False

def AnsweredFor (events : List Event) (token : String) (block : Nat) (amount : Option Rat) (result : Option PriceResult) : Prop :=
  ∃ query answer, Answered events query answer ∧ AmountAnswer query answer token block amount result

/-- The price, with its trade path, is one answer to a query for the token. -/
def Quoted (events : List Event) (token : String) (block : Nat) (amount : Option Rat) (ignorePools : List String)
    (price : PyFloat) (tradePath : Option TradePath) : Prop :=
  price.valid = true ∧ ∃ result : PriceResult, Answered events (.price token block amount ignorePools) (some result) ∧
    result.value = price ∧ serializeTradePath result = tradePath

theorem AnsweredFor.mono {events later : List Event} {token : String} {block : Nat} {amount : Option Rat}
    {result : Option PriceResult} (answered : AnsweredFor events token block amount result) (kept : events ⊆ later) :
    AnsweredFor later token block amount result := by
  obtain ⟨query,answer,known,asks⟩ := answered
  exact ⟨query,answer,known.mono kept,asks⟩

theorem Quoted.mono {events later : List Event} {token : String} {block : Nat} {amount : Option Rat}
    {ignorePools : List String} {price : PyFloat} {tradePath : Option TradePath}
    (quoted : Quoted events token block amount ignorePools price tradePath) (kept : events ⊆ later) :
    Quoted later token block amount ignorePools price tradePath := by
  obtain ⟨sound,result,answered,same⟩ := quoted
  exact ⟨sound,result,answered.mono kept,same⟩

abbrev Free (_ : List Event) (_ : Op) : Prop := True

section
variable (config : Config) (token : String) (block : Nat) (amount : Option Rat) (ignorePools : List String)

def PriceFact : Option (PyFloat × Option TradePath) → List Event → Prop
  | none,events => Answered events (.price token block amount ignorePools) none
  | some (price,tradePath),events => Quoted events token block amount ignorePools price tradePath

theorem fetchPriceOnce_quoted (history : List Event) :
    Spec Free (PriceFact token block amount ignorePools) (fetchPriceOnce config token block amount ignorePools) history := by
  refine (call_spec trivial).bind fun p later _ answered => ?_
  cases p with
  | none => exact spec_pure answered
  | some p =>
    dsimp only
    split
    · exact spec_raise _
    · rename_i real
      split
      · exact spec_raise _
      · rename_i positive
        refine spec_pure ⟨?_,p,answered,rfl,rfl⟩
        simp only [PyFloat.valid,Bool.not_eq_true',Bool.or_eq_false_iff]
        simp_all

def PricedFact : Option (PyFloat × Option TradePath × Option Int) → List Event → Prop
  | none,events => Answered events (.price token block amount ignorePools) none
  | some (price,tradePath,blockTimestamp),events =>
    Quoted events token block amount ignorePools price tradePath ∧ StampOf events block blockTimestamp

theorem fetchPriceAndCache_quoted (history : List Event) :
    Spec Free (PricedFact token block amount ignorePools) (fetchPriceAndCache config token block amount ignorePools) history := by
  have fetched : Spec Free (PriceFact token block amount ignorePools) (fetchPrice config token block amount ignorePools) history :=
    retrying_spec (fun _ _ => trivial) (fetchPriceOnce_quoted config token block amount ignorePools) [1] history
  refine fetched.bind fun result later _ known => ?_
  match result,known with
  | none,answered => exact spec_pure answered
  | some (price,tradePath),quoted =>
    refine (fetchBlockTimestamp_spec trivial).bind fun stamp latest extended stamped => ?_
    have stored : Spec Free (fun _ later => latest <+: later) (if amount.isNone && ignorePools.isEmpty then
        setCachedPrice token block price stamp else pure ()) latest := by
      split
      · exact ⟨trivial,fun _ => spec_pure (List.prefix_append latest _)⟩
      · exact spec_pure List.prefix_rfl
    refine stored.bind fun _ last _ further => spec_pure ⟨?_,?_⟩
    · exact quoted.mono (extended.trans further).subset
    · exact stamped.mono further.subset

end

/-- A place that is written takes one of the values meant for it, and no other place changes. -/
theorem foldl_set_cases {α : Type} (pairs : List (Nat × α)) (results : List α) {k : Nat} (inside : k < results.length) :
    ((pairs.foldl (fun results entry => results.set entry.1 entry.2) results)[k]? = results[k]? ∧ ∀ pair ∈ pairs, pair.1 ≠ k) ∨
      ∃ value, (k,value) ∈ pairs ∧ (pairs.foldl (fun results entry => results.set entry.1 entry.2) results)[k]? = some value := by
  induction pairs generalizing results with
  | nil => exact Or.inl ⟨rfl,by simp⟩
  | cons pair rest ih =>
    obtain ⟨place,value⟩ := pair
    rcases ih (results.set place value) (by simpa using inside) with ⟨same,absent⟩ | ⟨other,member,written⟩
    · by_cases here : place = k
      · subst here
        refine Or.inr ⟨value,List.mem_cons_self,?_⟩
        rw [List.foldl_cons,same]
        simp [inside]
      · refine Or.inl ⟨?_,?_⟩
        · rw [List.foldl_cons,same]
          simp [here]
        · intro pair member
          rcases List.mem_cons.mp member with rfl | later
          · exact here
          · exact absent pair later
    · exact Or.inr ⟨other,List.mem_cons_of_mem _ member,written⟩

theorem scatter_other {α : Type} (results : List α) (indices : List Nat) (values : List α) {k : Nat}
    (inside : k < results.length) (absent : k ∉ indices) : (scatter results indices values)[k]? = results[k]? := by
  rcases foldl_set_cases (indices.zip values) results inside with ⟨same,_⟩ | ⟨value,member,_⟩
  · exact same
  · exact absurd (List.of_mem_zip member).1 absent

theorem scatter_place {α : Type} (results : List α) (indices : List Nat) (values : List α) {k : Nat}
    (inside : k < results.length) (size : indices.length = values.length) (member : k ∈ indices) :
    ∃ (j : Nat) (value : α), indices[j]? = some k ∧ values[j]? = some value ∧ (scatter results indices values)[k]? = some value := by
  rcases foldl_set_cases (indices.zip values) results inside with ⟨_,absent⟩ | ⟨value,present,written⟩
  · obtain ⟨j,bound,here⟩ := List.mem_iff_getElem.mp member
    have other : j < values.length := by omega
    have pair : (k,values[j]) ∈ indices.zip values := by
      rw [List.mem_iff_getElem]
      exact ⟨j,by simpa using ⟨bound,other⟩,by simp [here]⟩
    exact absurd rfl (absent _ pair)
  · obtain ⟨j,pair⟩ := List.mem_iff_getElem?.mp present
    obtain ⟨index,taken⟩ := List.getElem?_zip_eq_some.mp pair
    exact ⟨j,value,index,taken,written⟩

def Aligned (tokens : List String) (amounts : Option (List (Option Rat))) : Prop :=
  ∀ list ∈ amounts, list.length = tokens.length

section
variable (tokens : List String) (block : Nat) (amounts : Option (List (Option Rat))) (history : List Event)

/-- Every place of the results is the answer for its token and its amount. -/
def BatchAnswered (results : List (Option PriceResult)) (events : List Event) : Prop :=
  results.length = tokens.length ∧ ∀ (k : Nat) token, tokens[k]? = some token →
    ∃ result, results[k]? = some result ∧ AnsweredFor events token block (amounts.bind (·.getD k none)) result

theorem spots_answered (blank : ∀ k < tokens.length, amounts.bind (·.getD k none) = none) :
    Spec Free (BatchAnswered tokens block amounts) (call (.prices tokens block none) >>= fun answers => pure answers.1) history := by
  refine (call_spec trivial).bind fun answers later _ answered => spec_pure ⟨answers.2,?_⟩
  intro k token asked
  have inside : k < tokens.length := (List.getElem?_eq_some_iff.mp asked).1
  have here : k < answers.1.length := by rw [answers.2]; exact inside
  refine ⟨answers.1[k],List.getElem?_eq_getElem here,_,answers,answered,rfl,k,asked,List.getElem?_eq_getElem here,?_⟩
  exact blank k inside

theorem lookupBatchPrices_answered (aligned : Aligned tokens amounts) :
    Spec Free (BatchAnswered tokens block amounts) (lookupBatchPrices tokens block amounts) history := by
  unfold lookupBatchPrices
  cases amounts with
  | none => exact spots_answered tokens block none history fun _ _ => rfl
  | some amounts =>
    have size : amounts.length = tokens.length := aligned amounts rfl
    dsimp only
    split
    · rename_i blank
      refine spots_answered tokens block (some amounts) history fun k inside => ?_
      have bound : k < amounts.length := by omega
      simpa [bound] using List.all_eq_true.mp blank _ (List.getElem_mem bound)
    · split
      · rename_i full
        refine (call_spec trivial).bind fun answers later _ answered => spec_pure ⟨answers.2,?_⟩
        intro k token asked
        have inside : k < tokens.length := (List.getElem?_eq_some_iff.mp asked).1
        have bound : k < amounts.length := by omega
        have here : k < answers.1.length := by rw [answers.2]; exact inside
        obtain ⟨value,given⟩ := Option.isSome_iff_exists.mp (List.all_eq_true.mp full _ (List.getElem_mem bound))
        have present := filterMap_isSome amounts id fun amount member => List.all_eq_true.mp full amount member
        refine ⟨answers.1[k],List.getElem?_eq_getElem here,_,answers,answered,rfl,k,asked,List.getElem?_eq_getElem here,
          value,?_,?_⟩
        · simp [bound,given]
        · rw [present]
          simp [bound,given]
      · refine (gather_spec trivial).bind fun answers later _ member => ?_
        obtain ⟨spotResults,quoteResults,_⟩ := answers
        refine spec_pure ⟨by simp,fun k token asked => ?_⟩
        have inside : k < tokens.length := (List.getElem?_eq_some_iff.mp asked).1
        have bound : k < amounts.length := by omega
        have first : k < (List.replicate tokens.length (none : Option PriceResult)).length := by simpa using inside
        have second : k < (scatter (List.replicate tokens.length (none : Option PriceResult))
            (indicesWhere amounts (·.isNone)) spotResults.1).length := by simpa using inside
        have named : tokens.getD k "" = token := by simp [asked]
        cases amount : amounts.getD k none with
        | none =>
          have spot : k ∈ indicesWhere amounts (·.isNone) := mem_indicesWhere.mpr ⟨bound,by rw [amount]; rfl⟩
          have absent : k ∉ indicesWhere amounts (·.isSome) := fun quote => by
            have given := (mem_indicesWhere.mp quote).2
            rw [amount] at given
            cases given
          obtain ⟨j,result,index,taken,written⟩ := scatter_place _ _ spotResults.1 first
            (by simpa using spotResults.2.symm) spot
          refine ⟨result,(scatter_other _ _ quoteResults.1 second absent).trans written,_,spotResults,
            ⟨_,_,member,List.mem_cons_self⟩,rfl,j,?_,taken,amount⟩
          rw [List.getElem?_map,index]
          exact congrArg some named
        | some value =>
          have quote : k ∈ indicesWhere amounts (·.isSome) := mem_indicesWhere.mpr ⟨bound,by rw [amount]; rfl⟩
          obtain ⟨j,result,index,taken,written⟩ := scatter_place _ _ quoteResults.1 second
            (by simpa using quoteResults.2.symm) quote
          refine ⟨result,written,_,quoteResults,⟨_,_,member,List.mem_cons_of_mem _ List.mem_cons_self⟩,rfl,j,?_,taken,
            value,amount,?_⟩
          · rw [List.getElem?_map,index]
            exact congrArg some named
          · have given := filterMap_isSome (indicesWhere amounts (·.isSome)) (amounts.getD · none) fun i among =>
              (mem_indicesWhere.mp among).2
            rw [given,List.getElem?_map,index,Option.map_some,amount]
            rfl

def BatchPriced (prices : List (Option (PyFloat × Option TradePath))) (events : List Event) : Prop :=
  prices.length = tokens.length ∧ ∀ (k : Nat) token, tokens[k]? = some token →
    ∃ result, prices[k]? = some (validPrice result) ∧ AnsweredFor events token block (amounts.bind (·.getD k none)) result

theorem fetchBatchPrices_answered (aligned : Aligned tokens amounts) :
    Spec Free (BatchPriced tokens block amounts) (fetchBatchPrices tokens block amounts) history := by
  refine (lookupBatchPrices_answered tokens block amounts history aligned).bind fun results later _ answered => spec_pure ?_
  obtain ⟨size,known⟩ := answered
  refine ⟨by rw [List.length_map,size],fun k token asked => ?_⟩
  obtain ⟨result,here,answer⟩ := known k token asked
  exact ⟨result,by rw [List.getElem?_map,here]; rfl,answer⟩

end

def LookupFact : (lookup : Lookup) → lookup.Result → List Event → Prop
  | .price token block amount ignorePools,result,events => PricedFact token block amount ignorePools result events
  | .batch tokens block amounts,prices,events => Aligned tokens amounts → BatchPriced tokens block amounts prices events
  | .classify _,_,_ => True

/-- What a lookup returns is what the upstream answered to it. -/
theorem program_answers (config : Config) (lookup : Lookup) (history : List Event) :
    Spec Free (LookupFact lookup) (lookup.program config) history := by
  cases lookup with
  | price token block amount ignorePools => exact fetchPriceAndCache_quoted config token block amount ignorePools history
  | batch tokens block amounts =>
    by_cases aligned : Aligned tokens amounts
    · refine (fetchBatchPrices_answered tokens block amounts history aligned).weaken fun outcome later held => ?_
      cases outcome with
      | returned prices => exact fun _ => held
      | raised error => trivial
      | cancelled => trivial
    · refine (Ensures.any (fetchBatchPrices tokens block amounts) history).weaken fun outcome later _ => ?_
      cases outcome with
      | returned prices => exact fun size => absurd size aligned
      | raised error => trivial
      | cancelled => trivial
  | classify token =>
    refine (Ensures.any (classifyToken config token) history).weaken fun outcome later _ => ?_
    cases outcome <;> trivial

theorem LookupFact.mono {lookup : Lookup} {value : lookup.Result} {events later : List Event}
    (held : LookupFact lookup value events) (kept : events ⊆ later) : LookupFact lookup value later := by
  cases lookup with
  | price token block amount ignorePools =>
    match value,held with
    | none,answered => exact Answered.mono answered kept
    | some (price,tradePath,blockTimestamp),held => exact ⟨held.1.mono kept,held.2.mono kept⟩
  | batch tokens block amounts =>
    intro aligned
    obtain ⟨size,known⟩ := held aligned
    refine ⟨size,fun k token asked => ?_⟩
    obtain ⟨result,here,answered⟩ := known k token asked
    exact ⟨result,here,answered.mono kept⟩
  | classify token => trivial

end YPriceMagic.Server
