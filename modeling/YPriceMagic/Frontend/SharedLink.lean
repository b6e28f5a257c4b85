import YPriceMagic.Async.Entries
import YPriceMagic.Frontend.QuoteForm
import YPriceMagic.Frontend.RoundTrip

/-! A page that is opened with a query: what `onMount` of the app fills in the quote form, and the
request that the form sends then. -/
namespace YPriceMagic.Frontend
open YPriceMagic.Async

namespace URLSearchParams

/-- The first value of the name. -/
def get (params : URLSearchParams) (name : String) : Option String := (params.pairs.find? fun pair => decide (pair.1 = name)).map (·.2)

/-- A value that is there and not empty. -/
def getTruthy (params : URLSearchParams) (name : String) : Option String := (params.get name).filter (· ≠ "")

end URLSearchParams

/-! The block field. -/

namespace BlockField

inductive Event
  | input (value : String)
  | change
  | clear

def handleBlockInput (field : BlockField) (value : String) : BlockField :=
  if '/' ∈ value.toList then ⟨"",.datetimeLocal⟩ else {field with blockInput := value}

def handleDateChange (field : BlockField) : BlockField := if field.blockInput = "" then {field with blockType := .text} else field

/-- The two inputs, of which one is there, have handlers of their own. -/
def step (field : BlockField) : Event → Option BlockField
  | .input value => match field.blockType with
    | .text => some (field.handleBlockInput value)
    | .datetimeLocal => some {field with blockInput := value}
  | .change => match field.blockType with
    | .text => none
    | .datetimeLocal => some field.handleDateChange
  | .clear => match field.blockType with
    | .text => none
    | .datetimeLocal => some ⟨"",.text⟩

def setBlock (field : BlockField) (block : String) : BlockField := {field with blockInput := block}

/-- The first `Z` goes, and what is left of `2024-01-15T12:00` on. -/
def setTimestamp (isoString : String) : BlockField := ⟨String.ofList ((isoString.toList.erase 'Z').take 16),.datetimeLocal⟩

def Slashless : Event → Prop
  | .input value => '/' ∉ value.toList
  | _ => True

/-- The date picker is opened by a slash only. -/
theorem stays_text {events : List Event} {field final : BlockField} (text : field.blockType = .text)
    (slashless : ∀ event ∈ events, Slashless event) (ran : run step field events = some final) : final.blockType = .text := by
  induction events generalizing field with
  | nil =>
    cases Option.some.inj ran
    exact text
  | cons event rest ih =>
    obtain ⟨next,stepped,ran⟩ := run_cons_some ran
    refine ih ?_ (fun other member => slashless other (List.mem_cons_of_mem _ member)) ran
    have unslashed := slashless event List.mem_cons_self
    cases event with
    | input value =>
      simp only [step,text,handleBlockInput] at stepped
      rw [if_neg unslashed] at stepped
      cases Option.some.inj stepped
      rfl
    | change | clear =>
      simp only [step,text] at stepped
      cases stepped

end BlockField

/-- The text that the field shows for an address. -/
def shownFor (bundle : Bundle) (toUpperCase : String → String) (index : TokenIndex) (chainId : Int) (address : String) : String :=
  ((getTokenFromIndex bundle toUpperCase index address (some chainId)).map (·.token.address)).getD address

/-! What `onMount` does once the token lists are there. -/

def linkedChain (params : URLSearchParams) : Option Chain :=
  match params.get "chain" with
  | some "ethereum" => some .ethereum
  | some "base" => some .base
  | _ => none

def linkedToken (params : URLSearchParams) : Option String := params.getTruthy "from" <|> params.getTruthy "token"

/-- The block field after `setBlock` and `setTimestamp`. -/
def linkedBlock (params : URLSearchParams) (field : BlockField) : BlockField :=
  let field := match params.getTruthy "block" with
    | some block => field.setBlock block
    | none => field
  match params.getTruthy "timestamp" with
  | some timestamp => BlockField.setTimestamp timestamp
  | none => field

def linkedAmount (params : URLSearchParams) (amount : String) : String := (params.getTruthy "amount").getD amount

section
variable (getTime : String → Option Int) (params : URLSearchParams) (field : BlockField) (amount : String)

/-- The block and the amount that the form then asks for. -/
def linkedBlockParam : Option String := orUndefined ((linkedBlock params field).getBlockParam getTime)

def linkedAmountParam : Option String := orUndefined (trim (linkedAmount params amount))

/-- The effect of `selectedChain.set`, with the token of the chain's pair. -/
def selectChain {Quote : Type} (pairFrom : Option String) : List (FormAction Quote) :=
  (linkedChain params).toList.map fun chain => .changeChain chain pairFrom

/-- The callback of the timer: the form's exported methods, the last of which is `submit`. -/
def fillForm {Quote : Type} : List (FormAction Quote) :=
  (linkedToken params).toList.map .setFromAddress ++
    [.setBlock (linkedBlockParam getTime params field),.setAmount (linkedAmountParam params amount),.submit]

end

/-- The form goes on by itself, and the server answers. -/
def FormAction.Quiet {Quote : Type} : FormAction Quote → Prop
  | .changeIndex _ | .proceed _ | .respond _ _ | .fail _ _ | .unwind _ _ => True
  | _ => False

namespace QuoteForm

variable {Quote : Type} {bundle : Bundle} {localeCompare : String → String → Int} {toUpperCase trim : String → String}
  {s next : QuoteForm Quote} {k : Nat} {request : Request}

/-- One submit is not over at most, that which asks for `request`; what is shown is the answer to it. -/
structure Lone (k : Nat) (request : Request) (done : List (FormAction Quote)) (s : QuoteForm Quote) : Prop where
  shown : s.chain = request.chain ∧ s.blockParam = request.block ∧ s.amountParam = request.amount
  calls : ∀ (i : Nat) call, s.calls[i]? = some call → call.phase = .settled ∨
    i = k ∧ call.fromAddr = request.token ∧ (call.phase = .checking ∨ call.phase = .inFlight request)
  result : ∀ quote, s.result = some quote → .respond k quote ∈ done
  error : ∀ error, s.error = some error → .fail k (some error) ∈ done

/-- The form is as the act leaves it, but for whether calls are current. -/
structure Mirrors (acted next : QuoteForm Quote) : Prop where
  chain : next.chain = acted.chain
  field : next.field = acted.field
  blockParam : next.blockParam = acted.blockParam
  amountParam : next.amountParam = acted.amountParam
  result : next.result = acted.result
  error : next.error = acted.error
  length : next.calls.length = acted.calls.length
  calls : ∀ (i : Nat) call, next.calls[i]? = some call →
    ∃ old, acted.calls[i]? = some old ∧ call.fromAddr = old.fromAddr ∧ call.phase = old.phase

theorem step_acted {action : FormAction Quote} (stepped : s.step bundle localeCompare toUpperCase trim action = some next) :
    ∃ acted, s.act bundle localeCompare toUpperCase trim action = some acted ∧ Mirrors acted next := by
  obtain ⟨acted,moved,same⟩ := Option.map_eq_some_iff.mp stepped
  refine ⟨acted,moved,?_⟩
  split at same
  · subst same
    exact ⟨rfl,rfl,rfl,rfl,rfl,rfl,rfl,fun i call found => ⟨call,found,rfl,rfl⟩⟩
  · subst same
    refine ⟨rfl,rfl,rfl,rfl,rfl,rfl,List.length_map _,fun i call found => ?_⟩
    rw [List.getElem?_map] at found
    obtain ⟨old,there,rfl⟩ := Option.map_eq_some_iff.mp found
    exact ⟨old,there,rfl,rfl⟩

theorem Lone.mirrored {done : List (FormAction Quote)} (lone : s.Lone k request done) (mirrors : Mirrors s next) :
    next.Lone k request done := by
  refine ⟨?_,fun i call found => ?_,?_,?_⟩
  · rw [mirrors.chain,mirrors.blockParam,mirrors.amountParam]
    exact lone.shown
  · obtain ⟨old,there,addr,phase⟩ := mirrors.calls i call found
    rw [addr,phase]
    exact lone.calls i old there
  · rw [mirrors.result]
    exact lone.result
  · rw [mirrors.error]
    exact lone.error

/-- The lone submit comes to another phase. -/
theorem Lone.set {done : List (FormAction Quote)} (lone : s.Lone k request done) {call : Call} (found : s.calls[k]? = some call)
    (token : call.fromAddr = request.token) {phase : Phase} (comes : phase = .inFlight request ∨ phase = .settled) (i : Nat) (other : Call)
    (there : (s.calls.set k {call with phase})[i]? = some other) : other.phase = .settled ∨
      i = k ∧ other.fromAddr = request.token ∧ (other.phase = .checking ∨ other.phase = .inFlight request) := by
  by_cases own : k = i
  · subst own
    rw [List.getElem?_set_self',found] at there
    cases Option.some.inj there
    rcases comes with rfl | rfl
    · exact Or.inr ⟨rfl,token,Or.inr rfl⟩
    · exact Or.inl rfl
  · rw [List.getElem?_set_ne own] at there
    exact lone.calls i other there

theorem Lone.quiet {done : List (FormAction Quote)} {action : FormAction Quote} (lone : s.Lone k request done) (quiet : action.Quiet)
    (moved : s.act bundle localeCompare toUpperCase trim action = some next) : next.Lone k request (done ++ [action]) := by
  have result (quote : Quote) (here : s.result = some quote) : .respond k quote ∈ done ++ [action] :=
    List.mem_append_left _ (lone.result quote here)
  have error (text : String) (here : s.error = some text) : .fail k (some text) ∈ done ++ [action] :=
    List.mem_append_left _ (lone.error text here)
  cases action with
  | field _ | changeChain _ _ | setFromAddress _ | setBlock _ | setAmount _ | submit | answer _ => exact quiet.elim
  | changeIndex index =>
    cases Option.some.inj moved
    exact ⟨lone.shown,lone.calls,result,error⟩
  | proceed j =>
    obtain ⟨call,found,moved⟩ := Option.bind_eq_some_iff.mp moved
    split at moved
    · rename_i checking
      cases Option.some.inj moved
      rcases lone.calls j call found with settled | ⟨rfl,token,_⟩
      · rw [checking] at settled
        cases settled
      · obtain ⟨chain,block,amount⟩ := lone.shown
        have asks : (⟨s.chain,call.fromAddr,s.blockParam,s.amountParam⟩ : Request) = request := by rw [chain,block,amount,token]
        exact ⟨lone.shown,lone.set found token (Or.inl (by rw [asks])),result,error⟩
    · cases moved
  | respond j quote =>
    obtain ⟨call,found,moved⟩ := Option.bind_eq_some_iff.mp moved
    split at moved
    · rename_i flies
      cases Option.some.inj moved
      rcases lone.calls j call found with settled | ⟨rfl,token,_⟩
      · rw [settled] at flies
        cases flies
      · refine ⟨lone.shown,lone.set found token (Or.inr rfl),fun other stored => ?_,error⟩
        cases Option.some.inj stored
        exact List.mem_append_right _ (List.mem_singleton_self _)
    · cases moved
  | fail j text =>
    obtain ⟨call,found,moved⟩ := Option.bind_eq_some_iff.mp moved
    split at moved
    · rename_i flies
      cases Option.some.inj moved
      rcases lone.calls j call found with settled | ⟨rfl,token,_⟩
      · rw [settled] at flies
        cases flies
      · refine ⟨lone.shown,lone.set found token (Or.inr rfl),result,fun other stored => ?_⟩
        cases text with
        | none => exact error other stored
        | some text =>
          cases Option.some.inj stored
          exact List.mem_append_right _ (List.mem_singleton_self _)
    · cases moved
  | unwind j text =>
    obtain ⟨call,found,moved⟩ := Option.bind_eq_some_iff.mp moved
    split at moved
    · rename_i aborted
      have aborted := of_decide_eq_true aborted
      rcases lone.calls j call found with settled | ⟨_,_,checking | flies⟩
      · rw [settled] at aborted
        cases aborted
      · rw [checking] at aborted
        cases aborted
      · rw [flies] at aborted
        cases aborted
    · cases moved

theorem Lone.run {done after : List (FormAction Quote)} (lone : s.Lone k request done) (quiet : ∀ action ∈ after, action.Quiet)
    (ran : Async.run (step bundle localeCompare toUpperCase trim) s after = some next) : next.Lone k request (done ++ after) := by
  induction after generalizing s done with
  | nil =>
    cases Option.some.inj ran
    rw [List.append_nil]
    exact lone
  | cons action rest ih =>
    obtain ⟨middle,stepped,ran⟩ := run_cons_some ran
    obtain ⟨acted,moved,mirrors⟩ := step_acted stepped
    have later := ih ((lone.quiet (quiet action List.mem_cons_self) moved).mirrored mirrors)
      (fun other member => quiet other (List.mem_cons_of_mem _ member)) ran
    rwa [List.append_assoc] at later

/-- Every submit is over. -/
def AllSettled (s : QuoteForm Quote) : Prop := ∀ (i : Nat) call, s.calls[i]? = some call → call.phase = .settled

theorem Mirrors.allSettled (mirrors : Mirrors s next) (idle : ∀ (i : Nat) call, s.calls[i]? = some call → call.phase = .settled) : next.AllSettled := by
  intro i call found
  obtain ⟨old,there,_,phase⟩ := mirrors.calls i call found
  exact phase.trans (idle i old there)

theorem AllSettled.abortPending (idle : s.AllSettled) : ∃ calls controller, s.abortPending = {s with calls,abortController := controller} ∧
    calls.length = s.calls.length ∧ ∀ (i : Nat) call, calls[i]? = some call → call.phase = .settled := by
  unfold QuoteForm.abortPending
  split
  · rename_i k _
    refine ⟨_,_,rfl,List.length_modify ..,fun i call found => ?_⟩
    rw [List.getElem?_modify] at found
    obtain ⟨old,there,rfl⟩ := Option.map_eq_some_iff.mp found
    have settled := idle i old there
    have rests : old.phase.isInFlight = false := by rw [settled]; rfl
    split
    · rw [Call.abort,rests]
      exact settled
    · exact settled
  · exact ⟨_,_,rfl,rfl,idle⟩

theorem submit_lone (bundle : Bundle) (toUpperCase : String → String) (idle : s.AllSettled) (edited : s.field.wasUserEdited = false)
    (asks : request = ⟨s.chain,s.field.getValue,s.blockParam,s.amountParam⟩) :
    (s.submit bundle toUpperCase).Lone s.calls.length request [] ∧
      ∃ call, (s.submit bundle toUpperCase).calls[s.calls.length]? = some call ∧ call.phase = .checking := by
  obtain ⟨calls,controller,aborted,length,settled⟩ := idle.abortPending
  have proceeds : s.proceeds bundle toUpperCase = true := by simp [QuoteForm.proceeds,edited]
  have length : (calls.map Call.outdate).length = s.calls.length := (List.length_map _).trans length
  unfold submit
  dsimp only
  rw [if_pos proceeds,aborted]
  dsimp only
  subst asks
  refine ⟨⟨⟨rfl,rfl,rfl⟩,fun i call found => ?_,fun _ shown => (by cases shown),fun _ shown => (by cases shown)⟩,
    ⟨_,by rw [← length,List.getElem?_concat_length],rfl⟩⟩
  rcases mem_snoc_table found with old | ⟨last,same⟩
  · rw [List.getElem?_map] at old
    obtain ⟨before,there,rfl⟩ := Option.map_eq_some_iff.mp old
    exact Or.inl (settled i before there)
  · subst same
    exact Or.inr ⟨last.trans length,rfl,Or.inl rfl⟩

end QuoteForm

namespace Autocomplete

/-- Addresses are looked up in the same place. -/
def SameLookup (s next : Autocomplete) : Prop := next.chain = s.chain ∧ next.index = s.index

variable {bundle : Bundle} {localeCompare : String → String → Int} {toUpperCase trim : String → String}

theorem SameLookup.trans {first second third : Autocomplete} (early : first.SameLookup second) (late : second.SameLookup third) :
    first.SameLookup third := ⟨late.1.trans early.1,late.2.trans early.2⟩

theorem doSearch_lookup (s : Autocomplete) : s.SameLookup (s.doSearch bundle localeCompare trim) := by
  rcases doSearch_cases bundle localeCompare trim s with ⟨_,same⟩ | ⟨_,blank | ⟨results,_,shown⟩⟩
  · rw [same]
    exact ⟨rfl,rfl⟩
  · rw [blank]
    exact ⟨rfl,rfl⟩
  · rw [shown]
    exact ⟨rfl,rfl⟩

theorem searchAgain_lookup (bundle : Bundle) (localeCompare : String → String → Int) (trim : String → String) (s : Autocomplete) :
    s.SameLookup (s.searchAgain bundle localeCompare trim) := by
  unfold searchAgain
  split
  · exact doSearch_lookup s
  · exact ⟨rfl,rfl⟩

theorem prefill_lookup (bundle : Bundle) (toUpperCase : String → String) (s : Autocomplete) : s.SameLookup (s.prefill bundle toUpperCase) := by
  unfold prefill
  split
  · split <;> exact ⟨rfl,rfl⟩
  · exact ⟨rfl,rfl⟩

theorem step_lookup {s next : Autocomplete} {event : FieldEvent} (user : event.byUser = true)
    (stepped : s.step bundle localeCompare toUpperCase trim event = some next) : s.SameLookup next := by
  cases event with
  | changeChain _ | changeIndex _ | changeInitial _ | setFromAddress _ => cases user
  | debounce =>
    rw [step_debounce stepped]
    exact doSearch_lookup s
  | input _ | clear | focus | blurred | escape | tab =>
    cases Option.some.inj stepped
    exact ⟨rfl,rfl⟩
  | arrowDown =>
    cases Option.some.inj stepped
    unfold handleArrowDown
    split <;> exact ⟨rfl,rfl⟩
  | arrowUp =>
    cases Option.some.inj stepped
    unfold handleArrowUp
    split <;> exact ⟨rfl,rfl⟩
  | enter =>
    cases Option.some.inj stepped
    rcases s.handleEnter_cases trim with same | ⟨_,_,same⟩
    · rw [same]
      exact ⟨rfl,rfl⟩
    · rw [same]
      exact ⟨rfl,rfl⟩
  | hover i =>
    obtain ⟨_,rfl⟩ := hover_cases stepped
    exact ⟨rfl,rfl⟩
  | pick i =>
    obtain ⟨_,rfl⟩ := pick_cases stepped
    exact ⟨rfl,rfl⟩

variable (field : Autocomplete) (address : String)

theorem setFromAddress_getValue : (field.setFromAddress bundle toUpperCase address).getValue = shownFor bundle toUpperCase field.index field.chain address := by
  change (if shownFor bundle toUpperCase field.index field.chain address ≠ "" then
    shownFor bundle toUpperCase field.index field.chain address else (addressInside _).getD _) = _
  split
  · rfl
  · rename_i empty
    change (addressInside (shownFor bundle toUpperCase field.index field.chain address).toList).getD
      (shownFor bundle toUpperCase field.index field.chain address) = _
    rw [not_not.mp empty]
    rfl

end Autocomplete

namespace QuoteForm

variable {Quote : Type} {bundle : Bundle} {localeCompare : String → String → Int} {toUpperCase trim : String → String}
  {s next : QuoteForm Quote} {k : Nat} {request : Request}

theorem setFromAddress_field (bundle : Bundle) (toUpperCase : String → String) (s : QuoteForm Quote) (address : String) :
    (s.setFromAddress bundle toUpperCase address).field.getValue = shownFor bundle toUpperCase s.field.index s.field.chain address ∧
      (s.setFromAddress bundle toUpperCase address).field.wasUserEdited = false := by
  unfold setFromAddress passAddress
  split
  · exact ⟨Autocomplete.setFromAddress_getValue s.field address,rfl⟩
  · exact ⟨Autocomplete.setFromAddress_getValue {s.field.setFromAddress bundle toUpperCase address with initialAddress := some address} address,rfl⟩

/-- The chain, the field's place of lookup and the calls, but for those that are aborted, are as before. -/
structure Keeps (s next : QuoteForm Quote) : Prop where
  chain : next.chain = s.chain
  lookup : s.field.SameLookup next.field

theorem Keeps.trans {third : QuoteForm Quote} (early : s.Keeps next) (late : next.Keeps third) : s.Keeps third :=
  ⟨late.chain.trans early.chain,early.lookup.trans late.lookup⟩

theorem abortPending_keeps (s : QuoteForm Quote) : s.Keeps s.abortPending := by
  unfold QuoteForm.abortPending
  split <;> exact ⟨rfl,rfl,rfl⟩

theorem abortPending_length (s : QuoteForm Quote) : s.abortPending.calls.length = s.calls.length := by
  unfold QuoteForm.abortPending
  split
  · exact List.length_modify ..
  · rfl

theorem cancelIfLoading_keeps (s : QuoteForm Quote) : s.Keeps s.cancelIfLoading := by
  unfold QuoteForm.cancelIfLoading
  split
  · exact ⟨(abortPending_keeps s).chain,(abortPending_keeps s).lookup⟩
  · exact ⟨rfl,rfl,rfl⟩

theorem passAddress_keeps (bundle : Bundle) (toUpperCase : String → String) (s : QuoteForm Quote) : s.Keeps (s.passAddress bundle toUpperCase) := by
  refine ⟨passAddress_chain s,?_⟩
  unfold passAddress
  split
  · exact ⟨rfl,rfl⟩
  · exact Autocomplete.prefill_lookup bundle toUpperCase {s.field with initialAddress := some s.fromAddress}

theorem handleFromSelect_keeps (bundle : Bundle) (toUpperCase : String → String) (s : QuoteForm Quote) (address : String) :
    s.Keeps (s.handleFromSelect bundle toUpperCase address) := by
  have passed := passAddress_keeps bundle toUpperCase {s.cancelIfLoading with fromAddress := address}
  exact (cancelIfLoading_keeps s).trans ⟨passed.chain,passed.lookup⟩

theorem setFromAddress_keeps (bundle : Bundle) (toUpperCase : String → String) (s : QuoteForm Quote) (address : String) : s.Keeps (s.setFromAddress bundle toUpperCase address) := by
  have kept := passAddress_keeps bundle toUpperCase
    {s with field := s.field.setFromAddress bundle toUpperCase address,fromAddress := address}
  exact ⟨kept.chain,kept.lookup⟩

/-- The field is for the form's chain, and its index was built of some lists. -/
structure Rooted (bundle : Bundle) (s : QuoteForm Quote) : Prop where
  chain : s.field.chain = chainIds s.chain
  built : ∃ lists, buildTokenIndex bundle lists = .ok s.field.index

theorem Rooted.kept (rooted : s.Rooted bundle) (keeps : s.Keeps next) : next.Rooted bundle := by
  refine ⟨?_,?_⟩
  · rw [keeps.lookup.1,keeps.chain]
    exact rooted.chain
  · rw [keeps.lookup.2]
    exact rooted.built

theorem changeIndex_rooted {index : TokenIndex} (rooted : s.Rooted bundle) (built : ∃ lists, buildTokenIndex bundle lists = .ok index) :
    (s.changeIndex bundle localeCompare toUpperCase trim index).Rooted bundle := by
  have same : Autocomplete.SameLookup {s.field with index} (s.changeIndex bundle localeCompare toUpperCase trim index).field :=
    (Autocomplete.searchAgain_lookup bundle localeCompare trim _).trans (Autocomplete.prefill_lookup bundle toUpperCase _)
  exact ⟨same.1.trans rooted.chain,by rw [same.2]; exact built⟩

theorem changeChain_cases (bundle : Bundle) (localeCompare : String → String → Int) (toUpperCase trim : String → String)
    (s : QuoteForm Quote) (chain : Chain) (pairFrom : Option String) :
    (chain = s.chain ∧ s.changeChain bundle localeCompare toUpperCase trim chain pairFrom = s) ∨
    ∃ reset : QuoteForm Quote, reset.chain = chain ∧ reset.field.chain = chainIds chain ∧ reset.field.index = s.field.index ∧
      reset.calls.length = s.calls.length ∧ (s.AllSettled → reset.AllSettled) ∧
      (s.changeChain bundle localeCompare toUpperCase trim chain pairFrom = reset ∨ ∃ address,
        s.changeChain bundle localeCompare toUpperCase trim chain pairFrom = reset.setFromAddress bundle toUpperCase address) := by
  unfold changeChain
  split
  · rename_i same
    exact Or.inl ⟨same,rfl⟩
  · have searched := Autocomplete.searchAgain_lookup bundle localeCompare trim {s.field with chain := chainIds chain}
    dsimp only
    generalize Autocomplete.searchAgain bundle localeCompare trim _ = field at searched
    have reset := abortPending_keeps {s with chain,field}
    refine Or.inr ⟨{abortPending {s with chain,field} with loading := false,result := none,error := none},reset.chain,
      reset.lookup.1.trans searched.1,reset.lookup.2.trans searched.2,abortPending_length {s with chain,field},?_,?_⟩
    · intro idle i call found
      obtain ⟨calls,controller,aborted,_,settled⟩ := AllSettled.abortPending (s := {s with chain,field}) idle
      rw [aborted] at found
      exact settled i call found
    · cases pairFrom with
      | none => exact Or.inl rfl
      | some address => exact Or.inr ⟨address,rfl⟩

/-- An index that an action brings comes from the store. -/
def FromStore (bundle : Bundle) : FormAction Quote → Prop
  | .changeIndex index | .answer (.save (some index)) => ∃ lists, buildTokenIndex bundle lists = .ok index
  | _ => True

theorem act_rooted {action : FormAction Quote} (rooted : s.Rooted bundle) (stored : FromStore bundle action)
    (moved : s.act bundle localeCompare toUpperCase trim action = some next) : next.Rooted bundle := by
  cases action with
  | field event =>
    change s.handleField bundle localeCompare toUpperCase trim event = some next at moved
    unfold handleField at moved
    split at moved
    · cases moved
    · rename_i user
      obtain ⟨field,stepped,rfl⟩ := Option.map_eq_some_iff.mp moved
      have same := Autocomplete.step_lookup (by simpa using user) stepped
      have kept : s.Keeps {s with field} := ⟨rfl,same⟩
      split
      · exact rooted.kept (kept.trans (cancelIfLoading_keeps _))
      · split
        · exact rooted.kept (kept.trans (handleFromSelect_keeps bundle toUpperCase _ _))
        · exact rooted.kept kept
  | changeChain chain pairFrom =>
    cases Option.some.inj moved
    rcases s.changeChain_cases bundle localeCompare toUpperCase trim chain pairFrom with
      ⟨_,same⟩ | ⟨reset,onChain,place,index,_,_,same | ⟨address,same⟩⟩
    · rw [same]
      exact rooted
    · rw [same]
      exact ⟨place.trans (congrArg chainIds onChain.symm),by rw [index]; exact rooted.built⟩
    · rw [same]
      exact Rooted.kept ⟨place.trans (congrArg chainIds onChain.symm),by rw [index]; exact rooted.built⟩
        (setFromAddress_keeps bundle toUpperCase reset address)
  | changeIndex index =>
    cases Option.some.inj moved
    exact changeIndex_rooted rooted stored
  | setFromAddress address =>
    cases Option.some.inj moved
    exact rooted.kept (setFromAddress_keeps bundle toUpperCase s address)
  | setBlock _ | setAmount _ =>
    cases Option.some.inj moved
    exact ⟨rooted.chain,rooted.built⟩
  | submit =>
    cases Option.some.inj moved
    refine rooted.kept ((abortPending_keeps s).trans ?_)
    unfold QuoteForm.submit
    dsimp only
    split <;> exact ⟨rfl,rfl,rfl⟩
  | answer answer =>
    obtain ⟨k,_,moved⟩ := Option.bind_eq_some_iff.mp moved
    cases answer with
    | save index =>
      cases index with
      | none =>
        cases Option.some.inj moved
        exact ⟨rooted.chain,rooted.built⟩
      | some index =>
        cases Option.some.inj moved
        exact changeIndex_rooted ⟨rooted.chain,rooted.built⟩ stored
    | goOn | reject =>
      cases Option.some.inj moved
      exact ⟨rooted.chain,rooted.built⟩
  | proceed k | respond k _ | fail k _ | unwind k _ =>
    obtain ⟨call,_,moved⟩ := Option.bind_eq_some_iff.mp moved
    split at moved
    · cases Option.some.inj moved
      exact ⟨rooted.chain,rooted.built⟩
    · cases moved

section
variable {address : String} {blockParam amountParam : Option String}

theorem setFromAddress_chain (s : QuoteForm Quote) (address : String) : (s.setFromAddress bundle toUpperCase address).chain = s.chain :=
  passAddress_chain _

theorem filled_steps (filled : run (step bundle localeCompare toUpperCase trim) s
      [.setFromAddress address,.setBlock blockParam,.setAmount amountParam,.submit] = some next) :
    ∃ first second third, Mirrors (s.setFromAddress bundle toUpperCase address) first ∧
      Mirrors {first with blockParam} second ∧ Mirrors {second with amountParam} third ∧ Mirrors (third.submit bundle toUpperCase) next := by
  obtain ⟨first,addressed,filled⟩ := run_cons_some filled
  obtain ⟨second,blocked,filled⟩ := run_cons_some filled
  obtain ⟨third,amounted,filled⟩ := run_cons_some filled
  obtain ⟨fourth,submitted,filled⟩ := run_cons_some filled
  obtain rfl := Option.some.inj filled
  refine ⟨first,second,third,?_,?_,?_,?_⟩
  · obtain ⟨_,moved,mirrors⟩ := step_acted addressed
    exact Option.some.inj moved ▸ mirrors
  · obtain ⟨_,moved,mirrors⟩ := step_acted blocked
    exact Option.some.inj moved ▸ mirrors
  · obtain ⟨_,moved,mirrors⟩ := step_acted amounted
    exact Option.some.inj moved ▸ mirrors
  · obtain ⟨_,moved,mirrors⟩ := step_acted submitted
    exact Option.some.inj moved ▸ mirrors

theorem filled_lone (idle : s.AllSettled) (filled : run (step bundle localeCompare toUpperCase trim) s
      [.setFromAddress address,.setBlock blockParam,.setAmount amountParam,.submit] = some next) :
    next.Lone s.calls.length ⟨s.chain,shownFor bundle toUpperCase s.field.index s.field.chain address,blockParam,amountParam⟩ [] ∧
      ∃ call, next.calls[s.calls.length]? = some call ∧ call.phase = .checking := by
  obtain ⟨first,second,third,addressed,blocked,amounted,submitted⟩ := filled_steps filled
  have idleStart : (s.setFromAddress bundle toUpperCase address).AllSettled := by
    unfold AllSettled
    rw [setFromAddress_calls]
    exact idle
  have idleFirst : first.AllSettled := addressed.allSettled idleStart
  have idleSecond : second.AllSettled := blocked.allSettled idleFirst
  have idleThird : third.AllSettled := amounted.allSettled idleSecond
  have length : third.calls.length = s.calls.length :=
    amounted.length.trans (blocked.length.trans (addressed.length.trans (congrArg List.length (setFromAddress_calls s address))))
  have field : third.field = (s.setFromAddress bundle toUpperCase address).field :=
    amounted.field.trans (blocked.field.trans addressed.field)
  have chain : third.chain = s.chain := amounted.chain.trans (blocked.chain.trans (addressed.chain.trans (setFromAddress_chain s address)))
  obtain ⟨value,unedited⟩ := s.setFromAddress_field bundle toUpperCase address
  have asks : (⟨s.chain,shownFor bundle toUpperCase s.field.index s.field.chain address,blockParam,amountParam⟩ : Request) =
      ⟨third.chain,third.field.getValue,third.blockParam,third.amountParam⟩ := by
    rw [chain,field,value,amounted.blockParam,blocked.blockParam,amounted.amountParam]
  obtain ⟨lone,call,there,checking⟩ := submit_lone bundle toUpperCase idleThird (by rw [field]; exact unedited) asks
  rw [length] at lone there
  refine ⟨lone.mirrored submitted,?_⟩
  have inside := (List.getElem?_eq_some_iff.mp there).1
  rw [← submitted.length] at inside
  obtain ⟨old,before,_,phase⟩ := submitted.calls _ _ (List.getElem?_eq_getElem inside)
  obtain rfl := Option.some.inj (there.symm.trans before)
  exact ⟨_,List.getElem?_eq_getElem inside,phase.trans checking⟩

end

theorem mount_rooted {index : TokenIndex} (built : ∃ lists, buildTokenIndex bundle lists = .ok index) (chain : Chain)
    (pairFrom : Option String) : (mount bundle toUpperCase chain index pairFrom : QuoteForm Quote).Rooted bundle := by
  have field := Autocomplete.prefill_lookup bundle toUpperCase ⟨chainIds chain,index,some "","","",[],-1,false,false,false⟩
  have blank (s : QuoteForm Quote) (same : s.chain = chain) (there : s.field = Autocomplete.mount bundle toUpperCase (chainIds chain) index (some "")) :
      s.Rooted bundle := by
    refine ⟨?_,?_⟩
    · rw [there,same]
      exact field.1
    · rw [there]
      exact field.2 ▸ built
  unfold mount
  cases pairFrom with
  | none => exact blank _ rfl rfl
  | some address => exact Rooted.kept (blank _ rfl rfl) (setFromAddress_keeps bundle toUpperCase _ address)

theorem run_rooted {actions : List (FormAction Quote)} (rooted : s.Rooted bundle) (stored : ∀ action ∈ actions, FromStore bundle action)
    (ran : run (step bundle localeCompare toUpperCase trim) s actions = some next) : next.Rooted bundle := by
  induction actions generalizing s with
  | nil =>
    cases Option.some.inj ran
    exact rooted
  | cons action rest ih =>
    obtain ⟨middle,stepped,ran⟩ := run_cons_some ran
    obtain ⟨acted,moved,mirrors⟩ := step_acted stepped
    have after := act_rooted rooted (stored action List.mem_cons_self) moved
    refine ih ⟨?_,?_⟩ (fun other member => stored other (List.mem_cons_of_mem _ member)) ran
    · rw [mirrors.field,mirrors.chain]
      exact after.chain
    · rw [mirrors.field]
      exact after.built

section
variable {getTime : String → Option Int} {params : URLSearchParams} {block : BlockField} {amount address : String}
  {pairFrom : Option String}

theorem selected {params : URLSearchParams} (rooted : s.Rooted bundle) (idle : s.AllSettled)
    (ran : run (step bundle localeCompare toUpperCase trim) s (selectChain params pairFrom) = some next) :
    next.chain = (linkedChain params).getD s.chain ∧ next.field.chain = chainIds next.chain ∧ next.field.index = s.field.index ∧
      next.AllSettled ∧ next.calls.length = s.calls.length := by
  unfold selectChain at ran
  cases linked : linkedChain params with
  | none =>
    rw [linked] at ran
    cases Option.some.inj ran
    exact ⟨rfl,rooted.chain,rfl,idle,rfl⟩
  | some chain =>
    rw [linked] at ran
    obtain ⟨middle,stepped,ran⟩ := run_cons_some ran
    cases Option.some.inj ran
    obtain ⟨acted,moved,mirrors⟩ := step_acted stepped
    have moved := Option.some.inj moved
    rw [Option.getD_some,mirrors.chain,mirrors.field,mirrors.length]
    rcases s.changeChain_cases bundle localeCompare toUpperCase trim chain pairFrom with
      ⟨here,same⟩ | ⟨reset,onChain,place,index,length,kept,same⟩
    · obtain rfl := same.symm.trans moved
      exact ⟨here.symm,rooted.chain,rfl,mirrors.allSettled idle,rfl⟩
    · obtain ⟨calls,keeps⟩ : acted.calls = reset.calls ∧ reset.Keeps acted := by
        rw [← moved]
        rcases same with same | ⟨other,same⟩
        · rw [same]
          exact ⟨rfl,rfl,rfl,rfl⟩
        · rw [same]
          exact ⟨setFromAddress_calls reset other,setFromAddress_keeps bundle toUpperCase reset other⟩
      rw [keeps.chain,keeps.lookup.1,keeps.lookup.2,calls]
      refine ⟨onChain,place.trans (congrArg chainIds onChain.symm),index,mirrors.allSettled ?_,length⟩
      rw [calls]
      exact kept idle

/-- What the form asks for once the query has been filled in. -/
def linkedRequest (bundle : Bundle) (toUpperCase : String → String) (getTime : String → Option Int) (params : URLSearchParams)
    (block : BlockField) (amount : String) (s : QuoteForm Quote) (address : String) : Request :=
  let chain := (linkedChain params).getD s.chain
  ⟨chain,shownFor bundle toUpperCase s.field.index (chainIds chain) address,linkedBlockParam getTime params block,
    linkedAmountParam params amount⟩

theorem opened_lone (rooted : s.Rooted bundle) (idle : s.AllSettled) (linked : linkedToken params = some address)
    (opened : run (step bundle localeCompare toUpperCase trim) s (selectChain params pairFrom ++ fillForm getTime params block amount) =
      some next) :
    next.Lone s.calls.length (linkedRequest bundle toUpperCase getTime params block amount s address) [] ∧
      ∃ call, next.calls[s.calls.length]? = some call ∧ call.phase = .checking := by
  obtain ⟨middle,chosen,filled⟩ := run_append_some opened
  obtain ⟨chain,place,index,idle,length⟩ := selected rooted idle chosen
  have steps : (fillForm getTime params block amount : List (FormAction Quote)) =
      [.setFromAddress address,.setBlock (linkedBlockParam getTime params block),.setAmount (linkedAmountParam params amount),.submit] := by
    rw [fillForm,linked]
    rfl
  rw [steps] at filled
  have lone := filled_lone idle filled
  rwa [place,index,chain,length] at lone

/-- However the page was used before, if no submit is under way when it is opened with a query that names a token, then
as long as nobody touches the form one submit goes on, for what the query names, and what is shown is its answer. -/
theorem opened_link_alone (bundle : Bundle) (localeCompare : String → String → Int) (toUpperCase trim : String → String)
    (getTime : String → Option Int) (block : BlockField) (amount : String) (linked : linkedToken params = some address)
    {first : Chain} {index : TokenIndex} {firstFrom : Option String} {before after : List (FormAction Quote)} {filled final : QuoteForm Quote}
    (built : ∃ lists, buildTokenIndex bundle lists = .ok index) (stored : ∀ action ∈ before, FromStore bundle action)
    (ran : run (step bundle localeCompare toUpperCase trim) (mount bundle toUpperCase first index firstFrom) before = some s)
    (idle : ∀ call ∈ s.calls, call.phase = .settled)
    (opened : run (step bundle localeCompare toUpperCase trim) s (selectChain params pairFrom ++ fillForm getTime params block amount) =
      some filled)
    (quiet : ∀ action ∈ after, action.Quiet) (later : run (step bundle localeCompare toUpperCase trim) filled after = some final) :
    (∃ next, filled.proceed s.calls.length = some next) ∧
      (∀ (i : Nat) call, final.calls[i]? = some call → call.phase ≠ .settled → i = s.calls.length) ∧
      (∀ call ∈ final.calls, ∀ request, call.phase = .inFlight request →
        request = linkedRequest bundle toUpperCase getTime params block amount s address) ∧
      (∀ quote, final.result = some quote → .respond s.calls.length quote ∈ after) ∧
      ∀ error, final.error = some error → .fail s.calls.length (some error) ∈ after := by
  have rooted := run_rooted (mount_rooted built first firstFrom) stored ran
  obtain ⟨lone,call,there,checking⟩ := opened_lone rooted (fun i call found => idle call (List.mem_of_getElem? found)) linked opened
  have done := lone.run quiet later
  rw [List.nil_append] at done
  refine ⟨?_,fun i other found unsettled => ?_,fun other member request flies => ?_,done.result,done.error⟩
  · exact Option.isSome_iff_exists.mp (by simp [proceed,there,checking])
  · rcases done.calls i other found with settled | ⟨own,_,_⟩
    · exact absurd settled unsettled
    · exact own
  · obtain ⟨i,found⟩ := List.mem_iff_getElem?.mp member
    rcases done.calls i other found with settled | ⟨_,_,waits | asks⟩
    · rw [flies] at settled
      cases settled
    · rw [flies] at waits
      cases waits
    · rw [flies] at asks
      exact Phase.inFlight.inj asks

end

def blockLink : URLSearchParams := ⟨[("chain","base"),("token",typedAddress),("block","18000000")]⟩

/-- The form with an empty index, before and after the link is opened. -/
def blankForm : QuoteForm Nat := mount ⟨"",[],asciiLower⟩ id .ethereum [] (some "USD")

def linkedForm : Option (QuoteForm Nat) :=
  run (step ⟨"",[],asciiLower⟩ codePointCompare id id) blankForm (selectChain blockLink none ++ fillForm (fun _ => none) blockLink ⟨"",.text⟩ "")

def answeredRun : List (FormAction Nat) := [.proceed 0,.respond 0 7]

theorem opened_link_alone_base : ∃ filled ∈ linkedForm, ∃ final,
    run (step ⟨"",[],asciiLower⟩ codePointCompare id id) filled answeredRun = some final ∧ final.result = some 7 ∧
      (∃ next, filled.proceed 0 = some next) ∧ (∀ (i : Nat) call, final.calls[i]? = some call → call.phase ≠ .settled → i = 0) ∧
      ∀ quote, final.result = some quote → .respond 0 quote ∈ answeredRun := by
  obtain ⟨filled,opened,final,later,shown⟩ : ∃ filled ∈ linkedForm, ∃ final ∈ run (step ⟨"",[],asciiLower⟩ codePointCompare id id) filled
      answeredRun, final.result = some 7 := by decide +kernel
  have linked : linkedToken blockLink = some typedAddress := by decide
  have alone := opened_link_alone ⟨"",[],asciiLower⟩ codePointCompare id id (fun _ => none) ⟨"",.text⟩ "" linked ⟨[],rfl⟩
    (List.forall_mem_nil _) rfl (by decide) opened (by simp [answeredRun,FormAction.Quiet]) later
  exact ⟨filled,opened,final,later,shown,alone.1,alone.2.1,alone.2.2.2.1⟩

end QuoteForm

/-! What the server reads. -/

section
open YPriceMagic.Python YPriceMagic.Python.Call YPriceMagic.Server

variable {bundle : Bundle} {toUpperCase : String → String} {index : TokenIndex} {lists : List TokenlistEntry} {address : String}

/-- The index finds an address only under its own lower-case text, but for "USD". -/
theorem shownFor_same (built : buildTokenIndex bundle lists = .ok index) (chainId : Int)
    (other : shownFor bundle toUpperCase index chainId address ≠ usdSentinel) :
    bundle.toLowerCase (shownFor bundle toUpperCase index chainId address) = bundle.toLowerCase address := by
  unfold shownFor at other ⊢
  cases found : getTokenFromIndex bundle toUpperCase index address (some chainId) with
  | none => rfl
  | some entry =>
    rw [found,Option.map_some,Option.getD_some] at other
    unfold getTokenFromIndex at found
    split at found
    · cases found
      exact absurd rfl other
    · rw [buildTokenIndex_entry built,Option.or_eq_some_iff] at found
      rcases found with listed | ⟨_,usd⟩
      · have here := List.find?_some listed
        exact (of_decide_eq_true here).2
      · split at usd
        · cases usd
          exact absurd rfl other
        · cases usd

variable {getTime : String → Option Int} {params : URLSearchParams} {field : BlockField} {events : List BlockField.Event} {amount : String}

theorem linkedBlockParam_text (typed : run BlockField.step ⟨"",.text⟩ events = some field)
    (slashless : ∀ event ∈ events, BlockField.Slashless event) (untimed : params.getTruthy "timestamp" = none) {text : String} {n : Nat}
    (named : params.getTruthy "block" = some text) (number : trim text = n.repr) :
    linkedBlockParam getTime params field = some n.repr := by
  have textual := BlockField.stays_text rfl slashless typed
  have shown : linkedBlock params field = field.setBlock text := by simp only [linkedBlock,named,untimed]
  rw [linkedBlockParam,shown]
  simp [BlockField.getBlockParam,BlockField.setBlock,textual,number,orUndefined]

/-- A link with a block number and no timestamp comes through: on the page of its chain, the server reads the address
that the link names, up to the case of its letters, and its block and amount. -/
theorem link_round_trip (now : Datetime.Utc) {Quote : Type} {s : QuoteForm Quote} {request : Request}
    (asks : request = QuoteForm.linkedRequest bundle toUpperCase getTime params field amount s address)
    (built : buildTokenIndex bundle lists = .ok s.field.index) (valid : isValidAddress request.token = true)
    (typed : run BlockField.step ⟨"",.text⟩ events = some field) (slashless : ∀ event ∈ events, BlockField.Slashless event)
    (untimed : params.getTruthy "timestamp" = none) {text : String} {n : Nat} (named : params.getTruthy "block" = some text)
    (number : trim text = n.repr) (positive : 0 < n) (bounded : (n : Int) ≤ maxBlock) {parsedAmount : Option Rat}
    (accepted : (parseAmount (linkedAmountParam params amount)).Yields parsedAmount) :
    bundle.toLowerCase request.token = bundle.toLowerCase address ∧
      (priceQuery now (fetchPrice request.token request.block request.amount).pairs).Yields
        ⟨request.token,some n,parsedAmount,[],none⟩ := by
  have token : request.token = shownFor bundle toUpperCase s.field.index (chainIds ((linkedChain params).getD s.chain)) address := by
    rw [asks,QuoteForm.linkedRequest]
  constructor
  · rw [token] at valid ⊢
    refine shownFor_same built _ fun usd => ?_
    rw [usd] at valid
    exact absurd valid (by decide)
  · have block : request.block = linkedBlockParam getTime params field := by rw [asks,QuoteForm.linkedRequest]
    have amounts : request.amount = linkedAmountParam params amount := by rw [asks,QuoteForm.linkedRequest]
    have sent : linkedBlockParam getTime params field = some n.repr := linkedBlockParam_text typed slashless untimed named number
    have given : n.repr ≠ "" := fun empty => absurd (congrArg String.length empty) (by simp)
    rw [priceQuery_fetchPrice,parsePriceParams_untimed now valid,block,amounts,sent,linkedAmountParam,orUndefined_filter]
    rw [linkedAmountParam] at accepted
    refine ⟨some n,parsedAmount,?_,accepted,rfl⟩
    rw [Option.filter_some,if_pos (decide_eq_true given)]
    exact parseBlock_repr positive bounded

end

/-- A link to a listed token in small letters, opened after something was typed in the block field. -/
def usdcLink : URLSearchParams :=
  ⟨[("chain","base"),("token","0x833589fcd6edb6e08f4c7c32d4f71b54bda02913"),("block"," 18000000"),("amount","2.5")]⟩

def usdcForm : QuoteForm Nat :=
  QuoteForm.mount ⟨"",[],asciiLower⟩ id .ethereum Session.builtinIndex (some "USD")

theorem link_round_trip_base :
    (Server.priceQuery Server.november (fetchPrice "0x833589fCD6eDb6E08f4c7C32D4f71b54bdA02913" (some "18000000") (some "2.5")).pairs).Yields
      ⟨"0x833589fCD6eDb6E08f4c7C32D4f71b54bdA02913",some 18000000,some (5/2),[],none⟩ := by
  have asks : (⟨.base,"0x833589fCD6eDb6E08f4c7C32D4f71b54bdA02913",some "18000000",some "2.5"⟩ : Request) =
      QuoteForm.linkedRequest ⟨"",[],asciiLower⟩ id (fun _ => none) usdcLink ⟨"19",.text⟩ "" usdcForm
        "0x833589fcd6edb6e08f4c7c32d4f71b54bda02913" := by decide +kernel
  have built : buildTokenIndex ⟨"",[],asciiLower⟩ [builtinList] = .ok usdcForm.field.index := by rfl
  have typed : run BlockField.step ⟨"",.text⟩ [.input "1",.input "19"] = some ⟨"19",.text⟩ := by rfl
  have slashless : ∀ event ∈ [BlockField.Event.input "1",.input "19"], BlockField.Slashless event := by
    simp [BlockField.Slashless]
  have number : trim " 18000000" = (18000000 : Nat).repr := by decide +kernel
  have sent : linkedAmountParam usdcLink "" = some "2.5" := by decide +kernel
  have numeral : Python.Numerals.decimalOf "2.5".toList = some (.finite (5/2)) := by decide +kernel
  have read : Server.decimal "2.5" = .ok (.finite (5/2)) := by rw [Server.decimal,numeral]
  have accepted : (Server.parseAmount (linkedAmountParam usdcLink "")).Yields (some (5/2)) := by
    rw [sent]
    simp [Server.parseAmount,read,Server.positive]
  exact (link_round_trip Server.november asks built (by decide) typed slashless (by decide) rfl number (by decide) (by decide)
    accepted).2

end YPriceMagic.Frontend
