import YPriceMagic.Frontend.Autocomplete

/-! The quote form: submits that overlap, with one loading flag and one abort controller between
them. -/
namespace YPriceMagic.Frontend
open YPriceMagic.Async

/-- The arguments of `fetchPrice`. -/
structure Request where
  chain : Chain
  token : String
  block : Option String
  amount : Option String
  deriving DecidableEq, Repr

/-- Where a `handleSubmit` waits: for `checkUnknownToken`, for its dialog, for the price, or for
the rejection of a fetch that has been aborted. -/
inductive Phase
  | checking
  | asking
  | inFlight (request : Request)
  | aborted
  | settled
  deriving DecidableEq, Repr

/-- One `handleSubmit`. `current` is not in the code: since it began no other one has, and neither
the field nor the chain has changed. -/
structure Call where
  fromAddr : String
  phase : Phase
  current : Bool
  deriving DecidableEq, Repr

def Phase.isInFlight : Phase → Bool
  | .inFlight _ => true
  | _ => false

def Call.abort (call : Call) : Call := if call.phase.isInFlight then {call with phase := .aborted} else call

/-- The dialog's answer resolves the promise that the call waits for. -/
def Call.resume (phase : Phase) (call : Call) : Call := if call.phase = .asking then {call with phase} else call

def Call.outdate (call : Call) : Call := {call with current := false}

/-- The component with its child field. `asking` is the call whose dialog is shown, and
`abortController` the one whose fetch it aborts. -/
structure QuoteForm (Quote : Type) where
  chain : Chain
  field : Autocomplete
  fromAddress : String
  blockParam : Option String
  amountParam : Option String
  loading : Bool
  error : Option String
  result : Option Quote
  resultAmount : Option String
  asking : Option Nat
  abortController : Option Nat
  calls : List Call

/-- `save` carries the index after `addLocalToken`, or `none` where that throws. -/
inductive Answer
  | save (index : Option TokenIndex)
  | goOn
  | reject

/-- `pairFrom` is the token of the effective pair, or `none` where `getEffectivePair` throws;
`fail` and `unwind` carry the error that is shown, `none` for an AbortError. -/
inductive FormAction (Quote : Type)
  | field (event : FieldEvent)
  | changeChain (chain : Chain) (pairFrom : Option String)
  | changeIndex (index : TokenIndex)
  | setFromAddress (address : String)
  | setBlock (blockParam : Option String)
  | setAmount (amountParam : Option String)
  | submit
  | answer (answer : Answer)
  | proceed (k : Nat)
  | respond (k : Nat) (quote : Quote)
  | fail (k : Nat) (error : Option String)
  | unwind (k : Nat) (error : Option String)

/-- What the user does to the field; the rest is done to its props. -/
def FieldEvent.byUser : FieldEvent → Bool
  | .changeChain _ | .changeIndex _ | .changeInitial _ | .setFromAddress _ => false
  | _ => true

/-- The address that `onselect` is called with. -/
def Autocomplete.selected (trim : String → String) (s next : Autocomplete) : FieldEvent → Option String
  | .enter => (s.handleEnter trim).2.map (·.2)
  | .pick _ => some next.inputAddress
  | .clear => some ""
  | _ => none

namespace QuoteForm

variable {Quote : Type}

def abortPending (s : QuoteForm Quote) : QuoteForm Quote :=
  match s.abortController with
  | some k => {s with calls := s.calls.modify k Call.abort,abortController := none}
  | none => s

def cancelIfLoading (s : QuoteForm Quote) : QuoteForm Quote :=
  if s.loading then {s.abortPending with loading := false,result := none,error := none} else s

section
variable (bundle : Bundle) (localeCompare : String → String → Int) (toUpperCase trim : String → String)

/-- The prop `initialAddress` follows `fromAddress`. -/
def passAddress (s : QuoteForm Quote) : QuoteForm Quote :=
  if s.field.initialAddress = some s.fromAddress then s
  else {s with field := Autocomplete.prefill bundle toUpperCase {s.field with initialAddress := some s.fromAddress}}

def handleFromSelect (s : QuoteForm Quote) (address : String) : QuoteForm Quote :=
  passAddress bundle toUpperCase {s.cancelIfLoading with fromAddress := address}

def setFromAddress (s : QuoteForm Quote) (address : String) : QuoteForm Quote :=
  passAddress bundle toUpperCase {s with field := s.field.setFromAddress bundle toUpperCase address,fromAddress := address}

def handleField (s : QuoteForm Quote) (event : FieldEvent) : Option (QuoteForm Quote) :=
  if event.byUser = false then none
  else (s.field.step bundle localeCompare toUpperCase trim event).map fun field =>
    match event with
    | .input _ => cancelIfLoading {s with field}
    | _ =>
      match s.field.selected trim field event with
      | some address => handleFromSelect bundle toUpperCase {s with field} address
      | none => {s with field}

/-- The effect of the form on another chain; the field searches again first. -/
def changeChain (s : QuoteForm Quote) (chain : Chain) (pairFrom : Option String) : QuoteForm Quote :=
  if chain = s.chain then s
  else
    let field := Autocomplete.searchAgain bundle localeCompare trim {s.field with chain := chainIds chain}
    let reset := {abortPending {s with chain,field} with loading := false,result := none,error := none}
    match pairFrom with
    | some address => reset.setFromAddress bundle toUpperCase address
    | none => reset

def changeIndex (s : QuoteForm Quote) (index : TokenIndex) : QuoteForm Quote :=
  {s with field := (Autocomplete.searchAgain bundle localeCompare trim {s.field with index}).prefill bundle toUpperCase}

/-- The form when it is mounted. -/
def mount (chain : Chain) (index : TokenIndex) (pairFrom : Option String) : QuoteForm Quote :=
  let blank : QuoteForm Quote := {
    chain
    field := Autocomplete.mount bundle toUpperCase (chainIds chain) index (some "")
    fromAddress := ""
    blockParam := none
    amountParam := none
    loading := false
    error := none
    result := none
    resultAmount := none
    asking := none
    abortController := none
    calls := []}
  match pairFrom with
  | some address => blank.setFromAddress bundle toUpperCase address
  | none => blank

/-- `checkUnknownToken` answers without a dialog. -/
def proceeds (s : QuoteForm Quote) : Bool :=
  !isHexAddr s.field.getValue || isTokenInIndex bundle toUpperCase s.field.index s.field.getValue (some (chainIds s.chain)) ||
    !s.field.wasUserEdited

/-- `handleSubmit` up to its first `await`. -/
def submit (s : QuoteForm Quote) : QuoteForm Quote :=
  let cleared := {s.abortPending with result := none,error := none}
  let k := s.calls.length
  let call (phase : Phase) : Call := ⟨s.field.getValue,phase,true⟩
  if s.proceeds bundle toUpperCase then {cleared with calls := cleared.calls.map Call.outdate++[call .checking]}
  else {cleared with calls := cleared.calls.map Call.outdate++[call .asking],asking := some k}

def answerDialog (s : QuoteForm Quote) (answer : Answer) : Option (QuoteForm Quote) := do
  let k ← s.asking
  let moved (phase : Phase) : QuoteForm Quote :=
    {s with asking := none,calls := s.calls.modify k (Call.resume phase)}
  match answer with
  | .save (some index) => some ((moved .checking).changeIndex bundle localeCompare toUpperCase trim index)
  | .save none => some {s with asking := none}
  | .goOn => some (moved .checking)
  | .reject => some (moved .settled)

end

/-- `handleSubmit` from `checkUnknownToken` to `fetchPrice`. -/
def proceed (s : QuoteForm Quote) (k : Nat) : Option (QuoteForm Quote) := do
  let call ← s.calls[k]?
  if call.phase = .checking then
    let request : Request := ⟨s.chain,call.fromAddr,s.blockParam,s.amountParam⟩
    some {s with
      resultAmount := s.amountParam
      abortController := some k
      loading := true
      calls := s.calls.set k {call with phase := .inFlight request}}
  else none

/-- The `finally` of `handleSubmit`. -/
def settle (s : QuoteForm Quote) (k : Nat) (call : Call) : QuoteForm Quote :=
  {s with loading := false,calls := s.calls.set k {call with phase := .settled}}

def respond (s : QuoteForm Quote) (k : Nat) (quote : Quote) : Option (QuoteForm Quote) := do
  let call ← s.calls[k]?
  if call.phase.isInFlight then some (settle {s with result := some quote} k call) else none

/-- The fetch rejects, for an abort or for another reason. -/
def rejected (s : QuoteForm Quote) (k : Nat) (error : Option String) (waits : Phase → Bool) : Option (QuoteForm Quote) := do
  let call ← s.calls[k]?
  if waits call.phase then some (settle {s with error := error <|> s.error} k call) else none

section
variable (bundle : Bundle) (localeCompare : String → String → Int) (toUpperCase trim : String → String)

def act (s : QuoteForm Quote) : FormAction Quote → Option (QuoteForm Quote)
  | .field event => s.handleField bundle localeCompare toUpperCase trim event
  | .changeChain chain pairFrom => some (s.changeChain bundle localeCompare toUpperCase trim chain pairFrom)
  | .changeIndex index => some (s.changeIndex bundle localeCompare toUpperCase trim index)
  | .setFromAddress address => some (s.setFromAddress bundle toUpperCase address)
  | .setBlock blockParam => some {s with blockParam}
  | .setAmount amountParam => some {s with amountParam}
  | .submit => some (s.submit bundle toUpperCase)
  | .answer answer => s.answerDialog bundle localeCompare toUpperCase trim answer
  | .proceed k => s.proceed k
  | .respond k quote => s.respond k quote
  | .fail k error => s.rejected k error Phase.isInFlight
  | .unwind k error => s.rejected k error fun phase => decide (phase = .aborted)

/-- The step, after which no earlier call is current where the field or the chain has changed. -/
def step (s : QuoteForm Quote) (action : FormAction Quote) : Option (QuoteForm Quote) :=
  (s.act bundle localeCompare toUpperCase trim action).map fun next =>
    if next.field.getValue = s.field.getValue ∧ next.chain = s.chain then next
    else {next with calls := next.calls.map Call.outdate}

end

section
variable (bundle : Bundle) (localeCompare : String → String → Int) (toUpperCase trim : String → String)

/-- No request is in flight. -/
def Idle (s : QuoteForm Quote) : Prop := ∀ call ∈ s.calls, call.phase.isInFlight = false

/-- A request goes out for the current call, while no other one is in flight or has yet to notice
that it is aborted; and the program changes the field's text only while none is in flight. -/
def Careful (s : QuoteForm Quote) : FormAction Quote → Prop
  | .proceed k => ∀ i < s.calls.length, ∀ call ∈ s.calls[i]?,
      if i = k then call.current = true else call.phase.isInFlight = false ∧ call.phase ≠ .aborted
  | .setFromAddress address => s.Idle ∨ (s.setFromAddress bundle toUpperCase address).field.getValue = s.field.getValue
  | .changeIndex index | .answer (.save (some index)) =>
      s.Idle ∨ (s.changeIndex bundle localeCompare toUpperCase trim index).field.getValue = s.field.getValue
  | _ => True

end

instance (s : QuoteForm Quote) : Decidable s.Idle := inferInstanceAs (Decidable (∀ call ∈ s.calls, _ = false))

instance (s : QuoteForm Quote) : (action : FormAction Quote) → Decidable (s.Careful bundle localeCompare toUpperCase trim action)
  | .proceed k => inferInstanceAs (Decidable (∀ i < s.calls.length, ∀ call ∈ s.calls[i]?,
      if i = k then call.current = true else call.phase.isInFlight = false ∧ call.phase ≠ .aborted))
  | .setFromAddress _ | .changeIndex _ | .answer (.save (some _)) => inferInstanceAs (Decidable (_ ∨ _ = _))
  | .field _ | .changeChain _ _ | .setBlock _ | .setAmount _ | .submit | .answer (.save none) | .answer .goOn | .answer .reject
  | .respond _ _ | .fail _ _ | .unwind _ _ => .isTrue trivial

/-- The request in flight is the current call's, for what the form shows, and the one that an edit
would abort. -/
structure Orderly (s : QuoteForm Quote) : Prop where
  owned : ∀ (k : Nat) call request, s.calls[k]? = some call → call.phase = .inFlight request →
    s.abortController = some k ∧ s.loading = true ∧ call.current = true ∧ request.chain = s.chain ∧
      request.token = s.field.getValue
  calm : ¬s.Idle → ∀ call ∈ s.calls, call.phase ≠ .aborted
  stamped : ∀ call ∈ s.calls, call.current = true → call.fromAddr = s.field.getValue

variable {bundle : Bundle} {localeCompare : String → String → Int} {toUpperCase trim : String → String}
  {s next : QuoteForm Quote}

theorem Phase.inFlight_of_is {phase : Phase} (flies : phase.isInFlight = true) : ∃ request, phase = .inFlight request := by
  cases phase with
  | inFlight request => exact ⟨request,rfl⟩
  | _ => cases flies

theorem Idle.of_getElem? (rests : ∀ (i : Nat) call, s.calls[i]? = some call → ¬call.phase.isInFlight = true) : s.Idle := by
  intro call member
  obtain ⟨i,found⟩ := List.mem_iff_getElem?.mp member
  exact Bool.not_eq_true _ ▸ rests i call found

theorem Idle.rests (idle : s.Idle) {i : Nat} {call : Call} (found : s.calls[i]? = some call) : ¬call.phase.isInFlight = true :=
  Bool.eq_false_iff.mp (idle call (List.mem_of_getElem? found))

theorem Orderly.of_idle (idle : s.Idle) (stamped : ∀ call ∈ s.calls, call.current = true → call.fromAddr = s.field.getValue) :
    s.Orderly := by
  refine ⟨fun k call request found flies => ?_,fun busy => absurd idle busy,stamped⟩
  have rests := idle.rests found
  rw [flies] at rests
  exact absurd rfl rests

/-- The call comes from an earlier one without a new request or abort. -/
def Continues (old call : Call) : Prop :=
  call.fromAddr = old.fromAddr ∧ (call.current = true → old.current = true) ∧
    (call.phase.isInFlight = true → call = old) ∧ (call.phase = .aborted → old.phase = .aborted)

theorem Continues.refl (call : Call) : Continues call call := ⟨rfl,id,fun _ => rfl,id⟩

theorem Continues.resume {phase : Phase} (call : Call) (rests : phase.isInFlight = false) (unaborted : phase ≠ .aborted) :
    Continues call (call.resume phase) := by
  unfold Call.resume
  split
  · exact ⟨rfl,id,fun flies => absurd flies (by simp [rests]),fun aborted => absurd aborted unaborted⟩
  · exact Continues.refl call

theorem Idle.continues (idle : s.Idle)
    (calls : ∀ (i : Nat) call, next.calls[i]? = some call → ∃ old, s.calls[i]? = some old ∧ Continues old call) : next.Idle := by
  apply Idle.of_getElem?
  intro i call found flies
  obtain ⟨old,there,_,_,same,_⟩ := calls i call found
  obtain rfl := same flies
  exact idle.rests there flies

/-- What the calls do, when the form shows what it showed. -/
theorem Orderly.steady (orderly : s.Orderly)
    (calls : ∀ (i : Nat) call, next.calls[i]? = some call → ∃ old, s.calls[i]? = some old ∧ Continues old call)
    (loading : next.loading = s.loading) (controller : next.abortController = s.abortController) (chain : next.chain = s.chain)
    (value : next.field.getValue = s.field.getValue) : next.Orderly := by
  refine ⟨fun k call request found flies => ?_,fun busy call member aborted => ?_,fun call member current => ?_⟩
  · obtain ⟨old,there,_,_,same,_⟩ := calls k call found
    have flying : call.phase.isInFlight = true := by rw [flies]; rfl
    obtain rfl := same flying
    rw [loading,controller,chain,value]
    exact orderly.owned k call request there flies
  · obtain ⟨i,found⟩ := List.mem_iff_getElem?.mp member
    obtain ⟨old,there,_,_,_,was⟩ := calls i call found
    exact orderly.calm (fun idle => busy (idle.continues calls)) old (List.mem_of_getElem? there) (was aborted)
  · obtain ⟨i,found⟩ := List.mem_iff_getElem?.mp member
    obtain ⟨old,there,text,was,_⟩ := calls i call found
    rw [text,value]
    exact orderly.stamped old (List.mem_of_getElem? there) (was current)

/-- The controller reaches the request in flight, and the flag says that there is one. -/
def Owned (s : QuoteForm Quote) : Prop :=
  ∀ (k : Nat) call, s.calls[k]? = some call → call.phase.isInFlight = true → s.abortController = some k ∧ s.loading = true

theorem Orderly.toOwned (orderly : s.Orderly) : s.Owned := by
  intro k call found flies
  obtain ⟨request,phase⟩ := Phase.inFlight_of_is flies
  obtain ⟨controller,loading,_⟩ := orderly.owned k call request found phase
  exact ⟨controller,loading⟩

theorem Call.abort_rests (call : Call) : call.abort.phase.isInFlight = false := by
  unfold Call.abort
  split
  · rfl
  · rename_i rests
    exact Bool.not_eq_true _ ▸ rests

theorem Owned.abortPending (owned : s.Owned) : s.abortPending.Idle := by
  apply Idle.of_getElem?
  intro i call found flies
  unfold QuoteForm.abortPending at found
  cases controller : s.abortController with
  | none =>
    rw [controller] at found
    rw [(owned i call found flies).1] at controller
    cases controller
  | some k =>
    rw [controller] at found
    dsimp only at found
    rw [List.getElem?_modify] at found
    obtain ⟨old,there,rfl⟩ := Option.map_eq_some_iff.mp found
    by_cases own : k = i
    · rw [if_pos own,Call.abort_rests] at flies
      cases flies
    · rw [if_neg own] at flies
      exact own (Option.some.inj (controller.symm.trans (owned i old there flies).1))

theorem Owned.cancelIfLoading (owned : s.Owned) : s.cancelIfLoading.Idle := by
  unfold QuoteForm.cancelIfLoading
  split
  · exact owned.abortPending
  · rename_i still
    apply Idle.of_getElem?
    intro i call found flies
    exact still (owned i call found flies).2

/-- Each call that is current was made for this text. -/
def Stamped (value : String) (calls : List Call) : Prop := ∀ call ∈ calls, call.current = true → call.fromAddr = value

variable {value : String} {calls : List Call}

theorem Stamped.outdate (value : String) (calls : List Call) : Stamped value (calls.map Call.outdate) := by
  intro call member current
  obtain ⟨old,_,rfl⟩ := List.mem_map.mp member
  cases current

theorem Stamped.modify (stamped : Stamped value calls) (k : Nat) {f : Call → Call}
    (same : ∀ call, (f call).fromAddr = call.fromAddr ∧ (f call).current = call.current) : Stamped value (calls.modify k f) := by
  intro call member current
  obtain ⟨i,found⟩ := List.mem_iff_getElem?.mp member
  rw [List.getElem?_modify] at found
  obtain ⟨old,there,rfl⟩ := Option.map_eq_some_iff.mp found
  have listed := List.mem_of_getElem? there
  split at current
  · rename_i own
    rw [if_pos own,(same old).1]
    exact stamped old listed ((same old).2 ▸ current)
  · rename_i other
    rw [if_neg other]
    exact stamped old listed current

theorem Stamped.set (stamped : Stamped value calls) {k : Nat} {call : Call} (found : calls[k]? = some call) (phase : Phase) :
    Stamped value (calls.set k {call with phase}) := by
  intro other member current
  rcases List.mem_or_eq_of_mem_set member with old | rfl
  · exact stamped other old current
  · exact stamped call (List.mem_of_getElem? found) current

theorem Stamped.abortPending (stamped : Stamped value s.calls) : Stamped value s.abortPending.calls := by
  unfold QuoteForm.abortPending
  split
  · refine stamped.modify _ fun call => ?_
    unfold Call.abort
    split <;> exact ⟨rfl,rfl⟩
  · exact stamped

theorem Stamped.cancelIfLoading (stamped : Stamped value s.calls) : Stamped value s.cancelIfLoading.calls := by
  unfold QuoteForm.cancelIfLoading
  split
  · exact stamped.abortPending
  · exact stamped

theorem passAddress_calls (s : QuoteForm Quote) : (s.passAddress bundle toUpperCase).calls = s.calls := by
  unfold passAddress
  split <;> rfl

theorem passAddress_chain (s : QuoteForm Quote) : (s.passAddress bundle toUpperCase).chain = s.chain := by
  unfold passAddress
  split <;> rfl

theorem Idle.of_calls (idle : s.Idle) (same : next.calls = s.calls) : next.Idle := by
  intro call member
  exact idle call (same ▸ member)

theorem settle_idle (owned : s.Owned) {k : Nat} {call : Call} (found : s.calls[k]? = some call)
    (flies : call.phase.isInFlight = true) : (s.settle k call).Idle := by
  apply Idle.of_getElem?
  intro i other there busy
  unfold settle at there
  dsimp only at there
  by_cases own : k = i
  · rw [← own,List.getElem?_set_self',found] at there
    cases Option.some.inj there
    cases busy
  · rw [List.getElem?_set_ne own] at there
    have controller := (owned k call found flies).1
    rw [(owned i other there busy).1] at controller
    exact own (Option.some.inj controller).symm

theorem Idle.settle (idle : s.Idle) (k : Nat) (call : Call) : (s.settle k call).Idle := by
  intro other member
  rcases List.mem_or_eq_of_mem_set member with old | rfl
  · exact idle other old
  · rfl

/-- What the user does to the field without a selection leaves its text. -/
theorem unselected_getValue {field next : Autocomplete} {event : FieldEvent} (user : event.byUser = true)
    (untyped : ∀ value, event ≠ .input value) (unselected : field.selected trim next event = none)
    (stepped : field.step bundle localeCompare toUpperCase trim event = some next) : next.getValue = field.getValue := by
  cases event with
  | input value => exact absurd rfl (untyped value)
  | changeChain chain | changeIndex index | changeInitial address | setFromAddress address => cases user
  | clear | pick i => cases unselected
  | focus | blurred | escape | tab =>
    cases Option.some.inj stepped
    rfl
  | debounce =>
    obtain rfl := Autocomplete.step_debounce stepped
    exact Autocomplete.doSearch_getValue field
  | arrowDown =>
    cases Option.some.inj stepped
    unfold Autocomplete.handleArrowDown
    split <;> rfl
  | arrowUp =>
    cases Option.some.inj stepped
    unfold Autocomplete.handleArrowUp
    split <;> rfl
  | enter =>
    cases Option.some.inj stepped
    rw [Autocomplete.handleEnter_none field (Option.map_eq_none_iff.mp unselected)]
  | hover i =>
    obtain ⟨_,rfl⟩ := Autocomplete.hover_cases stepped
    rfl

/-- After a step that leaves no request in flight. -/
theorem Orderly.stamp_idle (idle : next.Idle) (stamped : Stamped s.field.getValue next.calls) :
    (if next.field.getValue = s.field.getValue ∧ next.chain = s.chain then next
      else {next with calls := next.calls.map Call.outdate} : QuoteForm Quote).Orderly := by
  split
  · rename_i same
    exact .of_idle idle fun call member current => (stamped call member current).trans same.1.symm
  · refine .of_idle (fun call member => ?_) (Stamped.outdate _ _)
    obtain ⟨old,listed,rfl⟩ := List.mem_map.mp member
    exact idle old listed

theorem Orderly.stamp_same (orderly : next.Orderly) (value : next.field.getValue = s.field.getValue) (chain : next.chain = s.chain) :
    (if next.field.getValue = s.field.getValue ∧ next.chain = s.chain then next
      else {next with calls := next.calls.map Call.outdate} : QuoteForm Quote).Orderly := by
  rw [if_pos ⟨value,chain⟩]
  exact orderly

/-- What a step has to show of the state that it comes to, before calls are outdated. -/
def Passes (s next : QuoteForm Quote) : Prop :=
  (next.Idle ∧ Stamped s.field.getValue next.calls) ∨
    (next.Orderly ∧ next.field.getValue = s.field.getValue ∧ next.chain = s.chain)

/-- The calls, the flag and the controller are left alone. -/
theorem Orderly.passes (orderly : s.Orderly) (calls : next.calls = s.calls) (loading : next.loading = s.loading)
    (controller : next.abortController = s.abortController) (chain : next.chain = s.chain)
    (shown : s.Idle ∨ next.field.getValue = s.field.getValue) : Passes s next := by
  rcases shown with idle | value
  · exact Or.inl ⟨idle.of_calls calls,calls ▸ orderly.stamped⟩
  · refine Or.inr ⟨orderly.steady (fun i call found => ⟨call,calls ▸ found,.refl call⟩) loading controller chain value,value,chain⟩

theorem handleField_passes {event : FieldEvent} (orderly : s.Orderly)
    (moved : s.handleField bundle localeCompare toUpperCase trim event = some next) : Passes s next := by
  unfold handleField at moved
  split at moved
  · cases moved
  · rename_i user
    obtain ⟨field,stepped,rfl⟩ := Option.map_eq_some_iff.mp moved
    have selected (address : String) : Passes s (handleFromSelect bundle toUpperCase {s with field} address) := by
      have owned : Owned {s with field} := orderly.toOwned
      refine Or.inl ⟨owned.cancelIfLoading.of_calls (passAddress_calls _),?_⟩
      unfold handleFromSelect
      rw [passAddress_calls]
      exact Stamped.cancelIfLoading orderly.stamped
    have unselected (unselected : s.field.selected trim field event = none) (untyped : ∀ value, event ≠ .input value) :
        Passes s {s with field} :=
      orderly.passes rfl rfl rfl rfl (Or.inr (unselected_getValue (by simpa using user) untyped unselected stepped))
    split
    · have owned : Owned {s with field} := orderly.toOwned
      exact Or.inl ⟨owned.cancelIfLoading,Stamped.cancelIfLoading orderly.stamped⟩
    · rename_i typed
      split
      · exact selected _
      · rename_i none
        exact unselected none typed

theorem setFromAddress_calls (s : QuoteForm Quote) (address : String) :
    (s.setFromAddress bundle toUpperCase address).calls = s.calls := passAddress_calls _

theorem passAddress_rest (s : QuoteForm Quote) : (s.passAddress bundle toUpperCase).loading = s.loading ∧
    (s.passAddress bundle toUpperCase).abortController = s.abortController := by
  unfold passAddress
  split <;> exact ⟨rfl,rfl⟩

theorem changeChain_passes {chain : Chain} {pairFrom : Option String} (orderly : s.Orderly) :
    Passes s (s.changeChain bundle localeCompare toUpperCase trim chain pairFrom) := by
  unfold changeChain
  split
  · exact Or.inr ⟨orderly,rfl,rfl⟩
  · dsimp only
    generalize Autocomplete.searchAgain bundle localeCompare trim _ = field
    have owned : Owned {s with chain,field} := orderly.toOwned
    have stamped : Stamped s.field.getValue (abortPending {s with chain,field}).calls := Stamped.abortPending orderly.stamped
    cases pairFrom with
    | none => exact Or.inl ⟨owned.abortPending,stamped⟩
    | some address =>
      refine Or.inl ⟨owned.abortPending.of_calls (setFromAddress_calls _ _),?_⟩
      rw [setFromAddress_calls]
      exact stamped

theorem setFromAddress_passes {address : String} (orderly : s.Orderly)
    (shown : s.Idle ∨ (s.setFromAddress bundle toUpperCase address).field.getValue = s.field.getValue) :
    Passes s (s.setFromAddress bundle toUpperCase address) :=
  orderly.passes (setFromAddress_calls _ _) (passAddress_rest _).1 (passAddress_rest _).2 (passAddress_chain _) shown

theorem submit_passes (orderly : s.Orderly) : Passes s (s.submit bundle toUpperCase) := by
  have idle := orderly.toOwned.abortPending
  have outdated (call : Call) (member : call ∈ s.abortPending.calls.map Call.outdate) :
      call.phase.isInFlight = false ∧ call.current = false := by
    obtain ⟨old,listed,rfl⟩ := List.mem_map.mp member
    exact ⟨idle old listed,rfl⟩
  have added (phase : Phase) (rests : phase.isInFlight = false) (next : QuoteForm Quote)
      (calls : next.calls = s.abortPending.calls.map Call.outdate++[⟨s.field.getValue,phase,true⟩]) : Passes s next := by
    refine Or.inl ⟨fun call member => ?_,fun call member current => ?_⟩
    · rcases List.mem_append.mp (calls ▸ member) with old | new
      · exact (outdated call old).1
      · obtain rfl := List.mem_singleton.mp new
        exact rests
    · rcases List.mem_append.mp (calls ▸ member) with old | new
      · rw [(outdated call old).2] at current
        cases current
      · obtain rfl := List.mem_singleton.mp new
        rfl
  unfold submit
  dsimp only
  split
  · exact added .checking rfl _ rfl
  · exact added .asking rfl _ rfl

theorem answerDialog_passes {answer : Answer} (orderly : s.Orderly)
    (shown : ∀ index, answer = .save (some index) →
      s.Idle ∨ (s.changeIndex bundle localeCompare toUpperCase trim index).field.getValue = s.field.getValue)
    (moved : s.answerDialog bundle localeCompare toUpperCase trim answer = some next) : Passes s next := by
  obtain ⟨k,asked,moved⟩ := Option.bind_eq_some_iff.mp moved
  have resumed (phase : Phase) (rests : phase.isInFlight = false) (unaborted : phase ≠ .aborted) (next : QuoteForm Quote)
      (calls : next.calls = s.calls.modify k (Call.resume phase)) (loading : next.loading = s.loading)
      (controller : next.abortController = s.abortController) (chain : next.chain = s.chain)
      (value : s.Idle ∨ next.field.getValue = s.field.getValue) : Passes s next := by
    have comes (i : Nat) (call : Call) (found : next.calls[i]? = some call) : ∃ old, s.calls[i]? = some old ∧ Continues old call := by
      rw [calls,List.getElem?_modify] at found
      obtain ⟨old,there,rfl⟩ := Option.map_eq_some_iff.mp found
      refine ⟨old,there,?_⟩
      split
      · exact .resume old rests unaborted
      · exact .refl old
    rcases value with idle | value
    · refine Or.inl ⟨idle.continues comes,?_⟩
      rw [calls]
      refine Stamped.modify orderly.stamped k fun call => ?_
      unfold Call.resume
      split <;> exact ⟨rfl,rfl⟩
    · exact Or.inr ⟨orderly.steady comes loading controller chain value,value,chain⟩
  cases answer with
  | save index =>
    cases index with
    | none =>
      cases Option.some.inj moved
      exact orderly.passes rfl rfl rfl rfl (Or.inr rfl)
    | some index =>
      cases Option.some.inj moved
      exact resumed .checking rfl (by decide) _ rfl rfl rfl rfl (shown index rfl)
  | goOn =>
    cases Option.some.inj moved
    exact resumed .checking rfl (by decide) _ rfl rfl rfl rfl (Or.inr rfl)
  | reject =>
    cases Option.some.inj moved
    exact resumed .settled rfl (by decide) _ rfl rfl rfl rfl (Or.inr rfl)

theorem proceed_passes {k : Nat} (orderly : s.Orderly) (careful : ∀ i < s.calls.length, ∀ call ∈ s.calls[i]?,
      if i = k then call.current = true else call.phase.isInFlight = false ∧ call.phase ≠ .aborted)
    (moved : s.proceed k = some next) : Passes s next := by
  obtain ⟨call,found,moved⟩ := Option.bind_eq_some_iff.mp moved
  split at moved
  · rename_i checking
    cases Option.some.inj moved
    have rests (i : Nat) (other : Call) (there : s.calls[i]? = some other) (differs : i ≠ k) :
        other.phase.isInFlight = false ∧ other.phase ≠ .aborted := by
      have alone := careful i (List.getElem?_eq_some_iff.mp there).1 other there
      rwa [if_neg differs] at alone
    have place (i : Nat) (other : Call) (there : (s.calls.set k {call with
        phase := .inFlight ⟨s.chain,call.fromAddr,s.blockParam,s.amountParam⟩})[i]? = some other) :
        (i = k ∧ other = {call with phase := .inFlight ⟨s.chain,call.fromAddr,s.blockParam,s.amountParam⟩}) ∨
        (i ≠ k ∧ s.calls[i]? = some other) := by
      by_cases own : k = i
      · subst own
        rw [List.getElem?_set_self',found] at there
        exact Or.inl ⟨rfl,(Option.some.inj there).symm⟩
      · rw [List.getElem?_set_ne own] at there
        exact Or.inr ⟨Ne.symm own,there⟩
    have current : call.current = true := by
      have own := careful k (List.getElem?_eq_some_iff.mp found).1 call found
      rwa [if_pos rfl] at own
    refine Or.inr ⟨⟨fun i other request there flies => ?_,fun _ other member aborted => ?_,
      Stamped.set orderly.stamped found _⟩,rfl,rfl⟩
    · rcases place i other there with ⟨rfl,rfl⟩ | ⟨differs,before⟩
      · obtain rfl := Phase.inFlight.inj flies
        exact ⟨rfl,rfl,current,rfl,orderly.stamped call (List.mem_of_getElem? found) current⟩
      · have none := (rests i other before differs).1
        rw [flies] at none
        cases none
    · obtain ⟨i,there⟩ := List.mem_iff_getElem?.mp member
      rcases place i other there with ⟨_,rfl⟩ | ⟨differs,before⟩
      · cases aborted
      · exact (rests i other before differs).2 aborted
  · cases moved

theorem respond_passes {k : Nat} {quote : Quote} (orderly : s.Orderly) (moved : s.respond k quote = some next) : Passes s next := by
  obtain ⟨call,found,moved⟩ := Option.bind_eq_some_iff.mp moved
  split at moved
  · rename_i flies
    cases Option.some.inj moved
    have owned : Owned {s with result := some quote} := orderly.toOwned
    exact Or.inl ⟨settle_idle owned found flies,Stamped.set orderly.stamped found _⟩
  · cases moved

theorem rejected_passes {k : Nat} {error : Option String} {waits : Phase → Bool} (orderly : s.Orderly)
    (kinds : ∀ phase, waits phase = true → phase.isInFlight = true ∨ phase = .aborted)
    (moved : s.rejected k error waits = some next) : Passes s next := by
  obtain ⟨call,found,moved⟩ := Option.bind_eq_some_iff.mp moved
  split at moved
  · rename_i waiting
    cases Option.some.inj moved
    refine Or.inl ⟨?_,Stamped.set orderly.stamped found _⟩
    rcases kinds call.phase waiting with flies | aborted
    · have owned : Owned {s with error := error <|> s.error} := orderly.toOwned
      exact settle_idle owned found flies
    · -- an aborted call excludes one in flight
      have idle : Idle {s with error := error <|> s.error} := by
        by_contra busy
        exact orderly.calm busy call (List.mem_of_getElem? found) aborted
      exact idle.settle k call
  · cases moved

theorem act_passes {action : FormAction Quote} (orderly : s.Orderly)
    (careful : s.Careful bundle localeCompare toUpperCase trim action)
    (moved : s.act bundle localeCompare toUpperCase trim action = some next) : Passes s next := by
  cases action with
  | field event => exact handleField_passes orderly moved
  | changeChain chain pairFrom =>
    cases Option.some.inj moved
    exact changeChain_passes orderly
  | changeIndex index =>
    cases Option.some.inj moved
    exact orderly.passes rfl rfl rfl rfl careful
  | setFromAddress address =>
    cases Option.some.inj moved
    exact setFromAddress_passes orderly careful
  | setBlock blockParam | setAmount amountParam =>
    cases Option.some.inj moved
    exact orderly.passes rfl rfl rfl rfl (Or.inr rfl)
  | submit =>
    cases Option.some.inj moved
    exact submit_passes orderly
  | answer answer =>
    refine answerDialog_passes orderly (fun index same => ?_) moved
    subst same
    exact careful
  | proceed k => exact proceed_passes orderly careful moved
  | respond k quote => exact respond_passes orderly moved
  | fail k error => exact rejected_passes orderly (fun _ => Or.inl) moved
  | unwind k error => exact rejected_passes orderly (fun _ aborted => Or.inr (of_decide_eq_true aborted)) moved

theorem step_orderly {action : FormAction Quote} (orderly : s.Orderly)
    (careful : s.Careful bundle localeCompare toUpperCase trim action)
    (stepped : s.step bundle localeCompare toUpperCase trim action = some next) : next.Orderly := by
  obtain ⟨acted,moved,rfl⟩ := Option.map_eq_some_iff.mp stepped
  rcases act_passes orderly careful moved with ⟨idle,stamped⟩ | ⟨after,value,chain⟩
  · exact Orderly.stamp_idle idle stamped
  · exact after.stamp_same value chain

theorem mount_orderly (chain : Chain) (index : TokenIndex) (pairFrom : Option String) :
    (mount bundle toUpperCase chain index pairFrom : QuoteForm Quote).Orderly := by
  have none : (mount bundle toUpperCase chain index pairFrom : QuoteForm Quote).calls = [] := by
    unfold mount
    cases pairFrom with
    | none => rfl
    | some address => exact setFromAddress_calls _ _
  refine .of_idle (fun call member => ?_) fun call member => ?_
  · rw [none] at member
    cases member
  · rw [none] at member
    cases member

/-- While a request that is not aborted is in flight, `loading` is true; and a response that is
stored belongs to the last submit, whose field and chain are still shown. -/
structure Belongs (s : QuoteForm Quote) : Prop where
  loading : ∀ call ∈ s.calls, call.phase.isInFlight = true → s.loading = true
  shown : ∀ k quote next, s.respond k quote = some next → ∃ call request, s.calls[k]? = some call ∧
    call.phase = .inFlight request ∧ call.current = true ∧ request.chain = s.chain ∧ request.token = s.field.getValue

/-- In every run that is careful, the quote that is displayed belongs to the form. -/
theorem displayed_quote_belongs (bundle : Bundle) (localeCompare : String → String → Int) (toUpperCase trim : String → String)
    (chain : Chain) (index : TokenIndex) (pairFrom : Option String) {actions : List (FormAction Quote)}
    (careful : Throughout (step bundle localeCompare toUpperCase trim) (Careful bundle localeCompare toUpperCase trim)
      (mount bundle toUpperCase chain index pairFrom) actions)
    (ran : run (step bundle localeCompare toUpperCase trim) (mount bundle toUpperCase chain index pairFrom) actions = some s) :
    s.Belongs := by
  have orderly : s.Orderly := run_preserves_throughout Orderly (Careful bundle localeCompare toUpperCase trim)
    (fun _ _ _ orderly careful => step_orderly orderly careful) (mount_orderly chain index pairFrom) careful ran
  refine ⟨fun call member flies => ?_,fun k quote next moved => ?_⟩
  · obtain ⟨k,found⟩ := List.mem_iff_getElem?.mp member
    exact (orderly.toOwned k call found flies).2
  · obtain ⟨call,found,rest⟩ := Option.bind_eq_some_iff.mp moved
    split at rest
    · rename_i flies
      obtain ⟨request,phase⟩ := Phase.inFlight_of_is flies
      obtain ⟨_,_,current,shown⟩ := orderly.owned k call request found phase
      exact ⟨call,request,found,phase,current,shown⟩
    · cases rest

def typedAddress : String := "0x1111111111111111111111111111111111111111"

/-- A quote is fetched, another token is typed meanwhile, and its dialog is answered. -/
def typedRun : List (FormAction Nat) := [.submit,.proceed 0,.field (.input typedAddress),.unwind 0 none,.submit,.answer .goOn,.proceed 1]

theorem displayed_quote_belongs_typed :
    ∃ s, run (step ⟨"",[],asciiLower⟩ codePointCompare id id) (mount ⟨"",[],asciiLower⟩ id .ethereum Session.builtinIndex (some "USD"))
        typedRun = some s ∧ s.loading = true ∧ s.calls.map (·.fromAddr) = ["USD",typedAddress] ∧ s.Belongs := by
  obtain ⟨s,ran,careful,loading,calls⟩ : ∃ s ∈ run (step ⟨"",[],asciiLower⟩ codePointCompare id id)
      (mount ⟨"",[],asciiLower⟩ id .ethereum Session.builtinIndex (some "USD")) typedRun,
      Throughout (step ⟨"",[],asciiLower⟩ codePointCompare id id) (Careful ⟨"",[],asciiLower⟩ codePointCompare id id)
        (mount ⟨"",[],asciiLower⟩ id .ethereum Session.builtinIndex (some "USD")) typedRun ∧
      s.loading = true ∧ s.calls.map (·.fromAddr) = ["USD",typedAddress] := by decide +kernel
  exact ⟨s,ran,loading,calls,displayed_quote_belongs _ _ _ _ _ _ _ careful ran⟩

/-- A second submit while a quote is fetched: the first one's `finally` comes after the second
one's request has gone out, and the token is typed anew. -/
def overlappingRun : List (FormAction Nat) := [.submit,.proceed 0,.submit,.proceed 1,.unwind 0 none,.field (.input typedAddress)]

/-- The flag is false while the second request is in flight, and its quote is displayed for a
token that was typed after it. -/
theorem overlapping_submits_mismatch :
    ∃ s next, run (step ⟨"",[],asciiLower⟩ codePointCompare id id) (mount ⟨"",[],asciiLower⟩ id .ethereum Session.builtinIndex (some "USD"))
        overlappingRun = some s ∧ s.loading = false ∧ s.field.getValue = typedAddress ∧
      s.respond 1 7 = some next ∧ next.result = some 7 ∧
      s.calls[1]? = some ⟨"USD",.inFlight ⟨.ethereum,"USD",none,none⟩,false⟩ ∧ ¬s.Belongs := by
  obtain ⟨s,ran,loading,shown,next,stored,result,call⟩ : ∃ s ∈ run (step ⟨"",[],asciiLower⟩ codePointCompare id id)
      (mount ⟨"",[],asciiLower⟩ id .ethereum Session.builtinIndex (some "USD")) overlappingRun, s.loading = false ∧
      s.field.getValue = typedAddress ∧ ∃ next ∈ s.respond 1 7, next.result = some 7 ∧
      s.calls[1]? = some ⟨"USD",.inFlight ⟨.ethereum,"USD",none,none⟩,false⟩ := by decide +kernel
  refine ⟨s,next,ran,loading,shown,stored,result,call,fun belongs => ?_⟩
  have flag := belongs.loading _ (List.mem_of_getElem? call) rfl
  rw [loading] at flag
  cases flag

end QuoteForm

end YPriceMagic.Frontend
