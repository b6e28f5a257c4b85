import YPriceMagic.Frontend.SharedLink

/-! What the quote form shows comes with a settlement: every other act leaves the quote and the error
as they are, or clears them. -/
namespace YPriceMagic.Frontend
open YPriceMagic.Async

def FormAction.shows {Quote : Type} : FormAction Quote → Option Quote
  | .respond _ quote => some quote
  | _ => none

def FormAction.reports {Quote : Type} : FormAction Quote → Option String
  | .fail _ error | .unwind _ error => error
  | _ => none

namespace QuoteForm

variable {Quote : Type} {bundle : Bundle} {localeCompare : String → String → Int} {toUpperCase trim : String → String}
  {s next : QuoteForm Quote}

/-- No submit is forgotten, and nothing is shown that was not. -/
structure Onward (s next : QuoteForm Quote) : Prop where
  calls : s.calls.length ≤ next.calls.length
  result : ∀ quote, next.result = some quote → s.result = some quote
  error : ∀ text, next.error = some text → s.error = some text

theorem Onward.refl (s : QuoteForm Quote) : s.Onward s := ⟨le_rfl,fun _ => id,fun _ => id⟩

theorem Onward.trans {third : QuoteForm Quote} (early : s.Onward next) (late : next.Onward third) : s.Onward third :=
  ⟨early.calls.trans late.calls,fun quote shown => early.result quote (late.result quote shown),
    fun text shown => early.error text (late.error text shown)⟩

theorem abortPending_onward (s : QuoteForm Quote) : s.Onward s.abortPending := by
  refine ⟨(abortPending_length s).ge,fun quote shown => ?_,fun text shown => ?_⟩
  · unfold QuoteForm.abortPending at shown
    split at shown <;> exact shown
  · unfold QuoteForm.abortPending at shown
    split at shown <;> exact shown

theorem cancelIfLoading_onward (s : QuoteForm Quote) : s.Onward s.cancelIfLoading := by
  unfold QuoteForm.cancelIfLoading
  split
  · exact ⟨(abortPending_onward s).calls,fun _ shown => (by cases shown),fun _ shown => (by cases shown)⟩
  · exact .refl s

theorem passAddress_onward (bundle : Bundle) (toUpperCase : String → String) (s : QuoteForm Quote) :
    s.Onward (s.passAddress bundle toUpperCase) := by
  unfold passAddress
  split
  · exact .refl s
  · exact ⟨le_rfl,fun _ => id,fun _ => id⟩

theorem handleFromSelect_onward (bundle : Bundle) (toUpperCase : String → String) (s : QuoteForm Quote) (address : String) :
    s.Onward (s.handleFromSelect bundle toUpperCase address) := by
  have passed := passAddress_onward bundle toUpperCase {s.cancelIfLoading with fromAddress := address}
  have first : s.Onward {s.cancelIfLoading with fromAddress := address} :=
    ⟨(cancelIfLoading_onward s).calls,(cancelIfLoading_onward s).result,(cancelIfLoading_onward s).error⟩
  exact first.trans passed

theorem setFromAddress_onward (bundle : Bundle) (toUpperCase : String → String) (s : QuoteForm Quote) (address : String) :
    s.Onward (s.setFromAddress bundle toUpperCase address) := by
  have passed := passAddress_onward bundle toUpperCase
    {s with field := s.field.setFromAddress bundle toUpperCase address,fromAddress := address}
  exact ⟨passed.calls,passed.result,passed.error⟩

theorem changeChain_onward (bundle : Bundle) (localeCompare : String → String → Int) (toUpperCase trim : String → String)
    (s : QuoteForm Quote) (chain : Chain) (pairFrom : Option String) :
    s.Onward (s.changeChain bundle localeCompare toUpperCase trim chain pairFrom) := by
  unfold changeChain
  split
  · exact .refl s
  · dsimp only
    generalize Autocomplete.searchAgain bundle localeCompare trim _ = field
    have aborted := abortPending_onward {s with chain,field}
    have reset : s.Onward {abortPending {s with chain,field} with loading := false,result := none,error := none} :=
      ⟨aborted.calls,fun _ shown => (by cases shown),fun _ shown => (by cases shown)⟩
    cases pairFrom with
    | none => exact reset
    | some address => exact reset.trans (setFromAddress_onward bundle toUpperCase _ address)

theorem handleField_onward {event : FieldEvent} (moved : s.handleField bundle localeCompare toUpperCase trim event = some next) :
    s.Onward next := by
  unfold handleField at moved
  split at moved
  · cases moved
  · obtain ⟨field,_,rfl⟩ := Option.map_eq_some_iff.mp moved
    have kept : s.Onward {s with field} := ⟨le_rfl,fun _ => id,fun _ => id⟩
    split
    · exact kept.trans (cancelIfLoading_onward _)
    · split
      · exact kept.trans (handleFromSelect_onward bundle toUpperCase _ _)
      · exact kept

theorem submit_onward (bundle : Bundle) (toUpperCase : String → String) (s : QuoteForm Quote) :
    s.Onward (s.submit bundle toUpperCase) := by
  have aborted : s.calls.length ≤ (s.abortPending.calls.map Call.outdate).length := by
    rw [List.length_map]
    exact (abortPending_onward s).calls
  unfold QuoteForm.submit
  dsimp only
  split
  all_goals
    refine ⟨aborted.trans ?_,fun _ shown => (by cases shown),fun _ shown => (by cases shown)⟩
    exact (List.prefix_append _ _).length_le

theorem answerDialog_onward {answer : Answer}
    (moved : s.answerDialog bundle localeCompare toUpperCase trim answer = some next) : s.Onward next := by
  obtain ⟨k,_,moved⟩ := Option.bind_eq_some_iff.mp moved
  have resumed (phase : Phase) : s.calls.length ≤ (s.calls.modify k (Call.resume phase)).length := (List.length_modify ..).ge
  cases answer with
  | save index =>
    cases index with
    | none =>
      cases Option.some.inj moved
      exact ⟨le_rfl,fun _ => id,fun _ => id⟩
    | some index =>
      cases Option.some.inj moved
      exact ⟨resumed .checking,fun _ => id,fun _ => id⟩
  | goOn | reject =>
    cases Option.some.inj moved
    exact ⟨resumed _,fun _ => id,fun _ => id⟩

/-- What an act may add to what is shown is what it brings. -/
structure Follows (action : FormAction Quote) (s next : QuoteForm Quote) : Prop where
  calls : s.calls.length ≤ next.calls.length
  result : ∀ quote, next.result = some quote → s.result = some quote ∨ action.shows = some quote
  error : ∀ text, next.error = some text → s.error = some text ∨ action.reports = some text

theorem Onward.follows (onward : s.Onward next) (action : FormAction Quote) : Follows action s next :=
  ⟨onward.calls,fun quote shown => Or.inl (onward.result quote shown),fun text shown => Or.inl (onward.error text shown)⟩

theorem rejected_follows {action : FormAction Quote} {k : Nat} {error : Option String} {waits : Phase → Bool}
    (reports : action.reports = error) (moved : s.rejected k error waits = some next) : Follows action s next := by
  obtain ⟨call,found,moved⟩ := Option.bind_eq_some_iff.mp moved
  split at moved
  · cases Option.some.inj moved
    refine ⟨(List.length_set ..).ge,fun _ => Or.inl,fun text shown => ?_⟩
    rw [reports]
    cases error with
    | none => exact Or.inl shown
    | some text => exact Or.inr shown
  · cases moved

theorem act_follows {action : FormAction Quote} (moved : s.act bundle localeCompare toUpperCase trim action = some next) :
    Follows action s next := by
  cases action with
  | field event => exact (handleField_onward moved).follows _
  | changeChain chain pairFrom =>
    cases Option.some.inj moved
    exact (changeChain_onward bundle localeCompare toUpperCase trim s chain pairFrom).follows _
  | setFromAddress address =>
    cases Option.some.inj moved
    exact (setFromAddress_onward bundle toUpperCase s address).follows _
  | changeIndex _ | setBlock _ | setAmount _ =>
    cases Option.some.inj moved
    exact ⟨le_rfl,fun _ => Or.inl,fun _ => Or.inl⟩
  | submit =>
    cases Option.some.inj moved
    exact (submit_onward bundle toUpperCase s).follows _
  | answer answer => exact (answerDialog_onward moved).follows _
  | proceed k =>
    obtain ⟨call,_,moved⟩ := Option.bind_eq_some_iff.mp moved
    split at moved
    · cases Option.some.inj moved
      exact ⟨(List.length_set ..).ge,fun _ => Or.inl,fun _ => Or.inl⟩
    · cases moved
  | respond k quote =>
    obtain ⟨call,_,moved⟩ := Option.bind_eq_some_iff.mp moved
    split at moved
    · cases Option.some.inj moved
      exact ⟨(List.length_set ..).ge,fun _ => Or.inr,fun _ => Or.inl⟩
    · cases moved
  | fail k error =>
    have moved : s.rejected k error Phase.isInFlight = some next := moved
    exact rejected_follows rfl moved
  | unwind k error =>
    have moved : s.rejected k error (fun phase => decide (phase = .aborted)) = some next := moved
    exact rejected_follows rfl moved

theorem step_follows {action : FormAction Quote} (stepped : s.step bundle localeCompare toUpperCase trim action = some next) :
    Follows action s next := by
  obtain ⟨acted,moved,mirrors⟩ := step_acted stepped
  have follows := act_follows moved
  exact ⟨mirrors.length ▸ follows.calls,mirrors.result ▸ follows.result,mirrors.error ▸ follows.error⟩

end QuoteForm

end YPriceMagic.Frontend
