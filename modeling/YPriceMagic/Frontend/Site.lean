import Mathlib.Logic.Function.Basic
import YPriceMagic.Frontend.Responses
import YPriceMagic.Frontend.Settlements
import YPriceMagic.Server.ResponseSoundness

/-! The quote form and the servers that it asks, one for each chain, with every other request that
they get. Each step is a step of one of them, or a request or an answer that arrives. -/
namespace YPriceMagic.Frontend
open YPriceMagic.Async YPriceMagic.Async.Coroutine YPriceMagic.Python YPriceMagic.Server
open YPriceMagic.Frontend (Request)

/-- What the endpoint has made of a request: one of the server's own, or an answer at once. -/
inductive Receipt
  | handled (params : PriceParams) (id : Nat)
  | answered (response : FetchResponse)

/-- The request of submit `k`, once it has arrived. -/
structure Fetch where
  k : Nat
  request : Frontend.Request
  receipt : Receipt

structure Site where
  form : QuoteForm PriceResponse
  servers : Chain → Backend
  fetches : List Fetch

/-- `now` is the server's time. The form's own actions are those that no server answers to; a fetch
that fails on its way, or is answered with a failure by something between, is one of them. -/
inductive Site.Action
  | form (action : FormAction PriceResponse)
  | arrive (now : Datetime.Utc) (k : Nat)
  | server (chain : Chain) (action : Backend.Action)
  | answered (i : Nat)

namespace Site

/-- No request has been sent. -/
def opened (form : QuoteForm PriceResponse) (caches : Chain → Cache) : Site := ⟨form,fun chain => Backend.start (caches chain),[]⟩

section
variable (texts : GivenTexts)

/-- `/price` up to its first `await`; an exception is no answer of its own. -/
def accept (config : Server.Config) (now : Datetime.Utc) (request : Frontend.Request) : Except FetchResponse PriceParams :=
  match (priceQuery now (fetchPrice request.token request.block request.amount).pairs).run with
  | .ok (.ok params) => .ok params
  | .ok (.error refusal) => .error (errorPage texts (makeErrorResponse config 400 refusal.error))
  | .error _ => .error (serverErrorPage texts)

/-- What a handler of `/price` sends when it is over; a cancelled one sends nothing. -/
def handlerResponse : Program Response → Option FetchResponse
  | .finished (.returned (.price body)) => some (pricePage texts body)
  | .finished (.returned (.error response)) => some (errorPage texts response)
  | .finished (.raised _) => some (serverErrorPage texts)
  | _ => none

/-- The answer, where there is one already. -/
def reply (p : Site) (fetch : Fetch) : Option FetchResponse :=
  match fetch.receipt with
  | .answered response => some response
  | .handled _ id => (p.servers fetch.request.chain).processes[id]?.bind fun process => handlerResponse texts process.handler

/-- How `fetchPrice` ends on an answer. -/
def settlement (k : Nat) (response : FetchResponse) : FormAction PriceResponse :=
  match parseResponse texts response with
  | .error message => .fail k (some message)
  | .ok data =>
    match PriceResponse.ofJson data with
    | .ok quote => .respond k quote
    | .error .typeError => .fail k (some texts.typeError)

variable (config : Chain → Server.Config)

def moveServer (p : Site) (chain : Chain) (action : Backend.Action) : Option Site :=
  ((p.servers chain).step (config chain) action).map fun server => {p with servers := Function.update p.servers chain server}

/-- The request of submit `k` reaches the server of its chain. -/
def arrive (p : Site) (now : Datetime.Utc) (k : Nat) : Option Site := do
  let call ← p.form.calls[k]?
  match call.phase with
  | .inFlight request =>
    match accept texts (config request.chain) now request with
    | .ok params =>
      let fetch : Fetch := ⟨k,request,.handled params (p.servers request.chain).processes.length⟩
      ({p with fetches := p.fetches ++ [fetch]}).moveServer config request.chain (.request (.price params false))
    | .error response => some {p with fetches := p.fetches ++ [⟨k,request,.answered response⟩]}
  | _ => none

variable (bundle : Bundle) (localeCompare : String → String → Int) (toUpperCase trim : String → String)

def moveForm (p : Site) (action : FormAction PriceResponse) : Option Site :=
  (p.form.step bundle localeCompare toUpperCase trim action).map fun form => {p with form}

def step (p : Site) : Action → Option Site
  | .form action => if action.shows.isSome then none else p.moveForm bundle localeCompare toUpperCase trim action
  | .arrive now k => p.arrive texts config now k
  | .server chain action => p.moveServer config chain action
  | .answered i => do
    let fetch ← p.fetches[i]?
    let response ← p.reply texts fetch
    p.moveForm bundle localeCompare toUpperCase trim (settlement texts fetch.k response)

end

section
variable {texts : GivenTexts} {config : Chain → Server.Config} {bundle : Bundle} {localeCompare : String → String → Int}
  {toUpperCase trim : String → String} {p next : Site}

/-- Everything that a step can be. -/
inductive Stepped (texts : GivenTexts) (config : Chain → Server.Config) (bundle : Bundle) (localeCompare : String → String → Int)
    (toUpperCase trim : String → String) (p : Site) : Action → Site → Prop
  | form {action : FormAction PriceResponse} {form : QuoteForm PriceResponse} (own : action.shows = none)
      (moved : p.form.step bundle localeCompare toUpperCase trim action = some form) :
    Stepped texts config bundle localeCompare toUpperCase trim p (.form action) {p with form}
  | handled {now : Datetime.Utc} {k : Nat} {call : Call} {request : Frontend.Request} {params : PriceParams} {server : Backend}
      (found : p.form.calls[k]? = some call) (flies : call.phase = .inFlight request)
      (accepted : accept texts (config request.chain) now request = .ok params)
      (moved : (p.servers request.chain).step (config request.chain) (.request (.price params false)) = some server) :
    Stepped texts config bundle localeCompare toUpperCase trim p (.arrive now k)
      {p with
        servers := Function.update p.servers request.chain server
        fetches := p.fetches ++ [⟨k,request,.handled params (p.servers request.chain).processes.length⟩]}
  | refused {now : Datetime.Utc} {k : Nat} {call : Call} {request : Frontend.Request} {response : FetchResponse}
      (found : p.form.calls[k]? = some call) (flies : call.phase = .inFlight request)
      (refusal : accept texts (config request.chain) now request = .error response) :
    Stepped texts config bundle localeCompare toUpperCase trim p (.arrive now k)
      {p with fetches := p.fetches ++ [⟨k,request,.answered response⟩]}
  | server {chain : Chain} {action : Backend.Action} {server : Backend}
      (moved : (p.servers chain).step (config chain) action = some server) :
    Stepped texts config bundle localeCompare toUpperCase trim p (.server chain action)
      {p with servers := Function.update p.servers chain server}
  | answered {i : Nat} {fetch : Fetch} {response : FetchResponse} {form : QuoteForm PriceResponse}
      (found : p.fetches[i]? = some fetch) (replied : p.reply texts fetch = some response)
      (moved : p.form.step bundle localeCompare toUpperCase trim (settlement texts fetch.k response) = some form) :
    Stepped texts config bundle localeCompare toUpperCase trim p (.answered i) {p with form}

theorem step_stepped {action : Action} (stepped : p.step texts config bundle localeCompare toUpperCase trim action = some next) :
    Stepped texts config bundle localeCompare toUpperCase trim p action next := by
  cases action with
  | form action =>
    simp only [step,Option.ite_none_left_eq_some,Option.not_isSome_iff_eq_none] at stepped
    obtain ⟨form,moved,rfl⟩ := Option.map_eq_some_iff.mp stepped.2
    exact .form (by simpa using stepped.1) moved
  | arrive now k =>
    obtain ⟨call,found,stepped⟩ := Option.bind_eq_some_iff.mp stepped
    split at stepped
    · rename_i request flies
      split at stepped
      · rename_i params accepted
        obtain ⟨server,moved,rfl⟩ := Option.map_eq_some_iff.mp stepped
        exact .handled found flies accepted moved
      · rename_i response refusal
        cases Option.some.inj stepped
        exact .refused found flies refusal
    · cases stepped
  | server chain action =>
    obtain ⟨server,moved,rfl⟩ := Option.map_eq_some_iff.mp stepped
    exact .server moved
  | answered i =>
    obtain ⟨fetch,found,stepped⟩ := Option.bind_eq_some_iff.mp stepped
    obtain ⟨response,replied,stepped⟩ := Option.bind_eq_some_iff.mp stepped
    obtain ⟨form,moved,rfl⟩ := Option.map_eq_some_iff.mp stepped
    exact .answered found replied moved

theorem settlement_cases (texts : GivenTexts) (k : Nat) (response : FetchResponse) :
    (∃ quote, settlement texts k response = .respond k quote) ∨ ∃ text, settlement texts k response = .fail k (some text) := by
  unfold settlement
  split
  · exact Or.inr ⟨_,rfl⟩
  · split
    · exact Or.inl ⟨_,rfl⟩
    · exact Or.inr ⟨_,rfl⟩

theorem settlement_shows {k : Nat} {response : FetchResponse} {quote : PriceResponse}
    (shown : (settlement texts k response).shows = some quote) : settlement texts k response = .respond k quote := by
  rcases settlement_cases texts k response with ⟨other,same⟩ | ⟨text,same⟩
  · rw [same] at shown ⊢
    cases shown
    rfl
  · rw [same] at shown
    cases shown

theorem settlement_reports {k : Nat} {response : FetchResponse} {text : String}
    (reported : (settlement texts k response).reports = some text) : settlement texts k response = .fail k (some text) := by
  rcases settlement_cases texts k response with ⟨quote,same⟩ | ⟨other,same⟩
  · rw [same] at reported
    cases reported
  · rw [same] at reported ⊢
    cases reported
    rfl

/-- Submits, processes and answers stay. -/
structure Extends (p next : Site) : Prop where
  calls : p.form.calls.length ≤ next.form.calls.length
  processes : ∀ chain (id : Nat) process, (p.servers chain).processes[id]? = some process →
    ∃ later, (next.servers chain).processes[id]? = some later ∧ later.request = process.request ∧
      ∀ outcome, process.handler = finished outcome → later.handler = finished outcome
  fetches : p.fetches ⊆ next.fetches

theorem extends_form {form : QuoteForm PriceResponse} {action : FormAction PriceResponse}
    (moved : p.form.step bundle localeCompare toUpperCase trim action = some form) : p.Extends {p with form} :=
  ⟨(QuoteForm.step_follows moved).calls,fun _ _ process found => ⟨process,found,rfl,fun _ ended => ended⟩,fun _ => id⟩

theorem update_processes {chain : Chain} {action : Backend.Action} {server : Backend}
    (moved : (p.servers chain).step (config chain) action = some server) (other : Chain) (id : Nat) (process : Process)
    (found : (p.servers other).processes[id]? = some process) :
    ∃ later, (Function.update p.servers chain server other).processes[id]? = some later ∧ later.request = process.request ∧
      ∀ outcome, process.handler = finished outcome → later.handler = finished outcome := by
  by_cases here : other = chain
  · subst here
    rw [Function.update_self]
    exact Backend.step_process moved found
  · rw [Function.update_of_ne here]
    exact ⟨process,found,rfl,fun _ ended => ended⟩

theorem Stepped.extends {action : Action} (stepped : Stepped texts config bundle localeCompare toUpperCase trim p action next) :
    p.Extends next := by
  cases stepped with
  | form own moved => exact extends_form moved
  | handled found flies accepted moved => exact ⟨le_rfl,update_processes moved,fun _ => List.mem_append_left _⟩
  | refused found flies refusal =>
    exact ⟨le_rfl,fun _ _ process found => ⟨process,found,rfl,fun _ ended => ended⟩,fun _ => List.mem_append_left _⟩
  | server moved => exact ⟨le_rfl,update_processes moved,fun _ => id⟩
  | answered found replied moved => exact extends_form moved

/-- It belongs to a submit, and the server has taken what was sent, or refused it. -/
structure Received (texts : GivenTexts) (config : Chain → Server.Config) (p : Site) (fetch : Fetch) : Prop where
  placed : fetch.k < p.form.calls.length
  handled : ∀ params id, fetch.receipt = .handled params id →
    (∃ now, accept texts (config fetch.request.chain) now fetch.request = .ok params) ∧
      ∃ process, (p.servers fetch.request.chain).processes[id]? = some process ∧ process.request = .price params false
  answered : ∀ response, fetch.receipt = .answered response →
    ∃ now, accept texts (config fetch.request.chain) now fetch.request = .error response

theorem Received.extended {fetch : Fetch} (received : Received texts config p fetch) (later : p.Extends next) :
    Received texts config next fetch := by
  refine ⟨received.placed.trans_le later.calls,fun params id taken => ?_,received.answered⟩
  obtain ⟨accepted,process,found,asked⟩ := received.handled params id taken
  obtain ⟨now,there,same,_⟩ := later.processes _ id process found
  exact ⟨accepted,now,there,same.trans asked⟩

theorem handlerResponse_finished {handler : Program Response} {response : FetchResponse}
    (replied : handlerResponse texts handler = some response) : ∃ outcome, handler = finished outcome := by
  cases handler with
  | finished outcome => exact ⟨outcome,rfl⟩
  | perform op resume => cases replied

theorem reply_extended {fetch : Fetch} {response : FetchResponse} (replied : p.reply texts fetch = some response)
    (later : p.Extends next) : next.reply texts fetch = some response := by
  unfold reply at replied ⊢
  cases receipt : fetch.receipt with
  | answered given =>
    rw [receipt] at replied
    exact replied
  | handled params id =>
    rw [receipt] at replied
    obtain ⟨process,found,replied⟩ := Option.bind_eq_some_iff.mp replied
    obtain ⟨now,there,_,ended⟩ := later.processes _ id process found
    obtain ⟨outcome,finished⟩ := handlerResponse_finished replied
    refine Option.bind_eq_some_iff.mpr ⟨now,there,?_⟩
    rw [ended outcome finished,← finished]
    exact replied

/-- The answer to a fetch settles it with this. -/
def Settles (texts : GivenTexts) (p : Site) (action : Nat → FormAction PriceResponse) : Prop :=
  ∃ fetch ∈ p.fetches, ∃ response, p.reply texts fetch = some response ∧ settlement texts fetch.k response = action fetch.k

theorem Settles.extended {action : Nat → FormAction PriceResponse} (settles : p.Settles texts action) (later : p.Extends next) :
    next.Settles texts action := by
  obtain ⟨fetch,member,response,replied,same⟩ := settles
  exact ⟨fetch,later.fetches member,response,reply_extended replied later,same⟩

section
variable (texts : GivenTexts) (config : Chain → Server.Config) (bundle : Bundle) (localeCompare : String → String → Int)
  (toUpperCase trim : String → String) (form : QuoteForm PriceResponse) (caches : Chain → Cache) (done : List Action)

/-- Somewhere in the run, submit `k` had the request in flight. -/
def Asked (k : Nat) (request : Frontend.Request) : Prop :=
  ∃ earlier middle, earlier <+: done ∧
    run (step texts config bundle localeCompare toUpperCase trim) (opened form caches) earlier = some middle ∧
      ∃ call, middle.form.calls[k]? = some call ∧ call.phase = .inFlight request

/-- The servers have gone their own ways, every fetch was asked for and received as it was, and what the
form shows is what an answer has settled it with, or what the form was told otherwise. -/
structure Traced (p : Site) : Prop where
  servers : ∀ chain, ∃ moves, run (Backend.step (config chain)) (Backend.start (caches chain)) moves = some (p.servers chain)
  received : ∀ fetch ∈ p.fetches, Received texts config p fetch
  asked : ∀ fetch ∈ p.fetches, Asked texts config bundle localeCompare toUpperCase trim form caches done fetch.k fetch.request
  result : ∀ quote, p.form.result = some quote → p.Settles texts fun k => .respond k quote
  error : ∀ text, p.form.error = some text →
    (∃ action, .form action ∈ done ∧ action.reports = some text) ∨ p.Settles texts fun k => .fail k (some text)

end

variable {caches : Chain → Cache}

theorem Stepped.servers {action : Action} (stepped : Stepped texts config bundle localeCompare toUpperCase trim p action next)
    (chain : Chain) : next.servers chain = p.servers chain ∨
      ∃ move, (p.servers chain).step (config chain) move = some (next.servers chain) := by
  have updated {other : Chain} {move : Backend.Action} {server : Backend}
      (moved : (p.servers other).step (config other) move = some server) :
      Function.update p.servers other server chain = p.servers chain ∨
        ∃ move, (p.servers chain).step (config chain) move = some (Function.update p.servers other server chain) := by
    by_cases here : chain = other
    · subst here
      rw [Function.update_self]
      exact Or.inr ⟨move,moved⟩
    · exact Or.inl (Function.update_of_ne here ..)
  cases stepped with
  | form own moved => exact Or.inl rfl
  | handled found flies accepted moved => exact updated moved
  | refused found flies refusal => exact Or.inl rfl
  | server moved => exact updated moved
  | answered found replied moved => exact Or.inl rfl

/-- A fetch that is new was in flight just now. -/
theorem Stepped.received {action : Action} (stepped : Stepped texts config bundle localeCompare toUpperCase trim p action next)
    {fetch : Fetch} (new : fetch ∈ next.fetches) (unknown : fetch ∉ p.fetches) :
    Received texts config next fetch ∧ ∃ call, p.form.calls[fetch.k]? = some call ∧ call.phase = .inFlight fetch.request := by
  cases stepped with
  | form own moved => exact absurd new unknown
  | @handled now k call request params server found flies accepted moved =>
    obtain rfl := List.mem_singleton.mp ((List.mem_append.mp new).resolve_left unknown)
    refine ⟨⟨(List.getElem?_eq_some_iff.mp found).1,fun taken id same => ?_,fun response same => (by cases same)⟩,call,found,flies⟩
    cases same
    refine ⟨⟨now,accepted⟩,?_⟩
    cases Option.some.inj moved
    refine ⟨⟨.price params false,Server.price (config request.chain) params false,none⟩,?_,rfl⟩
    dsimp only
    rw [Function.update_self]
    exact List.getElem?_concat_length ..
  | @refused now k call request response found flies refusal =>
    obtain rfl := List.mem_singleton.mp ((List.mem_append.mp new).resolve_left unknown)
    refine ⟨⟨(List.getElem?_eq_some_iff.mp found).1,fun taken id same => (by cases same),fun other same => ?_⟩,call,found,flies⟩
    cases same
    exact ⟨now,refusal⟩
  | server moved => exact absurd new unknown
  | answered found replied moved => exact absurd new unknown

/-- What a step adds to what is shown. -/
theorem Stepped.shown {action : Action} (stepped : Stepped texts config bundle localeCompare toUpperCase trim p action next) :
    (∀ quote, next.form.result = some quote → p.form.result = some quote ∨ p.Settles texts fun k => .respond k quote) ∧
      ∀ text, next.form.error = some text → p.form.error = some text ∨
        (∃ own, action = .form own ∧ own.reports = some text) ∨ p.Settles texts fun k => .fail k (some text) := by
  cases stepped with
  | @form own form unseen moved =>
    have follows := QuoteForm.step_follows moved
    refine ⟨fun quote shown => Or.inl ((follows.result quote shown).resolve_right fun new => ?_),fun text shown => ?_⟩
    · rw [unseen] at new
      cases new
    · exact (follows.error text shown).imp_right fun new => Or.inl ⟨own,rfl,new⟩
  | handled | refused | server => exact ⟨fun _ => Or.inl,fun _ => Or.inl⟩
  | @answered i fetch response form found replied moved =>
    have follows := QuoteForm.step_follows moved
    have member := List.mem_of_getElem? found
    refine ⟨fun quote shown => (follows.result quote shown).imp_right fun new => ?_,
      fun text shown => (follows.error text shown).imp_right fun new => Or.inr ?_⟩
    · exact ⟨fetch,member,response,replied,settlement_shows new⟩
    · exact ⟨fetch,member,response,replied,settlement_reports new⟩

variable {form : QuoteForm PriceResponse}

theorem Asked.later {done : List Action} {k : Nat} {request : Frontend.Request} {action : Action}
    (asked : Asked texts config bundle localeCompare toUpperCase trim form caches done k request) :
    Asked texts config bundle localeCompare toUpperCase trim form caches (done ++ [action]) k request := by
  obtain ⟨earlier,middle,within,ran,flies⟩ := asked
  exact ⟨earlier,middle,within.trans (List.prefix_append done [action]),ran,flies⟩

theorem Traced.stepped {done : List Action} {action : Action}
    (ran : run (step texts config bundle localeCompare toUpperCase trim) (opened form caches) done = some p)
    (traced : Traced texts config bundle localeCompare toUpperCase trim form caches done p)
    (stepped : Stepped texts config bundle localeCompare toUpperCase trim p action next) :
    Traced texts config bundle localeCompare toUpperCase trim form caches (done ++ [action]) next := by
  have later := stepped.extends
  obtain ⟨results,errors⟩ := stepped.shown
  refine ⟨fun chain => ?_,fun fetch member => ?_,fun fetch member => ?_,fun quote shown => ?_,fun text shown => ?_⟩
  · obtain ⟨moves,ran⟩ := traced.servers chain
    rcases stepped.servers chain with same | ⟨move,moved⟩
    · rw [same]
      exact ⟨moves,ran⟩
    · exact ⟨moves ++ [move],run_snoc ran moved⟩
  · by_cases known : fetch ∈ p.fetches
    · exact (traced.received fetch known).extended later
    · exact (stepped.received member known).1
  · by_cases known : fetch ∈ p.fetches
    · exact (traced.asked fetch known).later
    · exact ⟨done,p,List.prefix_append done [action],ran,(stepped.received member known).2⟩
  · rcases results quote shown with old | new
    · exact (traced.result quote old).extended later
    · exact new.extended later
  · rcases errors text shown with old | ⟨own,rfl,told⟩ | new
    · refine (traced.error text old).imp ?_ fun settles => settles.extended later
      exact fun ⟨own,member,told⟩ => ⟨own,List.mem_append_left _ member,told⟩
    · exact Or.inl ⟨own,List.mem_append_right _ (List.mem_singleton_self _),told⟩
    · exact Or.inr (new.extended later)

theorem run_traced (blank : form.result = none ∧ form.error = none) {actions : List Action}
    (ran : run (step texts config bundle localeCompare toUpperCase trim) (opened form caches) actions = some p) :
    Traced texts config bundle localeCompare toUpperCase trim form caches actions p := by
  refine run_history (Traced texts config bundle localeCompare toUpperCase trim form caches) ?_ ?_ ran
  · refine ⟨fun chain => ⟨[],rfl⟩,List.forall_mem_nil _,List.forall_mem_nil _,fun quote shown => ?_,fun text shown => ?_⟩
    · have shown : form.result = some quote := shown
      rw [blank.1] at shown
      cases shown
    · have shown : form.error = some text := shown
      rw [blank.2] at shown
      cases shown
  · intro done before action after ran traced stepped
    exact traced.stepped ran (step_stepped stepped)

end

end Site

end YPriceMagic.Frontend
