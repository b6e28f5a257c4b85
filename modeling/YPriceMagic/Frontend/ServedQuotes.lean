import YPriceMagic.Frontend.Site
import YPriceMagic.Server.ParamsTotal
import YPriceMagic.Server.SingleToken

/-! What the quote form shows in the end, with the servers behind it: a quote is what the upstream has
answered to a request of the form's own, and an error is how such a request failed. -/
namespace YPriceMagic.Frontend
open YPriceMagic.Async YPriceMagic.Async.Coroutine YPriceMagic.Python YPriceMagic.Python.Call YPriceMagic.Server
open YPriceMagic.Frontend (Request)

namespace Site

/-- The parameters are those of the request. -/
structure Reads (request : Frontend.Request) (params : PriceParams) : Prop where
  token : params.token = request.token
  valid : isValidAddress request.token = true
  block : (parseBlock (request.block.filter (· ≠ ""))).Yields params.block
  amount : (parseAmount (request.amount.filter (· ≠ ""))).Yields params.amount
  plain : params.ignorePools = [] ∧ params.timestamp = none

section
variable {texts : GivenTexts} {config : Server.Config} {now : Datetime.Utc} {request : Frontend.Request}

theorem accept_reads {params : PriceParams} (accepted : accept texts config now request = .ok params) : Reads request params := by
  have yielded : (priceQuery now (fetchPrice request.token request.block request.amount).pairs).Yields params := by
    unfold accept at accepted
    split at accepted
    · rename_i found
      cases accepted
      exact found
    · cases accepted
    · cases accepted
  rw [priceQuery_fetchPrice,parsePriceParams_iff] at yielded
  obtain ⟨token,valid,block,amount,pools,timestamp,_⟩ := yielded
  have token := Option.some.inj token
  refine ⟨token.symm,token ▸ valid,block,amount,?_,?_⟩
  · simpa [parseIgnorePools,eq_comm] using pools
  · simpa [parseTimestamp,eq_comm] using timestamp

/-- A request without a timestamp is never lost in an exception of the parser. -/
theorem accept_refuses {response : FetchResponse} (refused : accept texts config now request = .error response) :
    ∃ refusal, (priceQuery now (fetchPrice request.token request.block request.amount).pairs).run = .ok (.error refusal) ∧
      response = errorPage texts (makeErrorResponse config 400 refusal.error) := by
  unfold accept at refused
  split at refused
  · cases refused
  · rename_i refusal found
    cases refused
    exact ⟨refusal,found,rfl⟩
  · rename_i raised found
    rw [priceQuery_fetchPrice] at found
    obtain ⟨_,text,given,_⟩ := (parsePriceParams_raises now _ _ _ _ _).mp ⟨raised,found⟩
    cases given

end

section
variable (texts : GivenTexts) (config : Chain → Server.Config) (caches : Chain → Cache) (p : Site) (request : Frontend.Request)

/-- A handler of the request's chain has taken the request as these parameters, and has ended. -/
def Handled (params : PriceParams) (id : Nat) (outcome : Outcome Exn Response) : Prop :=
  Reads request params ∧ ∃ process, (p.servers request.chain).processes[id]? = some process ∧
    process.request = .price params false ∧ process.handler = finished outcome

/-- The quote shows the price with which the server of the request's chain has answered it, and which the
upstream has given for it. -/
def Served (quote : PriceResponse) : Prop :=
  ∃ params id body, p.Handled request params id (.returned (.price body)) ∧ quote.Shows texts body ∧
    Genuine (config request.chain) (caches request.chain) (p.servers request.chain).log id params body

/-- The texts with which a request may fail: it was refused, it was answered with an error, which for a 404
means that the upstream has no price, or the server broke. -/
inductive Failed : String → Prop
  | refused {now : Datetime.Utc} {refusal : ParseError}
      (read : (priceQuery now (fetchPrice request.token request.block request.amount).pairs).run = .ok (.error refusal)) :
    Failed ("HTTP " ++ toString 400 ++ ": " ++ (makeErrorResponse (config request.chain) 400 refusal.error).error)
  | answered {params : PriceParams} {id : Nat} {response : Runtime.JSONResponse}
      (handled : p.Handled request params id (.returned (.error response))) (failure : 400 ≤ response.statusCode)
      (missing : response.statusCode = 404 → Missing (caches request.chain) (p.servers request.chain).log id params) :
    Failed ("HTTP " ++ toString response.statusCode ++ ": " ++ response.error)
  | broken {params : PriceParams} {id : Nat} {outcome : Outcome Exn Response} (handled : p.Handled request params id outcome)
      (broke : (∃ error, outcome = .raised error) ∨ ∃ body, outcome = .returned (.price body) ∧ Json.ofPriceBody texts body = none) :
    Failed ("HTTP " ++ toString 500 ++ ": " ++ texts.statusText 500)

/-- What the browser makes of a response: a quote that was served, or the text of a failure. -/
def Read (response : FetchResponse) : Prop :=
  (∃ data quote, parseResponse texts response = .ok data ∧ PriceResponse.ofJson data = .ok quote ∧
    p.Served texts config caches request quote) ∨
  ∃ text, parseResponse texts response = .error text ∧ Failed texts config caches p request text

end

section
variable {texts : GivenTexts} {config : Chain → Server.Config} {bundle : Bundle} {localeCompare : String → String → Int}
  {toUpperCase trim : String → String} {form : QuoteForm PriceResponse} {caches : Chain → Cache} {p final : Site}

theorem handled_read {request : Frontend.Request} {params : PriceParams} {id : Nat} {outcome : Outcome Exn Response}
    (served : ∃ moves, run (Backend.step (config request.chain)) (Backend.start (caches request.chain)) moves =
      some (p.servers request.chain))
    (handled : p.Handled request params id outcome) {response : FetchResponse}
    (replied : handlerResponse texts (finished outcome) = some response) : p.Read texts config caches request response := by
  obtain ⟨reads,process,found,asked,ended⟩ := handled
  obtain ⟨moves,ran⟩ := served
  cases outcome with
  | cancelled => cases replied
  | raised error =>
    cases Option.some.inj replied
    exact Or.inr ⟨_,parseResponse_serverErrorPage,.broken ⟨reads,process,found,asked,ended⟩ (Or.inl ⟨error,rfl⟩)⟩
  | returned answer =>
    obtain ⟨told,reply⟩ := Backend.reply_backed ran found ended
    rw [asked] at reply
    cases answer with
    | prices _ | bucket _ _ _ => cases replied
    | error failure =>
      cases Option.some.inj replied
      have failed : 300 ≤ failure.statusCode := le_trans (by decide) reply.1
      exact Or.inr ⟨_,parseResponse_errorPage failed,
        .answered ⟨reads,process,found,asked,ended⟩ reply.1 fun missing => told.not_found_genuine reply missing⟩
    | price body =>
      cases Option.some.inj replied
      have handled : p.Handled request params id (.returned (.price body)) := ⟨reads,process,found,asked,ended⟩
      rcases @parseResponse_pricePage texts body with ⟨data,quote,parsed,read,shows⟩ | ⟨page,unwritten⟩
      · exact Or.inl ⟨data,quote,parsed,read,params,id,body,handled,shows,told.price_genuine reply⟩
      · rw [page]
        exact Or.inr ⟨_,parseResponse_serverErrorPage,.broken handled (Or.inr ⟨body,rfl,unwritten⟩)⟩

/-- Whatever is answered to a fetch, the browser reads it as what the server has come to. -/
theorem reply_read {fetch : Fetch} (received : Received texts config p fetch)
    (served : ∃ moves, run (Backend.step (config fetch.request.chain)) (Backend.start (caches fetch.request.chain)) moves =
      some (p.servers fetch.request.chain))
    {response : FetchResponse} (replied : p.reply texts fetch = some response) :
    p.Read texts config caches fetch.request response := by
  unfold reply at replied
  cases receipt : fetch.receipt with
  | answered given =>
    rw [receipt] at replied
    cases Option.some.inj replied
    obtain ⟨now,refused⟩ := received.answered _ receipt
    obtain ⟨refusal,read,rfl⟩ := accept_refuses refused
    exact Or.inr ⟨_,parseResponse_errorPage (by decide : 300 ≤ 400),.refused read⟩
  | handled params id =>
    rw [receipt] at replied
    obtain ⟨process,found,replied⟩ := Option.bind_eq_some_iff.mp replied
    obtain ⟨⟨now,accepted⟩,same,there,asked⟩ := received.handled params id receipt
    obtain rfl := Option.some.inj (found.symm.trans there)
    obtain ⟨outcome,ended⟩ := handlerResponse_finished replied
    rw [ended] at replied
    exact handled_read served ⟨accept_reads accepted,process,found,asked,ended⟩ replied

theorem settlement_respond {k j : Nat} {response : FetchResponse} {quote : PriceResponse}
    (settles : settlement texts k response = .respond j quote) :
    ∃ data, parseResponse texts response = .ok data ∧ PriceResponse.ofJson data = .ok quote := by
  unfold settlement at settles
  split at settles
  · cases settles
  · rename_i data parsed
    split at settles
    · rename_i read
      cases settles
      exact ⟨data,parsed,read⟩
    · cases settles

theorem settlement_fail {k j : Nat} {response : FetchResponse} {text : String}
    (settles : settlement texts k response = .fail j (some text)) : parseResponse texts response = .error text ∨
      ∃ data, parseResponse texts response = .ok data ∧ PriceResponse.ofJson data = .error .typeError := by
  unfold settlement at settles
  split at settles
  · rename_i parsed
    cases settles
    exact Or.inl parsed
  · rename_i data parsed
    split at settles
    · cases settles
    · rename_i broken
      exact Or.inr ⟨data,parsed,broken⟩

section
variable {fetch : Fetch} {response : FetchResponse} {k : Nat}

theorem Read.served (read : p.Read texts config caches fetch.request response) {quote : PriceResponse}
    (settles : settlement texts fetch.k response = .respond k quote) : p.Served texts config caches fetch.request quote := by
  obtain ⟨data,parsed,found⟩ := settlement_respond settles
  rcases read with ⟨other,same,parsedSame,foundSame,served⟩ | ⟨text,failed,_⟩
  · rw [parsed] at parsedSame
    cases parsedSame
    rw [found] at foundSame
    cases foundSame
    exact served
  · rw [parsed] at failed
    cases failed

theorem Read.failed (read : p.Read texts config caches fetch.request response) {text : String}
    (settles : settlement texts fetch.k response = .fail k (some text)) : Failed texts config caches p fetch.request text := by
  rcases read with ⟨data,quote,parsed,found,_⟩ | ⟨other,failed,told⟩
  · rcases settlement_fail settles with failed | ⟨same,parsedSame,broken⟩
    · rw [parsed] at failed
      cases failed
    · rw [parsed] at parsedSame
      cases parsedSame
      rw [found] at broken
      cases broken
  · rcases settlement_fail settles with same | ⟨data,parsed,_⟩
    · rw [failed] at same
      cases same
      exact told
    · rw [failed] at parsed
      cases parsed

end

/-- In every run of the form and the servers behind it, whatever else the servers are asked meanwhile, a quote that is
shown answers a request that the form had sent: the server of its chain took it as it was sent, and the price
is the upstream's answer for its token, block and amount. -/
theorem shown_quote_genuine (blank : form.result = none ∧ form.error = none) {actions : List Action}
    (ran : run (step texts config bundle localeCompare toUpperCase trim) (opened form caches) actions = some final)
    {quote : PriceResponse} (shown : final.form.result = some quote) :
    ∃ k request, Asked texts config bundle localeCompare toUpperCase trim form caches actions k request ∧
      final.Served texts config caches request quote := by
  have traced := run_traced blank ran
  obtain ⟨fetch,member,response,replied,settles⟩ := traced.result quote shown
  have read := reply_read (traced.received fetch member) (traced.servers _) replied
  exact ⟨fetch.k,fetch.request,traced.asked fetch member,read.served settles⟩

def chains (chain : Chain) : Server.Config := {ethereum with chainName := chain.key}

def plainTexts : GivenTexts :=
  ⟨fun status => if status = 500 then "Internal Server Error" else "",fun _ => "[object Object]",fun _ => "{}","TypeError",some .null⟩

def usdc : String := "0x833589fCD6eDb6E08f4c7C32D4f71b54bdA02913"

def usdcMounted : QuoteForm PriceResponse :=
  QuoteForm.mount ⟨"",[],asciiLower⟩ id .base Session.builtinIndex (some usdc)

/-- The server of Base prices USDC for the form while it has another request. -/
def quotedRun : List Action := [
  .server .base (.request (.price ⟨"0xAB",some 5,none,[],none⟩ false)),
  .form .submit,
  .form (.proceed 0),
  .arrive november 0,
  .server .base (.handlerStep 1 (.await [.headBlock]) (.returned ((7 : Nat),()))),
  .server .base (.handlerStep 1 (.getCachedPrice usdc 7) none),
  .server .base (.handlerStep 0 (.getCachedPrice "0xAB" 5) none),
  .server .base (.handlerStep 1 (.getCachedError usdc 7) none),
  .server .base (.startLookup 1),
  .server .base (.lookupStep 1 (.await [.price usdc 7 none []]) (.returned (some ⟨.finite 1,"1",none⟩,()))),
  .server .base (.lookupStep 1 (.await [.blockTimestamp 7]) (.returned ((1700000000 : Int),()))),
  .server .base (.lookupStep 1 (.setCachedPrice usdc 7 (.finite 1) (some 1700000000)) ()),
  .server .base (.lookupDone 1),
  .answered 0]

theorem shown_quote_genuine_usdc : ∃ final quote,
    run (step plainTexts chains ⟨"",[],asciiLower⟩ codePointCompare id id) (opened usdcMounted fun _ => ∅) quotedRun = some final ∧
      final.form.result = some quote ∧ ∃ k request,
        Asked plainTexts chains ⟨"",[],asciiLower⟩ codePointCompare id id usdcMounted (fun _ => ∅) quotedRun k request ∧
        final.Served plainTexts chains (fun _ => ∅) request quote := by
  obtain ⟨final,ran,shows⟩ : ∃ final ∈ run (step plainTexts chains ⟨"",[],asciiLower⟩ codePointCompare id id)
      (opened usdcMounted fun _ => ∅) quotedRun, final.form.result.isSome = true := by decide +kernel
  obtain ⟨quote,shown⟩ := Option.isSome_iff_exists.mp shows
  exact ⟨final,quote,ran,shown,shown_quote_genuine ⟨rfl,rfl⟩ ran shown⟩

/-- An error that is shown is one that the form was told otherwise, or a request that the form had sent failed on the
server of its chain with it. -/
theorem shown_error_told (blank : form.result = none ∧ form.error = none) {actions : List Action}
    (ran : run (step texts config bundle localeCompare toUpperCase trim) (opened form caches) actions = some final)
    {text : String} (shown : final.form.error = some text) :
    (∃ action, .form action ∈ actions ∧ action.reports = some text) ∨
      ∃ k request, Asked texts config bundle localeCompare toUpperCase trim form caches actions k request ∧
        Failed texts config caches final request text := by
  have traced := run_traced blank ran
  refine (traced.error text shown).imp_right ?_
  rintro ⟨fetch,member,response,replied,settles⟩
  have read := reply_read (traced.received fetch member) (traced.servers _) replied
  exact ⟨fetch.k,fetch.request,traced.asked fetch member,read.failed settles⟩

/-- The upstream has no price. -/
def missedRun : List Action := [
  .form .submit,
  .form (.proceed 0),
  .arrive november 0,
  .server .base (.handlerStep 0 (.await [.headBlock]) (.returned ((7 : Nat),()))),
  .server .base (.handlerStep 0 (.getCachedPrice usdc 7) none),
  .server .base (.handlerStep 0 (.getCachedError usdc 7) none),
  .server .base (.startLookup 0),
  .server .base (.lookupStep 0 (.await [.price usdc 7 none []]) (.returned (none,()))),
  .server .base (.lookupDone 0),
  .server .base (.handlerStep 0 (.setCachedError usdc 7 (notFoundMessage (chains .base) usdc 7)) ()),
  .answered 0]

theorem shown_error_told_missing : ∃ final text,
    run (step plainTexts chains ⟨"",[],asciiLower⟩ codePointCompare id id) (opened usdcMounted fun _ => ∅) missedRun = some final ∧
      final.form.error = some text ∧ ∃ k request,
        Asked plainTexts chains ⟨"",[],asciiLower⟩ codePointCompare id id usdcMounted (fun _ => ∅) missedRun k request ∧
        Failed plainTexts chains (fun _ => ∅) final request text := by
  obtain ⟨final,ran,shows⟩ : ∃ final ∈ run (step plainTexts chains ⟨"",[],asciiLower⟩ codePointCompare id id)
      (opened usdcMounted fun _ => ∅) missedRun, final.form.error.isSome = true := by decide +kernel
  obtain ⟨text,shown⟩ := Option.isSome_iff_exists.mp shows
  refine ⟨final,text,ran,shown,(shown_error_told ⟨rfl,rfl⟩ ran shown).resolve_left ?_⟩
  rintro ⟨action,member,told⟩
  simp only [missedRun,List.mem_cons,Action.form.injEq,reduceCtorEq,List.not_mem_nil,or_false] at member
  rcases member with rfl | rfl <;> cases told

end

/-! A page that is opened with a query. -/

/-- Nobody touches the form. -/
def Action.Quiet : Action → Prop
  | .form action => action.Quiet
  | _ => True

section
variable {texts : GivenTexts} {config : Chain → Server.Config} {bundle : Bundle} {localeCompare : String → String → Int}
  {toUpperCase trim : String → String} {caches : Chain → Cache} {p next : Site}

/-- The form moves with an action of its own, or with the answer to a fetch. -/
theorem Stepped.moves {action : Action} (stepped : Stepped texts config bundle localeCompare toUpperCase trim p action next) :
    next.form = p.form ∨ ∃ move, p.form.step bundle localeCompare toUpperCase trim move = some next.form ∧
      (action = .form move ∧ move.shows = none ∨
        ∃ fetch ∈ p.fetches, ∃ response, p.reply texts fetch = some response ∧ move = settlement texts fetch.k response) := by
  cases stepped with
  | @form own form unseen moved => exact Or.inr ⟨own,moved,Or.inl ⟨rfl,unseen⟩⟩
  | handled | refused | server => exact Or.inl rfl
  | @answered i fetch response form found replied moved =>
    exact Or.inr ⟨_,moved,Or.inr ⟨fetch,List.mem_of_getElem? found,response,replied,rfl⟩⟩

theorem settlement_quiet (texts : GivenTexts) (k : Nat) (response : FetchResponse) : (settlement texts k response).Quiet := by
  rcases settlement_cases texts k response with ⟨_,same⟩ | ⟨_,same⟩ <;> exact same ▸ trivial

theorem settlement_fromStore (bundle : Bundle) (texts : GivenTexts) (k : Nat) (response : FetchResponse) :
    QuoteForm.FromStore bundle (settlement texts k response) := by
  rcases settlement_cases texts k response with ⟨_,same⟩ | ⟨_,same⟩ <;> exact same ▸ trivial

/-- What the form has come to with the servers, it comes to on its own. -/
theorem run_form {form : QuoteForm PriceResponse} {actions : List Action} (stored : ∀ action, .form action ∈ actions → QuoteForm.FromStore bundle action)
    (ran : run (step texts config bundle localeCompare toUpperCase trim) (opened form caches) actions = some p) :
    ∃ moves, run (QuoteForm.step bundle localeCompare toUpperCase trim) form moves = some p.form ∧
      ∀ move ∈ moves, QuoteForm.FromStore bundle move := by
  refine run_history (fun done (p : Site) => (∀ action, .form action ∈ done → QuoteForm.FromStore bundle action) →
    ∃ moves, run (QuoteForm.step bundle localeCompare toUpperCase trim) form moves = some p.form ∧
      ∀ move ∈ moves, QuoteForm.FromStore bundle move) (fun _ => ⟨[],rfl,List.forall_mem_nil _⟩) ?_ ran stored
  intro done before action after _ known stepped stored
  obtain ⟨moves,ran,all⟩ := known fun own member => stored own (List.mem_append_left _ member)
  rcases (step_stepped stepped).moves with same | ⟨move,moved,origin⟩
  · rw [same]
    exact ⟨moves,ran,all⟩
  · refine ⟨moves ++ [move],run_snoc ran moved,List.forall_mem_append.mpr ⟨all,List.forall_mem_singleton.mpr ?_⟩⟩
    rcases origin with ⟨rfl,_⟩ | ⟨fetch,_,response,_,rfl⟩
    · exact stored move (List.mem_append_right _ (List.mem_singleton_self _))
    · exact settlement_fromStore bundle texts fetch.k response

/-- The form alone moves. -/
theorem run_own {actions : List (FormAction PriceResponse)}
    (ran : run (step texts config bundle localeCompare toUpperCase trim) p (actions.map .form) = some next) :
    run (QuoteForm.step bundle localeCompare toUpperCase trim) p.form actions = some next.form ∧ next.fetches = p.fetches := by
  induction actions generalizing p with
  | nil =>
    cases Option.some.inj ran
    exact ⟨rfl,rfl⟩
  | cons action rest ih =>
    obtain ⟨middle,stepped,ran⟩ := run_cons_some ran
    obtain ⟨later,same⟩ := ih ran
    cases step_stepped stepped with
    | form own moved =>
      refine ⟨?_,same⟩
      rw [run_cons,moved]
      exact later

/-- Only the submit that the link has begun goes on, the fetches for it are for its request, and the form has moved
by itself or with answers. -/
structure Link (texts : GivenTexts) (k : Nat) (request : Frontend.Request) (done : List Action) (p : Site) : Prop where
  lone : ∃ moves, p.form.Lone k request moves ∧ ∀ move ∈ moves, .form move ∈ done ∧ move.shows = none ∨
    ∃ fetch ∈ p.fetches, ∃ response, p.reply texts fetch = some response ∧ move = settlement texts fetch.k response
  fetches : ∀ fetch ∈ p.fetches, fetch.k = k → fetch.request = request

variable {k : Nat} {request : Frontend.Request}

theorem Link.stepped {done : List Action} {action : Action} (link : Link texts k request done p) (quiet : action.Quiet)
    (stepped : Stepped texts config bundle localeCompare toUpperCase trim p action next) :
    Link texts k request (done ++ [action]) next := by
  have later := stepped.extends
  obtain ⟨moves,lone,known⟩ := link.lone
  have kept : ∀ move ∈ moves, .form move ∈ done ++ [action] ∧ move.shows = none ∨
      ∃ fetch ∈ next.fetches, ∃ response, next.reply texts fetch = some response ∧ move = settlement texts fetch.k response := by
    intro move member
    rcases known move member with ⟨own,unseen⟩ | ⟨fetch,there,response,replied,same⟩
    · exact Or.inl ⟨List.mem_append_left _ own,unseen⟩
    · exact Or.inr ⟨fetch,later.fetches there,response,reply_extended replied later,same⟩
  refine ⟨?_,fun fetch member here => ?_⟩
  · rcases stepped.moves with same | ⟨move,moved,origin⟩
    · rw [same]
      exact ⟨moves,lone,kept⟩
    · have still : move.Quiet := by
        rcases origin with ⟨rfl,_⟩ | ⟨fetch,_,response,_,rfl⟩
        · exact quiet
        · exact settlement_quiet texts fetch.k response
      obtain ⟨acted,moved,mirrors⟩ := QuoteForm.step_acted moved
      refine ⟨moves ++ [move],(lone.quiet still moved).mirrored mirrors,
        List.forall_mem_append.mpr ⟨kept,List.forall_mem_singleton.mpr ?_⟩⟩
      rcases origin with ⟨rfl,unseen⟩ | ⟨fetch,there,response,replied,same⟩
      · exact Or.inl ⟨List.mem_append_right _ (List.mem_singleton_self _),unseen⟩
      · exact Or.inr ⟨fetch,later.fetches there,response,reply_extended replied later,same⟩
  · by_cases old : fetch ∈ p.fetches
    · exact link.fetches fetch old here
    · obtain ⟨call,found,flies⟩ := (stepped.received member old).2
      rcases lone.calls fetch.k call found with settled | ⟨_,_,waits | asks⟩
      · rw [settled] at flies
        cases flies
      · rw [waits] at flies
        cases flies
      · rw [asks] at flies
        exact (Phase.inFlight.inj flies).symm

theorem Link.run {done after : List Action} (link : Link texts k request done p) (quiet : ∀ action ∈ after, action.Quiet)
    (ran : Async.run (step texts config bundle localeCompare toUpperCase trim) p after = some next) :
    Link texts k request (done ++ after) next := by
  induction after generalizing p done with
  | nil =>
    cases Option.some.inj ran
    rw [List.append_nil]
    exact link
  | cons action rest ih =>
    obtain ⟨middle,stepped,ran⟩ := run_cons_some ran
    have later := ih (link.stepped (quiet action List.mem_cons_self) (step_stepped stepped))
      (fun other member => quiet other (List.mem_cons_of_mem _ member)) ran
    rwa [List.append_assoc] at later

/-- What is shown was answered to the request of the link. -/
theorem Link.shown {done : List Action} (link : Link texts k request done p) :
    (∀ quote, p.form.result = some quote → ∃ fetch ∈ p.fetches, fetch.request = request ∧ ∃ response,
      p.reply texts fetch = some response ∧ settlement texts fetch.k response = .respond fetch.k quote) ∧
    ∀ text, p.form.error = some text → .form (.fail k (some text)) ∈ done ∨ ∃ fetch ∈ p.fetches, fetch.request = request ∧
      ∃ response, p.reply texts fetch = some response ∧ settlement texts fetch.k response = .fail fetch.k (some text) := by
  obtain ⟨moves,lone,known⟩ := link.lone
  refine ⟨fun quote shown => ?_,fun text shown => ?_⟩
  · rcases known _ (lone.result quote shown) with ⟨_,unseen⟩ | ⟨fetch,there,response,replied,same⟩
    · cases unseen
    · have settles : settlement texts fetch.k response = .respond fetch.k quote := settlement_shows (by rw [← same]; rfl)
      have here : k = fetch.k := (FormAction.respond.inj (same.trans settles)).1
      exact ⟨fetch,there,link.fetches fetch there here.symm,response,replied,settles⟩
  · rcases known _ (lone.error text shown) with ⟨own,_⟩ | ⟨fetch,there,response,replied,same⟩
    · exact Or.inl own
    · have settles : settlement texts fetch.k response = .fail fetch.k (some text) := settlement_reports (by rw [← same]; rfl)
      have here : k = fetch.k := (FormAction.fail.inj (same.trans settles)).1
      exact Or.inr ⟨fetch,there,link.fetches fetch there here.symm,response,replied,settles⟩

theorem mount_blank (bundle : Bundle) (toUpperCase : String → String) (chain : Chain) (index : TokenIndex) (pairFrom : Option String) :
    (QuoteForm.mount bundle toUpperCase chain index pairFrom : QuoteForm PriceResponse).result = none ∧
      (QuoteForm.mount bundle toUpperCase chain index pairFrom : QuoteForm PriceResponse).error = none := by
  unfold QuoteForm.mount
  cases pairFrom with
  | none => exact ⟨rfl,rfl⟩
  | some address =>
    dsimp only
    unfold QuoteForm.setFromAddress QuoteForm.passAddress
    split <;> exact ⟨rfl,rfl⟩

variable {getTime : String → Option Int} {params : URLSearchParams} {block : BlockField} {amount address : String}
  {pairFrom : Option String} {filled final : Site}

/-- However the page was used before, if no submit is under way when it is opened with a query that names a token,
then as long as nobody touches the form a quote that is shown is the upstream's answer for what the query names, and
an error is how the request for that has failed. -/
theorem linked_quote_genuine (linked : linkedToken params = some address) {first : Chain} {index : TokenIndex}
    {firstFrom : Option String} {before after : List Action} (built : ∃ lists, buildTokenIndex bundle lists = .ok index)
    (stored : ∀ action, .form action ∈ before → QuoteForm.FromStore bundle action)
    (ran : run (step texts config bundle localeCompare toUpperCase trim)
      (opened (QuoteForm.mount bundle toUpperCase first index firstFrom) caches) before = some p)
    (idle : ∀ call ∈ p.form.calls, call.phase = .settled)
    (clicked : run (step texts config bundle localeCompare toUpperCase trim) p
      ((selectChain params pairFrom ++ fillForm getTime params block amount).map .form) = some filled)
    (quiet : ∀ action ∈ after, action.Quiet)
    (later : run (step texts config bundle localeCompare toUpperCase trim) filled after = some final) :
    (∀ quote, final.form.result = some quote →
      final.Served texts config caches (QuoteForm.linkedRequest bundle toUpperCase getTime params block amount p.form address) quote) ∧
    ∀ text, final.form.error = some text → .form (.fail p.form.calls.length (some text)) ∈ after ∨
      Failed texts config caches final (QuoteForm.linkedRequest bundle toUpperCase getTime params block amount p.form address) text := by
  have blank := mount_blank bundle toUpperCase first index firstFrom
  have whole : run (step texts config bundle localeCompare toUpperCase trim)
      (opened (QuoteForm.mount bundle toUpperCase first index firstFrom) caches)
      (before ++ ((selectChain params pairFrom ++ fillForm getTime params block amount).map .form ++ after)) = some final := by
    rw [run_append,ran,Option.bind_some,run_append,clicked,Option.bind_some]
    exact later
  have traced := run_traced blank whole
  have early := run_traced blank ran
  obtain ⟨moves,own,indexed⟩ := run_form stored ran
  have rooted := QuoteForm.run_rooted (QuoteForm.mount_rooted built first firstFrom) indexed own
  obtain ⟨typed,same⟩ := run_own clicked
  obtain ⟨lone,_⟩ := QuoteForm.opened_lone rooted (fun i call found => idle call (List.mem_of_getElem? found)) linked typed
  -- the fetches of before belong to earlier submits
  have link : Link texts p.form.calls.length
      (QuoteForm.linkedRequest bundle toUpperCase getTime params block amount p.form address) [] filled := by
    refine ⟨⟨[],lone,List.forall_mem_nil _⟩,fun fetch member here => ?_⟩
    rw [same] at member
    exact absurd here (early.received fetch member).placed.ne
  obtain ⟨quotes,errors⟩ := (link.run quiet later).shown
  refine ⟨fun quote shown => ?_,fun text shown => ?_⟩
  · obtain ⟨fetch,member,asks,response,replied,settles⟩ := quotes quote shown
    have read := reply_read (traced.received fetch member) (traced.servers _) replied
    rw [← asks]
    exact read.served settles
  · refine (errors text shown).imp id ?_
    rintro ⟨fetch,member,asks,response,replied,settles⟩
    have read := reply_read (traced.received fetch member) (traced.servers _) replied
    rw [← asks]
    exact read.failed settles

end

/-- The page shows Ethereum when the link to USDC on Base is opened. -/
def openedPage : Site := opened (QuoteForm.mount ⟨"",[],asciiLower⟩ id .ethereum Session.builtinIndex (some "USD")) fun _ => ∅

def clickedPage : Option Site :=
  run (step plainTexts chains ⟨"",[],asciiLower⟩ codePointCompare id id) openedPage
    ((selectChain usdcLink (some usdc) ++ fillForm (fun _ => none) usdcLink ⟨"",.text⟩ "").map .form)

def answeredLink : List Action := [
  .form (.proceed 0),
  .server .ethereum (.request (.price ⟨usdc,some 18000000,none,[],none⟩ false)),
  .arrive november 0,
  .server .base (.startLookup 0),
  .server .base (.lookupStep 0 (.await [.price usdc 18000000 (some (5/2)) []]) (.returned (some ⟨.finite 1,"1",none⟩,()))),
  .server .base (.lookupStep 0 (.await [.blockTimestamp 18000000]) (.returned ((1700000000 : Int),()))),
  .server .base (.lookupDone 0),
  .answered 0]

theorem linked_quote_genuine_usdc : ∃ filled ∈ clickedPage, ∃ final quote,
    run (step plainTexts chains ⟨"",[],asciiLower⟩ codePointCompare id id) filled answeredLink = some final ∧
      final.form.result = some quote ∧
      final.Served plainTexts chains (fun _ => ∅) ⟨.base,usdc,some "18000000",some "2.5"⟩ quote := by
  obtain ⟨filled,clicked,final,later,shows⟩ : ∃ filled ∈ clickedPage,
      ∃ final ∈ run (step plainTexts chains ⟨"",[],asciiLower⟩ codePointCompare id id) filled answeredLink,
        final.form.result.isSome = true := by decide +kernel
  obtain ⟨quote,shown⟩ := Option.isSome_iff_exists.mp shows
  have linked : linkedToken usdcLink = some "0x833589fcd6edb6e08f4c7c32d4f71b54bda02913" := by decide
  have asks : QuoteForm.linkedRequest ⟨"",[],asciiLower⟩ id (fun _ => none) usdcLink ⟨"",.text⟩ "" openedPage.form
      "0x833589fcd6edb6e08f4c7c32d4f71b54bda02913" = ⟨.base,usdc,some "18000000",some "2.5"⟩ := by decide +kernel
  have built : ∃ lists, buildTokenIndex ⟨"",[],asciiLower⟩ lists = .ok Session.builtinIndex := ⟨[builtinList],rfl⟩
  have ran : run (step plainTexts chains ⟨"",[],asciiLower⟩ codePointCompare id id) openedPage [] = some openedPage := rfl
  have genuine := linked_quote_genuine linked built (by simp) ran (List.forall_mem_nil _) clicked
    (by simp [answeredLink,Action.Quiet,FormAction.Quiet]) later
  rw [asks] at genuine
  exact ⟨filled,clicked,final,quote,later,shown,genuine.1 quote shown⟩

end Site

end YPriceMagic.Frontend
