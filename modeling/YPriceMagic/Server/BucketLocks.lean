import Mathlib.Logic.Function.Basic
import YPriceMagic.Async.Lock
import YPriceMagic.Server.Addresses
import YPriceMagic.Server.LookupSpecs

/-! Any number of classifications over the locks of `_get_token_lock`. A process asks for
a bucket only while it holds the lock of its own spelling of the token. -/
namespace YPriceMagic.Server
open YPriceMagic.Async YPriceMagic.Async.Coroutine

def hold (held : List LockName) : Event → List LockName
  | ⟨.acquire lock,.returned _⟩ => lock::held
  | ⟨.release lock,_⟩ => held.filter (· ≠ lock)
  | _ => held

def heldBy (history : List Event) : List LockName := history.foldl hold []

@[simp] theorem heldBy_nil : heldBy [] = [] := rfl

@[simp] theorem heldBy_snoc (history : List Event) (event : Event) :
    heldBy (history++[event]) = hold (heldBy history) event := by
  simp [heldBy,List.foldl_append]

/-- The bucket of a token is asked for under the lock of that token, and only a lock that is
held is released. -/
def Careful (token : String) (history : List Event) : Op → Prop
  | .await queries => ∀ asked, .bucket asked ∈ queries → asked = token ∧ .token token ∈ heldBy history
  | .release lock => lock ∈ heldBy history
  | _ => True

section
variable {α β : Type} {token : String} {held : List LockName} {fact : α → Prop} {after : β → Prop} {history : List Event}

/-- The locks that are held at every end of a program. -/
abbrev Guarded (token : String) (held : List LockName) (fact : α → Prop) (program : Program α) (history : List Event) :
    Prop :=
  Ensures (Careful token) Sigma.mk
    (fun outcome later => heldBy later = held ∧ ∀ value, outcome = .returned value → fact value) program history

theorem guarded_pure {value : α} (same : heldBy history = held) (known : fact value) :
    Guarded token held fact (pure value) history := by
  refine ⟨same,fun other returned => ?_⟩
  cases returned
  exact known

theorem Guarded.bind {program : Program α} {next : α → Program β} (guarded : Guarded token held fact program history)
    (continued : ∀ value later, heldBy later = held → fact value → Guarded token held after (next value) later) :
    Guarded token held after (program >>= next) history :=
  Ensures.bind guarded (fun value later _ ended => continued value later ended.1 (ended.2 value rfl))
    (fun _ _ _ ended => ⟨ended.1,fun _ returned => by cases returned⟩)
    fun _ _ ended => ⟨ended.1,fun _ returned => by cases returned⟩

theorem Guarded.tryExcept {program : Program α} {handler : Exn → Program α}
    (guarded : Guarded token held fact program history)
    (handled : ∀ error later, heldBy later = held → Guarded token held fact (handler error) later) :
    Guarded token held fact (program.tryExcept handler) history :=
  Ensures.tryExcept guarded (fun _ _ _ ended => ended) (fun error later _ ended => handled error later ended.1)
    fun _ _ ended => ended

theorem gather_guarded {queries : List Query} (same : heldBy history = held)
    (careful : Careful token history (.await queries)) :
    Guarded token held (fun _ => True) (gather queries) history :=
  ⟨careful,fun _ => ⟨by simp [hold,same],fun _ _ => trivial⟩⟩

theorem call_guarded {query : Query} (same : heldBy history = held) (careful : Careful token history (.await [query])) :
    Guarded token held (fun _ => True) (call query) history :=
  (gather_guarded same careful).bind fun _ _ same _ => guarded_pure same trivial

theorem withLock_guarded {lock : LockName} {body : Program α} (same : heldBy history = held) (free : lock ∉ held)
    (guarded : ∀ later, heldBy later = lock::held → Guarded token (lock::held) fact body later) :
    Guarded token held fact (withLock lock body) history := by
  refine ⟨trivial,fun reply => ?_⟩
  cases reply with
  | raised error => exact ⟨by simp [hold,same],fun _ returned => by cases returned⟩
  | cancelled => exact ⟨by simp [hold,same],fun _ returned => by cases returned⟩
  | returned _ =>
    have taken : heldBy (history++[⟨.acquire lock,.returned ()⟩]) = lock::held := by simp [hold,same]
    change Ensures _ _ _ (body.tryFinally (release lock)) _
    refine Ensures.andThen (guarded _ taken) fun outcome later _ ended => ?_
    refine ⟨?_,fun _ => ⟨?_,ended.2⟩⟩
    · change lock ∈ heldBy later
      simp [ended.1]
    · have others : ∀ other ∈ held, other ≠ lock := fun other member here => free (here ▸ member)
      simpa [hold,ended.1] using others

end

theorem getTokenLock_guarded (asker token : String) :
    Guarded asker [] (fun lock => lock = .token token) (getTokenLock token) [] :=
  withLock_guarded rfl (by simp) fun _ same => guarded_pure same rfl

theorem fetchMetadata_guarded (asker token : String) {held : List LockName} {history : List Event}
    (same : heldBy history = held) : Guarded asker held (fun _ => True) (fetchMetadata token) history := by
  refine Guarded.tryExcept ?_ fun _ _ same => guarded_pure same trivial
  refine (gather_guarded same fun asked member => ?_).bind fun _ _ same _ => guarded_pure same trivial
  simp at member

theorem classifyToken_guarded (config : Config) (token : String) :
    Guarded token [] (fun _ => True) (classifyToken config token) [] := by
  refine (getTokenLock_guarded token token).bind fun lock later same named => ?_
  subst named
  refine withLock_guarded same (by simp) fun later same => ?_
  refine Guarded.tryExcept ?_ fun _ _ same => guarded_pure same trivial
  have asks : Careful token later (.await [.bucket token]) := by
    intro asked member
    obtain rfl : asked = token := by simpa using member
    simp [same]
  refine (call_guarded same asks).bind fun _ _ same _ => ?_
  exact (fetchMetadata_guarded token token same).bind fun _ _ same _ => guarded_pure same trivial

def acceptedToken (token : Option String) : Option String :=
  match (checkBucketToken token).run with
  | .ok (.ok token) => some token
  | _ => none

structure Classification where
  token : String
  program : Program Response

/-- A lock that `_bucket_locks` does not have yet is as good as a free one. -/
structure Classifications where
  locks : LockName → Lock
  processes : List Classification

def Op.locks : Op → Bool
  | .acquire _ | .release _ => true
  | _ => false

namespace Classifications

def start : Classifications := ⟨fun _ => {},[]⟩

inductive Action
  | request (token : Option String)
  | acquire (id : Nat) (lock : LockName)
  | resume (id : Nat) (lock : LockName)
  | cancel (id : Nat) (lock : LockName)
  | unwind (id : Nat) (lock : LockName)
  | release (id : Nat) (lock : LockName)
  | reply (id : Nat) (op : Op) (reply : Reply op)

/-- The texts that the requests of a schedule put forward and `check_bucket` accepts. -/
def acceptedTokens (actions : List Action) : List String :=
  actions.filterMap fun
    | .request token => acceptedToken token
    | _ => none

def setLock (s : Classifications) (name : LockName) (lock : Lock) : Classifications :=
  {s with locks := Function.update s.locks name lock}

def proceed (s : Classifications) (id : Nat) (op : Op) (reply : Reply op) : Option Classifications := do
  let process ← s.processes[id]?
  let program ← process.program.answer op reply
  some {s with processes := s.processes.set id {process with program}}

/-- An `acquire` that cannot return at once leaves its future in the lock's deque, where it
is granted by a release or cancelled; either is seen when the task resumes. -/
def step (config : Config) (s : Classifications) : Action → Option Classifications
  | .request token => match acceptedToken token with
    | some token => some {s with processes := s.processes++[⟨token,classifyToken config token⟩]}
    | none => some s
  | .acquire id name => do
    let process ← s.processes[id]?
    if process.program.pending = some (.acquire name) ∧ (s.locks name).status id = none then
      match (s.locks name).tryAcquire with
      | some taken => (s.setLock name taken).proceed id (.acquire name) (.returned ())
      | none => some (s.setLock name ((s.locks name).enqueue id))
    else none
  | .resume id name =>
    if (s.locks name).status id = some .granted then
      (s.setLock name ((s.locks name).resumeGranted id)).proceed id (.acquire name) (.returned ())
    else none
  | .cancel id name => some (s.setLock name ((s.locks name).cancelWaiter id))
  | .unwind id name =>
    if (s.locks name).status id = some .cancelled ∨ (s.locks name).status id = some .granted then
      (s.setLock name ((s.locks name).resumeCancelled id)).proceed id (.acquire name) .cancelled
    else none
  | .release id name => do
    let freed ← (s.locks name).release
    (s.setLock name freed).proceed id (.release name) ()
  | .reply id op reply => if op.locks then none else s.proceed id op reply

/-- The process awaits the upstream call for that token. -/
def InFlight (s : Classifications) (id : Nat) (token : String) : Prop :=
  ∃ process queries, s.processes[id]? = some process ∧ process.program.pending = some (.await queries) ∧
    .bucket token ∈ queries

/-- Who holds each lock, and that every process has come to hold exactly its own. -/
structure Exclusive (config : Config) (s : Classifications) (owner : LockName → Option Nat) : Prop where
  owned : ∀ name, (s.locks name).Owned (owner name)
  known : ∀ name id, owner name = some id → id < s.processes.length
  led : ∀ id process, s.processes[id]? = some process →
    ∃ history, Leads (classifyToken config process.token) history process.program ∧
      ∀ name, name ∈ heldBy history ↔ owner name = some id

section
variable {config : Config} {s next : Classifications} {owner : LockName → Option Nat} {id : Nat} {name : LockName}

theorem setLock_owned {lock : Lock} (kept : ∀ owner, (s.locks name).Owned owner → lock.Owned owner) (other : LockName)
    (owner : Option Nat) (owned : (s.locks other).Owned owner) : ((s.setLock name lock).locks other).Owned owner := by
  by_cases same : other = name
  · subst same
    simpa [setLock] using kept owner owned
  · simpa [setLock,Function.update_of_ne same] using owned

theorem hold_neutral {op : Op} (neutral : op.locks = false) (reply : Reply op) (held : List LockName) :
    hold held ⟨op,reply⟩ = held := by
  cases op with
  | acquire lock => cases neutral
  | release lock => cases neutral
  | _ => rfl

/-- Everything a step can be, by what it does to the owner of a lock. -/
inductive Stepped (config : Config) (s : Classifications) (action : Action) (next : Classifications) : Prop
  | accepted (token : String) (known : acceptedTokens [action] = [token])
      (same : next = {s with processes := s.processes++[⟨token,classifyToken config token⟩]})
  | idle (locks : LockName → Lock) (kept : ∀ name owner, (s.locks name).Owned owner → (locks name).Owned owner)
      (same : next = {s with locks})
  | kept (id : Nat) (op : Op) (reply : Reply op) (locks : LockName → Lock)
      (kept : ∀ name owner, (s.locks name).Owned owner → (locks name).Owned owner)
      (neutral : ∀ held, hold held ⟨op,reply⟩ = held)
      (proceeded : ({s with locks} : Classifications).proceed id op reply = some next)
  | taken (id : Nat) (name : LockName) (lock : Lock)
      (free : ∀ owner, (s.locks name).Owned owner → owner = none ∧ lock.Owned (some id))
      (proceeded : (s.setLock name lock).proceed id (.acquire name) (.returned ()) = some next)
  | freed (id : Nat) (name : LockName) (lock : Lock) (free : ∀ owner, (s.locks name).Owned owner → lock.Owned none)
      (proceeded : (s.setLock name lock).proceed id (.release name) () = some next)

theorem step_cases {action : Action} (stepped : step config s action = some next) : Stepped config s action next := by
  cases action with
  | request token =>
    simp only [step] at stepped
    split at stepped
    · rename_i accepted known
      exact .accepted accepted (by simp [acceptedTokens,known]) (Option.some.inj stepped).symm
    · exact .idle s.locks (fun _ _ owned => owned) (Option.some.inj stepped).symm
  | acquire id name =>
    obtain ⟨process,found,stepped⟩ := Option.bind_eq_some_iff.mp stepped
    split at stepped
    · split at stepped
      · rename_i taken acquired
        exact .taken id name taken (fun _ owned => Lock.tryAcquire_owned owned acquired id) stepped
      · exact .idle _ (setLock_owned fun _ owned => Lock.enqueue_owned owned id) (Option.some.inj stepped).symm
    · cases stepped
  | resume id name =>
    simp only [step] at stepped
    split at stepped
    · rename_i granted
      exact .taken id name _ (fun _ owned => Lock.resumeGranted_owned owned granted) stepped
    · cases stepped
  | cancel id name =>
    exact .idle _ (setLock_owned fun _ owned => Lock.cancelWaiter_owned owned id) (Option.some.inj stepped).symm
  | unwind id name =>
    simp only [step] at stepped
    split at stepped
    · exact .kept id _ _ _ (setLock_owned fun _ owned => Lock.resumeCancelled_owned owned id) (fun _ => rfl) stepped
    · cases stepped
  | release id name =>
    obtain ⟨freed,released,stepped⟩ := Option.bind_eq_some_iff.mp stepped
    exact .freed id name freed (fun _ owned => Lock.release_owned owned released) stepped
  | reply id op reply =>
    simp only [step] at stepped
    split at stepped
    · cases stepped
    · rename_i neutral
      exact .kept id op reply s.locks (fun _ _ owned => owned) (hold_neutral (by simpa using neutral) reply) stepped

theorem start_exclusive (config : Config) : Exclusive config start fun _ => none := by
  refine ⟨fun _ => ⟨Lock.orderly_free,fun has => ?_⟩,fun _ _ has => ?_,fun id process found => ?_⟩
  · cases has
  · cases has
  · simp [start] at found

theorem request_exclusive (exclusive : Exclusive config s owner) (token : String) :
    Exclusive config {s with processes := s.processes++[⟨token,classifyToken config token⟩]} owner := by
  refine ⟨exclusive.owned,fun name id has => ?_,fun id process found => ?_⟩
  · have inside := exclusive.known name id has
    simp only [List.length_append,List.length_singleton]
    omega
  · rcases mem_snoc_table found with old | ⟨rfl,rfl⟩
    · exact exclusive.led id process old
    · refine ⟨[],.here _,fun name => ?_⟩
      have unheld : owner name ≠ some s.processes.length := fun has => (exclusive.known name _ has).false
      simp [unheld]

theorem proceed_some {op : Op} {reply : Reply op} (proceeded : s.proceed id op reply = some next) :
    ∃ process resume, s.processes[id]? = some process ∧ process.program = perform op resume ∧
      next = {s with processes := s.processes.set id {process with program := resume reply}} := by
  obtain ⟨process,found,proceeded⟩ := Option.bind_eq_some_iff.mp proceeded
  obtain ⟨program,answered,proceeded⟩ := Option.bind_eq_some_iff.mp proceeded
  obtain ⟨resume,performed,rfl⟩ := answer_some answered
  exact ⟨process,resume,found,performed,(Option.some.inj proceeded).symm⟩

theorem proceed_exclusive {locks : LockName → Lock} {later : LockName → Option Nat} {op : Op} {reply : Reply op}
    (exclusive : Exclusive config s owner) (proceeded : ({s with locks} : Classifications).proceed id op reply = some next)
    (owned : ∀ name, (locks name).Owned (later name))
    (others : ∀ name other, other ≠ id → (later name = some other ↔ owner name = some other))
    (own : ∀ held : List LockName, (∀ name, name ∈ held ↔ owner name = some id) →
      ∀ name, name ∈ hold held ⟨op,reply⟩ ↔ later name = some id) : Exclusive config next later := by
  obtain ⟨process,resume,found,performed,rfl⟩ := proceed_some proceeded
  have inside : id < s.processes.length := (List.getElem?_eq_some_iff.mp found).1
  refine ⟨owned,fun name other has => ?_,fun other moved there => ?_⟩
  · rw [List.length_set]
    by_cases same : other = id
    · exact same ▸ inside
    · exact exclusive.known name other ((others name other same).mp has)
  · rcases mem_set_table there with ⟨rfl,rfl⟩ | ⟨apart,there⟩
    · obtain ⟨history,leads,holds⟩ := exclusive.led other process found
      rw [performed] at leads
      refine ⟨history++[⟨op,reply⟩],.answered reply leads,fun name => ?_⟩
      rw [heldBy_snoc]
      exact own _ holds name
    · obtain ⟨history,leads,holds⟩ := exclusive.led other moved there
      exact ⟨history,leads,fun name => (holds name).trans (others name other apart).symm⟩

/-- A process that passes one lock on to a new owner. -/
theorem passed_exclusive {lock : Lock} {new : Option Nat} {op : Op} {reply : Reply op} (exclusive : Exclusive config s owner)
    (owned : lock.Owned new) (proceeded : (s.setLock name lock).proceed id op reply = some next)
    (others : ∀ other, other ≠ id → (new = some other ↔ owner name = some other))
    (here : ∀ held, name ∈ hold held ⟨op,reply⟩ ↔ new = some id)
    (elsewhere : ∀ held other, other ≠ name → (other ∈ hold held ⟨op,reply⟩ ↔ other ∈ held)) :
    Exclusive config next (Function.update owner name new) := by
  refine proceed_exclusive exclusive proceeded (fun other => ?_) (fun other holder apart => ?_) fun held holds other => ?_
  · by_cases same : other = name
    · subst same
      simpa using owned
    · simpa [Function.update_of_ne same] using exclusive.owned other
  · by_cases same : other = name
    · subst same
      rw [Function.update_self]
      exact others holder apart
    · rw [Function.update_of_ne same]
  · by_cases same : other = name
    · subst same
      rw [Function.update_self]
      exact here held
    · rw [Function.update_of_ne same]
      exact (elsewhere held other same).trans (holds other)

theorem taken_exclusive {lock : Lock} (exclusive : Exclusive config s owner)
    (taken : owner name = none ∧ lock.Owned (some id))
    (proceeded : (s.setLock name lock).proceed id (.acquire name) (.returned ()) = some next) :
    Exclusive config next (Function.update owner name (some id)) := by
  refine passed_exclusive exclusive taken.2 proceeded (fun other apart => ?_) (fun held => ?_) fun held other apart => ?_
  · simp [taken.1,Ne.symm apart]
  · simp [hold]
  · simp [hold,apart]

/-- What the program of a process is about to do is allowed by what it has done. -/
theorem Exclusive.careful {process : Classification} {op : Op} {resume : Reply op → Program Response}
    (exclusive : Exclusive config s owner) (found : s.processes[id]? = some process)
    (performed : process.program = perform op resume) :
    ∃ history, Careful process.token history op ∧ ∀ name, name ∈ heldBy history ↔ owner name = some id := by
  obtain ⟨history,leads,holds⟩ := exclusive.led id process found
  have ensured := (classifyToken_guarded config process.token).leads leads
  rw [performed] at ensured
  exact ⟨history,ensured.1,holds⟩

theorem freed_exclusive {lock : Lock} (exclusive : Exclusive config s owner) (freed : lock.Owned none)
    (proceeded : (s.setLock name lock).proceed id (.release name) () = some next) :
    Exclusive config next (Function.update owner name none) := by
  obtain ⟨process,resume,found,performed,_⟩ := proceed_some proceeded
  obtain ⟨history,held,holds⟩ := exclusive.careful found performed
  have owns : owner name = some id := (holds name).mp held
  refine passed_exclusive exclusive freed proceeded (fun other apart => ?_) (fun held => ?_) fun held other apart => ?_
  · simp [owns,Ne.symm apart]
  · simp [hold]
  · simp [hold,apart]

theorem step_exclusive {action : Action} (exclusive : Exclusive config s owner)
    (stepped : step config s action = some next) : ∃ later, Exclusive config next later := by
  cases step_cases stepped with
  | accepted token _ same => exact ⟨owner,same ▸ request_exclusive exclusive token⟩
  | idle locks kept same =>
    subst same
    exact ⟨owner,fun name => kept name _ (exclusive.owned name),exclusive.known,exclusive.led⟩
  | kept id op reply locks kept neutral proceeded =>
    refine ⟨owner,proceed_exclusive exclusive proceeded (fun name => kept name _ (exclusive.owned name)) (fun _ _ _ => Iff.rfl)
      fun held holds name => ?_⟩
    rw [neutral]
    exact holds name
  | taken id name lock free proceeded => exact ⟨_,taken_exclusive exclusive (free _ (exclusive.owned name)) proceeded⟩
  | freed id name lock free proceeded => exact ⟨_,freed_exclusive exclusive (free _ (exclusive.owned name)) proceeded⟩

theorem run_exclusive {actions : List Action} (ran : run (step config) start actions = some s) :
    ∃ owner, Exclusive config s owner :=
  run_preserves (fun s => ∃ owner, Exclusive config s owner)
    (fun _ _ _ before stepped => before.elim fun _ exclusive => step_exclusive exclusive stepped)
    ⟨_,start_exclusive config⟩ ran

/-- A call in flight is for the token of its process, which holds that token's lock. -/
theorem InFlight.owns {token : String} (flying : s.InFlight id token) (exclusive : Exclusive config s owner) :
    (∃ process ∈ s.processes, process.token = token) ∧ owner (.token token) = some id := by
  obtain ⟨process,queries,found,waits,member⟩ := flying
  cases program : process.program with
  | finished outcome => simp [program,pending] at waits
  | perform op resume =>
    obtain rfl : op = .await queries := by simpa [program,pending] using waits
    obtain ⟨history,careful,holds⟩ := exclusive.careful found program
    obtain ⟨same,held⟩ := careful token member
    exact ⟨⟨process,List.mem_of_getElem? found,same.symm⟩,(holds _).mp (same ▸ held)⟩

theorem proceed_tokens {op : Op} {reply : Reply op} (proceeded : s.proceed id op reply = some next) :
    next.processes.map (·.token) = s.processes.map (·.token) := by
  obtain ⟨process,resume,found,_,rfl⟩ := proceed_some proceeded
  exact map_set_same s.processes (·.token) found rfl

theorem step_tokens {action : Action} (stepped : step config s action = some next) :
    ∀ process ∈ next.processes, process.token ∈ s.processes.map (·.token) ∨ process.token ∈ acceptedTokens [action] := by
  have same : next.processes.map (·.token) = s.processes.map (·.token) →
      ∀ process ∈ next.processes, process.token ∈ s.processes.map (·.token) ∨ process.token ∈ acceptedTokens [action] :=
    fun same process member => Or.inl (same ▸ List.mem_map_of_mem member)
  cases step_cases stepped with
  | accepted token known here =>
    subst here
    intro process member
    rcases List.mem_append.mp member with old | new
    · exact Or.inl (List.mem_map_of_mem old)
    · rw [List.mem_singleton.mp new,known]
      exact Or.inr (List.mem_singleton.mpr rfl)
  | idle locks _ here => exact same (here ▸ rfl)
  | kept id op reply locks _ _ proceeded => exact same (proceed_tokens proceeded :)
  | taken id name lock _ proceeded => exact same (proceed_tokens proceeded :)
  | freed id name lock _ proceeded => exact same (proceed_tokens proceeded :)

theorem run_tokens {actions : List Action} (ran : run (step config) start actions = some s) :
    ∀ process ∈ s.processes, process.token ∈ acceptedTokens actions := by
  refine run_history (fun actions s => ∀ process ∈ s.processes, process.token ∈ acceptedTokens actions)
    (fun _ member => by simp [start] at member) (fun actions before action after _ known stepped process member => ?_) ran
  rw [acceptedTokens,List.filterMap_append]
  rcases step_tokens stepped process member with old | new
  · obtain ⟨earlier,present,same⟩ := List.mem_map.mp old
    exact List.mem_append_left _ (same ▸ known earlier present)
  · exact List.mem_append_right _ new

end

theorem calls_exclusive (config : Config) (actions : List Action) (s : Classifications)
    (ran : run (step config) start actions = some s)
    (spelled : ∀ token ∈ acceptedTokens actions, ∀ other ∈ acceptedTokens actions, lower token = lower other → token = other)
    (first second : Nat) (token other : String) (calls : s.InFlight first token) (alsoCalls : s.InFlight second other)
    (same : lower token = lower other) : first = second := by
  obtain ⟨owner,exclusive⟩ := run_exclusive ran
  obtain ⟨⟨process,present,rfl⟩,owns⟩ := calls.owns exclusive
  obtain ⟨⟨rival,alsoPresent,rfl⟩,alsoOwns⟩ := alsoCalls.owns exclusive
  have spelling := spelled _ (run_tokens ran process present) _ (run_tokens ran rival alsoPresent) same
  rw [spelling,alsoOwns] at owns
  exact (Option.some.inj owns).symm

/-- The first request comes to its call, and the second goes as far as it can. -/
def twoRequests (token other : String) : List Action :=
  [.request (some token),.request (some other),.acquire 0 .guard,.release 0 .guard,.acquire 0 (.token token),
    .acquire 1 .guard,.release 1 .guard,.acquire 1 (.token other)]

/-- The same address with the letter case of its checksum. -/
def checksummedAddress : String := "0xA0b86991c6218b36c1d19D4a2e9Eb0cE3606eB48"

theorem calls_exclusive_sample :
    ∃ s, run (step ethereum) start (twoRequests sampleAddress sampleAddress) = some s ∧ s.InFlight 0 sampleAddress ∧
      ∀ second other, s.InFlight second other → lower sampleAddress = lower other → 0 = second := by
  have flying : ∃ s, run (step ethereum) start (twoRequests sampleAddress sampleAddress) = some s ∧
      s.InFlight 0 sampleAddress := ⟨_,rfl,_,_,rfl,rfl,by simp⟩
  obtain ⟨s,ran,calls⟩ := flying
  refine ⟨s,ran,calls,fun second other alsoCalls same => ?_⟩
  refine calls_exclusive ethereum _ s ran (fun token first other second _ => ?_) 0 second _ other calls alsoCalls same
  have only : acceptedTokens (twoRequests sampleAddress sampleAddress) = [sampleAddress,sampleAddress] := rfl
  rw [only] at first second
  simp only [List.mem_cons,List.not_mem_nil,or_false,or_self] at first second
  rw [first,second]

/-- Two spellings of one address have a lock each. -/
theorem spellings_fly_together :
    lower sampleAddress = lower checksummedAddress ∧
    ∃ s, run (step ethereum) start (twoRequests sampleAddress checksummedAddress) = some s ∧
      s.InFlight 0 sampleAddress ∧ s.InFlight 1 checksummedAddress :=
  ⟨by decide,_,rfl,⟨_,_,rfl,rfl,by simp⟩,⟨_,_,rfl,rfl,by simp⟩⟩

end Classifications

end YPriceMagic.Server
