import YPriceMagic.Frontend.TokenIndex

/-! The tokenlist store: its module state, what it keeps in `localStorage`, and the
functions that load and change both. List objects are shared between arrays, so they live
in a heap and the arrays hold references. -/
namespace YPriceMagic.Frontend

inductive Json
  | null
  | bool (value : Bool)
  | number (value : Rat)
  | string (text : String)
  | array (items : List Json)
  | object (fields : List (String × Json))

/-- `value[key]` for a key that is no built-in property. -/
def Json.get : Json → String → Except JsError (Option Json)
  | .null,_ => .error .typeError
  | .object fields,key => .ok (JsMap.get fields key)
  | _,_ => .ok none

def truthy : Option Json → Bool
  | none | some .null | some (.bool false) => false
  | some (.number value) => decide (value ≠ 0)
  | some (.string text) => decide (text ≠ "")
  | _ => true

inductive Slot (α : Type)
  | absent
  | corrupt
  | value (parsed : α)

def Slot.parse {α : Type} (slot : Slot α) (default : α) : α :=
  match slot with
  | .absent | .corrupt => default
  | .value parsed => parsed

/-- The four keys. `none` is JSON of another shape: no array, or `null` for the states; an
element of `tokenlists` is `none` where it is `null`. -/
structure Storage where
  tokenlists : Slot (Option (List (Option ListMeta)))
  localTokens : Slot (Option (List Element))
  tokenlistStates : Slot (Option (JsMap String Bool))
  defaultPairs : Slot Json

structure Pending where
  states : JsMap String Bool
  results : List (ListMeta × Option TokenlistEntry)

/-- `localTokens` is `none` where the stored value was no array; `sharing` is the list whose
`tokens` are the very array `_localTokens`. -/
structure Store where
  heap : List TokenlistEntry
  lists : List Nat
  userLists : List Nat
  localTokens : Option (List Element)
  sharing : Option Nat
  tokenIndex : TokenIndex
  allLists : List Nat
  storage : Storage
  pending : Option Pending

/-- What a function leaves behind, and whether it threw. -/
abbrev Ran := Store × Except JsError Unit

def Ran.andThen (ran : Ran) (next : Store → Ran) : Ran :=
  match ran.2 with
  | .ok _ => next ran.1
  | .error error => (ran.1,.error error)

/-- The answer of a list's URL; a document without tokens or a name leaves them out. -/
inductive Fetched
  | ok (name : Option String) (tokens : Option (List Element))
  | failed (message : String)

def defaultList (bundle : Bundle) (states : JsMap String Bool) : TokenlistEntry where
  name := bundle.name
  url := none
  isDefault := true
  isLocal := false
  enabled := decide (states.get "default" ≠ some false)
  error := none
  tokens := bundle.tokens.map .token

def builtinList : TokenlistEntry where
  name := "Default Pair Tokens"
  url := none
  isDefault := false
  isLocal := true
  enabled := true
  error := none
  tokens := defaultPairTokens.map .token

def localTokensList (tokens : List Element) : TokenlistEntry where
  name := "Local Tokens"
  url := none
  isDefault := false
  isLocal := true
  enabled := true
  error := none
  tokens

def ListMeta.fetchUrl (list : ListMeta) : Option String := list.url.filter fun url => decide (url ≠ "")

/-- A list as `initTokenlists` rebuilds it from its stored metadata. -/
def loadUserList (states : JsMap String Bool) (list : ListMeta) (fetched : Fetched) : TokenlistEntry :=
  let enabled := (states.get (list.url.getD list.name)).getD list.enabled
  match list.fetchUrl,fetched with
  | none,_ => {list with enabled,tokens := []}
  | some _,.ok name tokens => {list with name := name.getD list.name,enabled,error := none,tokens := tokens.getD []}
  | some _,.failed message => {list with enabled,error := some message,tokens := []}

namespace Store

variable (bundle : Bundle)

def opened (storage : Storage) : Store := ⟨[],[],[],some [],none,[],[],storage,none⟩

def entries (s : Store) (refs : List Nat) : List TokenlistEntry := refs.filterMap fun ref => s.heap[ref]?

def rebuildAndSync (s : Store) : Ran :=
  match buildTokenIndex bundle (s.entries s.lists) with
  | .ok tokenIndex => ({s with tokenIndex,allLists := s.lists},.ok ())
  | .error error => (s,.error error)

def saveUserLists (s : Store) : Store :=
  let toSave := (s.entries s.userLists).map fun list => some list.toListMeta
  {s with storage := {s.storage with tokenlists := .value (some toSave)}}

def saveLocalTokens (s : Store) : Store :=
  {s with storage := {s.storage with localTokens := .value s.localTokens}}

def saveTokenlistStates (s : Store) : Store :=
  let states := (s.entries s.lists).foldl (fun states list => JsMap.set states (getListKey list.toListMeta) list.enabled) []
  {s with storage := {s.storage with tokenlistStates := .value (some states)}}

/-- `initTokenlists` up to its fetches; `none` where it throws on what is stored. -/
def startInit (s : Store) : Option Store := do
  let states ← s.storage.tokenlistStates.parse (some [])
  let savedUserListMeta ← s.storage.tokenlists.parse (some [])
  let lists ← savedUserListMeta.mapM id
  let results := lists.map fun list =>
    (list,if list.fetchUrl.isSome then none else some (loadUserList states list (.failed "")))
  some {s with pending := some ⟨states,results⟩}

def fetched (s : Store) (i : Nat) (answer : Fetched) : Option Store := do
  let pending ← s.pending
  match pending.results[i]? with
  | some (list,none) =>
    some {s with pending := some {pending with
      results := pending.results.set i (list,some (loadUserList pending.states list answer))}}
  | _ => none

/-- The module state that `initTokenlists` assigns once its lists are there. -/
def assemble (s : Store) (states : JsMap String Bool) (lists : List TokenlistEntry) : Store :=
  let localTokens := match s.storage.localTokens with
    | .absent => s.localTokens
    | .corrupt => some []
    | .value parsed => parsed
  let first := s.heap.length
  let userLists := List.range' (first+2) lists.length
  let last := first+2+lists.length
  {s with
    heap := s.heap++(defaultList bundle states::builtinList::(lists++[localTokensList (localTokens.getD [.malformed])]))
    lists := first::(first+1)::(userLists++[last])
    userLists
    localTokens
    sharing := localTokens.map fun _ => last
    pending := none}

def finishInit (s : Store) : Option Ran := do
  let pending ← s.pending
  let lists ← pending.results.mapM (·.2)
  some ((s.assemble bundle pending.states lists).rebuildAndSync bundle)

/-- The first list with a key is switched and the states are saved. -/
def switchList (s : Store) (key : String) : Store :=
  let chosen := s.lists.find? fun ref => decide ((s.heap[ref]?.map fun list => getListKey list.toListMeta) = some key)
  let heap := match chosen with
    | some ref => s.heap.modify ref fun list => {list with enabled := !list.enabled}
    | none => s.heap
  {s with heap}.saveTokenlistStates

def toggleList (s : Store) (key : String) : Ran := (s.switchList key).rebuildAndSync bundle

/-- A list is inserted before the last one, which is meant to be the local tokens. -/
def insertList (s : Store) (list : TokenlistEntry) : Store :=
  let ref := s.heap.length
  {s with
    heap := s.heap++[list]
    userLists := s.userLists++[ref]
    lists := s.lists.insertIdx (s.lists.length-1) ref}.saveUserLists

def addList (s : Store) (list : TokenlistEntry) : Ran := (s.insertList list).rebuildAndSync bundle

def getCustomPairs (s : Store) : Json := s.storage.defaultPairs.parse (.object [])

def resetCustomPair (s : Store) (chain : Chain) : Ran :=
  match s.getCustomPairs with
  | .null => (s,.error .typeError)
  | .object fields =>
    ({s with storage := {s.storage with defaultPairs := .value (.object (JsMap.delete fields chain.key))}},.ok ())
  | pairs => ({s with storage := {s.storage with defaultPairs := .value pairs}},.ok ())

/-- `custom[chain][side].toLowerCase()`. -/
def pairAddress (pair : Json) (side : String) : Except JsError String := do
  match ← pair.get side with
  | some (.string address) => return bundle.toLowerCase address
  | _ => throw .typeError

def pairLost (s : Store) (chain : Chain) : Except JsError Bool := do
  let custom ← s.getCustomPairs.get chain.key
  if truthy custom then
    let pair := custom.getD .null
    let fromAddr ← pairAddress bundle pair "from"
    let toAddr ← pairAddress bundle pair "to"
    let tempIndex ← buildTokenIndex bundle (s.entries s.lists)
    let chainMap := (tempIndex.get (some (chainIds chain))).getD []
    return !chainMap.has fromAddr || !chainMap.has toAddr
  else return false

def revertPair (s : Store) (chain : Chain) : Ran :=
  match s.pairLost bundle chain with
  | .ok true => s.resetCustomPair chain
  | .ok false => (s,.ok ())
  | .error error => (s,.error error)

def dropList (s : Store) (index ref : Nat) : Store :=
  {s with lists := s.lists.eraseIdx index,userLists := s.userLists.erase ref}.saveUserLists

def removeList (s : Store) (index : Int) : Ran :=
  if index < 0 then (s,.ok ())
  else match s.lists[index.toNat]? with
  | none => (s,.ok ())
  | some removed =>
    let left := s.dropList index.toNat removed
    let removedKey := s.heap[removed]?.map fun list => getListKey list.toListMeta
    let reverted : Ran := if removedKey = some "default" then (left,.ok ())
      else (left.revertPair bundle .ethereum).andThen fun s => s.revertPair bundle .base
    reverted.andThen fun s => s.rebuildAndSync bundle

def showTokens (tokens : List Element) (heap : List TokenlistEntry) : Option Nat → List TokenlistEntry
  | some ref => heap.modify ref fun list => {list with tokens}
  | none => heap

/-- The local tokens are others, in the list that shares their array and in the one that is
found by its name, which gets an array of its own. -/
def setLocalTokens (s : Store) (tokens : List Element) : Store :=
  let localEntry := s.lists.find? fun ref => s.heap[ref]?.any fun list => list.isLocal && decide (list.name = "Local Tokens")
  {s with
    heap := showTokens tokens (showTokens tokens s.heap s.sharing) localEntry
    localTokens := some tokens
    sharing := if localEntry = s.sharing then none else s.sharing}.saveLocalTokens

def addLocalToken (s : Store) (token : Token) : Ran :=
  match s.localTokens with
  | none => (s,.error .typeError)
  | some tokens => (s.setLocalTokens (tokens++[.token token])).rebuildAndSync bundle

inductive Action
  | fetched (i : Nat) (answer : Fetched)
  | toggleList (key : String)
  | addList (list : TokenlistEntry)
  | removeList (index : Int)
  | addLocalToken (token : Token)

def step (s : Store) : Action → Option Store
  | .fetched i answer => s.fetched i answer
  | .toggleList key => some (s.toggleList bundle key).1
  | .addList list => some (s.addList bundle list).1
  | .removeList index => some (s.removeList bundle index).1
  | .addLocalToken token => some (s.addLocalToken bundle token).1

end Store

end YPriceMagic.Frontend
