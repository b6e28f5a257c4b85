import YPriceMagic.Frontend.Adding
import YPriceMagic.Frontend.EnabledFlags
import YPriceMagic.Frontend.PairSource

/-! The tokenlist dialog over time: fetches that end in any order, and a delete confirmation and
retries that remember positions in the array meanwhile. -/
namespace YPriceMagic.Frontend
open YPriceMagic.Async

/-- The delete confirmation. `list` is the list of the row that was clicked; the code remembers
only its position and its name. -/
structure DeleteConfirm where
  deleteIndex : Nat
  deleteListName : String
  list : Nat

/-- A `retryList` that waits for its fetch. -/
structure Retry where
  index : Nat
  list : Nat

/-- `fetches` are the URLs that `addByUrl` waits for. -/
structure Modal where
  store : Store
  confirm : Option DeleteConfirm
  fetches : List String
  retries : List Retry

inductive ModalAction
  | toggleList (key : String)
  | addLocalToken (token : Token)
  | addByUrl (url : String)
  | addAnswered (k : Nat) (answer : Except String Json)
  | importFile (file : Option Json)
  | retryList (index : Nat)
  | retryAnswered (k : Nat) (answer : Except String Json)
  | confirmDelete (index : Nat)
  | cancelDelete
  | performDelete

/-- What a loop over the value reads, where it is no array; an empty text is looped over too. -/
def Json.elements : Option Json → List Element
  | some (.array items) => items.map Element.ofJson
  | some (.string "") => []
  | _ => [.malformed]

/-- The list that `retryList` adds for the one that it has removed. -/
def retriedList (texts : Texts) (list : TokenlistEntry) (updated : Json) : Except JsError TokenlistEntry := do
  let name ← updated.get "name"
  let tokens ← updated.get "tokens"
  return {
    name := texts.ofName name
    url := list.url
    isDefault := false
    isLocal := false
    enabled := list.enabled
    error := none
    tokens := Json.elements tokens}

namespace Store

variable (bundle : Bundle) (texts : Texts)

/-- `retryList` from its answer on. -/
def finishRetry (s : Store) (retry : Retry) : Except String Json → Store
  | .error _ => s
  | .ok updated =>
    let removed := s.removeList bundle retry.index
    match removed.2,removed.1.heap[retry.list]?.map fun list => retriedList texts list updated with
    | .ok _,some (.ok new) => (removed.1.addList bundle new).1
    | _,_ => removed.1

end Store

namespace Modal

variable (bundle : Bundle) (texts : Texts)

def opened (store : Store) : Modal := ⟨store,none,[],[]⟩

/-- The URL comes trimmed. -/
def addByUrl (m : Modal) (url : String) : Modal :=
  if "https://".toList.isPrefixOf url.toList = false then m
  else if (m.store.entries m.store.allLists).any fun list => decide (list.url = some url) then m
  else {m with fetches := m.fetches++[url]}

def addAnswered (m : Modal) (k : Nat) (answer : Except String Json) : Option Modal := do
  let url ← m.fetches[k]?
  some {m with store := (m.store.finishAddByUrl bundle texts url answer).1,fetches := m.fetches.eraseIdx k}

def retryList (m : Modal) (index : Nat) : Modal :=
  match m.store.allLists[index]? with
  | none => m
  | some list =>
    if ((m.store.metaAt list).bind ListMeta.fetchUrl).isSome then {m with retries := m.retries++[⟨index,list⟩]} else m

def retryAnswered (m : Modal) (k : Nat) (answer : Except String Json) : Option Modal := do
  let retry ← m.retries[k]?
  some {m with store := m.store.finishRetry bundle texts retry answer,retries := m.retries.eraseIdx k}

def confirmDelete (m : Modal) (index : Nat) : Option Modal := do
  let ref ← m.store.allLists[index]?
  let list ← m.store.metaAt ref
  some {m with confirm := some ⟨index,list.name,ref⟩}

/-- The confirmation stays open where `removeList` throws. -/
def performDelete (m : Modal) : Option Modal := do
  let confirm ← m.confirm
  let removed := m.store.removeList bundle confirm.deleteIndex
  match removed.2 with
  | .ok _ => some {m with store := removed.1,confirm := none}
  | .error _ => some {m with store := removed.1}

def step (m : Modal) : ModalAction → Option Modal
  | .toggleList key => some {m with store := (m.store.toggleList bundle key).1}
  | .addLocalToken token => some {m with store := (m.store.addLocalToken bundle token).1}
  | .addByUrl url => some (m.addByUrl url)
  | .addAnswered k answer => m.addAnswered bundle texts k answer
  | .importFile file => some {m with store := (m.store.importFile bundle texts file).1}
  | .retryList index => some (m.retryList index)
  | .retryAnswered k answer => m.retryAnswered bundle texts k answer
  | .confirmDelete index => m.confirmDelete index
  | .cancelDelete => some {m with confirm := none}
  | .performDelete => m.performDelete bundle

end Modal

namespace Store

variable (texts : Texts)

/-- `addDocument` adds a list. -/
def accepts (s : Store) (parsed : Json) : Bool :=
  match parsed.get "name",parsed.get "tokens" with
  | .ok name,.ok (some (.array _)) => truthy name && !(s.entries s.allLists).any fun list => texts.isName list.name name
  | _,_ => false

/-- The removed list had that name, and every other one stays as it is. -/
structure Deletes (s next : Store) (list : Nat) (name : String) : Prop where
  shown : (s.metaAt list).map (·.name) = some name
  there : list ∈ s.lists
  removed : next.lists = s.lists.erase list
  others : next.heap = s.heap
  published : next.allLists = next.lists

/-- A new list comes in the place before the last for the removed one, and every other one stays
as it is. -/
structure Replaces (s next : Store) (list : Nat) (new : TokenlistEntry) : Prop where
  there : list ∈ s.lists
  replaced : next.lists = (s.lists.erase list).insertIdx (s.lists.length-2) s.heap.length
  others : next.heap = s.heap++[new]
  published : next.allLists = next.lists

/-- What stands at these positions stays there, and every list keeps its name. -/
structure Steady (s next : Store) (positions : List Nat) : Prop where
  listed : s.Listed → next.Listed
  places : ∀ index ∈ positions, next.lists[index]? = s.lists[index]?
  names : ∀ ref name, (s.metaAt ref).map (·.name) = some name → (next.metaAt ref).map (·.name) = some name

variable {bundle : Bundle} {texts} {s next : Store} {positions : List Nat}

theorem Steady.refl (s : Store) (positions : List Nat) : Steady s s positions := ⟨id,fun _ _ => rfl,fun _ _ => id⟩

theorem Steady.trans {third : Store} (first : Steady s next positions) (second : Steady next third positions) :
    Steady s third positions :=
  ⟨second.listed ∘ first.listed,fun index member => (second.places index member).trans (first.places index member),
    fun ref name named => second.names ref name (first.names ref name named)⟩

theorem Adjusted.steady (adjusted : Adjusted s next) (positions : List Nat) : Steady s next positions := by
  refine ⟨fun listed => listed.adjusted adjusted,?_,?_⟩
  · obtain ⟨_,_,_,rfl⟩ := adjusted
    exact fun _ _ => rfl
  · obtain ⟨_,_,_,rfl⟩ := adjusted
    exact fun _ _ => id

theorem steady_switchList (s : Store) (key : String) (positions : List Nat) : Steady s (s.switchList key) positions := by
  refine ⟨fun listed => listed.kept rfl (switchList_length s key),fun _ _ => rfl,fun ref name named => ?_⟩
  rw [switchList_metaAt,Option.map_map,← named]
  congr 1
  funext list
  rw [Function.comp_apply,switched_eq]

theorem steady_setLocalTokens (s : Store) (tokens : List Element) (positions : List Nat) :
    Steady s (s.setLocalTokens tokens) positions := by
  refine ⟨fun listed => listed.kept rfl (setLocalTokens_length s _),fun _ _ => rfl,fun ref name named => ?_⟩
  rw [setLocalTokens_metaAt]
  exact named

theorem steady_insertList (s : Store) (list : TokenlistEntry) (before : ∀ index ∈ positions, index+1 < s.lists.length) :
    Steady s (s.insertList list) positions := by
  refine ⟨fun listed => listed.insertList list,fun index member => ?_,fun ref name named => ?_⟩
  · have earlier : index < s.lists.length-1 := Nat.lt_sub_of_add_lt (before index member)
    exact List.getElem?_insertIdx_of_lt earlier
  · obtain ⟨old,found,_⟩ := Option.map_eq_some_iff.mp named
    rw [insertList_metaAt_old list (metaAt_lt found)]
    exact named

theorem steady_dropList (s : Store) {index ref : Nat} (before : ∀ other ∈ positions, other < index) :
    Steady s (s.dropList index ref) positions :=
  ⟨fun listed => listed.dropList index ref,fun other member => List.getElem?_eraseIdx_of_lt (before other member),fun _ _ => id⟩

/-- A document adds a list where it is accepted, and nothing where it is not. -/
theorem addDocument_steady (parsed : Json) (entry : String → List Element → TokenlistEntry) (invalid thrown : String)
    (success : String → Nat → String)
    (before : s.accepts texts parsed = true → ∀ index ∈ positions, index+1 < s.lists.length) :
    Steady s (s.addDocument bundle texts parsed entry invalid thrown success).1 positions := by
  have added (list : TokenlistEntry) (accepted : s.accepts texts parsed = true) : Steady s (s.addList bundle list).1 positions :=
    (s.steady_insertList list (before accepted)).trans ((addList_adjusted bundle s list).steady positions)
  unfold accepts at added
  unfold addDocument
  split
  · rename_i name tokens named listed
    rw [named,listed] at added
    split
    · exact Steady.refl s positions
    · rename_i truthy
      split
      · exact Steady.refl s positions
      · rename_i fresh
        have entered := added (entry (texts.ofName name) (tokens.map Element.ofJson)) (by simp_all)
        dsimp only
        split <;> exact entered
  · exact Steady.refl s positions
  · exact Steady.refl s positions

theorem erase_of_found {index ref : Nat} (listed : s.Listed) (found : s.lists[index]? = some ref) :
    s.lists.erase ref = s.lists.eraseIdx index := by
  obtain ⟨inside,rfl⟩ := List.getElem?_eq_some_iff.mp found
  exact listed.distinct.erase_getElem index inside

theorem metaAt_of_found {index ref : Nat} (listed : s.Listed) (found : s.lists[index]? = some ref) :
    ∃ list, s.heap[ref]? = some list ∧ s.metaAt ref = some list.toListMeta := by
  have inside := listed.inside ref (List.mem_of_getElem? found)
  have there := List.getElem?_eq_getElem inside
  exact ⟨s.heap[ref],there,by rw [metaAt,there]; rfl⟩

theorem addList_returns {list : TokenlistEntry} (bundle : Bundle) (listed : s.Listed) (readable : list.Readable)
    (others : ∀ entry ∈ s.entries s.lists, entry.Readable) :
    ∃ tokenIndex, (s.addList bundle list).1 = {s.insertList list with tokenIndex,allLists := (s.insertList list).lists} := by
  obtain ⟨tokenIndex,built⟩ := (buildTokenIndex_ok_iff bundle _).mpr ((insertList_readable listed list).mpr ⟨readable,others⟩)
  rcases s.addList_cases bundle list with ⟨tokenIndex,_,same⟩ | ⟨error,fails,_⟩
  · exact ⟨tokenIndex,by rw [same]⟩
  · exact nomatch fails.symm.trans built

/-- The retried list is removed, and what its URL has answered is added. -/
theorem finishRetry_returns {retry : Retry} {updated : Json} {list new : TokenlistEntry} (bundle : Bundle)
    (listed : s.Listed) (found : s.lists[retry.index]? = some retry.list) (there : s.heap[retry.list]? = some list)
    (readable : ∀ entry ∈ s.entries (s.lists.eraseIdx retry.index), entry.Readable) (pairs : s.storage.PairsReadable)
    (read : retriedList texts list updated = .ok new) (whole : new.Readable) : ∃ removed,
      Adjusted (s.dropList retry.index retry.list) removed ∧
      Adjusted (removed.insertList new) (s.finishRetry bundle texts retry (.ok updated)) ∧
      (s.finishRetry bundle texts retry (.ok updated)).allLists = (s.finishRetry bundle texts retry (.ok updated)).lists := by
  have metadata : s.metaAt retry.list = some list.toListMeta := by rw [metaAt,there]; rfl
  obtain ⟨removed,returned,adjusted,_⟩ := removeList_returns bundle found metadata readable pairs
  have kept : removed.heap[retry.list]? = some list := by
    obtain ⟨_,_,_,rfl⟩ := adjusted
    exact there
  have finished : s.finishRetry bundle texts retry (.ok updated) = (removed.addList bundle new).1 := by
    simp only [finishRetry,returned,kept,Option.map_some,read]
  have others : ∀ entry ∈ removed.entries removed.lists, entry.Readable := adjusted.entries_eq ▸ readable
  obtain ⟨tokenIndex,added⟩ := addList_returns bundle ((listed.dropList _ _).adjusted adjusted) whole others
  refine ⟨removed,adjusted,?_,?_⟩
  · rw [finished]
    exact addList_adjusted bundle removed _
  · rw [finished,added]

end Store

namespace Modal

variable (bundle : Bundle) (texts : Texts)

/-- The delete and the retry act on the list that was chosen, by the row that was clicked. -/
def ActsOnChosen (m next : Modal) : ModalAction → Prop
  | .performDelete => ∀ confirm ∈ m.confirm, m.store.Deletes next.store confirm.list confirm.deleteListName
  | .retryAnswered k (.error _) => ∀ retry ∈ m.retries[k]?, next.store = m.store
  | .retryAnswered k (.ok updated) => ∀ retry ∈ m.retries[k]?, ∃ list ∈ m.store.heap[retry.list]?,
      ∃ new ∈ (retriedList texts list updated).toOption, m.store.Replaces next.store retry.list new
  | _ => True

/-- The positions that are remembered, but for the retry that is answered. -/
def remembered (m : Modal) (retries : List Retry) : List Nat :=
  (m.confirm.map (·.deleteIndex)).toList++retries.map (·.index)

/-- Every enabled list that stays can be indexed, and the stored pairs can be read. -/
def Removable (s : Store) (index : Nat) : Prop :=
  (∀ list ∈ s.entries (s.lists.eraseIdx index), list.Readable) ∧ s.storage.PairsReadable

instance (s : Store) (index : Nat) : Decidable (Removable s index) := inferInstanceAs (Decidable (_ ∧ _))

/-- A row is clicked while it stands in the array where it is shown. While a position is
remembered, no list is added when it is the last one, and none is removed there or before it. What
a removal or a retry is answered with can be indexed. -/
def Careful (m : Modal) : ModalAction → Prop
  | .confirmDelete index | .retryList index => m.store.lists[index]? = m.store.allLists[index]?
  | .addAnswered _ (.ok parsed) | .importFile (some parsed) => m.store.accepts texts parsed = true →
      ∀ index ∈ m.remembered m.retries, index+1 < m.store.lists.length
  | .retryAnswered k (.ok updated) => ∀ retry ∈ m.retries[k]?,
      (∀ index ∈ m.remembered (m.retries.eraseIdx k), index < retry.index ∧ index+2 < m.store.lists.length) ∧
      Removable m.store retry.index ∧ ∀ list ∈ m.store.heap[retry.list]?,
        ∃ new ∈ (retriedList texts list updated).toOption, new.Readable
  | .performDelete => ∀ confirm ∈ m.confirm,
      (∀ index ∈ m.retries.map (·.index), index < confirm.deleteIndex) ∧ Removable m.store confirm.deleteIndex
  | _ => True

instance (m : Modal) : (action : ModalAction) → Decidable (m.Careful texts action)
  | .confirmDelete index | .retryList index => inferInstanceAs (Decidable (m.store.lists[index]? = m.store.allLists[index]?))
  | .addAnswered _ (.ok parsed) | .importFile (some parsed) => inferInstanceAs (Decidable (m.store.accepts texts parsed = true →
      ∀ index ∈ m.remembered m.retries, index+1 < m.store.lists.length))
  | .retryAnswered k (.ok updated) => inferInstanceAs (Decidable (∀ retry ∈ m.retries[k]?,
      (∀ index ∈ m.remembered (m.retries.eraseIdx k), index < retry.index ∧ index+2 < m.store.lists.length) ∧
      Removable m.store retry.index ∧ ∀ list ∈ m.store.heap[retry.list]?,
        ∃ new ∈ (retriedList texts list updated).toOption, new.Readable))
  | .performDelete => inferInstanceAs (Decidable (∀ confirm ∈ m.confirm,
      (∀ index ∈ m.retries.map (·.index), index < confirm.deleteIndex) ∧ Removable m.store confirm.deleteIndex))
  | .toggleList _ | .addLocalToken _ | .addByUrl _ | .addAnswered _ (.error _) | .importFile none
  | .retryAnswered _ (.error _) | .cancelDelete => .isTrue trivial

/-- Every position that is remembered denotes the list it was taken for. -/
structure Aimed (m : Modal) : Prop where
  listed : m.store.Listed
  confirm : ∀ confirm ∈ m.confirm, m.store.lists[confirm.deleteIndex]? = some confirm.list ∧
    (m.store.metaAt confirm.list).map (·.name) = some confirm.deleteListName
  retries : ∀ retry ∈ m.retries, m.store.lists[retry.index]? = some retry.list

variable {bundle texts} {m next : Modal}

theorem toOption_ok {α ε : Type} {ran : Except ε α} {value : α} (member : value ∈ ran.toOption) : ran = .ok value := by
  cases ran with
  | error error => cases member
  | ok other => exact congrArg Except.ok (Option.some.inj member)

theorem mem_remembered_confirm {confirm : DeleteConfirm} (member : confirm ∈ m.confirm) (retries : List Retry) :
    confirm.deleteIndex ∈ m.remembered retries := by
  rw [Option.mem_def] at member
  simp [remembered,member]

theorem mem_remembered_retry {retry : Retry} {retries : List Retry} (member : retry ∈ retries) :
    retry.index ∈ m.remembered retries := List.mem_append_right _ (List.mem_map_of_mem member)

/-- Nothing new is remembered, and what was remembered stays where it is. -/
theorem Aimed.steady (aimed : m.Aimed) (store : Store.Steady m.store next.store (next.remembered next.retries))
    (confirm : ∀ confirm ∈ next.confirm, confirm ∈ m.confirm) (retries : ∀ retry ∈ next.retries, retry ∈ m.retries) :
    next.Aimed := by
  refine ⟨store.listed aimed.listed,fun other member => ?_,fun retry member => ?_⟩
  · obtain ⟨there,shown⟩ := aimed.confirm other (confirm other member)
    rw [store.places other.deleteIndex (mem_remembered_confirm member _)]
    exact ⟨there,store.names other.list other.deleteListName shown⟩
  · rw [store.places retry.index (mem_remembered_retry member)]
    exact aimed.retries retry (retries retry member)

theorem Aimed.confirmDelete {index : Nat} (aimed : m.Aimed) (shown : m.store.lists[index]? = m.store.allLists[index]?)
    (opened : m.confirmDelete index = some next) : next.Aimed := by
  obtain ⟨ref,row,rest⟩ := Option.bind_eq_some_iff.mp opened
  obtain ⟨list,found,same⟩ := Option.bind_eq_some_iff.mp rest
  obtain rfl := Option.some.inj same
  refine ⟨aimed.listed,fun confirm member => ?_,aimed.retries⟩
  obtain rfl := Option.some.inj member
  exact ⟨shown.trans row,by simp [found]⟩

theorem Aimed.retryList {index : Nat} (aimed : m.Aimed) (shown : m.store.lists[index]? = m.store.allLists[index]?) :
    (m.retryList index).Aimed := by
  unfold Modal.retryList
  split
  · exact aimed
  · rename_i list row
    split
    · refine ⟨aimed.listed,aimed.confirm,fun retry member => ?_⟩
      rcases List.mem_append.mp member with old | new
      · exact aimed.retries retry old
      · obtain rfl := List.mem_singleton.mp new
        exact shown.trans row
    · exact aimed

/-- The confirmed list is removed, and the confirmation is closed. -/
theorem performDelete_returns (aimed : m.Aimed) (careful : m.Careful texts .performDelete)
    (deleted : m.performDelete bundle = some next) :
    ∃ confirm after, m.confirm = some confirm ∧ m.store.lists[confirm.deleteIndex]? = some confirm.list ∧
      Store.Adjusted (m.store.dropList confirm.deleteIndex confirm.list) after ∧ after.allLists = after.lists ∧
      next = {m with store := after,confirm := none} := by
  obtain ⟨confirm,shown,rest⟩ := Option.bind_eq_some_iff.mp deleted
  obtain ⟨_,readable,pairs⟩ := careful confirm shown
  obtain ⟨found,_⟩ := aimed.confirm confirm shown
  obtain ⟨list,_,there⟩ := Store.metaAt_of_found aimed.listed found
  obtain ⟨after,returned,adjusted,published⟩ := Store.removeList_returns bundle found there readable pairs
  rw [returned] at rest
  exact ⟨confirm,after,shown,found,adjusted,published,(Option.some.inj rest).symm⟩

/-- The retried list is removed, and the new one is added. -/
theorem retryAnswered_returns {k : Nat} {updated : Json} (aimed : m.Aimed) (careful : m.Careful texts (.retryAnswered k (.ok updated)))
    (answered : m.retryAnswered bundle texts k (.ok updated) = some next) :
    ∃ retry list new removed, m.retries[k]? = some retry ∧ m.store.lists[retry.index]? = some retry.list ∧
      m.store.heap[retry.list]? = some list ∧ retriedList texts list updated = .ok new ∧
      Store.Adjusted (m.store.dropList retry.index retry.list) removed ∧
      Store.Adjusted (removed.insertList new) next.store ∧ next.store.allLists = next.store.lists ∧
      next = {m with store := next.store,retries := m.retries.eraseIdx k} := by
  obtain ⟨retry,waiting,same⟩ := Option.bind_eq_some_iff.mp answered
  cases Option.some.inj same
  obtain ⟨_,⟨readable,pairs⟩,answered⟩ := careful retry waiting
  have found := aimed.retries retry (List.mem_of_getElem? waiting)
  obtain ⟨list,there,_⟩ := Store.metaAt_of_found aimed.listed found
  obtain ⟨new,read,whole⟩ := answered list there
  obtain ⟨removed,dropped,added,published⟩ := Store.finishRetry_returns bundle aimed.listed found there readable pairs
    (toOption_ok read) whole
  exact ⟨retry,list,new,removed,waiting,found,there,toOption_ok read,dropped,added,published,rfl⟩

/-- A removal and an insertion leave the other positions alone. -/
theorem retried_steady {s removed after : Store} {index ref : Nat} {new : TokenlistEntry} {positions : List Nat}
    (found : s.lists[index]? = some ref) (dropped : Store.Adjusted (s.dropList index ref) removed)
    (added : Store.Adjusted (removed.insertList new) after)
    (before : ∀ other ∈ positions, other < index ∧ other+2 < s.lists.length) : Store.Steady s after positions := by
  have shorter : removed.lists.length = s.lists.length-1 := by
    obtain ⟨inside,_⟩ := List.getElem?_eq_some_iff.mp found
    obtain ⟨_,_,_,rfl⟩ := dropped
    exact List.length_eraseIdx_of_lt inside
  have first : Store.Steady s (s.dropList index ref) positions := s.steady_dropList fun other member => (before other member).1
  have second := removed.steady_insertList new fun other (member : other ∈ positions) => by
    have room := (before other member).2
    omega
  exact ((first.trans (dropped.steady positions)).trans second).trans (added.steady positions)

theorem step_aimed {action : ModalAction} (aimed : m.Aimed) (careful : m.Careful texts action)
    (stepped : m.step bundle texts action = some next) : next.Aimed := by
  cases action with
  | toggleList key =>
    cases Option.some.inj stepped
    refine aimed.steady ?_ (fun _ => id) (fun _ => id)
    exact (m.store.steady_switchList key _).trans ((Store.toggleList_adjusted bundle m.store key).steady _)
  | addLocalToken token =>
    cases Option.some.inj stepped
    refine aimed.steady ?_ (fun _ => id) (fun _ => id)
    rcases m.store.addLocalToken_cases bundle token with ⟨_,same⟩ | ⟨tokens,_,adjusted⟩
    · rw [same]
      exact Store.Steady.refl _ _
    · exact (m.store.steady_setLocalTokens _ _).trans (adjusted.steady _)
  | addByUrl url =>
    cases Option.some.inj stepped
    unfold Modal.addByUrl
    split
    · exact aimed
    · split
      · exact aimed
      · exact ⟨aimed.listed,aimed.confirm,aimed.retries⟩
  | addAnswered k answer =>
    obtain ⟨url,_,same⟩ := Option.bind_eq_some_iff.mp stepped
    cases Option.some.inj same
    refine aimed.steady ?_ (fun _ => id) (fun _ => id)
    cases answer with
    | error message => exact Store.Steady.refl _ _
    | ok parsed => exact Store.addDocument_steady parsed _ _ _ _ careful
  | importFile file =>
    cases Option.some.inj stepped
    refine aimed.steady ?_ (fun _ => id) (fun _ => id)
    cases file with
    | none => exact Store.Steady.refl _ _
    | some parsed => exact Store.addDocument_steady parsed _ _ _ _ careful
  | retryList index =>
    cases Option.some.inj stepped
    exact aimed.retryList careful
  | retryAnswered k answer =>
    cases answer with
    | error message =>
      obtain ⟨retry,_,same⟩ := Option.bind_eq_some_iff.mp stepped
      cases Option.some.inj same
      exact aimed.steady (Store.Steady.refl _ _) (fun _ => id) (fun _ => List.mem_of_mem_eraseIdx)
    | ok updated =>
      obtain ⟨retry,list,new,removed,waiting,found,_,_,dropped,added,_,same⟩ := retryAnswered_returns aimed careful stepped
      rw [same]
      refine aimed.steady ?_ (fun _ => id) (fun _ => List.mem_of_mem_eraseIdx)
      exact retried_steady found dropped added (careful retry waiting).1
  | confirmDelete index => exact aimed.confirmDelete careful stepped
  | cancelDelete =>
    cases Option.some.inj stepped
    exact ⟨aimed.listed,(fun _ none => nomatch none),aimed.retries⟩
  | performDelete =>
    obtain ⟨confirm,after,shown,found,adjusted,_,rfl⟩ := performDelete_returns aimed careful stepped
    refine aimed.steady ?_ (fun _ none => nomatch none) (fun _ => id)
    exact (m.store.steady_dropList (careful confirm shown).1).trans (adjusted.steady _)

/-- One step from a state where every position denotes its list. -/
theorem step_acts {action : ModalAction} (aimed : m.Aimed) (careful : m.Careful texts action)
    (stepped : m.step bundle texts action = some next) : ActsOnChosen texts m next action := by
  cases action with
  | performDelete =>
    obtain ⟨confirm,after,shown,found,adjusted,published,rfl⟩ := performDelete_returns aimed careful stepped
    intro other same
    obtain rfl := Option.some.inj (shown.symm.trans same)
    refine ⟨(aimed.confirm confirm shown).2,List.mem_of_getElem? found,?_,?_,published⟩
    · obtain ⟨_,_,_,rfl⟩ := adjusted
      exact (Store.erase_of_found aimed.listed found).symm
    · obtain ⟨_,_,_,rfl⟩ := adjusted
      rfl
  | retryAnswered k answer =>
    cases answer with
    | error message =>
      obtain ⟨retry,_,same⟩ := Option.bind_eq_some_iff.mp stepped
      cases Option.some.inj same
      exact fun _ _ => rfl
    | ok updated =>
      obtain ⟨retry,list,new,removed,waiting,found,there,read,dropped,added,published,_⟩ :=
        retryAnswered_returns aimed careful stepped
      intro other same
      obtain rfl := Option.some.inj (waiting.symm.trans same)
      have erased := Store.erase_of_found aimed.listed found
      obtain ⟨inside,_⟩ := List.getElem?_eq_some_iff.mp found
      obtain ⟨_,_,_,rfl⟩ := dropped
      refine ⟨list,there,new,by rw [read]; rfl,List.mem_of_getElem? found,?_,?_,published⟩
      · obtain ⟨_,_,_,same⟩ := added
        have place : (m.store.lists.eraseIdx retry.index).length-1 = m.store.lists.length-2 := by
          rw [List.length_eraseIdx_of_lt inside,Nat.sub_sub]
        rw [same,erased,← place]
        rfl
      · obtain ⟨_,_,_,same⟩ := added
        rw [same]
        rfl
  | _ => trivial

/-- In every run that is careful with the positions, the delete and the retry act on the list
that was chosen. -/
theorem acts_on_chosen (bundle : Bundle) (texts : Texts) {s : Store} (reached : Store.Reachable bundle s)
    {actions : List ModalAction} {action : ModalAction}
    (careful : Throughout (step bundle texts) (Careful texts) (opened s) (actions++[action]))
    (ran : run (step bundle texts) (opened s) actions = some m) (stepped : m.step bundle texts action = some next) :
    ActsOnChosen texts m next action := by
  obtain ⟨earlier,last⟩ := throughout_append.mp careful
  have start : (opened s).Aimed := ⟨reached.listed,(fun _ none => nomatch none),fun _ none => nomatch none⟩
  have aimed : m.Aimed :=
    run_preserves_throughout Aimed (Careful texts) (fun _ _ _ aimed careful => step_aimed aimed careful) start earlier ran
  exact step_acts aimed (last m ran).1 stepped

/-- A list is added, retried, and then deleted. -/
def retriedRun : List ModalAction := [.addByUrl Store.remoteUrl,.addAnswered 0 (.ok (Store.namedDocument "Mine" [])),.retryList 2,
  .retryAnswered 0 (.ok (Store.namedDocument "Renewed" [])),.confirmDelete 2]

theorem acts_on_chosen_retried :
    ∃ s m next, Store.Reachable Store.smallBundle s ∧ run (step Store.smallBundle Store.plainTexts) (opened s) retriedRun = some m ∧
      (m.confirm.map fun confirm => (confirm.deleteIndex,confirm.deleteListName)) = some (2,"Renewed") ∧
      m.performDelete Store.smallBundle = some next ∧ ActsOnChosen Store.plainTexts m next .performDelete := by
  obtain ⟨⟨s,_⟩,loaded,careful,m,ran,shown,deletes⟩ : ∃ page ∈ Store.firstPage Store.smallBundle,
      Throughout (step Store.smallBundle Store.plainTexts) (Careful Store.plainTexts) (opened page.1) (retriedRun++[.performDelete]) ∧
      ∃ m ∈ run (step Store.smallBundle Store.plainTexts) (opened page.1) retriedRun,
        (m.confirm.map fun confirm => (confirm.deleteIndex,confirm.deleteListName)) = some (2,"Renewed") ∧
        (m.performDelete Store.smallBundle).isSome = true := by decide +kernel
  obtain ⟨next,stepped⟩ := Option.isSome_iff_exists.mp deletes
  have reached := Store.firstPage_reachable loaded
  exact ⟨s,m,next,reached,ran,shown,stepped,acts_on_chosen Store.smallBundle Store.plainTexts reached careful ran stepped⟩

/-- A URL answers while the deletion of "Local Tokens" waits to be confirmed. -/
def confirmedRun : List ModalAction := [.addByUrl Store.remoteUrl,.confirmDelete 2,.addAnswered 0 (.ok (Store.namedDocument "Mine" []))]

/-- The confirmation names "Local Tokens", and the list that was just added is deleted. -/
theorem confirmation_deletes_other :
    ∃ s m next, Store.Reachable Store.smallBundle s ∧ run (step Store.smallBundle Store.plainTexts) (opened s) confirmedRun = some m ∧
      m.confirm.map (·.deleteListName) = some "Local Tokens" ∧ m.performDelete Store.smallBundle = some next ∧
      (m.store.entries m.store.lists).map (·.name) = ["Uniswap Labs Default","Default Pair Tokens","Mine","Local Tokens"] ∧
      (next.store.entries next.store.lists).map (·.name) = ["Uniswap Labs Default","Default Pair Tokens","Local Tokens"] ∧
      ¬ActsOnChosen Store.plainTexts m next .performDelete := by
  obtain ⟨⟨s,_⟩,loaded,m,ran,confirm,waits,shown,next,stepped,before,after,stays⟩ : ∃ page ∈ Store.firstPage Store.smallBundle,
      ∃ m ∈ run (step Store.smallBundle Store.plainTexts) (opened page.1) confirmedRun, ∃ confirm ∈ m.confirm,
        confirm.deleteListName = "Local Tokens" ∧ ∃ next ∈ m.performDelete Store.smallBundle,
        (m.store.entries m.store.lists).map (·.name) = ["Uniswap Labs Default","Default Pair Tokens","Mine","Local Tokens"] ∧
        (next.store.entries next.store.lists).map (·.name) = ["Uniswap Labs Default","Default Pair Tokens","Local Tokens"] ∧
        next.store.lists ≠ m.store.lists.erase confirm.list := by decide +kernel
  refine ⟨s,m,next,Store.firstPage_reachable loaded,ran,?_,stepped,before,after,fun acts => stays (acts confirm waits).removed⟩
  exact Option.map_eq_some_iff.mpr ⟨confirm,waits,shown⟩

/-- The answer `null` removes the list that is retried, and adds none. -/
theorem null_answer_drops_retried :
    ∃ s m next, Store.Reachable Store.smallBundle s ∧
      run (step Store.smallBundle Store.plainTexts) (opened s) (retriedRun.take 3) = some m ∧
      m.retryAnswered Store.smallBundle Store.plainTexts 0 (.ok .null) = some next ∧
      (m.store.entries m.store.lists).map (·.name) = ["Uniswap Labs Default","Default Pair Tokens","Mine","Local Tokens"] ∧
      (next.store.entries next.store.lists).map (·.name) = ["Uniswap Labs Default","Default Pair Tokens","Local Tokens"] := by
  obtain ⟨⟨s,_⟩,loaded,m,ran,next,stepped,before,after⟩ : ∃ page ∈ Store.firstPage Store.smallBundle,
      ∃ m ∈ run (step Store.smallBundle Store.plainTexts) (opened page.1) (retriedRun.take 3),
      ∃ next ∈ m.retryAnswered Store.smallBundle Store.plainTexts 0 (.ok .null),
        (m.store.entries m.store.lists).map (·.name) = ["Uniswap Labs Default","Default Pair Tokens","Mine","Local Tokens"] ∧
        (next.store.entries next.store.lists).map (·.name) = ["Uniswap Labs Default","Default Pair Tokens","Local Tokens"] := by
    decide +kernel
  exact ⟨s,m,next,Store.firstPage_reachable loaded,ran,stepped,before,after⟩

end Modal

end YPriceMagic.Frontend
