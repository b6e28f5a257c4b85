import YPriceMagic.Frontend.Reload

/-! What a reload brings back: the store after `initTokenlists` and after every change that
its two encoders record. -/
namespace YPriceMagic.Frontend
open YPriceMagic.Async

variable {bundle : Bundle} {remote : String → Fetched} {states : JsMap String Bool}
  {users : List TokenlistEntry} {tokens : List Element}

/-- A custom pair, where there is one, names two texts. -/
def Json.PairAt (pairs : Json) (key : String) : Prop :=
  ∃ custom, pairs.get key = .ok custom ∧ (truthy custom = true → ∃ fromAddr toAddr,
    (custom.getD .null).get "from" = .ok (some (.string fromAddr)) ∧
    (custom.getD .null).get "to" = .ok (some (.string toAddr)))

def Storage.PairsReadable (storage : Storage) : Prop :=
  ∀ chain : Chain, (storage.defaultPairs.parse (.object [])).PairAt chain.key

theorem Json.PairAt.deleted {fields : List (String × Json)} {key other : String} (pair : (Json.object fields).PairAt other) :
    (Json.object (JsMap.delete fields key)).PairAt other := by
  obtain ⟨custom,found,texts⟩ := pair
  refine ⟨JsMap.get (JsMap.delete fields key) other,rfl,?_⟩
  rw [JsMap.get_delete]
  split
  · simp [truthy]
  · cases found
    exact texts

namespace Store

variable {s next : Store}

/-- A store that shows the user's lists and the local tokens that its storage brings back. -/
structure Placed (bundle : Bundle) (remote : String → Fetched) (states : JsMap String Bool)
    (users : List TokenlistEntry) (tokens : List Element) (s : Store) : Prop where
  holds : ∃ lists, s.storage.Holds states lists tokens ∧ lists.map (load remote states) = users
  userLists : s.entries s.userLists = users
  ends : ∃ first second last, s.lists = first::second::(s.userLists++[last]) ∧
    s.heap[first]? = some (defaultList bundle states) ∧ s.heap[second]? = some builtinList ∧
    s.heap[last]? = some (localTokensList tokens) ∧ (s.sharing = none ∨ s.sharing = some last)
  localTokens : s.localTokens = some tokens
  distinct : s.lists.Nodup
  inside : ∀ ref ∈ s.userLists, ref < s.heap.length
  readable : ∀ list ∈ users, list.Readable
  wellFormed : .malformed ∉ tokens

theorem Placed.restored (placed : Placed bundle remote states users tokens s) :
    ∀ list ∈ users, list.Restored remote states := by
  obtain ⟨lists,_,rfl⟩ := placed.holds
  intro list member
  obtain ⟨saved,_,rfl⟩ := List.mem_map.mp member
  exact load_restored saved

theorem shown_readable : (∀ list ∈ shown bundle states users tokens, list.Readable) ↔
    (∀ list ∈ users, list.Readable) ∧ .malformed ∉ tokens := by
  have default : (defaultList bundle states).Readable := by simp [TokenlistEntry.Readable,defaultList]
  have builtin : builtinList.Readable := by simp [TokenlistEntry.Readable,builtinList]
  have last : (localTokensList tokens).Readable ↔ .malformed ∉ tokens := by simp [TokenlistEntry.Readable,localTokensList]
  unfold shown
  rw [List.forall_mem_cons,List.forall_mem_cons,List.forall_mem_append,List.forall_mem_singleton,last]
  exact ⟨fun all => all.2.2,fun all => ⟨default,builtin,all⟩⟩

theorem Placed.shows (placed : Placed bundle remote states users tokens s) :
    s.entries s.lists = shown bundle states users tokens := by
  obtain ⟨first,second,last,order,default,builtin,tokensList,_⟩ := placed.ends
  have userLists : s.userLists.filterMap (fun ref => s.heap[ref]?) = users := placed.userLists
  rw [entries,order]
  simp [default,builtin,tokensList,userLists,shown]

theorem opened_nodup (n : Nat) : (0::1::(List.range' 2 n++[2+n])).Nodup := by
  rw [← List.range'_1_concat]
  exact List.nodup_range' (s := 0) (n := n+3)

theorem opened_localTokens (bundle : Bundle) (states : JsMap String Bool) (storage : Storage) (lists : List TokenlistEntry) :
    ((opened storage).assemble bundle states lists).localTokens = storage.localTokens.parse (some []) := by
  simp only [assemble,opened]
  cases storage.localTokens <;> rfl

theorem opened_placed (bundle : Bundle) {storage : Storage} {lists : List ListMeta} (holds : storage.Holds states lists tokens)
    (readable : ∀ list ∈ lists.map (load remote states), list.Readable) (wellFormed : .malformed ∉ tokens) :
    Placed bundle remote states (lists.map (load remote states)) tokens
      (reopened bundle remote states storage lists) := by
  have known := (opened_localTokens bundle states storage (lists.map (load remote states))).trans holds.tokens
  have last := assemble_last bundle states (opened storage) (lists.map (load remote states))
  rw [known] at last
  obtain ⟨first,second⟩ := assemble_first bundle states (opened storage) (lists.map (load remote states))
  refine ⟨⟨lists,holds,rfl⟩,assemble_users bundle states _ _,⟨_,_,_,rfl,first,second,last,Or.inr ?_⟩,known,?_,?_,
    readable,wellFormed⟩
  · change (reopened bundle remote states storage lists).localTokens.map _ = _
    rw [known]
    rfl
  · simpa [assemble,opened] using opened_nodup lists.length
  · intro ref member
    have place := (List.mem_range'_1.mp member).2
    simp only [assemble,opened] at place ⊢
    simp only [List.length_append,List.length_cons,List.length_nil] at place ⊢
    omega

theorem saveUserLists_holds {lists : List ListMeta} (holds : s.storage.Holds states lists tokens)
    (restored : ∀ list ∈ s.entries s.userLists, list.Restored remote states) :
    ∃ lists, s.saveUserLists.storage.Holds states lists tokens ∧ lists.map (load remote states) = s.entries s.userLists := by
  refine ⟨(s.entries s.userLists).map (·.toListMeta),⟨holds.states,?_,holds.tokens⟩,?_⟩
  · simp [saveUserLists,Slot.parse]
  · rw [List.map_map]
    exact (List.map_congr_left restored).trans (List.map_id _)

theorem entries_congr {refs : List Nat} (same : ∀ ref ∈ refs, next.heap[ref]? = s.heap[ref]?) :
    next.entries refs = s.entries refs :=
  List.filterMap_congr same

theorem Placed.bounded (placed : Placed bundle remote states users tokens s) : ∀ ref ∈ s.lists, ref < s.heap.length := by
  obtain ⟨first,second,last,order,default,builtin,tokensList,_⟩ := placed.ends
  have within {ref : Nat} {entry : TokenlistEntry} (found : s.heap[ref]? = some entry) : ref < s.heap.length :=
    (List.getElem?_eq_some_iff.mp found).1
  intro ref member
  rw [order] at member
  simp only [List.mem_cons,List.mem_append,List.not_mem_nil,or_false] at member
  rcases member with rfl | rfl | user | rfl
  · exact within default
  · exact within builtin
  · exact placed.inside ref user
  · exact within tokensList

theorem insertIdx_before_last {α : Type} (items : List α) (last new : α) :
    (items++[last]).insertIdx ((items++[last]).length-1) new = items++[new]++[last] := by
  rw [List.length_append,List.length_singleton,Nat.add_sub_cancel]
  induction items with
  | nil => rfl
  | cons item rest ih =>
    rw [List.cons_append,List.length_cons,List.insertIdx_succ_cons,ih]
    rfl

theorem Placed.insertList (placed : Placed bundle remote states users tokens s) {list : TokenlistEntry}
    (restored : list.Restored remote states) (readable : list.Readable) :
    Placed bundle remote states (users++[list]) tokens (s.insertList list) := by
  obtain ⟨first,second,last,order,default,builtin,tokensList,sharing⟩ := placed.ends
  obtain ⟨saved,holds,_⟩ := placed.holds
  have old {ref : Nat} {entry : TokenlistEntry} (found : s.heap[ref]? = some entry) : (s.heap++[list])[ref]? = some entry := by
    rw [List.getElem?_append_left (List.getElem?_eq_some_iff.mp found).1]
    exact found
  have kept : (s.insertList list).entries s.userLists = s.entries s.userLists :=
    entries_congr fun ref member => List.getElem?_append_left (placed.inside ref member)
  have userLists : (s.insertList list).entries (s.insertList list).userLists = users++[list] := by
    have last : (s.insertList list).entries [s.heap.length] = [list] := by
      simp [entries,Store.insertList,saveUserLists]
    rw [← placed.userLists,← kept,← last]
    exact List.filterMap_append
  have joined {property : TokenlistEntry → Prop} (before : ∀ other ∈ users, property other) (new : property list) :
      ∀ other ∈ users++[list], property other :=
    List.forall_mem_append.mpr ⟨before,List.forall_mem_singleton.mpr new⟩
  refine ⟨?_,userLists,⟨first,second,last,?_,old default,old builtin,old tokensList,sharing⟩,placed.localTokens,?_,?_,
    joined placed.readable readable,placed.wellFormed⟩
  · have all := joined placed.restored restored
    rw [← userLists] at all ⊢
    exact saveUserLists_holds holds all
  · change s.lists.insertIdx (s.lists.length-1) s.heap.length = _
    rw [order]
    exact insertIdx_before_last (first::second::s.userLists) last s.heap.length
  · exact insertList_nodup placed.distinct placed.bounded list
  · intro ref member
    have grown : (s.insertList list).heap.length = s.heap.length+1 := List.length_append ..
    rw [grown]
    rcases List.mem_append.mp member with before | new
    · exact Nat.lt_succ_of_lt (placed.inside ref before)
    · exact List.mem_singleton.mp new ▸ Nat.lt_succ_self _

theorem Placed.dropList (placed : Placed bundle remote states users tokens s) {index ref : Nat}
    (found : s.lists[index]? = some ref) (user : ref ∈ s.userLists) :
    ∃ users, Placed bundle remote states users tokens (s.dropList index ref) := by
  obtain ⟨first,second,last,order,default,builtin,tokensList,sharing⟩ := placed.ends
  obtain ⟨saved,holds,_⟩ := placed.holds
  have erased := dropList_lists placed.distinct found
  have left : s.lists.erase ref = first::second::(s.userLists.erase ref++[last]) := by
    have distinct := placed.distinct
    rw [order] at distinct ⊢
    obtain ⟨fresh,distinct⟩ := List.nodup_cons.mp distinct
    have other := (List.nodup_cons.mp distinct).1
    have second : second ≠ ref := fun same => other (same ▸ List.mem_append_left _ user)
    have first : first ≠ ref := fun same => fresh (same ▸ List.mem_cons_of_mem _ (List.mem_append_left _ user))
    rw [List.erase_cons_tail (by simpa using first),List.erase_cons_tail (by simpa using second),
      List.erase_append_left _ user]
  have fewer : ∀ list ∈ s.entries (s.userLists.erase ref), list ∈ users := by
    rw [← placed.userLists]
    exact fun list member => (List.erase_sublist.filterMap _).subset member
  refine ⟨s.entries (s.userLists.erase ref),?_,rfl,⟨first,second,last,erased.trans left,default,builtin,tokensList,sharing⟩,
    placed.localTokens,?_,fun ref member => placed.inside ref (List.mem_of_mem_erase member),
    fun list member => placed.readable list (fewer list member),placed.wellFormed⟩
  · exact saveUserLists_holds holds fun list member => placed.restored list (fewer list member)
  · exact placed.distinct.sublist (List.eraseIdx_sublist _ _)

def IsLocalTokens (list : TokenlistEntry) : Bool := list.isLocal && decide (list.name = "Local Tokens")

/-- The list of local tokens is the last where no list of the user's is taken for it. -/
theorem Placed.localEntry (placed : Placed bundle remote states users tokens s) {first second last : Nat}
    (order : s.lists = first::second::(s.userLists++[last])) (default : s.heap[first]? = some (defaultList bundle states))
    (builtin : s.heap[second]? = some builtinList) (tokensList : s.heap[last]? = some (localTokensList tokens))
    (alone : ∀ list ∈ users, IsLocalTokens list = false) :
    (s.lists.find? fun ref => s.heap[ref]?.any IsLocalTokens) = some last := by
  have others : s.userLists.find? (fun ref => s.heap[ref]?.any IsLocalTokens) = none := by
    refine List.find?_eq_none.mpr fun ref member => ?_
    cases found : s.heap[ref]? with
    | none => simp
    | some list =>
      have user : list ∈ users := by
        rw [← placed.userLists]
        exact List.mem_filterMap.mpr ⟨ref,member,found⟩
      simp [alone list user]
  rw [order,List.find?_cons,List.find?_cons,List.find?_append,others,List.find?_singleton]
  simp [default,builtin,tokensList,defaultList,builtinList,localTokensList,IsLocalTokens]

theorem showTokens_other (tokens : List Element) (heap : List TokenlistEntry) {place : Option Nat} {ref : Nat}
    (elsewhere : place ≠ some ref) : (showTokens tokens heap place)[ref]? = heap[ref]? := by
  simp only [showTokens_getElem?,if_neg elsewhere,Option.map_id']

theorem showTokens_local {heap : List TokenlistEntry} {ref : Nat} (before after : List Element)
    (found : heap[ref]? = some (localTokensList before)) :
    (showTokens after heap (some ref))[ref]? = some (localTokensList after) := by
  simp [showTokens,found,localTokensList]

/-- Where one list alone is taken for the local tokens, it alone changes. -/
theorem setLocalTokens_heap {last : Nat} {before : List Element} (after : List Element)
    (found : s.heap[last]? = some (localTokensList before)) (sharing : s.sharing = none ∨ s.sharing = some last)
    (chosen : s.lists.find? (fun ref => s.heap[ref]?.any IsLocalTokens) = some last) :
    (s.setLocalTokens after).heap[last]? = some (localTokensList after) ∧ (s.setLocalTokens after).sharing = none ∧
      ∀ ref, ref ≠ last → (s.setLocalTokens after).heap[ref]? = s.heap[ref]? := by
  have heap : (s.setLocalTokens after).heap = showTokens after (showTokens after s.heap s.sharing) (some last) := by
    rw [← chosen]
    rfl
  have unshared : (s.setLocalTokens after).sharing = if some last = s.sharing then none else s.sharing := by
    rw [← chosen]
    rfl
  rw [heap,unshared]
  rcases sharing with none | same
  · rw [none]
    exact ⟨showTokens_local _ _ found,by simp,fun ref other => showTokens_other _ _ fun same => other (Option.some.inj same).symm⟩
  · rw [same]
    refine ⟨showTokens_local _ _ (showTokens_local _ _ found),by simp,fun ref other => ?_⟩
    have elsewhere : some last ≠ some ref := fun same => other (Option.some.inj same).symm
    rw [showTokens_other _ _ elsewhere,showTokens_other _ _ elsewhere]

theorem Placed.setLocalTokens (placed : Placed bundle remote states users tokens s) (token : Token)
    (alone : ∀ list ∈ users, IsLocalTokens list = false) :
    Placed bundle remote states users (tokens++[.token token]) (s.setLocalTokens (tokens++[.token token])) := by
  obtain ⟨first,second,last,order,default,builtin,tokensList,sharing⟩ := placed.ends
  obtain ⟨lists,holds,loaded⟩ := placed.holds
  obtain ⟨changed,unshared,untouched⟩ := setLocalTokens_heap (tokens++[.token token]) tokensList sharing
    (placed.localEntry order default builtin tokensList alone)
  have apart : first ≠ last ∧ second ≠ last ∧ ∀ ref ∈ s.userLists, ref ≠ last := by
    have distinct := placed.distinct
    rw [order] at distinct
    simp only [List.nodup_cons,List.mem_cons,List.mem_append,List.nodup_append,List.not_mem_nil,or_false,not_or] at distinct
    exact ⟨distinct.1.2.2,distinct.2.1.2,fun ref member => distinct.2.2.2.2 ref member last rfl⟩
  obtain ⟨firstOther,secondOther,usersOther⟩ := apart
  refine ⟨⟨lists,⟨holds.states,holds.lists,rfl⟩,loaded⟩,?_,
    ⟨first,second,last,order,?_,?_,changed,Or.inl unshared⟩,rfl,placed.distinct,?_,placed.readable,?_⟩
  · rw [← placed.userLists]
    exact entries_congr fun ref member => untouched ref (usersOther ref member)
  · rw [untouched first firstOther,default]
  · rw [untouched second secondOther,builtin]
  · intro ref member
    rw [setLocalTokens_length]
    exact placed.inside ref member
  · simp [placed.wellFormed]

theorem Placed.paired (placed : Placed bundle remote states users tokens s) (defaultPairs : Slot Json) :
    Placed bundle remote states users tokens {s with storage := {s.storage with defaultPairs}} := by
  obtain ⟨lists,holds,loaded⟩ := placed.holds
  exact ⟨⟨lists,⟨holds.states,holds.lists,holds.tokens⟩,loaded⟩,placed.userLists,placed.ends,placed.localTokens,
    placed.distinct,placed.inside,placed.readable,placed.wellFormed⟩

theorem pairLost_ok (bundle : Bundle) {chain : Chain} (pairs : s.getCustomPairs.PairAt chain.key)
    (readable : ∀ list ∈ s.entries s.lists, list.Readable) : ∃ lost, s.pairLost bundle chain = .ok lost := by
  obtain ⟨custom,found,texts⟩ := pairs
  unfold pairLost
  rw [found]
  by_cases there : truthy custom = true
  · obtain ⟨fromAddr,toAddr,fromFound,toFound⟩ := texts there
    obtain ⟨index,built⟩ := (buildTokenIndex_ok_iff bundle _).mpr readable
    simp [there,pairAddress,fromFound,toFound,built,bind,Except.bind,pure,Except.pure]
  · simp [there,bind,Except.bind,pure,Except.pure]

theorem Placed.lists_readable (placed : Placed bundle remote states users tokens s) :
    ∀ list ∈ s.entries s.lists, list.Readable := by
  rw [placed.shows]
  exact shown_readable.mpr ⟨placed.readable,placed.wellFormed⟩

theorem Placed.revertPair (placed : Placed bundle remote states users tokens s) (pairs : s.storage.PairsReadable)
    (chain : Chain) : ∃ after, s.revertPair bundle chain = (after,.ok ()) ∧
      Placed bundle remote states users tokens after ∧ after.storage.PairsReadable := by
  obtain ⟨lost,decided⟩ := pairLost_ok bundle (pairs chain) placed.lists_readable
  unfold Store.revertPair
  rw [decided]
  cases lost with
  | false => exact ⟨s,rfl,placed,pairs⟩
  | true =>
    unfold resetCustomPair
    cases stored : s.getCustomPairs with
    | null =>
      obtain ⟨custom,found,_⟩ := pairs chain
      have null : s.storage.defaultPairs.parse (.object []) = .null := stored
      simp [null,Json.get] at found
    | object fields =>
      refine ⟨_,rfl,placed.paired _,fun other => ?_⟩
      have pair : s.getCustomPairs.PairAt other.key := pairs other
      rw [stored] at pair
      exact pair.deleted
    | _ =>
      refine ⟨_,rfl,placed.paired _,fun other => ?_⟩
      have pair : s.getCustomPairs.PairAt other.key := pairs other
      rw [stored] at pair
      exact pair

theorem rebuildAndSync_returns (readable : ∀ list ∈ s.entries s.lists, list.Readable) :
    ∃ tokenIndex, buildTokenIndex bundle (s.entries s.lists) = .ok tokenIndex ∧
      s.rebuildAndSync bundle = ({s with tokenIndex,allLists := s.lists},.ok ()) := by
  obtain ⟨tokenIndex,built⟩ := (buildTokenIndex_ok_iff bundle _).mpr readable
  exact ⟨tokenIndex,built,rebuildAndSync_built built⟩

def Synced (bundle : Bundle) (remote : String → Fetched) (states : JsMap String Bool) (s : Store) : Prop :=
  ∃ users tokens, Placed bundle remote states users tokens s ∧
    buildTokenIndex bundle (s.entries s.lists) = .ok s.tokenIndex

theorem Placed.rebuildAndSync (placed : Placed bundle remote states users tokens s) :
    Synced bundle remote states (s.rebuildAndSync bundle).1 := by
  obtain ⟨tokenIndex,built,same⟩ := rebuildAndSync_returns placed.lists_readable
  rw [same]
  exact ⟨users,tokens,⟨placed.holds,placed.userLists,placed.ends,placed.localTokens,placed.distinct,placed.inside,
    placed.readable,placed.wellFormed⟩,built⟩

/-- A reload of a synced store shows the same lists and finds the same tokens. -/
theorem Synced.reload (synced : Synced bundle remote states s) :
    ∃ again, initTokenlists bundle remote s.storage = some (again,.ok ()) ∧
      again.entries again.lists = s.entries s.lists ∧ again.tokenIndex = s.tokenIndex := by
  obtain ⟨users,tokens,placed,built⟩ := synced
  obtain ⟨lists,holds,rfl⟩ := placed.holds
  have again := opened_placed bundle holds placed.readable placed.wellFormed
  obtain ⟨tokenIndex,rebuilt,same⟩ := rebuildAndSync_returns again.lists_readable
  rw [again.shows,← placed.shows,built] at rebuilt
  refine ⟨_,(initTokenlists_eq holds.states holds.lists).trans (congrArg some same),?_,?_⟩
  · rw [placed.shows]
    exact again.shows
  · exact (Except.ok.inj rebuilt).symm

/-- What the dialog offers: lists of URLs with what the URLs answer, lists of files, and the
rest as it is. Switching lists is not among it. -/
def Offered (remote : String → Fetched) : Action → Prop
  | .addList list => (∃ url name tokens, url ≠ "" ∧ remote url = .ok (some name) (some tokens) ∧ list = urlList url name tokens) ∨
      ∃ name tokens, list = fileList name tokens
  | .removeList _ => True
  | .addLocalToken _ => True
  | .toggleList _ => False
  | .fetched _ _ => False

/-- A change that a reload repeats. A list that is added has no tokens but those of its URL,
none of them malformed, and no stored state switches it off; a list that is removed is the
user's, at a time when the custom pairs can be read; no list of the user's is taken for the
local tokens when one is added. -/
def Repeated (s : Store) : Action → Prop
  | .addList list => (list.url = none → list.tokens = []) ∧ list.Readable ∧
      ∀ states, s.storage.tokenlistStates.parse (some []) = some states → LeftOn states list.toListMeta
  | .removeList index => ∀ ref, 0 ≤ index → s.lists[index.toNat]? = some ref →
      ref ∈ s.userLists ∧ s.storage.PairsReadable
  | .addLocalToken _ => ∀ list ∈ s.entries s.userLists, IsLocalTokens list = false
  | _ => True

theorem Synced.addList (synced : Synced bundle remote states s) {list : TokenlistEntry}
    (offered : Offered remote (.addList list)) (repeated : Repeated s (.addList list)) :
    Synced bundle remote states (s.addList bundle list).1 := by
  obtain ⟨users,tokens,placed,_⟩ := synced
  obtain ⟨lists,holds,_⟩ := placed.holds
  obtain ⟨fileless,readable,on⟩ := repeated
  have on := on states holds.states
  rcases offered with ⟨url,name,tokens,fetches,answer,rfl⟩ | ⟨name,tokens,rfl⟩
  · exact (placed.insertList (urlList_restored fetches answer on) readable).rebuildAndSync
  · obtain rfl : tokens = [] := fileless rfl
    exact (placed.insertList (fileList_restored on) readable).rebuildAndSync

theorem Synced.addLocalToken (synced : Synced bundle remote states s) {token : Token}
    (repeated : Repeated s (.addLocalToken token)) : Synced bundle remote states (s.addLocalToken bundle token).1 := by
  obtain ⟨users,tokens,placed,_⟩ := synced
  unfold Store.addLocalToken
  rw [placed.localTokens]
  exact (placed.setLocalTokens token (placed.userLists ▸ repeated)).rebuildAndSync

theorem Synced.removeList (synced : Synced bundle remote states s) {index : Int}
    (repeated : Repeated s (.removeList index)) : Synced bundle remote states (s.removeList bundle index).1 := by
  unfold Store.removeList
  split
  · exact synced
  · rename_i positive
    split
    · exact synced
    · rename_i ref found
      obtain ⟨users,tokens,placed,_⟩ := synced
      obtain ⟨user,pairs⟩ := repeated ref (Int.not_lt.mp positive) found
      obtain ⟨fewer,left⟩ := placed.dropList found user
      dsimp only
      split
      · exact left.rebuildAndSync
      · obtain ⟨first,ethereum,kept,pairs⟩ := left.revertPair pairs .ethereum
        obtain ⟨second,base,both,_⟩ := kept.revertPair pairs .base
        rw [ethereum]
        dsimp only [Ran.andThen]
        rw [base]
        exact both.rebuildAndSync

/-- An index that could be built vouches for the user's lists and the local tokens. -/
theorem reopened_readable {storage : Storage} {lists : List ListMeta} {tokenIndex : TokenIndex}
    (built : buildTokenIndex bundle ((reopened bundle remote states storage lists).entries
      (reopened bundle remote states storage lists).lists) = .ok tokenIndex) :
    (∀ list ∈ lists.map (load remote states), list.Readable) ∧
      ∃ tokens, storage.localTokens.parse (some []) = some tokens ∧ .malformed ∉ tokens := by
  have readable := (buildTokenIndex_ok_iff bundle _).mp ⟨tokenIndex,built⟩
  constructor
  · intro list member
    rw [← assemble_users bundle states (opened storage) (lists.map (load remote states))] at member
    refine readable list ((List.Sublist.filterMap _ ?_).subset member)
    exact ((List.sublist_append_left _ _).trans (List.sublist_cons_self _ _)).trans (List.sublist_cons_self _ _)
  · have last := assemble_last bundle states (opened storage) (lists.map (load remote states))
    rw [opened_localTokens] at last
    have shown : (localTokensList ((storage.localTokens.parse (some [])).getD [.malformed])).Readable := by
      refine readable _ (List.mem_filterMap.mpr ⟨_,?_,last⟩)
      simp [assemble]
    cases parsed : storage.localTokens.parse (some []) with
    | none => simp [parsed,TokenlistEntry.Readable,localTokensList] at shown
    | some tokens => exact ⟨tokens,rfl,by simpa [parsed,TokenlistEntry.Readable,localTokensList] using shown⟩

theorem initTokenlists_synced {storage : Storage}
    (started : initTokenlists bundle remote storage = some (s,.ok ())) : ∃ states, Synced bundle remote states s := by
  obtain ⟨states,lists,stored,saved,ended⟩ := initTokenlists_cases started
  cases built : buildTokenIndex bundle ((reopened bundle remote states storage lists).entries
      (reopened bundle remote states storage lists).lists) with
  | error error =>
    rw [Store.rebuildAndSync,built] at ended
    simp at ended
  | ok tokenIndex =>
    obtain ⟨users,tokens,parsed,wellFormed⟩ := reopened_readable built
    have synced := (opened_placed bundle ⟨stored,saved,parsed⟩ users wellFormed).rebuildAndSync
    rw [← ended] at synced
    exact ⟨states,synced⟩

theorem step_synced {action : Action} (synced : Synced bundle remote states s) (offered : Offered remote action)
    (repeated : Repeated s action) (stepped : s.step bundle action = some next) : Synced bundle remote states next := by
  cases action with
  | fetched i answer => exact offered.elim
  | toggleList key => exact offered.elim
  | addList list =>
    cases Option.some.inj stepped
    exact synced.addList offered repeated
  | removeList index =>
    cases Option.some.inj stepped
    exact synced.removeList repeated
  | addLocalToken token =>
    cases Option.some.inj stepped
    exact synced.addLocalToken repeated

/-- Along changes that a reload repeats, a reload at any time brings back the same lists
with the same tokens, and the same token index. -/
theorem reload_restores (bundle : Bundle) (remote : String → Fetched) {storage : Storage} {initial final : Store}
    {actions : List Action}
    (started : initTokenlists bundle remote storage = some (initial,.ok ()))
    (offered : ∀ action ∈ actions, Offered remote action) (repeated : Throughout (step bundle) Repeated initial actions)
    (ran : run (step bundle) initial actions = some final) :
    ∃ again, initTokenlists bundle remote final.storage = some (again,.ok ()) ∧
      again.entries again.lists = final.entries final.lists ∧ again.tokenIndex = final.tokenIndex := by
  obtain ⟨states,synced⟩ := initTokenlists_synced started
  refine Synced.reload (run_preserves_throughout (Synced bundle remote states) _ ?_ synced (repeated.and offered) ran)
  exact fun before action after synced both stepped => step_synced synced both.1 both.2 stepped

def emptyStorage : Storage := ⟨.absent,.absent,.absent,.absent⟩

def sampleToken : Token := ⟨some 1,"0xaa","AA","Token",18⟩

def oneToken (_url : String) : Fetched := .ok (some "Remote") (some [.token sampleToken])

def remoteList : TokenlistEntry := urlList "https://remote.example/list.json" "Remote" [.token sampleToken]

def remoteRun : List Action := [.addList remoteList,.addLocalToken sampleToken]

theorem reload_restores_remote :
    ∃ initial final again, initTokenlists smallBundle oneToken emptyStorage = some (initial,.ok ()) ∧
      run (step smallBundle) initial remoteRun = some final ∧
      initTokenlists smallBundle oneToken final.storage = some (again,.ok ()) ∧
      again.entries again.lists = final.entries final.lists ∧ again.tokenIndex = final.tokenIndex := by
  have completes : (initTokenlists smallBundle oneToken emptyStorage).map (fun ran =>
      (ran.2,ran.1.storage.tokenlistStates.parse (some []),
        (ran.1.addList smallBundle remoteList).1.entries (ran.1.addList smallBundle remoteList).1.userLists)) =
      some (.ok (),some [],[remoteList]) := by rfl
  obtain ⟨⟨initial,_⟩,started,seen⟩ := Option.map_eq_some_iff.mp completes
  obtain ⟨rfl,seen⟩ := Prod.mk.inj seen
  obtain ⟨states,added⟩ := Prod.mk.inj seen
  have offered : ∀ action ∈ remoteRun, Offered oneToken action :=
    List.forall_mem_cons.mpr ⟨Or.inl ⟨_,_,_,by decide,rfl,rfl⟩,List.forall_mem_singleton.mpr trivial⟩
  have first : Repeated initial (.addList remoteList) := by
    refine ⟨by simp [remoteList,urlList],by simp [TokenlistEntry.Readable,remoteList,urlList],fun known stored => ?_⟩
    obtain rfl := Option.some.inj (stored.symm.trans states)
    simp [LeftOn,JsMap.get]
  have second : Repeated (initial.addList smallBundle remoteList).1 (.addLocalToken sampleToken) := by
    intro list member
    rw [added] at member
    obtain rfl := List.mem_singleton.mp member
    rfl
  have repeated : Throughout (step smallBundle) Repeated initial remoteRun :=
    ⟨first,fun next stepped => ⟨Option.some.inj stepped ▸ second,fun _ _ => trivial⟩⟩
  obtain ⟨again,reloaded,same,index⟩ := reload_restores smallBundle oneToken started offered repeated rfl
  exact ⟨initial,_,again,started,rfl,reloaded,same,index⟩

def importedFile : Document := ⟨"Mine",some [.token sampleToken]⟩

def userTokens (s : Store) : Option (List Element) := (s.entries s.lists)[2]?.map (·.tokens)

theorem imported_tokens_lost :
    ∃ initial final again, initTokenlists smallBundle oneToken emptyStorage = some (initial,.ok ()) ∧
      initial.handleFileImport smallBundle (some importedFile) = (final,.success "Imported \"Mine\" with 1 tokens") ∧
      run (step smallBundle) initial [.addList (fileList "Mine" [.token sampleToken])] = some final ∧
      initTokenlists smallBundle oneToken final.storage = some (again,.ok ()) ∧
      final.userTokens = some [.token sampleToken] ∧ again.userTokens = some [] ∧
      again.entries again.lists ≠ final.entries final.lists := by
  have imported : (initTokenlists smallBundle oneToken emptyStorage).map (fun ran =>
      (ran.2,ran.1.userTokens,(ran.1.handleFileImport smallBundle (some importedFile)).2)) =
      some (.ok (),some [],.success "Imported \"Mine\" with 1 tokens") := by rfl
  have reloaded : (initTokenlists smallBundle oneToken emptyStorage).bind (fun ran =>
      (initTokenlists smallBundle oneToken (ran.1.handleFileImport smallBundle (some importedFile)).1.storage).map
        fun again => (again.2,(ran.1.handleFileImport smallBundle (some importedFile)).1.userTokens,again.1.userTokens)) =
      some (.ok (),some [.token sampleToken],some []) := by rfl
  obtain ⟨⟨initial,_⟩,started,seen⟩ := Option.map_eq_some_iff.mp imported
  obtain ⟨rfl,seen⟩ := Prod.mk.inj seen
  obtain ⟨none,message⟩ := Prod.mk.inj seen
  rw [started,Option.bind_some] at reloaded
  obtain ⟨⟨again,_⟩,restarted,seen⟩ := Option.map_eq_some_iff.mp reloaded
  obtain ⟨rfl,seen⟩ := Prod.mk.inj seen
  obtain ⟨before,after⟩ := Prod.mk.inj seen
  refine ⟨initial,_,again,started,Prod.ext rfl message,?_,restarted,before,after,fun same => ?_⟩
  · rcases handleFileImport_cases smallBundle initial (some importedFile) with unchanged | ⟨parsed,tokens,file,found,added⟩
    · rw [unchanged] at before
      simp [none] at before
    · cases file
      cases found
      exact added.symm
  · have shown : again.userTokens = (initial.handleFileImport smallBundle (some importedFile)).1.userTokens :=
      congrArg (fun lists : List TokenlistEntry => lists[2]?.map TokenlistEntry.tokens) same
    rw [before,after] at shown
    simp at shown

end Store

end YPriceMagic.Frontend
