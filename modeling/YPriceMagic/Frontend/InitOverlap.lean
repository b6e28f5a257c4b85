import Mathlib.Data.List.Perm.Basic
import YPriceMagic.Async.Entries
import YPriceMagic.Async.Run
import YPriceMagic.Frontend.StoreSteps

/-! `initTokenlists` against what the user changes while its fetches are pending: what it
found in storage at its start becomes the module state at its end. -/
namespace YPriceMagic.Frontend
open YPriceMagic.Async

def Storage.listKeys (storage : Storage) : List String :=
  match storage.tokenlists with
  | .value (some lists) => lists.filterMap fun list => list.map getListKey
  | _ => []

def Storage.savedLists (storage : Storage) : List ListMeta :=
  match storage.tokenlists with
  | .value (some lists) => lists.filterMap id
  | _ => []

def Storage.tokens (storage : Storage) : List Element :=
  match storage.localTokens with
  | .value (some tokens) => tokens
  | _ => []

/-- A list but for its switch and its last error. -/
def ListMeta.content (list : ListMeta) : ListMeta := {list with enabled := true,error := none}

def TokenlistEntry.content (list : TokenlistEntry) : TokenlistEntry := {list with enabled := true,error := none}

/-- A stored list once its URL has answered: the document's name and tokens, and no tokens without one. -/
def ListMeta.answered (saved : ListMeta) (answer : Option Fetched) : TokenlistEntry :=
  match saved.fetchUrl,answer with
  | some _,some (.ok name tokens) => {saved.content with name := name.getD saved.name,tokens := tokens.getD []}
  | _,_ => {saved.content with tokens := []}

def ListMeta.loaded (states : JsMap String Bool) (saved : ListMeta) (answer : Option Fetched) : Option TokenlistEntry :=
  if saved.fetchUrl.isSome then answer.map (loadUserList states saved) else some (loadUserList states saved (.failed ""))

theorem ListMeta.loaded_content {states : JsMap String Bool} {saved : ListMeta} {answer : Option Fetched} {list : TokenlistEntry}
    (loaded : saved.loaded states answer = some list) : list.content = saved.answered answer := by
  unfold ListMeta.loaded at loaded
  unfold ListMeta.answered
  cases url : saved.fetchUrl with
  | none =>
    rw [url] at loaded
    cases Option.some.inj loaded
    simp only [loadUserList,url]
    rfl
  | some target =>
    rw [url,if_pos (by rfl)] at loaded
    obtain ⟨given,rfl,rfl⟩ := Option.map_eq_some_iff.mp loaded
    cases given <;> simp only [loadUserList,url] <;> rfl

theorem ListMeta.answered_meta {saved : ListMeta} {answer : Option Fetched} {list : TokenlistEntry}
    (same : list.content = saved.answered answer) :
    ∃ name, list.toListMeta.content = {saved.content with name} ∧ (saved.fetchUrl = none → name = saved.name) := by
  have metas : list.toListMeta.content = (saved.answered answer).toListMeta := congrArg TokenlistEntry.toListMeta same
  unfold ListMeta.answered at metas
  split at metas
  · rename_i url name tokens fetching
    exact ⟨_,metas,fun unfetched => absurd (unfetched.symm.trans fetching) nofun⟩
  · exact ⟨saved.name,metas,fun _ => rfl⟩

namespace Store

/-- The lists after one more change, where they stand in the array. -/
def Action.lists (lists : List TokenlistEntry) : Action → List TokenlistEntry
  | .addList list => lists.insertIdx (lists.length-1) list
  | .removeList index => if index < 0 then lists else lists.eraseIdx index.toNat
  | _ => lists

/-- The lists that were added and not removed. -/
def addedLists (actions : List Action) : List TokenlistEntry := actions.foldl Action.lists []

def Action.answer (i : Nat) : Action → Option Fetched
  | .fetched j answer => if j = i then some answer else none
  | _ => none

/-- What the URL of the `i`th stored list answered. -/
def answerTo (i : Nat) (actions : List Action) : Option Fetched := actions.findSome? (Action.answer i)

def Action.localToken : Action → Option Element
  | .addLocalToken token => some (.token token)
  | _ => none

def addedTokens (actions : List Action) : List Element := actions.filterMap Action.localToken

def Action.adds : Action → Bool
  | .addList _ => true
  | _ => false

variable {bundle : Bundle} {storage : Storage} {s next : Store} {actions : List Action} {action : Action}

theorem addedLists_snoc : addedLists (actions++[action]) = action.lists (addedLists actions) := by
  simp [addedLists]

theorem answerTo_snoc (i : Nat) : answerTo i (actions++[action]) = (answerTo i actions).or (action.answer i) := by
  cases answer : action.answer i <;> simp [answerTo,List.findSome?_append,answer]

theorem addedTokens_snoc : addedTokens (actions++[action]) = addedTokens actions++action.localToken.toList := by
  cases added : action.localToken <;> simp [addedTokens,added]

def contentAt (s : Store) (ref : Nat) : Option ListMeta := (s.metaAt ref).map ListMeta.content

theorem switchList_contentAt (s : Store) (key : String) : (s.switchList key).contentAt = s.contentAt := by
  funext ref
  have same : (s.switchList key).heap.map (·.toListMeta.content) = s.heap.map (·.toListMeta.content) := by
    unfold switchList
    dsimp only
    split
    · exact modify_map _ _ fun list => rfl
    · rfl
  have here := congrArg (·[ref]?) same
  simpa [contentAt,metaAt,Option.map_map,Function.comp_def] using here

theorem setLocalTokens_contentAt (s : Store) (tokens : List Element) : (s.setLocalTokens tokens).contentAt = s.contentAt := by
  funext ref
  rw [contentAt,contentAt,setLocalTokens_metaAt]

theorem entries_contents {refs : List Nat} (inside : ∀ ref ∈ refs, ref < s.heap.length) :
    (s.entries refs).map (fun list => some list.toListMeta.content) = refs.map s.contentAt := by
  induction refs with
  | nil => rfl
  | cons ref rest ih =>
    have here := List.getElem?_eq_getElem (inside ref List.mem_cons_self)
    have others := ih fun other member => inside other (List.mem_cons_of_mem _ member)
    rw [entries,List.filterMap_cons,here]
    simpa [entries,contentAt,metaAt,here] using others

structure Tracked (storage : Storage) (actions : List Action) (s : Store) : Prop where
  inside : ∀ ref ∈ s.lists, ref < s.heap.length
  same : s.lists.Perm s.userLists
  contents : s.lists.map s.contentAt = (addedLists actions).map fun list => some list.toListMeta.content
  idle : actions.any Action.adds = false → s.lists = [] ∧ s.storage.tokenlists = storage.tokenlists
  saved : actions.any Action.adds = true →
    s.storage.savedLists.map (fun saved => some saved.content) = s.userLists.map s.contentAt
  tokens : s.localTokens = some (addedTokens actions)
  untouched : addedTokens actions = [] → s.storage.localTokens = storage.localTokens
  stored : addedTokens actions ≠ [] → s.storage.localTokens = .value (some (addedTokens actions))
  loading : ∃ pending, s.pending = some pending ∧ ∀ i : Nat, pending.results[i]? =
    storage.savedLists[i]?.map fun saved => (saved,saved.loaded pending.states (answerTo i actions))

theorem saveUserLists_savedLists (s : Store) (inside : ∀ ref ∈ s.userLists, ref < s.heap.length) :
    s.saveUserLists.storage.savedLists.map (fun saved => some saved.content) = s.userLists.map s.contentAt := by
  rw [← entries_contents inside]
  simp [saveUserLists,Storage.savedLists,List.filterMap_map,Function.comp_def]

theorem Tracked.adjusted {before : Store} (tracked : Tracked storage actions before) (adjusted : Adjusted before s) :
    Tracked storage actions s := by
  obtain ⟨defaultPairs,tokenIndex,allLists,rfl⟩ := adjusted
  exact ⟨tracked.inside,tracked.same,tracked.contents,tracked.idle,tracked.saved,tracked.tokens,tracked.untouched,
    tracked.stored,tracked.loading⟩

theorem Tracked.unchanged (tracked : Tracked storage actions s) (length : next.heap.length = s.heap.length)
    (lists : next.lists = s.lists) (userLists : next.userLists = s.userLists) (contentAt : next.contentAt = s.contentAt)
    (tokenlists : next.storage.tokenlists = s.storage.tokenlists) (pending : next.pending = s.pending)
    (unchanged : action.lists (addedLists actions) = addedLists actions) (plain : action.adds = false)
    (unanswered : ∀ i, action.answer i = none)
    (tokens : next.localTokens = some (addedTokens (actions++[action])))
    (untouched : addedTokens (actions++[action]) = [] → next.storage.localTokens = storage.localTokens)
    (stored : addedTokens (actions++[action]) ≠ [] →
      next.storage.localTokens = .value (some (addedTokens (actions++[action])))) :
    Tracked storage (actions++[action]) next where
  inside := by rw [lists,length]; exact tracked.inside
  same := by rw [lists,userLists]; exact tracked.same
  contents := by rw [lists,contentAt,addedLists_snoc,unchanged]; exact tracked.contents
  idle quiet := by
    rw [List.any_append,Bool.or_eq_false_iff] at quiet
    rw [lists,tokenlists]
    exact tracked.idle quiet.1
  saved busy := by
    rw [List.any_append,Bool.or_eq_true] at busy
    have before : actions.any Action.adds = true := by simpa [plain] using busy
    rw [userLists,contentAt,Storage.savedLists,tokenlists]
    exact tracked.saved before
  tokens := tokens
  untouched := untouched
  stored := stored
  loading := by
    simp only [pending,answerTo_snoc,unanswered,Option.or_none]
    exact tracked.loading

theorem Tracked.toggleList (tracked : Tracked storage actions s) (key : String) :
    Tracked storage (actions++[.toggleList key]) (s.toggleList bundle key).1 := by
  refine Tracked.adjusted ?_ (toggleList_adjusted bundle s key)
  have tokens : addedTokens (actions++[.toggleList key]) = addedTokens actions := by simp [addedTokens_snoc,Action.localToken]
  refine tracked.unchanged (switchList_length s key) rfl rfl (switchList_contentAt s key) rfl rfl rfl rfl (fun _ => rfl) ?_ ?_ ?_ <;> rw [tokens]
  · exact tracked.tokens
  · exact tracked.untouched
  · exact tracked.stored

theorem Tracked.addLocalToken (tracked : Tracked storage actions s) (token : Token) :
    Tracked storage (actions++[.addLocalToken token]) (s.addLocalToken bundle token).1 := by
  rcases s.addLocalToken_cases bundle token with ⟨absent,_⟩ | ⟨tokens,found,adjusted⟩
  · rw [tracked.tokens] at absent
    simp at absent
  · obtain rfl : addedTokens actions = tokens := Option.some.inj (tracked.tokens.symm.trans found)
    have added : addedTokens (actions++[.addLocalToken token]) = addedTokens actions++[.token token] := by
      simp [addedTokens_snoc,Action.localToken]
    refine Tracked.adjusted ?_ adjusted
    refine tracked.unchanged (setLocalTokens_length s _) rfl rfl (setLocalTokens_contentAt s _) rfl rfl rfl rfl (fun _ => rfl) ?_ ?_ ?_ <;> rw [added]
    · rfl
    · simp
    · exact fun _ => rfl

theorem Tracked.addList (tracked : Tracked storage actions s) (list : TokenlistEntry) :
    Tracked storage (actions++[.addList list]) (s.addList bundle list).1 := by
  refine Tracked.adjusted ?_ (addList_adjusted bundle s list)
  have grown : (s.insertList list).heap.length = s.heap.length+1 := List.length_append ..
  have kept (refs : List Nat) (inside : ∀ ref ∈ refs, ref < s.heap.length) :
      refs.map (s.insertList list).contentAt = refs.map s.contentAt := by
    refine List.map_congr_left fun ref member => ?_
    rw [contentAt,contentAt,insertList_metaAt_old list (inside ref member)]
  have users : ∀ ref ∈ s.userLists, ref < s.heap.length := fun ref member => tracked.inside ref (tracked.same.mem_iff.mpr member)
  have joined : (s.lists.insertIdx (s.lists.length-1) s.heap.length).Perm (s.heap.length::s.lists) :=
    List.perm_insertIdx _ _ (Nat.sub_le _ _)
  have tokens : addedTokens (actions++[.addList list]) = addedTokens actions := by simp [addedTokens_snoc,Action.localToken]
  refine ⟨?_,?_,?_,?_,?_,?_,?_,?_,?_⟩
  · intro ref member
    rw [grown]
    rcases List.mem_cons.mp (joined.mem_iff.mp member) with rfl | old
    · exact Nat.lt_succ_self _
    · exact Nat.lt_succ_of_lt (tracked.inside ref old)
  · exact joined.trans ((tracked.same.cons _).trans (List.perm_append_singleton _ _).symm)
  · have here : (s.insertList list).contentAt s.heap.length = some list.toListMeta.content := by
      rw [contentAt,insertList_metaAt_new,Option.map_some]
    have length : s.lists.length = (addedLists actions).length := by
      simpa using congrArg List.length tracked.contents
    change (s.lists.insertIdx (s.lists.length-1) s.heap.length).map _ = _
    rw [List.map_insertIdx,kept s.lists tracked.inside,here,tracked.contents,addedLists_snoc,Action.lists,List.map_insertIdx,length]
  · intro quiet
    simp [Action.adds] at quiet
  · intro _
    refine saveUserLists_savedLists _ fun ref member => ?_
    rcases List.mem_append.mp member with old | new
    · exact Nat.lt_of_lt_of_eq (Nat.lt_succ_of_lt (users ref old)) grown.symm
    · exact Nat.lt_of_lt_of_eq (List.mem_singleton.mp new ▸ Nat.lt_succ_self _) grown.symm
  · rw [tokens]
    exact tracked.tokens
  · rw [tokens]
    exact tracked.untouched
  · rw [tokens]
    exact tracked.stored
  · simp only [answerTo_snoc,Action.answer,Option.or_none]
    exact tracked.loading

theorem map_eraseIdx {α β : Type} (f : α → β) (items : List α) (i : Nat) :
    (items.eraseIdx i).map f = (items.map f).eraseIdx i := by
  simp only [List.eraseIdx_eq_take_drop_succ,List.map_append,List.map_take,List.map_drop]

theorem Tracked.removeList (tracked : Tracked storage actions s) (index : Int) :
    Tracked storage (actions++[.removeList index]) (s.removeList bundle index).1 := by
  have tokens : addedTokens (actions++[.removeList index]) = addedTokens actions := by
    simp [addedTokens_snoc,Action.localToken]
  have length : s.lists.length = (addedLists actions).length := by
    simpa using congrArg List.length tracked.contents
  rcases s.removeList_cases bundle index with ⟨outside,same⟩ | ⟨positive,ref,found,adjusted⟩
  · rw [same]
    refine tracked.unchanged rfl rfl rfl rfl rfl rfl ?_ rfl (fun _ => rfl) ?_ ?_ ?_
    · change (if index < 0 then addedLists actions else (addedLists actions).eraseIdx index.toNat) = _
      split
      · rfl
      · rename_i positive
        have beyond := (outside.resolve_left positive)
        refine List.eraseIdx_of_length_le ?_
        rw [← length]
        exact List.getElem?_eq_none_iff.mp beyond
    all_goals rw [tokens]
    · exact tracked.tokens
    · exact tracked.untouched
    · exact tracked.stored
  · refine Tracked.adjusted ?_ adjusted
    obtain ⟨within,here⟩ := List.getElem?_eq_some_iff.mp found
    have taken : (ref::s.lists.eraseIdx index.toNat).Perm s.lists := by
      rw [← here]
      exact List.getElem_cons_eraseIdx_perm within
    have member : ref ∈ s.userLists := tracked.same.mem_iff.mp (List.mem_of_getElem? found)
    have left : (s.lists.eraseIdx index.toNat).Perm (s.userLists.erase ref) :=
      (taken.trans (tracked.same.trans (List.perm_cons_erase member))).cons_inv
    have inside : ∀ ref ∈ s.lists.eraseIdx index.toNat, ref < s.heap.length :=
      fun other rest => tracked.inside other (List.mem_of_mem_eraseIdx rest)
    refine ⟨inside,left,?_,?_,?_,?_,?_,?_,?_⟩
    · change (s.lists.eraseIdx index.toNat).map s.contentAt = _
      rw [map_eraseIdx,tracked.contents,addedLists_snoc,Action.lists,if_neg (Int.not_lt.mpr positive),map_eraseIdx]
    · intro quiet
      rw [List.any_append,Bool.or_eq_false_iff] at quiet
      have empty := (tracked.idle quiet.1).1
      simp [empty] at found
    · intro _
      exact saveUserLists_savedLists _ fun ref member => inside ref (left.mem_iff.mpr member)
    · rw [tokens]
      exact tracked.tokens
    · rw [tokens]
      exact tracked.untouched
    · rw [tokens]
      exact tracked.stored
    · simp only [answerTo_snoc,Action.answer,Option.or_none]
      exact tracked.loading

theorem fetched_cases {i : Nat} {answer : Fetched} (stepped : s.fetched i answer = some next) :
    ∃ pending list, s.pending = some pending ∧ pending.results[i]? = some (list,none) ∧
      next = {s with pending := some {pending with
        results := pending.results.set i (list,some (loadUserList pending.states list answer))}} := by
  obtain ⟨pending,waiting,stepped⟩ := Option.bind_eq_some_iff.mp stepped
  split at stepped
  · rename_i list found
    exact ⟨pending,list,waiting,found,(Option.some.inj stepped).symm⟩
  · simp at stepped

theorem Tracked.fetched (tracked : Tracked storage actions s) {i : Nat} {answer : Fetched}
    (stepped : s.fetched i answer = some next) : Tracked storage (actions++[.fetched i answer]) next := by
  obtain ⟨pending,list,waiting,found,rfl⟩ := fetched_cases stepped
  have tokens : addedTokens (actions++[.fetched i answer]) = addedTokens actions := by
    simp [addedTokens_snoc,Action.localToken]
  have lists : addedLists (actions++[.fetched i answer]) = addedLists actions := by simp [addedLists_snoc,Action.lists]
  have quiet : (actions++[Action.fetched i answer]).any Action.adds = actions.any Action.adds := by simp [Action.adds]
  obtain ⟨known,same,loading⟩ := tracked.loading
  obtain rfl : pending = known := Option.some.inj (waiting.symm.trans same)
  refine ⟨tracked.inside,tracked.same,by rw [lists]; exact tracked.contents,by rw [quiet]; exact tracked.idle,
    by rw [quiet]; exact tracked.saved,by rw [tokens]; exact tracked.tokens,by rw [tokens]; exact tracked.untouched,
    by rw [tokens]; exact tracked.stored,⟨_,rfl,fun k => ?_⟩⟩
  obtain ⟨within,_⟩ := List.getElem?_eq_some_iff.mp found
  rw [answerTo_snoc,Action.answer]
  by_cases here : i = k
  · subst here
    -- nothing had been answered yet, so this is the first answer
    obtain ⟨saved,stored,pair⟩ := Option.map_eq_some_iff.mp ((loading i).symm.trans found)
    have unloaded : saved.loaded pending.states (answerTo i actions) = none := congrArg Prod.snd pair
    obtain rfl : saved = list := congrArg Prod.fst pair
    unfold ListMeta.loaded at unloaded
    split at unloaded
    · rename_i fetching
      rw [List.getElem?_set_self within,stored,Option.map_some,Option.map_eq_none_iff.mp unloaded,if_pos rfl,Option.none_or,
        ListMeta.loaded,if_pos fetching,Option.map_some]
    · cases unloaded
  · rw [List.getElem?_set_ne here,if_neg here,Option.or_none]
    exact loading k

theorem step_tracked (tracked : Tracked storage actions s) (stepped : s.step bundle action = some next) :
    Tracked storage (actions++[action]) next := by
  cases action with
  | fetched i answer => exact tracked.fetched stepped
  | toggleList key =>
    cases Option.some.inj stepped
    exact tracked.toggleList key
  | addList list =>
    cases Option.some.inj stepped
    exact tracked.addList list
  | removeList index =>
    cases Option.some.inj stepped
    exact tracked.removeList index
  | addLocalToken token =>
    cases Option.some.inj stepped
    exact tracked.addLocalToken token

theorem mapM_some {α β : Type} {f : α → Option β} {items : List α} {values : List β} (all : items.mapM f = some values) :
    items.map f = values.map some := by
  induction items generalizing values with
  | nil =>
    cases Option.some.inj all
    rfl
  | cons item rest ih =>
    rw [List.mapM_cons] at all
    obtain ⟨value,here,all⟩ := Option.bind_eq_some_iff.mp all
    obtain ⟨others,there,all⟩ := Option.bind_eq_some_iff.mp all
    cases Option.some.inj all
    rw [List.map_cons,here,ih there,List.map_cons]

theorem startInit_cases (started : s.startInit = some next) :
    ∃ states, ∃ lists : List ListMeta, s.storage.tokenlistStates.parse (some []) = some states ∧
      s.storage.tokenlists.parse (some []) = some (lists.map some) ∧
      next = {s with pending := some ⟨states,lists.map fun list =>
        (list,if list.fetchUrl.isSome then none else some (loadUserList states list (.failed "")))⟩} := by
  obtain ⟨states,known,started⟩ := Option.bind_eq_some_iff.mp started
  obtain ⟨stored,parsed,started⟩ := Option.bind_eq_some_iff.mp started
  obtain ⟨lists,read,started⟩ := Option.bind_eq_some_iff.mp started
  have same := mapM_some read
  rw [List.map_id] at same
  exact ⟨states,lists,known,by rw [parsed,same],(Option.some.inj started).symm⟩

theorem savedLists_of_parse {lists : List ListMeta} (parsed : storage.tokenlists.parse (some []) = some (lists.map some)) :
    storage.savedLists = lists := by
  unfold Storage.savedLists
  cases slot : storage.tokenlists with
  | absent => simp_all [Slot.parse]
  | corrupt => simp_all [Slot.parse]
  | value content =>
    rw [slot] at parsed
    obtain rfl : content = some (lists.map some) := parsed
    simp [List.filterMap_map]

theorem opened_tracked (started : (opened storage).startInit = some s) : Tracked storage [] s := by
  obtain ⟨states,lists,_,stored,rfl⟩ := startInit_cases started
  refine ⟨by simp [opened],List.Perm.refl _,rfl,fun _ => ⟨rfl,rfl⟩,fun busy => by simp at busy,rfl,fun _ => rfl,
    fun some => absurd rfl some,_,rfl,fun i => ?_⟩
  have saved : storage.savedLists = lists := savedLists_of_parse stored
  rw [saved,List.getElem?_map]
  rfl

theorem run_tracked (started : (opened storage).startInit = some s)
    (ran : run (step bundle) s actions = some next) : Tracked storage actions next := by
  refine run_history (Tracked storage) (opened_tracked started) (fun earlier before action after _ tracked stepped => ?_) ran
  exact step_tracked tracked stepped

def HasList (s : Store) (list : TokenlistEntry) : Prop :=
  ∃ ref found, ref ∈ s.lists ∧ ref ∈ s.userLists ∧ s.heap[ref]? = some found ∧ found.content = list.content

/-- A list in memory is the stored one. Only its name may be another, the one that its URL gives. -/
def HasSaved (s : Store) (saved : ListMeta) : Prop :=
  ∃ ref found, ref ∈ s.lists ∧ ref ∈ s.userLists ∧ s.heap[ref]? = some found ∧
    ∃ name, found.toListMeta.content = {saved.content with name} ∧ (saved.fetchUrl = none → name = saved.name)

def HasToken (s : Store) (token : Element) : Prop :=
  ∃ ref list, ref ∈ s.lists ∧ s.heap[ref]? = some list ∧ list.isLocal = true ∧ list.name = "Local Tokens" ∧
    token ∈ list.tokens

/-- Every list and every local token that was stored before `initTokenlists` started, or
was added while it was pending and not removed, is in memory and in storage. -/
structure NothingLost (storage : Storage) (actions : List Action) (final : Store) : Prop where
  saved : ∀ saved ∈ storage.savedLists, final.HasSaved saved ∧ ∃ kept ∈ final.storage.savedLists, kept.content = saved.content
  added : ∀ list ∈ addedLists actions,
    final.HasList list ∧ ∃ kept ∈ final.storage.savedLists, kept.content = list.toListMeta.content
  tokens : ∀ token, token ∈ storage.tokens ∨ token ∈ addedTokens actions →
    final.HasToken token ∧ token ∈ final.storage.tokens

/-- No list was added, or the stored ones were added again and each added one is a stored one, whose URL
gave its name and its tokens. -/
def ListsUndisturbed (storage : Storage) (actions : List Action) : Prop :=
  actions.any Action.adds = false ∨
  (∀ saved ∈ storage.savedLists, ∃ list ∈ addedLists actions, list.toListMeta.content = saved.content) ∧
  ∀ list ∈ addedLists actions, ∃ i, ∃ saved : ListMeta, storage.savedLists[i]? = some saved ∧
    saved.answered (answerTo i actions) = list.content

def TokensUndisturbed (storage : Storage) (actions : List Action) : Prop :=
  addedTokens actions = [] ∨ ∀ token ∈ storage.tokens, token ∈ addedTokens actions

theorem finishInit_cases {ran : Ran} (finished : s.finishInit bundle = some ran) :
    ∃ pending, ∃ lists : List TokenlistEntry, s.pending = some pending ∧ pending.results.map (·.2) = lists.map some ∧
      ran = (s.assemble bundle pending.states lists).rebuildAndSync bundle := by
  obtain ⟨pending,waiting,finished⟩ := Option.bind_eq_some_iff.mp finished
  obtain ⟨lists,complete,finished⟩ := Option.bind_eq_some_iff.mp finished
  exact ⟨pending,lists,waiting,mapM_some complete,(Option.some.inj finished).symm⟩

section
variable {states : JsMap String Bool} {lists : List TokenlistEntry} {final : Store}

theorem assemble_user (k : Nat) (inside : k < lists.length) :
    (s.assemble bundle states lists).heap[s.heap.length+2+k]? = lists[k]? := by
  have place : s.heap.length+2+k - s.heap.length = k+2 := by omega
  simp only [assemble]
  rw [List.getElem?_append_right (by omega),place,List.getElem?_cons_succ,List.getElem?_cons_succ,
    List.getElem?_append_left inside]

/-- The user lists in memory are those that were loaded. -/
theorem assemble_userLists (adjusted : Adjusted (s.assemble bundle states lists) final) (found : TokenlistEntry) :
    (∃ ref, ref ∈ final.lists ∧ ref ∈ final.userLists ∧ final.heap[ref]? = some found) ↔ found ∈ lists := by
  obtain ⟨_,_,_,rfl⟩ := adjusted
  constructor
  · rintro ⟨ref,_,member,there⟩
    obtain ⟨k,inside,rfl⟩ := List.mem_range'.mp member
    rw [Nat.one_mul] at there
    exact List.mem_of_getElem? ((assemble_user k inside).symm.trans there)
  · intro member
    obtain ⟨k,there⟩ := List.mem_iff_getElem?.mp member
    have inside := (List.getElem?_eq_some_iff.mp there).1
    have user : s.heap.length+2+k ∈ List.range' (s.heap.length+2) lists.length := by
      rw [List.mem_range'_1]
      omega
    exact ⟨s.heap.length+2+k,List.mem_cons_of_mem _ (List.mem_cons_of_mem _ (List.mem_append_left _ user)),user,
      (assemble_user k inside).trans there⟩

theorem assemble_hasToken (adjusted : Adjusted (s.assemble bundle states lists) final) {token : Element}
    (stored : token ∈ s.storage.tokens) : final.HasToken token := by
  obtain ⟨_,_,_,rfl⟩ := adjusted
  unfold Storage.tokens at stored
  split at stored
  · rename_i tokens slot
    refine ⟨s.heap.length+2+lists.length,localTokensList tokens,by simp [assemble],?_,rfl,rfl,stored⟩
    have place : s.heap.length+2+lists.length - s.heap.length = lists.length+2 := by omega
    simp only [assemble,slot]
    rw [List.getElem?_append_right (by omega),place,List.getElem?_cons_succ,List.getElem?_cons_succ,
      List.getElem?_append_right (Nat.le_refl _)]
    simp
  · simp at stored

end

theorem Tracked.loaded (tracked : Tracked storage actions s) {pending : Pending} {lists : List TokenlistEntry}
    (waiting : s.pending = some pending) (complete : pending.results.map (·.2) = lists.map some) (i : Nat) :
    lists[i]?.map TokenlistEntry.content = storage.savedLists[i]?.map fun saved => saved.answered (answerTo i actions) := by
  obtain ⟨known,same,loading⟩ := tracked.loading
  obtain rfl : pending = known := Option.some.inj (waiting.symm.trans same)
  have here := congrArg (·[i]?) complete
  simp only [List.getElem?_map,loading i,Option.map_map] at here
  cases stored : storage.savedLists[i]? with
  | none =>
    rw [stored] at here
    cases there : lists[i]? with
    | none => rfl
    | some list => simp [there] at here
  | some saved =>
    rw [stored] at here
    cases there : lists[i]? with
    | none => simp [there] at here
    | some list =>
      rw [there] at here
      have loaded : saved.loaded pending.states (answerTo i actions) = some list := Option.some.inj here
      exact congrArg some (ListMeta.loaded_content loaded)

/-- What is stored is what was stored, or what was added. -/
theorem Tracked.savedContents (tracked : Tracked storage actions s) (content : ListMeta) :
    (∃ kept ∈ s.storage.savedLists, kept.content = content) ↔
      if actions.any Action.adds = true then ∃ list ∈ addedLists actions, list.toListMeta.content = content
      else ∃ saved ∈ storage.savedLists, saved.content = content := by
  split
  · rename_i busy
    have members : some content ∈ s.storage.savedLists.map (fun saved => some saved.content) ↔
        some content ∈ (addedLists actions).map fun list => some list.toListMeta.content := by
      rw [tracked.saved busy,← tracked.contents]
      exact (tracked.same.map s.contentAt).symm.mem_iff
    simpa using members
  · rename_i quiet
    rw [Storage.savedLists,(tracked.idle (by simpa using quiet)).2]
    rfl

theorem Tracked.storedTokens (tracked : Tracked storage actions s) :
    s.storage.tokens = if addedTokens actions = [] then storage.tokens else addedTokens actions := by
  split
  · rename_i none
    rw [Storage.tokens,tracked.untouched none]
    rfl
  · rename_i some
    rw [Storage.tokens,tracked.stored some]

/-- At its end, memory holds what was stored at its start and then answered, and storage what was written
last. -/
theorem Tracked.finished_lists (tracked : Tracked storage actions s) {ran : Ran} (finished : s.finishInit bundle = some ran) :
    (∀ saved ∈ storage.savedLists, ran.1.HasSaved saved) ∧
    (∀ list, ran.1.HasList list ↔ ∃ i, ∃ saved : ListMeta, storage.savedLists[i]? = some saved ∧
      saved.answered (answerTo i actions) = list.content) ∧
    ∀ content, (∃ kept ∈ ran.1.storage.savedLists, kept.content = content) ↔
      if actions.any Action.adds = true then ∃ list ∈ addedLists actions, list.toListMeta.content = content
      else ∃ saved ∈ storage.savedLists, saved.content = content := by
  obtain ⟨loading,lists,waiting,complete,rfl⟩ := finishInit_cases finished
  have adjusted := rebuildAndSync_adjusted bundle (s.assemble bundle loading.states lists)
  have users := assemble_userLists adjusted
  have loaded := tracked.loaded waiting complete
  refine ⟨fun saved stored => ?_,fun list => ⟨?_,?_⟩,fun content => ?_⟩
  · obtain ⟨i,there⟩ := List.mem_iff_getElem?.mp stored
    have here := loaded i
    rw [there] at here
    obtain ⟨found,place,content⟩ := Option.map_eq_some_iff.mp here
    obtain ⟨ref,listed,user,cell⟩ := (users found).mpr (List.mem_of_getElem? place)
    exact ⟨ref,found,listed,user,cell,ListMeta.answered_meta content⟩
  · rintro ⟨ref,found,listed,user,cell,same⟩
    obtain ⟨i,place⟩ := List.mem_iff_getElem?.mp ((users found).mp ⟨ref,listed,user,cell⟩)
    have here := (loaded i).symm
    rw [place,Option.map_some] at here
    obtain ⟨saved,there,content⟩ := Option.map_eq_some_iff.mp here
    exact ⟨i,saved,there,content.trans same⟩
  · rintro ⟨i,saved,there,content⟩
    have here := loaded i
    rw [there] at here
    obtain ⟨found,place,same⟩ := Option.map_eq_some_iff.mp here
    obtain ⟨ref,listed,user,cell⟩ := (users found).mpr (List.mem_of_getElem? place)
    exact ⟨ref,found,listed,user,cell,same.trans content⟩
  · obtain ⟨_,_,_,same⟩ := adjusted
    rw [same]
    exact tracked.savedContents content

theorem Tracked.finished_tokens (tracked : Tracked storage actions s) {ran : Ran}
    (finished : s.finishInit bundle = some ran) :
    ran.1.storage.tokens = (if addedTokens actions = [] then storage.tokens else addedTokens actions) ∧
    ∀ token ∈ ran.1.storage.tokens, ran.1.HasToken token := by
  obtain ⟨loading,lists,waiting,complete,rfl⟩ := finishInit_cases finished
  have adjusted := rebuildAndSync_adjusted bundle (s.assemble bundle loading.states lists)
  have stays : ((s.assemble bundle loading.states lists).rebuildAndSync bundle).1.storage.tokens = s.storage.tokens := by
    obtain ⟨_,_,_,same⟩ := adjusted
    rw [same]
    rfl
  rw [stays]
  exact ⟨tracked.storedTokens,fun token stored => assemble_hasToken adjusted stored⟩

/-- The end of `initTokenlists` loses nothing exactly when its lists and its local tokens
were left undisturbed, or came back as they were. -/
theorem init_loses_nothing_iff (bundle : Bundle) (storage : Storage) (actions : List Action) {s pending : Store} {ran : Ran}
    (started : (opened storage).startInit = some s) (meanwhile : run (step bundle) s actions = some pending)
    (finished : pending.finishInit bundle = some ran) :
    NothingLost storage actions ran.1 ↔ ListsUndisturbed storage actions ∧ TokensUndisturbed storage actions := by
  have tracked := run_tracked started meanwhile
  obtain ⟨loaded,inMemory,inStorage⟩ := tracked.finished_lists finished
  obtain ⟨tokens,shown⟩ := tracked.finished_tokens finished
  constructor
  · intro kept
    constructor
    · cases busy : actions.any Action.adds with
      | false => exact Or.inl busy
      | true =>
        -- stored lists must be in storage, where the added ones are, and added ones in memory, where the stored ones are
        refine Or.inr ⟨fun saved stored => ?_,fun list added => (inMemory list).mp (kept.added list added).1⟩
        have present := (inStorage saved.content).mp (kept.saved saved stored).2
        rwa [if_pos busy] at present
    · by_cases none : addedTokens actions = []
      · exact Or.inl none
      · refine Or.inr fun token stored => ?_
        have present := (kept.tokens token (Or.inl stored)).2
        rwa [tokens,if_neg none] at present
  · rintro ⟨listsSafe,tokensSafe⟩
    refine ⟨fun saved stored => ⟨loaded saved stored,?_⟩,fun list added => ?_,?_⟩
    · rw [inStorage]
      split
      · rename_i busy
        exact (listsSafe.resolve_left (by simp [busy])).1 saved stored
      · exact ⟨saved,stored,rfl⟩
    · have busy : actions.any Action.adds = true := by
        by_contra quiet
        have idle := tracked.contents
        rw [(tracked.idle (Bool.not_eq_true _ ▸ quiet)).1] at idle
        have empty : addedLists actions = [] := List.map_eq_nil_iff.mp idle.symm
        rw [empty] at added
        cases added
      refine ⟨(inMemory list).mpr ((listsSafe.resolve_left (by simp [busy])).2 list added),?_⟩
      rw [inStorage,if_pos busy]
      exact ⟨list,added,rfl⟩
    · intro token wanted
      have present : token ∈ ran.1.storage.tokens := by
        rw [tokens]
        split
        · rename_i none
          rw [none] at wanted
          simpa using wanted
        · rename_i some
          exact wanted.elim (tokensSafe.resolve_left some token) fun added => added
      exact ⟨shown token present,present⟩

def smallBundle : Bundle := ⟨"Uniswap Labs Default",[],fun text => String.ofList (text.toList.map Char.toLower)⟩

def storedList : ListMeta := ⟨"Stored",some "https://stored.example/list.json",false,false,true,none⟩

def listStored : Storage := ⟨.value (some [some storedList]),.absent,.absent,.absent⟩

def answered : Action := .fetched 0 (.ok (some "Stored") (some []))

/-- The stored list is added again while its URL is read, and a token besides. -/
def againMeanwhile : List Action :=
  let tokens : List Element := [.token ⟨some 1,"0xbb","BB","Other",6⟩]
  [.addList {storedList with tokens},.addLocalToken ⟨some 1,"0xaa","AA","Token",18⟩,.fetched 0 (.ok (some "Stored") (some tokens))]

theorem init_loses_nothing_iff_again :
    ∃ s pending ran, (opened listStored).startInit = some s ∧ run (step smallBundle) s againMeanwhile = some pending ∧
      pending.finishInit smallBundle = some ran ∧ NothingLost listStored againMeanwhile ran.1 := by
  have completes : ((opened listStored).startInit.bind fun s => (run (step smallBundle) s againMeanwhile).bind fun pending =>
      pending.finishInit smallBundle).isSome = true := by rfl
  obtain ⟨ran,completed⟩ := Option.isSome_iff_exists.mp completes
  obtain ⟨s,started,completed⟩ := Option.bind_eq_some_iff.mp completed
  obtain ⟨pending,meanwhile,finished⟩ := Option.bind_eq_some_iff.mp completed
  refine ⟨s,pending,ran,started,meanwhile,finished,?_⟩
  refine (init_loses_nothing_iff smallBundle listStored againMeanwhile started meanwhile finished).mpr
    ⟨Or.inr ⟨fun saved stored => ?_,fun list added => ?_⟩,Or.inr ?_⟩
  · obtain rfl : saved = storedList := List.mem_singleton.mp stored
    exact ⟨_,List.mem_singleton.mpr rfl,rfl⟩
  · obtain rfl := List.mem_singleton.mp added
    exact ⟨0,storedList,rfl,rfl⟩
  · simp [Storage.tokens,listStored]

def addedList : TokenlistEntry := {
  name := "Added",url := some "https://added.example/list.json",isDefault := false,isLocal := false,enabled := true,
  error := none,tokens := []}

def listMeanwhile : List Action := [.addList addedList,answered]

theorem stored_list_lost :
    ∃ s pending ran, (opened listStored).startInit = some s ∧ run (step smallBundle) s listMeanwhile = some pending ∧
      pending.finishInit smallBundle = some ran ∧ ran.2 = .ok () ∧
      ran.1.storage.listKeys = ["https://added.example/list.json"] ∧
      (ran.1.entries ran.1.userLists).map (·.name) = ["Stored"] ∧ ¬ NothingLost listStored listMeanwhile ran.1 := by
  have completes : ((opened listStored).startInit.bind fun s => (run (step smallBundle) s listMeanwhile).bind fun pending =>
      pending.finishInit smallBundle).map (fun ran => (ran.2,ran.1.storage.listKeys,(ran.1.entries ran.1.userLists).map (·.name))) =
      some (.ok (),["https://added.example/list.json"],["Stored"]) := by rfl
  obtain ⟨ran,completed,seen⟩ := Option.map_eq_some_iff.mp completes
  obtain ⟨s,started,completed⟩ := Option.bind_eq_some_iff.mp completed
  obtain ⟨pending,meanwhile,finished⟩ := Option.bind_eq_some_iff.mp completed
  obtain ⟨returned,seen⟩ := Prod.mk.inj seen
  obtain ⟨keys,names⟩ := Prod.mk.inj seen
  refine ⟨s,pending,ran,started,meanwhile,finished,returned,keys,names,fun kept => ?_⟩
  -- the one list in storage has another URL
  obtain ⟨other,present,same⟩ := (kept.saved storedList (List.mem_singleton.mpr rfl)).2
  have key : getListKey other ∈ ran.1.storage.listKeys := by
    unfold Storage.savedLists at present
    unfold Storage.listKeys
    split at present
    · obtain ⟨entry,member,rfl⟩ := List.mem_filterMap.mp present
      exact List.mem_filterMap.mpr ⟨_,member,rfl⟩
    · cases present
  have stored : getListKey other = "https://stored.example/list.json" := congrArg getListKey same
  rw [keys,stored] at key
  simp at key

end Store

end YPriceMagic.Frontend
