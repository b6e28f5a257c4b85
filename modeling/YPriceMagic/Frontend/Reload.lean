import Mathlib.Data.List.Nodup
import YPriceMagic.Frontend.InitOverlap
import YPriceMagic.Frontend.TokenlistModal

/-! A reload: `initTokenlists` again, from what the store has written, with every URL
answering what it answered before. -/
namespace YPriceMagic.Frontend
open YPriceMagic.Async

variable {bundle : Bundle} {remote : String → Fetched} {states : JsMap String Bool}

def load (remote : String → Fetched) (states : JsMap String Bool) (list : ListMeta) : TokenlistEntry :=
  loadUserList states list (remote (list.url.getD ""))

def TokenlistEntry.Restored (remote : String → Fetched) (states : JsMap String Bool) (list : TokenlistEntry) : Prop :=
  load remote states list.toListMeta = list

theorem getD_getD {α : Type} (first : Option α) (second : α) : first.getD (first.getD second) = first.getD second := by
  cases first <;> rfl

theorem load_restored (list : ListMeta) : (load remote states list).Restored remote states := by
  obtain ⟨name,url,isDefault,isLocal,enabled,error⟩ := list
  unfold TokenlistEntry.Restored load loadUserList
  dsimp only
  cases fetching : ListMeta.fetchUrl ⟨name,url,isDefault,isLocal,enabled,error⟩ with
  | none =>
    have again (enabled : Bool) : ListMeta.fetchUrl ⟨name,url,isDefault,isLocal,enabled,error⟩ = none := fetching
    simp [again,getD_getD]
  | some target =>
    obtain ⟨rfl,_⟩ := Option.filter_eq_some_iff.mp fetching
    have again (name : String) (enabled : Bool) (error : Option String) :
        ListMeta.fetchUrl ⟨name,some target,isDefault,isLocal,enabled,error⟩ = some target := fetching
    cases answer : remote target with
    | ok title tokens => simp [answer,again,getD_getD]
    | failed message => simp [answer,again,getD_getD]

def LeftOn (states : JsMap String Bool) (list : ListMeta) : Prop := states.get (list.url.getD list.name) ≠ some false

theorem leftOn_getD {list : ListMeta} (on : LeftOn states list) : (states.get (list.url.getD list.name)).getD true = true := by
  cases stored : states.get (list.url.getD list.name) with
  | none => rfl
  | some enabled =>
    cases enabled with
    | false => exact absurd stored on
    | true => rfl

theorem urlList_restored {url name : String} {tokens : List Element} (fetches : url ≠ "")
    (answer : remote url = .ok (some name) (some tokens)) (on : LeftOn states (urlList url name tokens).toListMeta) :
    (urlList url name tokens).Restored remote states := by
  have enabled : (states.get url).getD true = true := leftOn_getD on
  have fetching : (urlList url name tokens).fetchUrl = some url := by simp [ListMeta.fetchUrl,urlList,fetches]
  unfold TokenlistEntry.Restored load loadUserList
  rw [fetching]
  simp [urlList,answer,enabled]

theorem fileList_restored {name : String} (on : LeftOn states (fileList name []).toListMeta) :
    (fileList name []).Restored remote states := by
  have enabled : (states.get name).getD true = true := leftOn_getD on
  simp [TokenlistEntry.Restored,load,loadUserList,fileList,ListMeta.fetchUrl,enabled]

structure Storage.Holds (storage : Storage) (states : JsMap String Bool) (lists : List ListMeta)
    (tokens : List Element) : Prop where
  states : storage.tokenlistStates.parse (some []) = some states
  lists : storage.tokenlists.parse (some []) = some (lists.map some)
  tokens : storage.localTokens.parse (some []) = some tokens

def shown (bundle : Bundle) (states : JsMap String Bool) (users : List TokenlistEntry) (tokens : List Element) :
    List TokenlistEntry :=
  defaultList bundle states::builtinList::(users++[localTokensList tokens])

namespace Store

def settle (remote : String → Fetched) (pending : Pending) : Pending :=
  {pending with results := pending.results.map fun result =>
    (result.1,some (result.2.getD (load remote pending.states result.1)))}

/-- `initTokenlists` on a page that has just been loaded. -/
def initTokenlists (bundle : Bundle) (remote : String → Fetched) (storage : Storage) : Option Ran :=
  (opened storage).startInit.bind fun s => finishInit bundle {s with pending := s.pending.map (settle remote)}

def Truthful (remote : String → Fetched) (s : Store) : Action → Prop
  | .fetched i answer => ∀ pending list, s.pending = some pending → pending.results[i]? = some (list,none) →
      answer = remote (list.url.getD "")
  | _ => False

theorem fetched_settle {s next : Store} {i : Nat} {answer : Fetched} {goal : Store}
    (truthful : Truthful remote s (.fetched i answer)) (stepped : s.fetched i answer = some next)
    (settles : {s with pending := s.pending.map (settle remote)} = goal) :
    {next with pending := next.pending.map (settle remote)} = goal := by
  obtain ⟨pending,list,waiting,found,rfl⟩ := fetched_cases stepped
  obtain rfl := truthful pending list waiting found
  have same : settle remote ⟨pending.states,
      pending.results.set i (list,some (loadUserList pending.states list (remote (list.url.getD ""))))⟩ =
      settle remote pending :=
    congrArg (Pending.mk pending.states) (map_set_same pending.results _ found rfl)
  rw [← settles,waiting]
  simp [same]

theorem settle_complete {pending : Pending} {lists : List TokenlistEntry}
    (complete : pending.results.map (·.2) = lists.map some) : settle remote pending = pending := by
  have every : ∀ result ∈ pending.results, (result.1,some (result.2.getD (load remote pending.states result.1))) = result := by
    intro result member
    obtain ⟨list,_,present⟩ := List.mem_map.mp (complete ▸ List.mem_map_of_mem member : result.2 ∈ lists.map some)
    rw [← present]
    exact Prod.ext rfl present
  unfold settle
  rw [List.map_congr_left every,List.map_id']

/-- Whatever order the answers come in, `initTokenlists` ends alike. -/
theorem initTokenlists_of_run {storage : Storage} {actions : List Action} {s pending : Store} {ran : Ran}
    (started : (opened storage).startInit = some s) (truthful : Throughout (step bundle) (Truthful remote) s actions)
    (answered : run (step bundle) s actions = some pending) (finished : pending.finishInit bundle = some ran) :
    initTokenlists bundle remote storage = some ran := by
  -- what all answers come to is the same after each of them, and at the end it is the state itself
  have settles : {pending with pending := pending.pending.map (settle remote)} =
      {s with pending := s.pending.map (settle remote)} := by
    refine run_preserves_throughout (fun t => {t with pending := t.pending.map (settle remote)} =
      {s with pending := s.pending.map (settle remote)}) (Truthful remote) ?_ rfl truthful answered
    intro before action after settles truthful stepped
    cases action with
    | fetched i answer => exact fetched_settle truthful stepped settles
    | _ => exact truthful.elim
  obtain ⟨waiting,lists,here,complete,rfl⟩ := finishInit_cases finished
  have whole : pending = {pending with pending := pending.pending.map (settle remote)} := by
    rw [here,Option.map_some,settle_complete complete,← here]
  rw [initTokenlists,started,Option.bind_some,← settles,← whole]
  exact finished

/-- The store that `initTokenlists` assembles from the metadata it has read. -/
abbrev reopened (bundle : Bundle) (remote : String → Fetched) (states : JsMap String Bool) (storage : Storage)
    (lists : List ListMeta) : Store :=
  (opened storage).assemble bundle states (lists.map (load remote states))

theorem initTokenlists_eq {storage : Storage} {lists : List ListMeta}
    (stored : storage.tokenlistStates.parse (some []) = some states)
    (saved : storage.tokenlists.parse (some []) = some (lists.map some)) :
    initTokenlists bundle remote storage =
      some ((reopened bundle remote states storage lists).rebuildAndSync bundle) := by
  have started : (opened storage).startInit = some {opened storage with pending := some ⟨states,lists.map fun list =>
      (list,if list.fetchUrl.isSome then none else some (loadUserList states list (.failed "")))⟩} := by
    unfold startInit
    change (storage.tokenlistStates.parse (some [])).bind _ = _
    rw [stored,Option.bind_some]
    change (storage.tokenlists.parse (some [])).bind _ = _
    rw [saved,Option.bind_some]
    change ((lists.map some).mapM id).bind _ = _
    have read : (lists.map some).mapM id = some lists := by
      rw [List.mapM_map]
      exact (List.mapM_pure (f := id)).trans (congrArg some (List.map_id lists))
    rw [read]
    rfl
  have settled (list : ListMeta) : (if list.fetchUrl.isSome then none else some (loadUserList states list (.failed ""))).getD
      (load remote states list) = load remote states list := by
    split
    · rfl
    · rename_i fileless
      obtain none := Option.not_isSome_iff_eq_none.mp fileless
      simp [load,loadUserList,none]
  rw [initTokenlists,started,Option.bind_some]
  unfold finishInit settle
  have loaded : lists.mapM (fun list => some (load remote states list)) = some (lists.map (load remote states)) :=
    List.mapM_pure
  simp only [Option.map_some,List.map_map,Function.comp_def,settled,Option.bind_eq_bind,Option.bind_some,List.mapM_map,
    loaded]
  rfl

theorem initTokenlists_cases {storage : Storage} {ran : Ran} (started : initTokenlists bundle remote storage = some ran) :
    ∃ states, ∃ lists : List ListMeta, storage.tokenlistStates.parse (some []) = some states ∧
      storage.tokenlists.parse (some []) = some (lists.map some) ∧
      ran = (reopened bundle remote states storage lists).rebuildAndSync bundle := by
  obtain ⟨before,began,_⟩ := Option.bind_eq_some_iff.mp started
  obtain ⟨states,lists,stored,saved,_⟩ := startInit_cases began
  have stored : storage.tokenlistStates.parse (some []) = some states := stored
  have saved : storage.tokenlists.parse (some []) = some (lists.map some) := saved
  rw [initTokenlists_eq stored saved] at started
  exact ⟨states,lists,stored,saved,(Option.some.inj started).symm⟩

theorem filterMap_range' {α : Type} {items : List α} {first : Nat} {lookup : Nat → Option α}
    (here : ∀ k, k < items.length → lookup (first+k) = items[k]?) :
    (List.range' first items.length).filterMap lookup = items := by
  induction items generalizing first with
  | nil => rfl
  | cons item rest ih =>
    have start : lookup first = some item := here 0 (Nat.succ_pos _)
    have others : (List.range' (first+1) rest.length).filterMap lookup = rest := ih fun k inside => by
      rw [Nat.add_right_comm,Nat.add_assoc]
      exact here (k+1) (Nat.succ_lt_succ inside)
    rw [List.length_cons,List.range'_succ,List.filterMap_cons,start,others]

theorem assemble_users (bundle : Bundle) (states : JsMap String Bool) (s : Store) (lists : List TokenlistEntry) :
    (s.assemble bundle states lists).entries (s.assemble bundle states lists).userLists = lists :=
  filterMap_range' fun k inside => assemble_user k inside

theorem assemble_last (bundle : Bundle) (states : JsMap String Bool) (s : Store) (lists : List TokenlistEntry) :
    (s.assemble bundle states lists).heap[s.heap.length+2+lists.length]? =
      some (localTokensList ((s.assemble bundle states lists).localTokens.getD [.malformed])) := by
  have place : s.heap.length+2+lists.length - s.heap.length = lists.length+2 := by omega
  simp only [assemble]
  rw [List.getElem?_append_right (by omega),place,List.getElem?_cons_succ,List.getElem?_cons_succ,
    List.getElem?_append_right (Nat.le_refl _)]
  simp

theorem assemble_first (bundle : Bundle) (states : JsMap String Bool) (s : Store) (lists : List TokenlistEntry) :
    (s.assemble bundle states lists).heap[s.heap.length]? = some (defaultList bundle states) ∧
    (s.assemble bundle states lists).heap[s.heap.length+1]? = some builtinList := by
  simp [assemble]

end Store

end YPriceMagic.Frontend
