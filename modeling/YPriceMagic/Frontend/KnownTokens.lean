import Mathlib.Data.List.Find
import YPriceMagic.Frontend.EnabledFlags
import YPriceMagic.Frontend.IndexEntries
import YPriceMagic.Frontend.Reachable

/-! A token that is saved locally, and the list that makes it known. -/
namespace YPriceMagic.Frontend
open YPriceMagic.Async

section
variable {α : Type} {p : α → Bool}

theorem find?_insertIdx (items : List α) {i : Nat} (new : α) (inside : i ≤ items.length) :
    (items.insertIdx i new).find? p = items.find? p ∨ p new = true ∧ (items.insertIdx i new).find? p = some new := by
  induction items generalizing i with
  | nil =>
    obtain rfl := Nat.le_zero.mp inside
    cases found : p new <;> simp [found]
  | cons item rest ih =>
    cases i with
    | zero => cases found : p new <;> simp [found]
    | succ i =>
      rw [List.insertIdx_succ_cons,List.find?_cons,List.find?_cons]
      cases p item with
      | true => exact Or.inl rfl
      | false => exact ih (Nat.le_of_succ_le_succ inside)

theorem find?_eraseIdx {items : List α} {i : Nat} {item : α} (found : items.find? p = some item)
    (other : items[i]? ≠ some item) : (items.eraseIdx i).find? p = some item := by
  induction items generalizing i with
  | nil => simp at found
  | cons first rest ih =>
    rw [List.find?_cons] at found
    cases i with
    | zero =>
      cases here : p first with
      | true =>
        rw [here] at found
        exact absurd found other
      | false =>
        rw [here] at found
        exact found
    | succ i =>
      rw [List.eraseIdx_cons_succ,List.find?_cons]
      cases here : p first with
      | true =>
        rw [here] at found
        exact found
      | false =>
        rw [here] at found
        exact ih found other

end

def ListMeta.isLocalTokens (list : ListMeta) : Bool := list.isLocal && decide (list.name = "Local Tokens")

namespace Store

variable (bundle : Bundle) (toUpperCase : String → String)

def Known (s : Store) (token : Token) : Prop :=
  isTokenInIndex bundle toUpperCase s.tokenIndex token.address token.chainId = true ∧
    (getTokenFromIndex bundle toUpperCase s.tokenIndex token.address token.chainId).isSome = true

/-- The list that `addLocalToken` takes for the local tokens. -/
def localEntry (s : Store) : Option Nat := s.lists.find? fun ref => (s.metaAt ref).any ListMeta.isLocalTokens

/-- The default list stays, and so does the list of local tokens; a list that passes for it is
switched on; and a token is saved while no enabled list in memory has a malformed element. -/
def KeepsLocal (s : Store) : Action → Prop
  | .removeList index => 0 ≤ index → ∀ ref, s.lists[index.toNat]? = some ref →
      (∀ list ∈ s.metaAt ref, list.isDefault = false) ∧ s.localEntry ≠ some ref
  | .addList list => list.isLocalTokens = true → list.enabled = true
  | .addLocalToken _ => ∀ list ∈ s.entries s.lists, list.Readable
  | _ => True

instance (s : Store) : (action : Action) → Decidable (s.KeepsLocal action)
  | .removeList index => inferInstanceAs (Decidable (0 ≤ index → ∀ ref, s.lists[index.toNat]? = some ref →
      (∀ list ∈ s.metaAt ref, list.isDefault = false) ∧ s.localEntry ≠ some ref))
  | .addList list => inferInstanceAs (Decidable (list.isLocalTokens = true → list.enabled = true))
  | .addLocalToken _ => inferInstanceAs (Decidable (∀ list ∈ s.entries s.lists, list.Readable))
  | .toggleList _ => .isTrue trivial
  | .fetched _ _ => .isTrue trivial

instance (s : Store) (token : Token) : Decidable (s.Known bundle toUpperCase token) := by
  unfold Known
  infer_instance

/-- Local tokens go to a list that is switched on and that no switch reaches. -/
structure Shelved (s : Store) : Prop where
  head : ∃ first rest list, s.lists = first::rest ∧ s.metaAt first = some list ∧ list.isDefault = true ∧ list.isLocal = false
  shelf : ∃ ref list, s.localEntry = some ref ∧ s.metaAt ref = some list ∧ list.enabled = true
  tokens : ∃ tokens, s.localTokens = some tokens ∧ .malformed ∉ tokens

variable {bundle toUpperCase} {s next : Store}

theorem Shelved.adjusted (shelved : s.Shelved) (adjusted : Adjusted s next) : next.Shelved := by
  obtain ⟨_,_,_,rfl⟩ := adjusted
  exact ⟨shelved.head,shelved.shelf,shelved.tokens⟩

theorem localEntry_some {ref : Nat} (found : s.localEntry = some ref) :
    ref ∈ s.lists ∧ ∀ list, s.metaAt ref = some list → list.isLocal = true ∧ list.name = "Local Tokens" := by
  refine ⟨List.mem_of_find?_eq_some found,fun list there => ?_⟩
  have passes := List.find?_some found
  rw [there,Option.any_some] at passes
  simpa [ListMeta.isLocalTokens] using passes

/-- The switch of the local tokens reaches the default list. -/
theorem Shelved.unswitched (shelved : s.Shelved) {ref : Nat} (shelf : s.localEntry = some ref) (key : String) :
    s.chosen key ≠ some ref := by
  obtain ⟨first,rest,list,order,default,isDefault,notLocal⟩ := shelved.head
  intro switches
  have same := List.find?_some switches
  have found : (s.metaAt ref).map getListKey = some key := by
    rw [metaAt,Option.map_map]
    simpa using same
  obtain ⟨entry,there,rfl⟩ := Option.map_eq_some_iff.mp found
  obtain ⟨isLocal,_⟩ := (localEntry_some shelf).2 entry there
  have keys : getListKey entry = getListKey list := by simp [getListKey,isLocal,isDefault]
  have head : s.chosen (getListKey entry) = some first := by
    obtain ⟨default,here,rfl⟩ := Option.map_eq_some_iff.mp default
    rw [chosen,order,List.find?_cons,here,keys]
    simp
  rw [head] at switches
  obtain rfl := Option.some.inj switches
  obtain rfl := Option.some.inj (default.symm.trans there)
  rw [isLocal] at notLocal
  cases notLocal

theorem Shelved.switchList (shelved : s.Shelved) (key : String) : (s.switchList key).Shelved := by
  obtain ⟨first,rest,list,order,default,isDefault,notLocal⟩ := shelved.head
  obtain ⟨ref,entry,shelf,there,enabled⟩ := shelved.shelf
  have metas (other : Nat) : ((s.switchList key).metaAt other).any ListMeta.isLocalTokens = (s.metaAt other).any ListMeta.isLocalTokens := by
    rw [switchList_metaAt]
    cases s.metaAt other with
    | none => rfl
    | some found =>
      rw [Option.map_some,Option.any_some,Option.any_some,switched_eq]
      rfl
  refine ⟨⟨first,rest,s.switched key first list,order,?_,?_,?_⟩,⟨ref,entry,?_,?_,enabled⟩,shelved.tokens⟩
  · rw [switchList_metaAt,default,Option.map_some]
  · rw [switched_eq]
    exact isDefault
  · rw [switched_eq]
    exact notLocal
  · rw [← shelf]
    exact congrArg s.lists.find? (funext metas)
  · rw [switchList_metaAt,there,Option.map_some,switched,if_neg (shelved.unswitched shelf key)]

theorem Shelved.insertList (shelved : s.Shelved) (listed : s.Listed) {list : TokenlistEntry}
    (shown : list.isLocalTokens = true → list.enabled = true) : (s.insertList list).Shelved := by
  obtain ⟨first,rest,default,order,head,flags⟩ := shelved.head
  obtain ⟨ref,entry,shelf,there,enabled⟩ := shelved.shelf
  have old {other : Nat} (member : other ∈ s.lists) : (s.insertList list).metaAt other = s.metaAt other :=
    insertList_metaAt_old list (listed.inside other member)
  have lists : (s.insertList list).lists = s.lists.insertIdx (s.lists.length-1) s.heap.length := rfl
  obtain ⟨shelfListed,shelfLocal⟩ := localEntry_some shelf
  have firstListed : first ∈ s.lists := order ▸ List.mem_cons_self
  refine ⟨?_,?_,shelved.tokens⟩
  · -- the shelf comes after the default list, so the new list does not come before both
    obtain ⟨second,others,more⟩ : ∃ second others, rest = second::others := by
      cases rest with
      | nil =>
        rw [order,List.mem_singleton] at shelfListed
        subst shelfListed
        obtain rfl := Option.some.inj (head.symm.trans there)
        rw [(shelfLocal default there).1] at flags
        cases flags.2
      | cons second others => exact ⟨second,others,rfl⟩
    refine ⟨first,(second::others).insertIdx others.length s.heap.length,default,?_,(old firstListed).trans head,flags⟩
    rw [lists,order,more,List.length_cons,List.length_cons,Nat.add_sub_cancel,List.insertIdx_succ_cons]
  · have before : s.lists.find? (fun ref => ((s.insertList list).metaAt ref).any ListMeta.isLocalTokens) = some ref := by
      rw [← shelf]
      exact List.find?_congr fun other member => by rw [old member]
    unfold localEntry
    rw [lists]
    rcases find?_insertIdx (p := fun ref => ((s.insertList list).metaAt ref).any ListMeta.isLocalTokens) s.lists s.heap.length
      (Nat.sub_le _ _) with same | ⟨passes,found⟩
    · exact ⟨ref,entry,same.trans before,(old shelfListed).trans there,enabled⟩
    · rw [insertList_metaAt_new,Option.any_some] at passes
      exact ⟨_,_,found,s.insertList_metaAt_new list,shown passes⟩

theorem Shelved.dropList (shelved : s.Shelved) {index ref : Nat} (found : s.lists[index]? = some ref)
    (stays : ∀ list ∈ s.metaAt ref, list.isDefault = false) (kept : s.localEntry ≠ some ref) : (s.dropList index ref).Shelved := by
  obtain ⟨first,rest,default,order,head,isDefault,notLocal⟩ := shelved.head
  obtain ⟨shelf,entry,here,there,enabled⟩ := shelved.shelf
  have dropped : (s.dropList index ref).lists = s.lists.eraseIdx index := rfl
  refine ⟨?_,⟨shelf,entry,?_,there,enabled⟩,shelved.tokens⟩
  · cases index with
    | zero =>
      rw [order,List.getElem?_cons_zero] at found
      obtain rfl := Option.some.inj found
      have removed := stays default head
      rw [isDefault] at removed
      cases removed
    | succ index =>
      refine ⟨first,rest.eraseIdx index,default,?_,head,isDefault,notLocal⟩
      rw [dropped,order,List.eraseIdx_cons_succ]
  · refine find?_eraseIdx here fun same => kept ?_
    rw [here,← same,found]

theorem Shelved.setLocalTokens (shelved : s.Shelved) {tokens : List Element} (wellFormed : .malformed ∉ tokens) :
    (s.setLocalTokens tokens).Shelved := by
  obtain ⟨first,rest,list,order,default,flags⟩ := shelved.head
  obtain ⟨ref,entry,shelf,there,enabled⟩ := shelved.shelf
  have metas := setLocalTokens_metaAt s tokens
  refine ⟨⟨first,rest,list,order,?_,flags⟩,⟨ref,entry,?_,?_,enabled⟩,⟨tokens,rfl,wellFormed⟩⟩
  · rw [metas]
    exact default
  · unfold localEntry
    rw [metas]
    exact shelf
  · rw [metas]
    exact there

theorem step_shelved {action : Action} (shelved : s.Shelved) (listed : s.Listed) (keeps : s.KeepsLocal action)
    (stepped : s.step bundle action = some next) : next.Shelved := by
  cases action with
  | fetched i answer =>
    obtain ⟨_,_,_,_,rfl⟩ := fetched_cases stepped
    exact ⟨shelved.head,shelved.shelf,shelved.tokens⟩
  | toggleList key =>
    cases Option.some.inj stepped
    exact (shelved.switchList key).adjusted (toggleList_adjusted bundle s key)
  | addList list =>
    cases Option.some.inj stepped
    exact (shelved.insertList listed keeps).adjusted (addList_adjusted bundle s list)
  | removeList index =>
    cases Option.some.inj stepped
    rcases s.removeList_cases bundle index with ⟨_,same⟩ | ⟨positive,ref,found,adjusted⟩
    · rw [same]
      exact shelved
    · obtain ⟨stays,kept⟩ := keeps positive ref found
      exact (shelved.dropList found stays kept).adjusted adjusted
  | addLocalToken token =>
    cases Option.some.inj stepped
    obtain ⟨tokens,known,wellFormed⟩ := shelved.tokens
    rcases s.addLocalToken_cases bundle token with ⟨absent,_⟩ | ⟨tokens',found,adjusted⟩
    · rw [known] at absent
      cases absent
    · obtain rfl := Option.some.inj (known.symm.trans found)
      exact (shelved.setLocalTokens (by simp [wellFormed])).adjusted adjusted

theorem setLocalTokens_shown (s : Store) (tokens : List Element) :
    (s.setLocalTokens tokens).heap = showTokens tokens (showTokens tokens s.heap s.sharing) s.localEntry := by
  have same : s.localEntry = s.lists.find? fun ref => s.heap[ref]?.any fun list => list.isLocal && decide (list.name = "Local Tokens") := by
    refine congrArg s.lists.find? (funext fun ref => ?_)
    rw [metaAt,Option.any_map]
    rfl
  rw [same]
  rfl

theorem setLocalTokens_readable {tokens : List Element} (readable : ∀ list ∈ s.entries s.lists, list.Readable)
    (wellFormed : .malformed ∉ tokens) :
    ∀ list ∈ (s.setLocalTokens tokens).entries (s.setLocalTokens tokens).lists, list.Readable := by
  intro entry member
  obtain ⟨ref,listed,found⟩ := List.mem_filterMap.mp member
  rw [setLocalTokens_shown,showTokens_getElem?,showTokens_getElem?,Option.map_map] at found
  obtain ⟨list,there,rfl⟩ := Option.map_eq_some_iff.mp found
  have before := readable list (List.mem_filterMap.mpr ⟨ref,listed,there⟩)
  dsimp only [Function.comp]
  split
  · exact fun _ => wellFormed
  · split
    · exact fun _ => wellFormed
    · exact before

theorem Shelved.saved (shelved : s.Shelved) (tokens : List Element) :
    ∃ entry ∈ (s.setLocalTokens tokens).entries (s.setLocalTokens tokens).lists, entry.enabled = true ∧ entry.tokens = tokens := by
  obtain ⟨ref,list,shelf,there,enabled⟩ := shelved.shelf
  obtain ⟨entry,here,rfl⟩ := Option.map_eq_some_iff.mp there
  refine ⟨{entry with tokens},List.mem_filterMap.mpr ⟨ref,(localEntry_some shelf).1,?_⟩,enabled,rfl⟩
  rw [setLocalTokens_shown,showTokens_getElem?,showTokens_getElem?,here,shelf,Option.map_some,Option.map_some,if_pos rfl]
  split <;> rfl

theorem enabledTokens_mem {lists : List TokenlistEntry} {list : TokenlistEntry} {token : Token} (member : list ∈ lists)
    (enabled : list.enabled = true) (listed : .token token ∈ list.tokens) :
    ⟨token,getListKey list.toListMeta⟩ ∈ enabledTokens lists := by
  refine List.mem_flatMap.mpr ⟨list,member,?_⟩
  rw [TokenlistEntry.indexed,if_pos enabled]
  exact List.mem_filterMap.mpr ⟨_,listed,rfl⟩

theorem known_of_enabled {lists : List TokenlistEntry} {token : Token} {key : String}
    (built : buildTokenIndex bundle lists = .ok s.tokenIndex) (member : ⟨token,key⟩ ∈ enabledTokens lists) :
    s.Known bundle toUpperCase token := by
  have found : (s.tokenIndex.entry token.chainId (bundle.toLowerCase token.address)).isSome = true := by
    rw [buildTokenIndex_entry built,Option.isSome_or,Bool.or_eq_true,List.find?_isSome]
    exact Or.inl ⟨⟨token,key⟩,member,by simp [At]⟩
  unfold Known isTokenInIndex getTokenFromIndex
  split
  · exact ⟨rfl,rfl⟩
  · exact ⟨found,found⟩

theorem Shelved.known (shelved : s.Shelved) (readable : ∀ list ∈ s.entries s.lists, list.Readable) (token : Token) :
    (s.addLocalToken bundle token).1.Known bundle toUpperCase token := by
  obtain ⟨tokens,known,wellFormed⟩ := shelved.tokens
  have wellFormed : .malformed ∉ tokens++[.token token] := by simp [wellFormed]
  obtain ⟨tokenIndex,built,same⟩ := rebuildAndSync_returns (setLocalTokens_readable readable wellFormed)
  obtain ⟨entry,member,enabled,shown⟩ := shelved.saved (tokens++[.token token])
  have listed : .token token ∈ entry.tokens := shown ▸ List.mem_append_right tokens (List.mem_singleton_self _)
  have stored := enabledTokens_mem member enabled listed
  unfold addLocalToken
  rw [known]
  dsimp only
  rw [same]
  exact known_of_enabled built stored

theorem initTokenlists_shelved {remote : String → Fetched} {storage : Storage}
    (started : initTokenlists bundle remote storage = some (s,.ok ()))
    (shown : ∀ list ∈ s.entries s.userLists, list.isLocalTokens = true → list.enabled = true) : s.Shelved := by
  obtain ⟨states,users,tokens,placed,_⟩ := initTokenlists_synced started
  obtain ⟨first,second,last,order,default,builtin,tokensList,_⟩ := placed.ends
  have metaOf {ref : Nat} {entry : TokenlistEntry} (found : s.heap[ref]? = some entry) : s.metaAt ref = some entry.toListMeta := by
    rw [metaAt,found]
    rfl
  refine ⟨⟨first,_,_,order,metaOf default,rfl,rfl⟩,?_,⟨tokens,placed.localTokens,placed.wellFormed⟩⟩
  have firstOther : (s.metaAt first).any ListMeta.isLocalTokens = false := by rw [metaOf default]; rfl
  have secondOther : (s.metaAt second).any ListMeta.isLocalTokens = false := by rw [metaOf builtin]; rfl
  have lastOwn : (s.metaAt last).any ListMeta.isLocalTokens = true := by rw [metaOf tokensList]; rfl
  unfold localEntry
  rw [order,List.find?_cons,List.find?_cons,List.find?_append,List.find?_singleton]
  simp only [firstOther,secondOther,lastOwn,if_true]
  cases user : s.userLists.find? fun ref => (s.metaAt ref).any ListMeta.isLocalTokens with
  | none => exact ⟨last,_,rfl,metaOf tokensList,rfl⟩
  | some ref =>
    have passes := List.find?_some user
    cases there : s.metaAt ref with
    | none => simp [there] at passes
    | some list =>
      obtain ⟨entry,here,rfl⟩ := Option.map_eq_some_iff.mp there
      rw [there,Option.any_some] at passes
      have member : entry ∈ s.entries s.userLists := List.mem_filterMap.mpr ⟨ref,List.mem_of_find?_eq_some user,here⟩
      exact ⟨ref,_,rfl,there,shown entry member passes⟩

/-- In every run that keeps the list of local tokens, a token is known once it is saved. -/
theorem saved_token_known (bundle : Bundle) (toUpperCase : String → String) (remote : String → Fetched) {storage : Storage}
    {initial before : Store} {actions : List Action} {token : Token}
    (started : initTokenlists bundle remote storage = some (initial,.ok ()))
    (shown : ∀ list ∈ initial.entries initial.userLists, list.isLocalTokens = true → list.enabled = true)
    (keeps : Throughout (step bundle) KeepsLocal initial (actions++[.addLocalToken token]))
    (ran : run (step bundle) initial actions = some before) :
    (before.addLocalToken bundle token).1.Known bundle toUpperCase token := by
  obtain ⟨keeps,last⟩ := throughout_append.mp keeps
  obtain ⟨_,_,_,placed,_⟩ := initTokenlists_synced started
  have kept : before.Shelved ∧ before.Listed := by
    refine run_preserves_throughout (fun s => s.Shelved ∧ s.Listed) KeepsLocal ?_
      ⟨initTokenlists_shelved started shown,placed.distinct,placed.bounded⟩ keeps ran
    rintro s action next ⟨shelved,listed⟩ keeps stepped
    exact ⟨step_shelved shelved listed keeps stepped,step_listed listed stepped⟩
  exact kept.1.known (last before ran).1 token

def removalRun : List Action := [.addList remoteList,.toggleList remoteUrl,.removeList 1]

def asciiUpper (text : String) : String := String.ofList (text.toList.map Char.toUpper)

theorem saved_token_known_switched :
    ∃ initial before, initTokenlists smallBundle oneToken emptyStorage = some (initial,.ok ()) ∧
      run (step smallBundle) initial removalRun = some before ∧
      (before.addLocalToken smallBundle sampleToken).1.Known smallBundle asciiUpper sampleToken := by
  have completes : ∃ ran ∈ initTokenlists smallBundle oneToken emptyStorage, ran.2 = .ok () ∧
      (∀ list ∈ ran.1.entries ran.1.userLists, list.isLocalTokens = true → list.enabled = true) ∧
      Throughout (step smallBundle) KeepsLocal ran.1 (removalRun++[.addLocalToken sampleToken]) ∧
      (run (step smallBundle) ran.1 removalRun).isSome = true := by decide +kernel
  obtain ⟨⟨initial,_⟩,started,rfl,shown,keeps,goes⟩ := completes
  obtain ⟨before,ran⟩ := Option.isSome_iff_exists.mp goes
  exact ⟨initial,before,started,ran,saved_token_known smallBundle asciiUpper oneToken started shown keeps ran⟩

/-- Once the list "Local Tokens" has been deleted, a saved token stays unknown. -/
theorem deleted_local_tokens_unknown :
    ∃ initial before, initTokenlists smallBundle oneToken emptyStorage = some (initial,.ok ()) ∧
      (initial.entries initial.lists).map (fun list => (list.name,list.isDefault)) =
        [("Uniswap Labs Default",true),("Default Pair Tokens",false),("Local Tokens",false)] ∧
      run (step smallBundle) initial [.removeList 2] = some before ∧
      (before.addLocalToken smallBundle sampleToken).2 = .ok () ∧
      ¬(before.addLocalToken smallBundle sampleToken).1.Known smallBundle asciiUpper sampleToken := by
  have completes : ∃ ran ∈ initTokenlists smallBundle oneToken emptyStorage, ran.2 = .ok () ∧
      (ran.1.entries ran.1.lists).map (fun list => (list.name,list.isDefault)) =
        [("Uniswap Labs Default",true),("Default Pair Tokens",false),("Local Tokens",false)] ∧
      ∃ before ∈ run (step smallBundle) ran.1 [.removeList 2], (before.addLocalToken smallBundle sampleToken).2 = .ok () ∧
        ¬(before.addLocalToken smallBundle sampleToken).1.Known smallBundle asciiUpper sampleToken := by decide +kernel
  obtain ⟨⟨initial,_⟩,started,rfl,names,before,ran,saved,unknown⟩ := completes
  exact ⟨initial,before,started,names,ran,saved,unknown⟩

end Store

end YPriceMagic.Frontend
