import Mathlib.Data.List.Forall2
import YPriceMagic.Frontend.Persistence

/-! The flags of the lists across a reload. All lists write theirs into one record, by key,
and each kind of list reads its own back in a way of its own. -/
namespace YPriceMagic.Frontend
open YPriceMagic.Async

variable {bundle : Bundle} {remote : String → Fetched} {states : JsMap String Bool}

/-- The text under which `initTokenlists` looks up the flag of a list of the user's. -/
def ListMeta.userKey (list : ListMeta) : String := list.url.getD list.name

def ListMeta.flag (list : ListMeta) : String × Bool := (list.userKey,list.enabled)

def ListMeta.flagRead (states : JsMap String Bool) (list : ListMeta) : String × Bool :=
  (list.userKey,(states.get list.userKey).getD list.enabled)

theorem loadUserList_flag (states : JsMap String Bool) (list : ListMeta) (answer : Fetched) :
    (loadUserList states list answer).flag = list.flagRead states := by
  unfold loadUserList
  dsimp only
  split
  · rfl
  · rename_i target name tokens fetching
    obtain ⟨stored,_⟩ := Option.filter_eq_some_iff.mp fetching
    simp [ListMeta.flag,ListMeta.flagRead,ListMeta.userKey,stored]
  · rfl

theorem flagRead_of_unopposed {list : ListMeta} (unopposed : states.get list.userKey ≠ some !list.enabled) :
    list.flagRead states = list.flag := by
  unfold ListMeta.flagRead ListMeta.flag
  cases stored : states.get list.userKey with
  | none => rfl
  | some enabled =>
    rw [stored,ne_eq,Option.some_inj] at unopposed
    rw [Option.getD_some,Bool.eq_not_of_ne unopposed,Bool.not_not]

def ownLists (bundle : Bundle) (states : JsMap String Bool) : List ListMeta :=
  [(defaultList bundle states).toListMeta,builtinList.toListMeta,(localTokensList []).toListMeta]

namespace Store

variable {s next : Store} {saved : List ListMeta}

/-- The user's lists come back in their order, each with its flag, and the store's own lists
that are left come back as they were. -/
def FlagsKept (s again : Store) : Prop :=
  (again.entries again.userLists).map (·.flag) = (s.entries s.userLists).map (·.flag) ∧
  ∀ ref ∈ s.lists, ref ∉ s.userLists → ∃ other ∈ again.lists, other ∉ again.userLists ∧
    (s.metaAt ref).isSome = true ∧ again.metaAt other = s.metaAt ref

def chosen (s : Store) (key : String) : Option Nat :=
  s.lists.find? fun ref => decide ((s.heap[ref]?.map fun list => getListKey list.toListMeta) = some key)

def flagAt (s : Store) (ref : Nat) : Option Bool := s.heap[ref]?.map (·.enabled)

/-- A key that can be switched: what it switches is a list of the user's or the default one,
no list of the user's passes for one of the store's own, and of lists that share a key, the
one that is switched is the only one that differs from the others. -/
structure Switchable (s : Store) (key : String) : Prop where
  chosen : ∀ ref ∈ s.chosen key, ref ∉ s.userLists → ∀ list ∈ s.heap[ref]?, list.isDefault = true
  plain : ∀ list ∈ s.entries s.userLists, list.isDefault = false ∧ list.isLocal = false
  alike : ∀ ref ∈ s.lists, ∀ other ∈ s.lists, ref ≠ other → s.keyAt ref = s.keyAt other →
    (s.flagAt ref = s.flagAt other ↔ s.chosen key ≠ some ref ∧ s.chosen key ≠ some other)

/-- A list that is added must not find the opposite flag, of a list that had its key. -/
def FlagsWritten (s : Store) : Action → Prop
  | .toggleList key => s.Switchable key
  | .addList list => ∀ states ∈ s.storage.tokenlistStates.parse (some []), states.get list.userKey ≠ some !list.enabled
  | _ => True

instance (s : Store) (key : String) : Decidable (s.Switchable key) :=
  decidable_of_iff (_ ∧ _ ∧ _) ⟨fun ⟨chosen,plain,alike⟩ => Switchable.mk chosen plain alike,
    fun switchable => ⟨switchable.chosen,switchable.plain,switchable.alike⟩⟩

instance (s : Store) : (action : Action) → Decidable (s.FlagsWritten action)
  | .toggleList key => inferInstanceAs (Decidable (s.Switchable key))
  | .addList list => inferInstanceAs (Decidable (∀ states ∈ s.storage.tokenlistStates.parse (some []),
      states.get list.userKey ≠ some !list.enabled))
  | .removeList _ => .isTrue trivial
  | .addLocalToken _ => .isTrue trivial
  | .fetched _ _ => .isTrue trivial

instance (s again : Store) : Decidable (s.FlagsKept again) := by
  unfold FlagsKept
  infer_instance

theorem entries_metas (s : Store) (refs : List Nat) : (s.entries refs).map (·.toListMeta) = refs.filterMap s.metaAt :=
  List.map_filterMap ..

theorem metaAt_lt {ref : Nat} {list : ListMeta} (found : s.metaAt ref = some list) : ref < s.heap.length := by
  obtain ⟨entry,there,_⟩ := Option.map_eq_some_iff.mp found
  exact (List.getElem?_eq_some_iff.mp there).1

/-- A reload gives the list at a reference the flag that it has. -/
def Reads (s : Store) (states : JsMap String Bool) (ref : Nat) (saved : ListMeta) : Prop :=
  ∃ list, s.metaAt ref = some list ∧ list.flag = saved.flagRead states

structure Told (bundle : Bundle) (states : JsMap String Bool) (saved : List ListMeta) (s : Store) : Prop where
  known : s.storage.tokenlistStates.parse (some []) = some states
  stored : s.storage.tokenlists.parse (some []) = some (saved.map some)
  users : List.Forall₂ (s.Reads states) s.userLists saved
  own : ∀ ref ∈ s.lists, ref ∈ s.userLists ∨ ∃ list ∈ ownLists bundle states, s.metaAt ref = some list
  present : ∀ ref ∈ s.userLists, ref ∈ s.lists
  distinct : s.lists.Nodup
  once : s.userLists.Nodup
  idle : s.pending = none

theorem Told.adjusted (told : Told bundle states saved s) (adjusted : Adjusted s next) : Told bundle states saved next := by
  obtain ⟨_,_,_,rfl⟩ := adjusted
  exact ⟨told.known,told.stored,told.users,told.own,told.present,told.distinct,told.once,told.idle⟩

theorem reads_settled {refs : List Nat} (reads : List.Forall₂ (s.Reads states) refs saved) :
    ∀ ref ∈ refs, ∃ list, s.metaAt ref = some list ∧ list.flagRead states = list.flag := by
  induction reads with
  | nil => exact fun _ member => absurd member List.not_mem_nil
  | cons here _ ih =>
    obtain ⟨list,found,same⟩ := here
    refine List.forall_mem_cons.mpr ⟨⟨list,found,?_⟩,ih⟩
    obtain ⟨key,enabled⟩ := Prod.mk.inj same
    rw [ListMeta.flagRead,ListMeta.flag,key,enabled,getD_getD]

theorem Told.user (told : Told bundle states saved s) {ref : Nat} (user : ref ∈ s.userLists) :
    ∃ list, s.metaAt ref = some list ∧ list.flagRead states = list.flag :=
  reads_settled told.users ref user

theorem Told.list (told : Told bundle states saved s) {ref : Nat} (member : ref ∈ s.lists) :
    ∃ list, s.metaAt ref = some list := by
  rcases told.own ref member with user | ⟨list,_,found⟩
  · obtain ⟨list,found,_⟩ := told.user user
    exact ⟨list,found⟩
  · exact ⟨list,found⟩

theorem reads_saved {refs : List Nat}
    (settled : ∀ ref ∈ refs, ∃ list, s.metaAt ref = some list ∧ list.flagRead states = list.flag) :
    List.Forall₂ (s.Reads states) refs (refs.filterMap s.metaAt) := by
  induction refs with
  | nil => exact List.Forall₂.nil
  | cons ref rest ih =>
    obtain ⟨⟨list,found,same⟩,others⟩ := List.forall_mem_cons.mp settled
    rw [List.filterMap_cons,found]
    exact List.Forall₂.cons ⟨list,found,same.symm⟩ (ih others)

theorem saveUserLists_saved (s : Store) :
    s.saveUserLists.storage.tokenlists.parse (some []) = some ((s.userLists.filterMap s.metaAt).map some) := by
  rw [← entries_metas,List.map_map]
  rfl

theorem Told.insertList (told : Told bundle states saved s) {list : TokenlistEntry}
    (unopposed : states.get list.userKey ≠ some !list.enabled) :
    ∃ saved, Told bundle states saved (s.insertList list) := by
  have old {ref : Nat} {other : ListMeta} (found : s.metaAt ref = some other) : (s.insertList list).metaAt ref = some other :=
    (insertList_metaAt_old list (metaAt_lt found)).trans found
  have inside : ∀ ref ∈ s.lists, ref < s.heap.length := fun ref member => by
    obtain ⟨_,found⟩ := told.list member
    exact metaAt_lt found
  have listed (ref : Nat) : ref ∈ (s.insertList list).lists ↔ ref = s.heap.length ∨ ref ∈ s.lists :=
    List.mem_insertIdx (Nat.sub_le _ _)
  refine ⟨_,told.known,saveUserLists_saved _,reads_saved ?_,?_,?_,?_,?_,told.idle⟩
  · intro ref member
    rcases List.mem_append.mp member with before | last
    · obtain ⟨other,found,same⟩ := told.user before
      exact ⟨other,old found,same⟩
    · obtain rfl := List.mem_singleton.mp last
      exact ⟨_,s.insertList_metaAt_new list,flagRead_of_unopposed unopposed⟩
  · intro ref member
    rcases (listed ref).mp member with rfl | before
    · exact Or.inl (List.mem_append_right _ List.mem_cons_self)
    · rcases told.own ref before with user | ⟨other,own,found⟩
      · exact Or.inl (List.mem_append_left _ user)
      · exact Or.inr ⟨other,own,old found⟩
  · intro ref member
    rcases List.mem_append.mp member with before | last
    · exact (listed ref).mpr (Or.inr (told.present ref before))
    · exact (listed ref).mpr (Or.inl (List.mem_singleton.mp last))
  · exact insertList_nodup told.distinct inside list
  · exact (List.perm_append_singleton _ _).nodup_iff.mpr
      (List.nodup_cons.mpr ⟨fun member => Nat.lt_irrefl _ (inside _ (told.present _ member)),told.once⟩)

theorem Told.dropList (told : Told bundle states saved s) {index ref : Nat} (found : s.lists[index]? = some ref) :
    ∃ saved, Told bundle states saved (s.dropList index ref) := by
  have listed (other : Nat) : other ∈ (s.dropList index ref).lists ↔ other ≠ ref ∧ other ∈ s.lists := by
    rw [dropList_lists told.distinct found]
    exact told.distinct.mem_erase_iff
  have user (other : Nat) : other ∈ (s.dropList index ref).userLists ↔ other ≠ ref ∧ other ∈ s.userLists :=
    told.once.mem_erase_iff
  refine ⟨_,told.known,saveUserLists_saved _,reads_saved ?_,?_,?_,?_,told.once.erase _,told.idle⟩
  · exact fun other member => told.user ((user other).mp member).2
  · intro other member
    obtain ⟨differs,before⟩ := (listed other).mp member
    exact (told.own other before).imp_left fun member => (user other).mpr ⟨differs,member⟩
  · intro other member
    obtain ⟨differs,before⟩ := (user other).mp member
    exact (listed other).mpr ⟨differs,told.present other before⟩
  · exact told.distinct.sublist (List.eraseIdx_sublist _ _)

theorem Told.setLocalTokens (told : Told bundle states saved s) (tokens : List Element) :
    Told bundle states saved (s.setLocalTokens tokens) := by
  have users : (s.setLocalTokens tokens).Reads states = s.Reads states := by
    unfold Reads
    rw [setLocalTokens_metaAt]
  refine ⟨told.known,told.stored,?_,?_,told.present,told.distinct,told.once,told.idle⟩
  · rw [users]
    exact told.users
  · rw [setLocalTokens_metaAt]
    exact told.own

def switched (s : Store) (key : String) (ref : Nat) (list : ListMeta) : ListMeta :=
  if s.chosen key = some ref then {list with enabled := !list.enabled} else list

theorem switchList_metaAt (s : Store) (key : String) (ref : Nat) :
    (s.switchList key).metaAt ref = (s.metaAt ref).map (s.switched key ref) := by
  unfold metaAt switched
  cases found : s.chosen key with
  | none =>
    have heap : (s.switchList key).heap = s.heap := by
      unfold chosen at found
      simp only [switchList,saveTokenlistStates,found]
    rw [heap]
    exact Option.map_id'.symm
  | some other =>
    have heap : (s.switchList key).heap = s.heap.modify other fun list => {list with enabled := !list.enabled} := by
      unfold chosen at found
      simp only [switchList,saveTokenlistStates,found]
    rw [heap]
    by_cases same : other = ref
    · simp [same,Function.comp_def]
    · simp [same,Function.comp_def]

/-- The record of flags, from the lists that are left in memory. -/
def written (s : Store) : JsMap String Bool :=
  (s.lists.filterMap s.metaAt).foldl (fun states list => states.set (getListKey list) list.enabled) []

theorem switchList_states (s : Store) (key : String) :
    (s.switchList key).storage.tokenlistStates.parse (some []) = some (s.switchList key).written := by
  rw [written,← entries_metas,List.foldl_map]
  rfl

theorem flagAt_eq {ref : Nat} {list : ListMeta} (found : s.metaAt ref = some list) : s.flagAt ref = some list.enabled := by
  obtain ⟨entry,there,rfl⟩ := Option.map_eq_some_iff.mp found
  rw [flagAt,there]
  rfl

theorem keyAt_of_metaAt {ref : Nat} {list : ListMeta} (found : s.metaAt ref = some list) : s.keyAt ref = getListKey list := by
  rw [keyAt_eq,found]
  rfl

theorem switched_eq (s : Store) (key : String) (ref : Nat) (list : ListMeta) :
    s.switched key ref list = {list with enabled := (s.switched key ref list).enabled} := by
  unfold switched
  split <;> rfl

theorem switched_key (s : Store) (key : String) (ref : Nat) (list : ListMeta) :
    getListKey (s.switched key ref list) = getListKey list := by
  rw [switched_eq]
  rfl

theorem Switchable.same {key : String} (switchable : s.Switchable key) {ref other : Nat} {list same : ListMeta}
    (member : ref ∈ s.lists) (another : other ∈ s.lists) (found : s.metaAt ref = some list)
    (there : s.metaAt other = some same) (keys : getListKey same = getListKey list) :
    (s.switched key other same).enabled = (s.switched key ref list).enabled := by
  by_cases here : other = ref
  · subst here
    obtain rfl := Option.some.inj (found.symm.trans there)
    rfl
  · have alike := switchable.alike other another ref member here
      ((keyAt_of_metaAt there).trans (keys.trans (keyAt_of_metaAt found).symm))
    rw [flagAt_eq found,flagAt_eq there,Option.some_inj] at alike
    unfold switched
    by_cases first : s.chosen key = some other
    · have second : s.chosen key ≠ some ref := fun second => here (Option.some.inj (first.symm.trans second))
      have differs : same.enabled ≠ list.enabled := fun flags => (alike.mp flags).1 first
      rw [if_pos first,if_neg second]
      exact (Bool.eq_not_of_ne differs.symm).symm
    · by_cases second : s.chosen key = some ref
      · have differs : same.enabled ≠ list.enabled := fun flags => (alike.mp flags).2 second
        rw [if_neg first,if_pos second]
        exact Bool.eq_not_of_ne differs
      · rw [if_neg first,if_neg second]
        exact alike.mpr ⟨first,second⟩

theorem Switchable.written {key : String} (switchable : s.Switchable key) {ref : Nat} {list : ListMeta}
    (member : ref ∈ s.lists) (found : s.metaAt ref = some list) :
    (s.switchList key).written.get (getListKey list) = some (s.switched key ref list).enabled := by
  rw [← switched_key s key ref list]
  refine JsMap.get_foldl_set_of_alike [] (List.mem_filterMap.mpr ⟨ref,member,?_⟩) ?_
  · rw [switchList_metaAt,found]
    rfl
  · intro changed present keys
    obtain ⟨other,another,there⟩ := List.mem_filterMap.mp present
    rw [switchList_metaAt] at there
    obtain ⟨same,before,rfl⟩ := Option.map_eq_some_iff.mp there
    rw [switched_key,switched_key] at keys
    exact switchable.same member another found before keys

theorem Switchable.reads {key : String} (switchable : s.Switchable key) {ref : Nat} {list : ListMeta}
    (user : ref ∈ s.userLists) (member : ref ∈ s.lists) (read : s.Reads states ref list) :
    (s.switchList key).Reads (s.switchList key).written ref list := by
  obtain ⟨before,found,same⟩ := read
  refine ⟨s.switched key ref before,by rw [switchList_metaAt,found]; rfl,?_⟩
  have written := switchable.written member found
  have keys : getListKey before = list.userKey := by
    obtain ⟨entry,there,rfl⟩ := Option.map_eq_some_iff.mp found
    obtain ⟨plain,own⟩ := switchable.plain entry (List.mem_filterMap.mpr ⟨ref,user,there⟩)
    have userKey : getListKey entry.toListMeta = entry.userKey := by simp [getListKey,plain,own,ListMeta.userKey]
    exact userKey.trans (congrArg Prod.fst same)
  rw [keys] at written
  rw [switched_eq,ListMeta.flag,ListMeta.flagRead,written,Option.getD_some]
  exact congrArg (·,_) (congrArg Prod.fst same : before.userKey = list.userKey)

theorem Switchable.own {key : String} (switchable : s.Switchable key) {ref : Nat} {list : ListMeta}
    (user : ref ∉ s.userLists) (member : ref ∈ s.lists) (found : s.metaAt ref = some list)
    (own : list ∈ ownLists bundle states) : s.switched key ref list ∈ ownLists bundle (s.switchList key).written := by
  have written := switchable.written member found
  have unswitched (fixed : list.isDefault = false) : s.switched key ref list = list := by
    refine if_neg fun chosen => ?_
    obtain ⟨entry,there,rfl⟩ := Option.map_eq_some_iff.mp found
    have default := switchable.chosen ref chosen user entry there
    rw [fixed] at default
    exact Bool.noConfusion default
  simp only [ownLists,List.mem_cons,List.not_mem_nil,or_false] at own
  rcases own with rfl | rfl | rfl
  · have default : (s.switchList key).written.get "default" =
        some (s.switched key ref (defaultList bundle states).toListMeta).enabled := written
    have renewed : s.switched key ref (defaultList bundle states).toListMeta =
        (defaultList bundle (s.switchList key).written).toListMeta := by
      rw [switched_eq]
      simp [defaultList,default]
    rw [renewed]
    exact List.mem_cons_self
  · rw [unswitched rfl]
    exact List.mem_cons_of_mem _ List.mem_cons_self
  · rw [unswitched rfl]
    exact List.mem_cons_of_mem _ (List.mem_cons_of_mem _ List.mem_cons_self)

theorem Told.switchList (told : Told bundle states saved s) {key : String} (switchable : s.Switchable key) :
    Told bundle (s.switchList key).written saved (s.switchList key) := by
  refine ⟨switchList_states s key,told.stored,?_,?_,told.present,told.distinct,told.once,told.idle⟩
  · have both := (List.forall₂_and_left _ _).mpr ⟨fun ref member => member,told.users⟩
    exact both.imp fun ref list ⟨user,read⟩ => switchable.reads user (told.present ref user) read
  · intro ref member
    by_cases user : ref ∈ s.userLists
    · exact Or.inl user
    · obtain ⟨list,own,found⟩ := (told.own ref member).resolve_left user
      exact Or.inr ⟨_,switchable.own user member found own,by rw [switchList_metaAt,found]; rfl⟩

theorem step_told {action : Action} (told : Told bundle states saved s) (writes : s.FlagsWritten action)
    (stepped : s.step bundle action = some next) : ∃ states saved, Told bundle states saved next := by
  cases action with
  | fetched i answer =>
    obtain ⟨_,_,waiting,_⟩ := fetched_cases stepped
    simp [told.idle] at waiting
  | toggleList key =>
    cases Option.some.inj stepped
    exact ⟨_,_,(told.switchList writes).adjusted (toggleList_adjusted bundle s key)⟩
  | addList list =>
    cases Option.some.inj stepped
    obtain ⟨saved,longer⟩ := told.insertList (writes states told.known)
    exact ⟨_,_,longer.adjusted (addList_adjusted bundle s list)⟩
  | removeList index =>
    cases Option.some.inj stepped
    rcases s.removeList_cases bundle index with ⟨_,same⟩ | ⟨_,ref,found,adjusted⟩
    · rw [same]
      exact ⟨_,_,told⟩
    · obtain ⟨saved,shorter⟩ := told.dropList found
      exact ⟨_,_,shorter.adjusted adjusted⟩
  | addLocalToken token =>
    cases Option.some.inj stepped
    rcases s.addLocalToken_cases bundle token with ⟨_,same⟩ | ⟨tokens,_,adjusted⟩
    · rw [same]
      exact ⟨_,_,told⟩
    · exact ⟨_,_,(told.setLocalTokens _).adjusted adjusted⟩

theorem assemble_metas (bundle : Bundle) (states : JsMap String Bool) (s : Store) (lists : List TokenlistEntry) :
    (s.assemble bundle states lists).metaAt s.heap.length = some (defaultList bundle states).toListMeta ∧
    (s.assemble bundle states lists).metaAt (s.heap.length+1) = some builtinList.toListMeta ∧
    (s.assemble bundle states lists).metaAt (s.heap.length+2+lists.length) = some (localTokensList []).toListMeta := by
  obtain ⟨first,second⟩ := assemble_first bundle states s lists
  have last := assemble_last bundle states s lists
  unfold metaAt
  rw [first,second,last]
  exact ⟨rfl,rfl,rfl⟩

/-- The store's own lists stand around the user's once a page is loaded. -/
theorem assemble_own (s : Store) (lists : List TokenlistEntry) {list : ListMeta} (own : list ∈ ownLists bundle states) :
    ∃ ref ∈ (s.assemble bundle states lists).lists, ref ∉ (s.assemble bundle states lists).userLists ∧
      (s.assemble bundle states lists).metaAt ref = some list := by
  obtain ⟨first,second,last⟩ := assemble_metas bundle states s lists
  have users (ref : Nat) : ref ∈ (s.assemble bundle states lists).userLists ↔
      s.heap.length+2 ≤ ref ∧ ref < s.heap.length+2+lists.length := List.mem_range'_1
  simp only [ownLists,List.mem_cons,List.not_mem_nil,or_false] at own
  rcases own with rfl | rfl | rfl
  · exact ⟨_,by simp [assemble],by rw [users]; omega,first⟩
  · exact ⟨_,by simp [assemble],by rw [users]; omega,second⟩
  · exact ⟨_,by simp [assemble],by rw [users]; omega,last⟩

theorem assemble_listed {lists : List TokenlistEntry} {ref : Nat} (member : ref ∈ (s.assemble bundle states lists).lists) :
    ref ∈ (s.assemble bundle states lists).userLists ∨
      ∃ list ∈ ownLists bundle states, (s.assemble bundle states lists).metaAt ref = some list := by
  obtain ⟨first,second,last⟩ := assemble_metas bundle states s lists
  simp only [assemble,List.mem_cons,List.mem_append,List.not_mem_nil,or_false] at member
  rcases member with rfl | rfl | user | rfl
  · exact Or.inr ⟨_,List.mem_cons_self,first⟩
  · exact Or.inr ⟨_,List.mem_cons_of_mem _ List.mem_cons_self,second⟩
  · exact Or.inl user
  · exact Or.inr ⟨_,List.mem_cons_of_mem _ (List.mem_cons_of_mem _ List.mem_cons_self),last⟩

theorem opened_told (bundle : Bundle) (remote : String → Fetched) {storage : Storage}
    (known : storage.tokenlistStates.parse (some []) = some states)
    (stored : storage.tokenlists.parse (some []) = some (saved.map some)) :
    Told bundle states saved (reopened bundle remote states storage saved) := by
  have lists : (reopened bundle remote states storage saved).lists = 0::1::(List.range' 2 saved.length++[2+saved.length]) := by
    simp [assemble,opened]
  have userLists : (reopened bundle remote states storage saved).userLists = List.range' 2 saved.length := by
    simp [assemble,opened]
  refine ⟨known,stored,?_,?_,?_,?_,?_,rfl⟩
  · rw [userLists]
    refine List.forall₂_of_length_eq_of_get List.length_range' fun k inside within => ?_
    have place : (List.range' 2 saved.length).get ⟨k,inside⟩ = 0+2+k := by simp
    have found : (reopened bundle remote states storage saved).heap[0+2+k]? = some (load remote states saved[k]) := by
      refine (assemble_user (s := opened storage) k (by rwa [List.length_map])).trans ?_
      rw [List.getElem?_map,List.getElem?_eq_getElem within]
      rfl
    rw [place]
    exact ⟨(load remote states saved[k]).toListMeta,congrArg (Option.map TokenlistEntry.toListMeta) found,loadUserList_flag ..⟩
  · exact fun ref => assemble_listed
  · rw [userLists,lists]
    exact fun ref member => List.mem_cons_of_mem _ (List.mem_cons_of_mem _ (List.mem_append_left _ member))
  · rw [lists]
    exact opened_nodup _
  · rw [userLists]
    exact List.nodup_range'

theorem initTokenlists_told {storage : Storage} {ended : Except JsError Unit}
    (started : initTokenlists bundle remote storage = some (s,ended)) : ∃ states saved, Told bundle states saved s := by
  obtain ⟨states,lists,known,stored,same⟩ := initTokenlists_cases started
  have told := (opened_told bundle remote known stored).adjusted (rebuildAndSync_adjusted bundle _)
  rw [← same] at told
  exact ⟨_,_,told⟩

theorem reads_flags {refs : List Nat} (reads : List.Forall₂ (s.Reads states) refs saved) :
    (refs.filterMap s.metaAt).map (·.flag) = saved.map (·.flagRead states) := by
  induction reads with
  | nil => rfl
  | cons here _ ih =>
    obtain ⟨list,found,same⟩ := here
    rw [List.filterMap_cons,found,List.map_cons,List.map_cons,same,ih]

theorem Told.flags (told : Told bundle states saved s) :
    (s.entries s.userLists).map (·.flag) = saved.map (·.flagRead states) := by
  rw [← reads_flags told.users,← entries_metas,List.map_map]
  rfl

theorem Told.reload (told : Told bundle states saved s) (remote : String → Fetched) :
    ∃ again ended, initTokenlists bundle remote s.storage = some (again,ended) ∧ s.FlagsKept again := by
  have restarted : initTokenlists bundle remote s.storage = some ((reopened bundle remote states s.storage saved).rebuildAndSync bundle) :=
    initTokenlists_eq told.known told.stored
  have adjusted := rebuildAndSync_adjusted bundle (reopened bundle remote states s.storage saved)
  have retold := (opened_told bundle remote told.known told.stored).adjusted adjusted
  generalize (reopened bundle remote states s.storage saved).rebuildAndSync bundle = ran at restarted adjusted retold
  obtain ⟨again,ended⟩ := ran
  refine ⟨again,ended,restarted,retold.flags.trans told.flags.symm,fun ref member user => ?_⟩
  obtain ⟨list,own,found⟩ := (told.own ref member).resolve_left user
  obtain ⟨other,listed,apart,same⟩ := assemble_own (opened s.storage) (saved.map (load remote states)) own
  obtain ⟨_,_,_,rfl⟩ := adjusted
  exact ⟨other,listed,apart,by rw [found]; rfl,same.trans found.symm⟩

/-- Along steps that write every flag under a key that brings it back, a reload at any time
gives each list the flag it has. -/
theorem flags_survive_reload (bundle : Bundle) (remote later : String → Fetched) {storage : Storage} {initial final : Store}
    {ended : Except JsError Unit} {actions : List Action}
    (started : initTokenlists bundle remote storage = some (initial,ended))
    (writes : Throughout (step bundle) FlagsWritten initial actions)
    (ran : run (step bundle) initial actions = some final) :
    ∃ again ended, initTokenlists bundle later final.storage = some (again,ended) ∧ final.FlagsKept again := by
  have told : ∃ states saved, Told bundle states saved final := by
    refine run_preserves_throughout (fun s => ∃ states saved, Told bundle states saved s) FlagsWritten ?_
      (initTokenlists_told started) writes ran
    rintro before action after ⟨states,saved,told⟩ writes stepped
    exact step_told told writes stepped
  obtain ⟨states,saved,told⟩ := told
  exact told.reload later

def remoteUrl : String := "https://remote.example/list.json"

def switchRun : List Action := [.addList remoteList,.toggleList remoteUrl,.addLocalToken sampleToken,.removeList 1]

theorem flags_survive_reload_switched :
    ∃ initial final again ended, initTokenlists smallBundle oneToken emptyStorage = some (initial,.ok ()) ∧
      run (step smallBundle) initial switchRun = some final ∧
      initTokenlists smallBundle oneToken final.storage = some (again,ended) ∧
      (final.entries final.lists).map (·.enabled) = [true,false,true] ∧ final.FlagsKept again := by
  have completes : ∃ ran ∈ initTokenlists smallBundle oneToken emptyStorage, ran.2 = .ok () ∧
      Throughout (step smallBundle) FlagsWritten ran.1 switchRun ∧ ∃ final ∈ run (step smallBundle) ran.1 switchRun,
        (final.entries final.lists).map (·.enabled) = [true,false,true] := by decide +kernel
  obtain ⟨⟨initial,_⟩,started,rfl,writes,final,ran,flags⟩ := completes
  obtain ⟨again,ended,reloaded,kept⟩ := flags_survive_reload smallBundle oneToken oneToken started writes ran
  exact ⟨initial,final,again,ended,started,ran,reloaded,flags,kept⟩

theorem default_list_switched_on :
    ∃ initial final again, initTokenlists smallBundle oneToken emptyStorage = some (initial,.ok ()) ∧
      run (step smallBundle) initial [.toggleList "default"] = some final ∧
      initTokenlists smallBundle oneToken final.storage = some (again,.ok ()) ∧
      (final.entries final.lists).map (·.enabled) = [false,true,true] ∧
      (again.entries again.lists).map (·.enabled) = [true,true,true] ∧ ¬ final.FlagsKept again := by
  have completes : ∃ ran ∈ initTokenlists smallBundle oneToken emptyStorage, ran.2 = .ok () ∧
      ∃ final ∈ run (step smallBundle) ran.1 [.toggleList "default"],
      ∃ reloaded ∈ initTokenlists smallBundle oneToken final.storage, reloaded.2 = .ok () ∧
      (final.entries final.lists).map (·.enabled) = [false,true,true] ∧
      (reloaded.1.entries reloaded.1.lists).map (·.enabled) = [true,true,true] ∧ ¬ final.FlagsKept reloaded.1 := by
    decide +kernel
  obtain ⟨⟨initial,_⟩,started,rfl,final,ran,⟨again,_⟩,reloaded,rfl,off,on,lost⟩ := completes
  exact ⟨initial,final,again,started,ran,reloaded,off,on,lost⟩

end Store

end YPriceMagic.Frontend
