import Mathlib.Data.List.Nodup
import YPriceMagic.Frontend.Persistence

/-! The states of the store that a page can come to: the store's own functions in any order, and
`initTokenlists` with any answers of the URLs. -/
namespace YPriceMagic.Frontend

namespace Store

variable {bundle : Bundle} {s next : Store}

inductive Reachable (bundle : Bundle) : Store → Prop
  | opened (storage : Storage) : Reachable bundle (opened storage)
  | startInit {s next : Store} (reached : Reachable bundle s) (started : s.startInit = some next) : Reachable bundle next
  | step {s next : Store} {action : Action} (reached : Reachable bundle s) (stepped : s.step bundle action = some next) :
      Reachable bundle next
  | finishInit {s : Store} {ran : Ran} (reached : Reachable bundle s) (finished : s.finishInit bundle = some ran) :
      Reachable bundle ran.1
  | savePairs {s : Store} (reached : Reachable bundle s) (defaultPairs : Slot Json) :
      Reachable bundle {s with storage := {s.storage with defaultPairs}}

/-- Every list in the array is an object of its own. -/
structure Listed (s : Store) : Prop where
  distinct : s.lists.Nodup
  inside : ∀ ref ∈ s.lists, ref < s.heap.length

theorem Listed.adjusted (listed : s.Listed) (adjusted : Adjusted s next) : next.Listed := by
  obtain ⟨_,_,_,rfl⟩ := adjusted
  exact ⟨listed.distinct,listed.inside⟩

theorem Listed.kept (listed : s.Listed) (lists : next.lists = s.lists) (length : next.heap.length = s.heap.length) :
    next.Listed := by
  refine ⟨lists ▸ listed.distinct,?_⟩
  rw [lists,length]
  exact listed.inside

theorem Listed.insertList (listed : s.Listed) (list : TokenlistEntry) : (s.insertList list).Listed := by
  refine ⟨insertList_nodup listed.distinct listed.inside list,fun ref member => ?_⟩
  have grown : (s.insertList list).heap.length = s.heap.length+1 := List.length_append ..
  rw [grown]
  rcases (List.mem_insertIdx (Nat.sub_le _ _)).mp member with rfl | old
  · exact Nat.lt_succ_self _
  · exact Nat.lt_succ_of_lt (listed.inside ref old)

theorem Listed.dropList (listed : s.Listed) (index ref : Nat) : (s.dropList index ref).Listed :=
  ⟨listed.distinct.sublist (List.eraseIdx_sublist _ _),fun ref member => listed.inside ref (List.mem_of_mem_eraseIdx member)⟩

theorem assemble_refs (s : Store) (states : JsMap String Bool) (lists : List TokenlistEntry) :
    (s.assemble bundle states lists).lists = List.range' s.heap.length (lists.length+3) := by
  rw [List.range'_1_concat,List.range'_succ,List.range'_succ]
  have last : s.heap.length+(lists.length+2) = s.heap.length+2+lists.length := by omega
  rw [last]
  rfl

theorem assembled_listed (s : Store) (states : JsMap String Bool) (lists : List TokenlistEntry) :
    (s.assemble bundle states lists).Listed := by
  refine ⟨assemble_refs s states lists ▸ List.nodup_range',fun ref member => ?_⟩
  rw [assemble_refs] at member
  have inside := (List.mem_range'_1.mp member).2
  simp only [assemble,List.length_append,List.length_cons,List.length_nil]
  omega

theorem step_listed {action : Action} (listed : s.Listed) (stepped : s.step bundle action = some next) : next.Listed := by
  cases action with
  | fetched i answer =>
    obtain ⟨_,_,_,_,rfl⟩ := fetched_cases stepped
    exact ⟨listed.distinct,listed.inside⟩
  | toggleList key =>
    cases Option.some.inj stepped
    have switched : (s.switchList key).Listed := listed.kept rfl (switchList_length s key)
    exact switched.adjusted (toggleList_adjusted bundle s key)
  | addList list =>
    cases Option.some.inj stepped
    exact (listed.insertList list).adjusted (addList_adjusted bundle s list)
  | removeList index =>
    cases Option.some.inj stepped
    rcases s.removeList_cases bundle index with ⟨_,same⟩ | ⟨_,ref,_,adjusted⟩
    · rw [same]
      exact listed
    · exact (listed.dropList index.toNat ref).adjusted adjusted
  | addLocalToken token =>
    cases Option.some.inj stepped
    rcases s.addLocalToken_cases bundle token with ⟨_,same⟩ | ⟨tokens,_,adjusted⟩
    · rw [same]
      exact listed
    · have saved : (s.setLocalTokens (tokens++[.token token])).Listed := listed.kept rfl (setLocalTokens_length s _)
      exact saved.adjusted adjusted

theorem Reachable.listed (reached : Reachable bundle s) : s.Listed := by
  induction reached with
  | opened storage => exact ⟨List.nodup_nil,fun _ member => absurd member List.not_mem_nil⟩
  | startInit _ started ih =>
    obtain ⟨_,_,_,_,rfl⟩ := startInit_cases started
    exact ⟨ih.distinct,ih.inside⟩
  | step _ stepped ih => exact step_listed ih stepped
  | finishInit _ finished ih =>
    obtain ⟨pending,lists,_,_,rfl⟩ := finishInit_cases finished
    exact (assembled_listed _ pending.states lists).adjusted (rebuildAndSync_adjusted bundle _)
  | savePairs _ defaultPairs ih => exact ⟨ih.distinct,ih.inside⟩

/-- A page that is opened for the first time. -/
def firstPage (bundle : Bundle) : Option Ran := (opened emptyStorage).startInit.bind fun s => s.finishInit bundle

theorem firstPage_reachable {ran : Ran} (loaded : firstPage bundle = some ran) : Reachable bundle ran.1 := by
  obtain ⟨s,started,finished⟩ := Option.bind_eq_some_iff.mp loaded
  exact .finishInit (.startInit (.opened emptyStorage) started) finished

end Store

end YPriceMagic.Frontend
