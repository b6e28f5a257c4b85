import YPriceMagic.Frontend.EnabledFlags
import YPriceMagic.Frontend.Reachable

/-! Which list a switch flips. -/
namespace YPriceMagic.Frontend

namespace Store

variable {bundle : Bundle} {s : Store} {ref : Nat} {list : ListMeta}

/-- The flag of one list object is flipped, and that of no other. -/
def Flips (s after : Store) (ref : Nat) : Prop :=
  after.flagAt ref = (s.flagAt ref).map (!·) ∧ ∀ other, other ≠ ref → after.flagAt other = s.flagAt other

theorem flagAt_metaAt (s : Store) (ref : Nat) : s.flagAt ref = (s.metaAt ref).map (·.enabled) := by
  rw [metaAt,Option.map_map]
  rfl

theorem toggleList_flagAt (bundle : Bundle) (s : Store) (key : String) (ref : Nat) :
    (s.toggleList bundle key).1.flagAt ref =
      if s.chosen key = some ref then (s.flagAt ref).map (!·) else s.flagAt ref := by
  have heap : (s.toggleList bundle key).1.flagAt ref = (s.switchList key).flagAt ref := by
    obtain ⟨_,_,_,same⟩ := toggleList_adjusted bundle s key
    rw [same]
    rfl
  rw [heap,flagAt_metaAt,flagAt_metaAt,switchList_metaAt,Option.map_map]
  unfold switched
  split
  · rw [Option.map_map]
    rfl
  · rfl

/-- The first list with the key is the one that is switched. -/
theorem chosen_iff (listed : s.Listed) (found : s.metaAt ref = some list) : s.chosen (getListKey list) = some ref ↔
    ∃ before after, s.lists = before++ref::after ∧ ∀ earlier ∈ before, s.keyAt earlier ≠ getListKey list := by
  have key (other : Nat) (member : other ∈ s.lists) : s.heap[other]?.map (fun list => getListKey list.toListMeta) = some (s.keyAt other) := by
    rw [keyAt,List.getElem?_eq_getElem (listed.inside other member)]
    rfl
  have own : s.heap[ref]?.map (fun list => getListKey list.toListMeta) = some (getListKey list) := by
    obtain ⟨entry,there,rfl⟩ := Option.map_eq_some_iff.mp found
    rw [there]
    rfl
  rw [chosen,List.find?_eq_some_iff_append]
  constructor
  · rintro ⟨_,before,after,split,others⟩
    refine ⟨before,after,split,fun earlier member same => ?_⟩
    have listed := key earlier (split ▸ List.mem_append_left _ member)
    simpa [listed,same] using others earlier member
  · rintro ⟨before,after,split,others⟩
    refine ⟨by simp [own],before,after,split,fun earlier member => ?_⟩
    have listed := key earlier (split ▸ List.mem_append_left _ member)
    simpa [listed] using others earlier member

/-- A switch flips its own list alone exactly when no list before it has its key. -/
theorem toggleList_flips_iff (reached : Reachable bundle s) (found : s.metaAt ref = some list) :
    Flips s (s.toggleList bundle (getListKey list)).1 ref ↔
      ∃ before after, s.lists = before++ref::after ∧ ∀ earlier ∈ before, s.keyAt earlier ≠ getListKey list := by
  rw [← chosen_iff reached.listed found]
  constructor
  · rintro ⟨flipped,_⟩
    by_contra other
    rw [toggleList_flagAt,if_neg other,flagAt_eq found] at flipped
    simp at flipped
  · intro chosen
    refine ⟨by rw [toggleList_flagAt,if_pos chosen],fun other differs => ?_⟩
    rw [toggleList_flagAt,if_neg]
    intro also
    exact differs (Option.some.inj (also.symm.trans chosen))

theorem toggleList_flips_mine :
    ∃ s, Reachable smallBundle s ∧ s.lists = [0,1,3,2] ∧ Flips s (s.toggleList smallBundle "Mine").1 3 := by
  obtain ⟨ran,opened,listed,mine,keys⟩ : ∃ ran ∈ firstPage smallBundle,
      (ran.1.addList smallBundle (fileList "Mine" [])).1.lists = [0,1,3,2] ∧
      (ran.1.addList smallBundle (fileList "Mine" [])).1.metaAt 3 = some (fileList "Mine" []).toListMeta ∧
      ∀ earlier ∈ [0,1], (ran.1.addList smallBundle (fileList "Mine" [])).1.keyAt earlier ≠ "Mine" := by decide +kernel
  have stepped : ran.1.step smallBundle (.addList (fileList "Mine" [])) = some (ran.1.addList smallBundle (fileList "Mine" [])).1 := rfl
  have reached := Reachable.step (firstPage_reachable opened) stepped
  exact ⟨_,reached,listed,(toggleList_flips_iff reached mine).mpr ⟨[0,1],[2],listed,keys⟩⟩

/-- The switch of "Default Pair Tokens" flips the bundled list. -/
theorem builtin_switch_flips_default :
    ∃ s, Reachable smallBundle s ∧ 1 ∈ s.lists ∧ s.metaAt 1 = some builtinList.toListMeta ∧
      s.flagAt 0 = some true ∧ (s.toggleList smallBundle (getListKey builtinList.toListMeta)).1.flagAt 0 = some false ∧
      ¬Flips s (s.toggleList smallBundle (getListKey builtinList.toListMeta)).1 1 := by
  obtain ⟨⟨s,_⟩,opened,member,builtin,before,after⟩ : ∃ ran ∈ firstPage smallBundle, 1 ∈ ran.1.lists ∧
      ran.1.metaAt 1 = some builtinList.toListMeta ∧ ran.1.flagAt 0 = some true ∧
      (ran.1.toggleList smallBundle (getListKey builtinList.toListMeta)).1.flagAt 0 = some false := by decide
  refine ⟨s,firstPage_reachable opened,member,builtin,before,after,fun flips => ?_⟩
  have same := flips.2 0 (by decide)
  rw [before,after] at same
  simp at same

end Store

end YPriceMagic.Frontend
