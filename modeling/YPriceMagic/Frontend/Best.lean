import Mathlib.Data.List.Nodup
import Mathlib.Data.List.Perm.Basic

/-! The first `n` of a list in the order of a stable sort. -/
namespace YPriceMagic.Frontend

section
variable {α : Type} (le : α → α → Bool) (n : Nat) (items : List α)

def best : List α := (items.mergeSort le).take n

theorem best_length : (best le n items).length = min n items.length := by
  rw [best,List.length_take,List.length_mergeSort]

theorem best_subset : ∀ item ∈ best le n items, item ∈ items :=
  fun _ member => List.mem_mergeSort.mp (List.mem_of_mem_take member)

theorem best_map_nodup {β : Type} (f : α → β) (distinct : (items.map f).Nodup) : ((best le n items).map f).Nodup := by
  have sorted : ((items.mergeSort le).map f).Nodup := ((List.mergeSort_perm items le).map f).nodup_iff.mpr distinct
  rw [best,List.map_take]
  exact sorted.sublist (List.take_sublist _ _)

variable (trans : ∀ a b c, le a b = true → le b c = true → le a c = true) (total : ∀ a b, (le a b || le b a) = true)

include trans total

theorem best_sorted : (best le n items).Pairwise fun first second => le first second = true :=
  (List.pairwise_mergeSort trans total items).sublist (List.take_sublist _ _)

/-- What is left out comes after all that is taken. -/
theorem best_before {item out : α} (taken : item ∈ best le n items) (present : out ∈ items) (left : out ∉ best le n items) :
    le item out = true := by
  have sorted := List.pairwise_mergeSort trans total items
  rw [← List.take_append_drop n (items.mergeSort le),List.pairwise_append] at sorted
  refine sorted.2.2 item taken out ?_
  have somewhere : out ∈ (items.mergeSort le).take n++(items.mergeSort le).drop n := by
    rw [List.take_append_drop]
    exact List.mem_mergeSort.mpr present
  exact (List.mem_append.mp somewhere).resolve_left left

end

end YPriceMagic.Frontend
