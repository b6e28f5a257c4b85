import Mathlib.Algebra.GroupWithZero.Nat
import Mathlib.Data.List.Basic

/-! Lists as tables indexed by creation order: an entry is replaced in place and
new entries join at the end, so an index names the same object for ever. -/
namespace YPriceMagic.Async

variable {α β : Type}

theorem map_set_same (items : List α) (f : α → β) {i : Nat} {old new : α}
    (found : items[i]? = some old) (same : f new = f old) : (items.set i new).map f = items.map f := by
  apply List.ext_getElem?
  intro j
  simp only [List.getElem?_map,List.getElem?_set]
  split
  · rename_i here
    subst here
    simp [(List.getElem?_eq_some_iff.mp found).1,(List.getElem?_eq_some_iff.mp found).2,same]
  · rfl

theorem countP_of_map {f : α → Bool} {first second : List α} (same : first.map f = second.map f) :
    first.countP f = second.countP f := by
  have counted := congrArg (List.countP id) same
  rw [List.countP_map,List.countP_map] at counted
  exact counted

theorem countP_set_same (items : List α) (f : α → Bool) {i : Nat} {old new : α}
    (found : items[i]? = some old) (same : f new = f old) : (items.set i new).countP f = items.countP f :=
  countP_of_map (map_set_same items f found same)

theorem countP_set_drop (items : List α) (f : α → Bool) {i : Nat} {old new : α}
    (found : items[i]? = some old) (counted : f old = true) (dropped : f new = false) :
    (items.set i new).countP f + 1 = items.countP f := by
  obtain ⟨inside,here⟩ := List.getElem?_eq_some_iff.mp found
  have positive : 0 < items.countP f := List.countP_pos_iff.mpr ⟨old,List.mem_of_getElem? found,counted⟩
  rw [List.countP_set inside]
  simp only [here,counted,dropped,if_true,Bool.false_eq_true,if_false]
  omega

/-- An entry that has grown makes the total grow. -/
theorem sum_set_le (measure : α → Nat) {items : List α} {i gain : Nat} {old new : α} (found : items[i]? = some old)
    (grown : measure old + gain ≤ measure new) : (items.map measure).sum + gain ≤ ((items.set i new).map measure).sum := by
  induction items generalizing i with
  | nil => simp at found
  | cons item rest ih =>
    cases i with
    | zero =>
      cases Option.some.inj found
      simp only [List.set_cons_zero,List.map_cons,List.sum_cons]
      omega
    | succ i =>
      have found : rest[i]? = some old := by simpa using found
      have tail := ih found
      simp only [List.set_cons_succ,List.map_cons,List.sum_cons]
      omega

theorem sum_map_le (measure : α → Nat) {most : Nat} (bounded : ∀ item, measure item ≤ most) (items : List α) :
    (items.map measure).sum ≤ most * items.length := by
  induction items with
  | nil => simp
  | cons item rest ih =>
    have first := bounded item
    simp only [List.map_cons,List.sum_cons,List.length_cons,Nat.mul_succ]
    omega

theorem countP_le_one (items : List α) (f : α → Bool)
    (unique : ∀ (i j : Nat) (a b : α), items[i]? = some a → items[j]? = some b → f a = true → f b = true → i = j) :
    items.countP f ≤ 1 := by
  induction items with
  | nil => simp
  | cons item rest ih =>
    by_cases counted : f item = true
    · have others : rest.countP f = 0 := by
        rw [List.countP_eq_zero]
        intro other member again
        obtain ⟨j,found⟩ := List.mem_iff_getElem?.mp member
        have clash := unique 0 (j+1) item other (by simp) (by simpa using found) counted again
        omega
      simp [counted,others]
    · have tail := ih fun i j a b first second => by
        intro left right
        have same := unique (i+1) (j+1) a b (by simpa using first) (by simpa using second) left right
        omega
      simpa [counted] using tail

theorem mem_snoc_table {items : List α} {new item : α} {i : Nat} (found : (items++[new])[i]? = some item) :
    items[i]? = some item ∨ (i = items.length ∧ item = new) := by
  rw [List.getElem?_append] at found
  split at found
  · exact Or.inl found
  · rename_i outside
    obtain ⟨last,same⟩ := List.getElem?_eq_some_iff.mp found
    simp only [List.length_singleton,Nat.lt_one_iff] at last
    refine Or.inr ⟨by omega,?_⟩
    rw [← same]
    exact List.getElem_singleton _

theorem mem_set_table {items : List α} {new item : α} {i j : Nat} (found : (items.set i new)[j]? = some item) :
    (j = i ∧ item = new) ∨ (j ≠ i ∧ items[j]? = some item) := by
  by_cases here : j = i
  · subst here
    rw [List.getElem?_set_self'] at found
    obtain ⟨_,_,same⟩ := Option.map_eq_some_iff.mp found
    exact Or.inl ⟨rfl,same.symm⟩
  · rw [List.getElem?_set_ne (Ne.symm here)] at found
    exact Or.inr ⟨here,found⟩

/-- Entries written one after another, where all writes to one place agree. -/
theorem foldl_set_getElem? {γ : Type} (writes : List γ) (place : γ → Nat) (value : γ → α) (items : List α)
    {i : Nat} {written : α} (agree : ∀ write ∈ writes, place write = i → value write = written) :
    (writes.foldl (fun items write => items.set (place write) (value write)) items)[i]? =
      if ∃ write ∈ writes, place write = i then items[i]?.map (fun _ => written) else items[i]? := by
  induction writes generalizing items with
  | nil => simp
  | cons write rest ih =>
    have later := ih (items.set (place write) (value write)) fun other member => agree other (List.mem_cons_of_mem _ member)
    rw [List.foldl_cons,later]
    by_cases here : place write = i
    · have same := agree write List.mem_cons_self here
      subst here
      have set : (items.set (place write) (value write))[place write]? = items[place write]?.map fun _ => written := by
        rw [List.getElem?_set]
        by_cases inside : place write < items.length <;> simp [inside,same]
      rw [set]
      simp [Function.comp_def]
    · rw [List.getElem?_set_ne here]
      simp [here]

end YPriceMagic.Async
