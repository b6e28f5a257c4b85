import Mathlib.Data.List.Basic

/-! A JavaScript map or record: its entries in insertion order, where writing a key that
is there changes its value in place. -/
namespace YPriceMagic.Frontend

abbrev JsMap (κ ν : Type) := List (κ × ν)

namespace JsMap

variable {κ ν : Type} [DecidableEq κ]

def get (map : JsMap κ ν) (key : κ) : Option ν := (map.find? fun entry => decide (entry.1 = key)).map (·.2)

def has (map : JsMap κ ν) (key : κ) : Bool := (map.get key).isSome

def set (map : JsMap κ ν) (key : κ) (value : ν) : JsMap κ ν :=
  if map.has key then map.map fun entry => if entry.1 = key then (key,value) else entry
  else map++[(key,value)]

def delete (map : JsMap κ ν) (key : κ) : JsMap κ ν := map.filter fun entry => decide (entry.1 ≠ key)

theorem get_delete (map : JsMap κ ν) (key other : κ) :
    (map.delete key).get other = if other = key then none else map.get other := by
  unfold get delete
  rw [List.find?_filter]
  split
  · rename_i same
    simp [same]
  · rename_i differs
    congr 2
    funext entry
    by_cases here : entry.1 = other <;> simp [here,differs]

theorem get_set (map : JsMap κ ν) (key other : κ) (value : ν) :
    (map.set key value).get other = if other = key then some value else map.get other := by
  unfold set has get
  split
  · rename_i present
    have keys : ((fun entry : κ × ν => decide (entry.1 = other)) ∘ fun entry => if entry.1 = key then (key,value) else entry) =
        fun entry => decide (entry.1 = other) := by
      funext entry
      by_cases here : entry.1 = key <;> simp [here]
    rw [List.find?_map,keys]
    cases found : map.find? fun entry => decide (entry.1 = other) with
    | none =>
      have differs : other ≠ key := by
        rintro rfl
        simp [found] at present
      simp [differs]
    | some entry =>
      have here : entry.1 = other := by simpa using List.find?_some found
      simp only [Option.map_some,here]
      split <;> rfl
  · rename_i absent
    rw [List.find?_append,List.find?_singleton]
    by_cases same : other = key
    · rw [Bool.not_eq_true,Option.isSome_eq_false_iff,Option.isNone_iff_eq_none,Option.map_eq_none_iff] at absent
      simp [same,absent]
    · simp [same,Ne.symm same]

section
variable {Item : Type} {key : Item → κ} {value : Item → ν}

/-- Of the items with one key, the last is the one that stays written. -/
theorem get_foldl_set (items : List Item) (map : JsMap κ ν) (other : κ) :
    (items.foldl (fun map item => map.set (key item) (value item)) map).get other =
      ((items.reverse.find? fun item => decide (key item = other)).map value).or (map.get other) := by
  induction items generalizing map with
  | nil => rfl
  | cons item rest ih =>
    rw [List.foldl_cons,ih,get_set,List.reverse_cons,List.find?_append,List.find?_singleton]
    cases later : rest.reverse.find? fun item => decide (key item = other) with
    | some last => rfl
    | none =>
      by_cases same : key item = other
      · simp [same]
      · simp [same,Ne.symm same]

theorem get_foldl_set_of_alike {items : List Item} {item : Item} (map : JsMap κ ν) (member : item ∈ items)
    (alike : ∀ other ∈ items, key other = key item → value other = value item) :
    (items.foldl (fun map item => map.set (key item) (value item)) map).get (key item) = some (value item) := by
  rw [get_foldl_set]
  cases last : items.reverse.find? fun other => decide (key other = key item) with
  | none =>
    have differs := List.find?_eq_none.mp last item (List.mem_reverse.mpr member)
    simp at differs
  | some other =>
    have same : key other = key item := by simpa using List.find?_some last
    have written := alike other (List.mem_reverse.mp (List.mem_of_find?_eq_some last)) same
    rw [Option.map_some,written]
    rfl

end

/-- `if (!map.has(key)) map.set(key, value)` -/
def setNew (map : JsMap κ ν) (key : κ) (value : ν) : JsMap κ ν := if map.has key then map else map.set key value

theorem get_setNew (map : JsMap κ ν) (key other : κ) (value : ν) :
    (map.setNew key value).get other = (map.get other).or (if other = key then some value else none) := by
  unfold setNew has
  split
  · rename_i present
    by_cases same : other = key
    · obtain ⟨old,found⟩ := Option.isSome_iff_exists.mp present
      simp [same,found]
    · simp [same]
  · rename_i absent
    rw [get_set]
    by_cases same : other = key
    · rw [Option.not_isSome_iff_eq_none] at absent
      simp [same,absent]
    · simp [same]

theorem get_map {μ : Type} (map : JsMap κ ν) (f : ν → μ) (key : κ) :
    JsMap.get (map.map fun entry => (entry.1,f entry.2)) key = (map.get key).map f := by
  unfold get
  rw [List.find?_map,Option.map_map,Option.map_map]
  rfl

/-- No key is entered twice. -/
def Distinct (map : JsMap κ ν) : Prop := (map.map (·.1)).Nodup

theorem mem_set {map : JsMap κ ν} {key : κ} {value : ν} {entry : κ × ν} (member : entry ∈ map.set key value) :
    entry = (key,value) ∨ entry ∈ map := by
  unfold set at member
  split at member
  · obtain ⟨old,there,changed⟩ := List.mem_map.mp member
    split at changed
    · exact Or.inl changed.symm
    · exact Or.inr (changed ▸ there)
  · exact (List.mem_append.mp member).symm.imp_left List.mem_singleton.mp

theorem mem_setNew {map : JsMap κ ν} {key : κ} {value : ν} {entry : κ × ν} (member : entry ∈ map.setNew key value) :
    entry = (key,value) ∨ entry ∈ map := by
  unfold setNew at member
  split at member
  · exact Or.inr member
  · exact mem_set member

theorem Distinct.set {map : JsMap κ ν} (distinct : map.Distinct) (key : κ) (value : ν) : (map.set key value).Distinct := by
  unfold JsMap.set
  split
  · have keys : (map.map fun entry => if entry.1 = key then (key,value) else entry).map (·.1) = map.map (·.1) := by
      rw [List.map_map]
      refine List.map_congr_left fun entry _ => ?_
      by_cases here : entry.1 = key <;> simp [here]
    rw [Distinct,keys]
    exact distinct
  · rename_i absent
    have fresh : key ∉ map.map (·.1) := by
      intro member
      obtain ⟨entry,there,here⟩ := List.mem_map.mp member
      rw [has,Option.not_isSome_iff_eq_none,get,Option.map_eq_none_iff,List.find?_eq_none] at absent
      exact absent entry there (by simpa using here)
    rw [Distinct,List.map_append]
    exact (List.perm_append_singleton key _).nodup_iff.mpr (List.nodup_cons.mpr ⟨fresh,distinct⟩)

theorem Distinct.setNew {map : JsMap κ ν} (distinct : map.Distinct) (key : κ) (value : ν) :
    (map.setNew key value).Distinct := by
  unfold JsMap.setNew
  split
  · exact distinct
  · exact distinct.set key value

end JsMap

end YPriceMagic.Frontend
