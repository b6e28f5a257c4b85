import Mathlib.Data.List.AList

/-! A map whose entries may expire. A later write replaces an entry with its lifetime; an expired
entry is not read any more, yet it stays stored, and listed, until it is culled. -/
namespace YPriceMagic.Python

inductive Life
  | permanent
  | timed
  | expired
  deriving DecidableEq, Repr

structure Row (ν : Type) where
  value : ν
  life : Life
  deriving DecidableEq, Repr

namespace Row
variable {ν : Type}

/-- A row at the end of its time to live. -/
def lapse : Row ν → Row ν
  | ⟨value,.timed⟩ => ⟨value,.expired⟩
  | row => row

/-- What culling leaves of a row. -/
def culled : Row ν → Option (Row ν)
  | ⟨_,.expired⟩ => none
  | row => some row

end Row

abbrev ExpiringStore (κ ν : Type) := AList (fun _ : κ => Row ν)

namespace ExpiringStore
variable {κ ν : Type} [DecidableEq κ]

def get (store : ExpiringStore κ ν) (key : κ) : Option ν :=
  (store.lookup key).bind fun row => if row.life = .expired then none else some row.value

def set (store : ExpiringStore κ ν) (key : κ) (value : ν) (life : Life) : ExpiringStore κ ν := store.insert key ⟨value,life⟩

def expire (store : ExpiringStore κ ν) (key : κ) : ExpiringStore κ ν :=
  match store.lookup key with
  | some ⟨value,.timed⟩ => store.insert key ⟨value,.expired⟩
  | _ => store

def cull (store : ExpiringStore κ ν) (key : κ) : ExpiringStore κ ν :=
  match store.lookup key with
  | some ⟨_,.expired⟩ => store.erase key
  | _ => store

variable (store : ExpiringStore κ ν) (written key : κ)

theorem lookup_set (value : ν) (life : Life) :
    (store.set written value life).lookup key = if key = written then some ⟨value,life⟩ else store.lookup key := by
  unfold set
  split
  · rename_i same
    rw [same,AList.lookup_insert]
  · rename_i other
    rw [AList.lookup_insert_ne other]

theorem lookup_expire : (store.expire written).lookup key =
    if key = written then (store.lookup key).map Row.lapse else store.lookup key := by
  by_cases same : key = written
  · subst same
    rw [if_pos rfl,expire]
    rcases found : store.lookup key with _ | ⟨value,life⟩
    · exact found
    · cases life with
      | timed => exact AList.lookup_insert _
      | permanent => exact found
      | expired => exact found
  · rw [if_neg same,expire]
    split
    · rw [AList.lookup_insert_ne same]
    · rfl

theorem lookup_cull : (store.cull written).lookup key =
    if key = written then (store.lookup key).bind Row.culled else store.lookup key := by
  by_cases same : key = written
  · subst same
    rw [if_pos rfl,cull]
    rcases found : store.lookup key with _ | ⟨value,life⟩
    · exact found
    · cases life with
      | expired => exact AList.lookup_erase _ _
      | permanent => exact found
      | timed => exact found
  · rw [if_neg same,cull]
    split
    · rw [AList.lookup_erase_ne same]
    · rfl

theorem get_some {value : ν} : store.get key = some value ↔
    ∃ life, store.lookup key = some ⟨value,life⟩ ∧ life ≠ .expired := by
  unfold get
  rcases found : store.lookup key with _ | ⟨stored,life⟩
  · simp
  · by_cases gone : life = .expired <;> simp [gone]

end ExpiringStore

end YPriceMagic.Python
