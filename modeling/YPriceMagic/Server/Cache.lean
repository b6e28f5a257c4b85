import Mathlib.Data.List.AList
import YPriceMagic.Server.Upstream

/-! The disk cache: one entry for a token and a block, a price or an error. The store
itself is a map whose operations succeed and whose error entries may expire. -/
namespace YPriceMagic.Server

/-- `str.lower` on the characters of an address. -/
def lower (token : String) : String := String.ofList (token.toList.map Char.toLower)

def makeKey (token : String) (block : Nat) : String := lower token ++ ":" ++ toString block

/-- The fields of a stored dictionary; a missing `block_timestamp` reads as `None`. -/
structure Entry where
  price : Option PyFloat
  blockTimestamp : Option Int
  outcome : Option String
  error : Option String
  deriving DecidableEq, Repr

inductive Value
  | dict (entry : Entry)
  | other
  deriving DecidableEq, Repr

structure Stored where
  value : Value
  expires : Bool
  deriving DecidableEq, Repr

structure CachedPrice where
  price : PyFloat
  blockTimestamp : Option Int
  deriving DecidableEq, Repr

abbrev Cache := AList (fun _ : String => Stored)

namespace Cache

def priceOf : Value → Option CachedPrice
  | .dict entry => entry.price.map (⟨·,entry.blockTimestamp⟩)
  | .other => none

/-- The error of a stored value, where it carries the explicit outcome marker. -/
def errorOf : Value → Option String
  | .dict entry => if entry.outcome = some "no_price" then entry.error else none
  | .other => none

def priceAt (cache : Cache) (key : String) : Option CachedPrice :=
  (cache.lookup key).bind fun stored => priceOf stored.value

def getCachedPrice (cache : Cache) (token : String) (block : Nat) : Option CachedPrice :=
  cache.priceAt (makeKey token block)

def getCachedError (cache : Cache) (token : String) (block : Nat) : Option String :=
  (cache.lookup (makeKey token block)).bind fun stored => errorOf stored.value

def setCachedPrice (cache : Cache) (token : String) (block : Nat) (price : PyFloat)
    (blockTimestamp : Option Int) : Cache :=
  cache.insert (makeKey token block) ⟨.dict ⟨some price,blockTimestamp,none,none⟩,false⟩

def setCachedError (cache : Cache) (token : String) (block : Nat) (error : String) : Cache :=
  cache.insert (makeKey token block) ⟨.dict ⟨none,none,some "no_price",some error⟩,true⟩

/-- The end of an entry's time to live, for the entries that have one. -/
def expire (cache : Cache) (key : String) : Option Cache :=
  (cache.lookup key).bind fun stored => if stored.expires then some (cache.erase key) else none

def PricesPermanent (cache : Cache) : Prop :=
  ∀ key stored, cache.lookup key = some stored → stored.expires = true → priceOf stored.value = none

variable (cache : Cache) (token : String) (block : Nat)

theorem priceAt_insert (written key : String) (stored : Stored) :
    priceAt (cache.insert written stored) key = if key = written then priceOf stored.value else cache.priceAt key := by
  unfold priceAt
  split
  · rename_i same
    subst same
    rw [AList.lookup_insert]
    rfl
  · rename_i other
    rw [AList.lookup_insert_ne other]

theorem priceAt_setCachedPrice (price : PyFloat) (blockTimestamp : Option Int) (key : String) :
    (cache.setCachedPrice token block price blockTimestamp).priceAt key =
      if key = makeKey token block then some ⟨price,blockTimestamp⟩ else cache.priceAt key :=
  priceAt_insert cache _ key _

theorem priceAt_setCachedError (error : String) (key : String) :
    (cache.setCachedError token block error).priceAt key =
      if key = makeKey token block then none else cache.priceAt key :=
  priceAt_insert cache _ key _

theorem expire_some {cache after : Cache} {key : String} (expired : cache.expire key = some after) :
    ∃ stored, cache.lookup key = some stored ∧ stored.expires = true ∧ after = cache.erase key := by
  obtain ⟨stored,found,expired⟩ := Option.bind_eq_some_iff.mp expired
  split at expired
  · rename_i expires
    exact ⟨stored,found,expires,(Option.some.inj expired).symm⟩
  · simp at expired

theorem priceAt_expire {cache after : Cache} {expiring : String} (permanent : cache.PricesPermanent)
    (expired : cache.expire expiring = some after) (key : String) : after.priceAt key = cache.priceAt key := by
  obtain ⟨stored,found,expires,rfl⟩ := expire_some expired
  unfold priceAt
  by_cases same : key = expiring
  · subst same
    rw [AList.lookup_erase,found]
    exact (permanent key stored found expires).symm
  · rw [AList.lookup_erase_ne same]

theorem PricesPermanent.insert {cache : Cache} (permanent : cache.PricesPermanent) (written : String) {stored : Stored}
    (priceless : stored.expires = true → priceOf stored.value = none) : PricesPermanent (cache.insert written stored) := by
  intro key other found expires
  by_cases same : key = written
  · subst same
    rw [AList.lookup_insert] at found
    cases Option.some.inj found
    exact priceless expires
  · rw [AList.lookup_insert_ne same] at found
    exact permanent key other found expires

theorem PricesPermanent.setCachedPrice {cache : Cache} (permanent : cache.PricesPermanent) (price : PyFloat)
    (blockTimestamp : Option Int) : (cache.setCachedPrice token block price blockTimestamp).PricesPermanent :=
  permanent.insert _ fun expires => by simp at expires

theorem PricesPermanent.setCachedError {cache : Cache} (permanent : cache.PricesPermanent) (error : String) :
    (cache.setCachedError token block error).PricesPermanent :=
  permanent.insert _ fun _ => rfl

theorem PricesPermanent.expire {cache after : Cache} {expiring : String} (permanent : cache.PricesPermanent)
    (expired : cache.expire expiring = some after) : after.PricesPermanent := by
  obtain ⟨_,_,_,rfl⟩ := expire_some expired
  intro key stored found expires
  by_cases same : key = expiring
  · subst same
    simp at found
  · rw [AList.lookup_erase_ne same] at found
    exact permanent key stored found expires

end Cache

theorem split_last {separator : Char} {first second tail rest : List Char} (absent : separator ∉ tail)
    (missing : separator ∉ rest) (same : first++separator::tail = second++separator::rest) :
    first = second ∧ tail = rest := by
  rcases List.append_eq_append_iff.mp same with ⟨middle,rfl,left⟩ | ⟨middle,rfl,right⟩
  · cases middle with
    | nil => exact ⟨by simp,(List.cons.inj left).2⟩
    | cons head middle =>
      have moved := (List.cons.inj left).2
      exact absurd (by rw [moved]; simp) absent
  · cases middle with
    | nil => exact ⟨by simp,(List.cons.inj right).2.symm⟩
    | cons head middle =>
      have moved := (List.cons.inj right).2
      exact absurd (by rw [moved]; simp) missing

theorem colon_not_mem_toString (block : Nat) : ':' ∉ (toString block).toList := by
  intro member
  rw [Nat.toString_eq_repr,Nat.toList_repr] at member
  exact absurd (Nat.isDigit_of_mem_toDigits (by decide) (by decide) member) (by decide)

theorem toString_injective {first second : Nat} (same : (toString first).toList = (toString second).toList) :
    first = second := by
  rw [Nat.toString_eq_repr,Nat.toString_eq_repr,Nat.toList_repr,Nat.toList_repr] at same
  have read := congrArg (Nat.ofDigitChars 10 · 0) same
  simpa only [Nat.ofDigitChars_ten_toDigits] using read

/-- A key determines the block and the token up to letter case. -/
theorem makeKey_injective {first second : String} {block other : Nat}
    (same : makeKey first block = makeKey second other) : lower first = lower second ∧ block = other := by
  have characters := congrArg String.toList same
  have colon : (":" : String).toList = [':'] := rfl
  simp only [makeKey,String.toList_append,colon,List.append_assoc,List.singleton_append] at characters
  obtain ⟨tokens,blocks⟩ := split_last (colon_not_mem_toString block) (colon_not_mem_toString other) characters
  exact ⟨String.toList_inj.mp tokens,toString_injective blocks⟩

end YPriceMagic.Server
