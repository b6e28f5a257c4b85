import YPriceMagic.Frontend.IndexEntries
import YPriceMagic.Frontend.Persistence

/-! The pair that a chain starts with: the stored custom pair, or the built-in default. -/
namespace YPriceMagic.Frontend

def pairJson (fromAddr toAddr : String) : Json := .object [("from",.string fromAddr),("to",.string toAddr)]

def defaultPairs : Chain → Json
  | .ethereum => pairJson "0xA0b86991c6218b36c1d19D4a2e9Eb0cE3606eB48" usdSentinel
  | .base => pairJson "0x833589fCD6eDb6E08f4c7C32D4f71b54bdA02913" usdSentinel

/-- Texts of ASCII characters alone are lowered letter by letter. -/
def LowersAscii (toLowerCase : String → String) : Prop :=
  ∀ text, (∀ c ∈ text.toList, c.toNat < 128) → toLowerCase text = asciiLower text

theorem LowersAscii.eq {toLowerCase : String → String} (ascii : LowersAscii toLowerCase) {text : String}
    (plain : text.toList.all (fun c => decide (c.toNat < 128)) = true) : toLowerCase text = asciiLower text :=
  ascii text fun c member => of_decide_eq_true (List.all_eq_true.mp plain c member)

/-- Two texts that differ ignoring case. -/
def Json.IsPair (bundle : Bundle) (pair : Json) : Prop :=
  ∃ fromAddr toAddr, pair.get "from" = .ok (some (.string fromAddr)) ∧ pair.get "to" = .ok (some (.string toAddr)) ∧
    bundle.toLowerCase fromAddr ≠ bundle.toLowerCase toAddr

theorem defaultPairs_isPair {bundle : Bundle} (ascii : LowersAscii bundle.toLowerCase) (chain : Chain) :
    (defaultPairs chain).IsPair bundle := by
  cases chain with
  | ethereum =>
    refine ⟨"0xA0b86991c6218b36c1d19D4a2e9Eb0cE3606eB48",usdSentinel,rfl,rfl,?_⟩
    rw [ascii.eq (by decide),ascii.eq (by decide)]
    decide
  | base =>
    refine ⟨"0x833589fCD6eDb6E08f4c7C32D4f71b54bdA02913",usdSentinel,rfl,rfl,?_⟩
    rw [ascii.eq (by decide),ascii.eq (by decide)]
    decide

namespace Store

variable (bundle : Bundle)

def getEffectivePair (s : Store) (chain : Chain) : Except JsError Json := do
  let custom ← s.getCustomPairs.get chain.key
  if truthy custom then
    let pair := custom.getD .null
    let fromAddr ← pairAddress bundle pair "from"
    let toAddr ← pairAddress bundle pair "to"
    if fromAddr ≠ toAddr then return pair
  return defaultPairs chain

/-- A pair, and no other than the stored one or the default. -/
def PairSelected (s : Store) (chain : Chain) : Prop :=
  ∃ pair : Json, s.getEffectivePair bundle chain = .ok pair ∧ pair.IsPair bundle ∧
    (s.getCustomPairs.get chain.key = .ok (some pair) ∨ pair = defaultPairs chain)

variable {bundle} {s : Store} {chain : Chain}

theorem pairAddress_ok_iff (pair : Json) (side lowered : String) : pairAddress bundle pair side = .ok lowered ↔
    ∃ text, pair.get side = .ok (some (.string text)) ∧ bundle.toLowerCase text = lowered := by
  unfold pairAddress
  cases read : pair.get side with
  | error error => simp [bind,Except.bind]
  | ok value =>
    cases value with
    | none => simp [bind,Except.bind,throw,throwThe,MonadExceptOf.throw]
    | some value => cases value <;> simp [bind,Except.bind,throw,throwThe,MonadExceptOf.throw,pure,Except.pure]

theorem getEffectivePair_default {custom : Option Json} (read : s.getCustomPairs.get chain.key = .ok custom)
    (falsy : truthy custom = false) : s.getEffectivePair bundle chain = .ok (defaultPairs chain) := by
  rw [getEffectivePair,read]
  simp [falsy,bind,Except.bind,pure,Except.pure]

theorem getEffectivePair_custom {custom : Option Json} (read : s.getCustomPairs.get chain.key = .ok custom)
    (there : truthy custom = true) : s.getEffectivePair bundle chain =
      (pairAddress bundle (custom.getD .null) "from").bind fun fromAddr =>
        (pairAddress bundle (custom.getD .null) "to").bind fun toAddr =>
          .ok (if fromAddr ≠ toAddr then custom.getD .null else defaultPairs chain) := by
  rw [getEffectivePair,read]
  simp only [there,bind,Except.bind,pure,Except.pure,if_true]
  cases pairAddress bundle (custom.getD .null) "from" with
  | error error => rfl
  | ok fromAddr =>
    cases pairAddress bundle (custom.getD .null) "to" with
    | error error => rfl
    | ok toAddr =>
      dsimp only
      split <;> rfl

/-- A pair is selected exactly when the stored value is not `null` and what it holds for the
chain is missing, falsy, or has a text on each side. -/
theorem pairSelected_iff (bundle : Bundle) (ascii : LowersAscii bundle.toLowerCase) (s : Store) (chain : Chain) :
    s.PairSelected bundle chain ↔ s.getCustomPairs.PairAt chain.key := by
  have default := defaultPairs_isPair ascii chain
  constructor
  · rintro ⟨pair,selected,_,_⟩
    cases read : s.getCustomPairs.get chain.key with
    | error error =>
      rw [getEffectivePair,read] at selected
      simp [bind,Except.bind] at selected
    | ok custom =>
      refine ⟨custom,read,fun there => ?_⟩
      rw [getEffectivePair_custom read there] at selected
      cases first : pairAddress bundle (custom.getD .null) "from" with
      | error error => simp [first,Except.bind] at selected
      | ok fromAddr =>
        cases second : pairAddress bundle (custom.getD .null) "to" with
        | error error => simp [first,second,Except.bind] at selected
        | ok toAddr =>
          obtain ⟨fromText,fromRead,_⟩ := (pairAddress_ok_iff _ _ _).mp first
          obtain ⟨toText,toRead,_⟩ := (pairAddress_ok_iff _ _ _).mp second
          exact ⟨fromText,toText,fromRead,toRead⟩
  · rintro ⟨custom,read,texts⟩
    cases there : truthy custom with
    | false => exact ⟨_,getEffectivePair_default read there,default,Or.inr rfl⟩
    | true =>
      obtain ⟨fromText,toText,fromRead,toRead⟩ := texts there
      have selected : s.getEffectivePair bundle chain = _ := getEffectivePair_custom read there
      rw [(pairAddress_ok_iff _ _ _).mpr ⟨fromText,fromRead,rfl⟩,(pairAddress_ok_iff _ _ _).mpr ⟨toText,toRead,rfl⟩] at selected
      refine ⟨_,selected,?_⟩
      split
      · rename_i differs
        cases custom with
        | none => simp [truthy] at there
        | some pair => exact ⟨⟨fromText,toText,fromRead,toRead,differs⟩,Or.inl read⟩
      · exact ⟨default,Or.inr rfl⟩

theorem pairSelected_swapped :
    (opened {emptyStorage with defaultPairs := .value (.object [("base",pairJson "0xAA" "usd")])}).PairSelected smallBundle .base :=
  (pairSelected_iff smallBundle (fun _ _ => rfl) _ .base).mpr
    ⟨some (pairJson "0xAA" "usd"),rfl,fun _ => ⟨"0xAA","usd",rfl,rfl⟩⟩

theorem null_pairs_throw :
    (opened {emptyStorage with defaultPairs := .value .null}).getEffectivePair smallBundle .ethereum = .error .typeError ∧
    ¬(opened {emptyStorage with defaultPairs := .value .null}).PairSelected smallBundle .ethereum := by
  refine ⟨rfl,?_⟩
  rintro ⟨pair,selected,_⟩
  cases selected

end Store

end YPriceMagic.Frontend
