import Mathlib.Algebra.Order.Ring.Rat
import Mathlib.Data.Fintype.Basic
import Mathlib.Data.List.Infix
import Mathlib.Data.List.ReduceOption
import Mathlib.Data.String.Basic
import Mathlib.Tactic.Linarith
import YPriceMagic.Frontend.Best
import YPriceMagic.Frontend.IndexEntries

/-! `searchTokens`: the tokens of a chain that match a query, the best twenty of them. -/
namespace YPriceMagic.Frontend

def startsWith (text part : String) : Bool := decide (part.toList <+: text.toList)

def includes (text part : String) : Bool := decide (part.toList <:+: text.toList)

structure SearchResult where
  token : IndexedToken
  rank : Rat

section
variable (bundle : Bundle) (localeCompare : String → String → Int)

/-- `toLowerCase` of what may be no text. -/
def lowered : Option String → Except JsError String
  | some text => .ok (bundle.toLowerCase text)
  | none => .error .typeError

def searchRank (q symLower nameLower addrLower : String) : Int :=
  if symLower = q then 0
  else if startsWith symLower q then 1
  else if includes symLower q then 2
  else if includes nameLower q then 3
  else if startsWith addrLower q then 4
  else -1

/-- The USD sentinel or the native token. -/
def isSpecial (token : Token) : Bool :=
  let addrLower := bundle.toLowerCase token.address
  decide (addrLower = bundle.toLowerCase usdSentinel) || decide (addrLower = bundle.toLowerCase nativeTokenAddress)

def searchResult (q : String) (token : IndexedToken) : Except JsError (Option SearchResult) := do
  let symLower ← lowered bundle token.token.symbol
  let nameLower ← lowered bundle token.token.name
  let rank := searchRank q symLower nameLower (bundle.toLowerCase token.token.address)
  return if 0 ≤ rank then some ⟨token,if isSpecial bundle token.token then rank-1/2 else rank⟩ else none

/-- `a.rank - b.rank || a.token.symbol.localeCompare(b.token.symbol)`: what got a rank has a symbol. -/
def compareResults (a b : SearchResult) : Rat :=
  if a.rank-b.rank ≠ 0 then a.rank-b.rank
  else localeCompare (a.token.token.symbol.getD "") (b.token.token.symbol.getD "")

def searchTokens (index : TokenIndex) (query : String) (chainId : Option Int) : Except JsError (List IndexedToken) :=
  match index.get chainId with
  | none => .ok []
  | some chainMap =>
    if query = "" then .ok []
    else do
      let q := bundle.toLowerCase query
      let ranked ← chainMap.mapM fun entry => searchResult bundle q entry.2
      return (best (fun a b => decide (compareResults localeCompare a b ≤ 0)) 20 ranked.reduceOption).map (·.token)

end

/-- `String.prototype.localeCompare` as a total preorder. -/
structure Comparison (compare : String → String → Int) : Prop where
  flip : ∀ a b, 0 < compare a b ↔ compare b a < 0
  trans : ∀ a b c, compare a b ≤ 0 → compare b c ≤ 0 → compare a c ≤ 0

/-- How a token can match a query, the best way first. -/
inductive Tier
  | exactSymbol
  | symbolPrefix
  | symbolContains
  | nameContains
  | addressPrefix
  deriving DecidableEq, Repr

namespace Tier

def place : Tier → Nat
  | exactSymbol => 0
  | symbolPrefix => 1
  | symbolContains => 2
  | nameContains => 3
  | addressPrefix => 4

theorem place_injective : Function.Injective place := by
  intro tier other same
  cases tier <;> cases other <;> simp_all [place]

instance : Fintype Tier where
  elems := {exactSymbol,symbolPrefix,symbolContains,nameContains,addressPrefix}
  complete tier := by cases tier <;> simp

end Tier

section
variable (bundle : Bundle) (query : String) (token : Token)

/-- Letter case is ignored. -/
def Tier.Holds : Tier → Prop
  | exactSymbol => ∃ symbol ∈ token.symbol, bundle.toLowerCase symbol = bundle.toLowerCase query
  | symbolPrefix => ∃ symbol ∈ token.symbol, startsWith (bundle.toLowerCase symbol) (bundle.toLowerCase query) = true
  | symbolContains => ∃ symbol ∈ token.symbol, includes (bundle.toLowerCase symbol) (bundle.toLowerCase query) = true
  | nameContains => ∃ name ∈ token.name, includes (bundle.toLowerCase name) (bundle.toLowerCase query) = true
  | addressPrefix => startsWith (bundle.toLowerCase token.address) (bundle.toLowerCase query) = true

instance : (tier : Tier) → Decidable (tier.Holds bundle query token)
  | .exactSymbol | .symbolPrefix | .symbolContains => inferInstanceAs (Decidable (∃ symbol ∈ token.symbol, _))
  | .nameContains => inferInstanceAs (Decidable (∃ name ∈ token.name, _))
  | .addressPrefix => inferInstanceAs (Decidable (_ = true))

def Matches : Prop := ∃ tier : Tier, tier.Holds bundle query token

instance : Decidable (Matches bundle query token) := inferInstanceAs (Decidable (∃ tier : Tier, tier.Holds bundle query token))

/-- The best of the tiers that hold. -/
def InTier (tier : Tier) : Prop :=
  tier.Holds bundle query token ∧ ∀ better : Tier, better.place < tier.place → ¬better.Holds bundle query token

def HasTexts : Prop := token.symbol.isSome = true ∧ token.name.isSome = true

instance : Decidable (HasTexts token) := inferInstanceAs (Decidable (_ ∧ _))

variable {bundle query token}

/-- Two tiers in which a token is best are one. -/
theorem InTier.unique {tier other : Tier} (within : InTier bundle query token tier) (also : InTier bundle query token other) :
    tier = other := by
  rcases Nat.lt_trichotomy tier.place other.place with before | same | after
  · exact absurd within.1 (also.2 tier before)
  · exact Tier.place_injective same
  · exact absurd also.1 (within.2 other after)

theorem searchRank_cases {symbol name : String} (hasSymbol : token.symbol = some symbol) (hasName : token.name = some name) :
    let rank := searchRank (bundle.toLowerCase query) (bundle.toLowerCase symbol) (bundle.toLowerCase name)
      (bundle.toLowerCase token.address)
    (rank = -1 ∧ ¬Matches bundle query token) ∨ ∃ tier : Tier, rank = tier.place ∧ InTier bundle query token tier := by
  unfold searchRank InTier
  dsimp only
  split
  · rename_i same
    exact Or.inr ⟨.exactSymbol,rfl,⟨symbol,hasSymbol,same⟩,fun better worse => absurd worse (Nat.not_lt_zero _)⟩
  · rename_i differs
    split
    · rename_i starts
      refine Or.inr ⟨.symbolPrefix,rfl,⟨symbol,hasSymbol,starts⟩,fun better worse => ?_⟩
      cases better <;> simp_all [Tier.place,Tier.Holds]
    · rename_i later
      split
      · rename_i inside
        refine Or.inr ⟨.symbolContains,rfl,⟨symbol,hasSymbol,inside⟩,fun better worse => ?_⟩
        cases better <;> simp_all [Tier.place,Tier.Holds]
      · rename_i outside
        split
        · rename_i named
          refine Or.inr ⟨.nameContains,rfl,⟨name,hasName,named⟩,fun better worse => ?_⟩
          cases better <;> simp_all [Tier.place,Tier.Holds]
        · rename_i nameless
          split
          · rename_i addressed
            refine Or.inr ⟨.addressPrefix,rfl,addressed,fun better worse => ?_⟩
            cases better <;> simp_all [Tier.place,Tier.Holds]
          · rename_i nowhere
            refine Or.inl ⟨rfl,fun ⟨tier,holds⟩ => ?_⟩
            cases tier <;> simp_all [Tier.Holds]

end

section
variable (bundle : Bundle) (localeCompare : String → String → Int) (query : String)

/-- In a better tier, or in the same tier as a special token before another, or else not after
it by symbol. -/
def NotAfter (first second : Token) : Prop :=
  ∀ tier other, InTier bundle query first tier → InTier bundle query second other →
    tier.place < other.place ∨ tier = other ∧ (isSpecial bundle first = true ∧ isSpecial bundle second = false ∨
      isSpecial bundle first = isSpecial bundle second ∧
        ∀ symbol ∈ first.symbol, ∀ later ∈ second.symbol, localeCompare symbol later ≤ 0)

/-- The best twenty of the tokens that match, in order. -/
structure BestTwenty (tokens found : List IndexedToken) : Prop where
  distinct : (found.map fun entry => bundle.toLowerCase entry.token.address).Nodup
  length : found.length = min 20 (tokens.countP fun entry => decide (Matches bundle query entry.token))
  matching : ∀ entry ∈ found, entry ∈ tokens ∧ Matches bundle query entry.token
  sorted : found.Pairwise fun first second => NotAfter bundle localeCompare query first.token second.token
  cutOff : ∀ entry ∈ tokens, Matches bundle query entry.token → entry ∉ found →
    ∀ better ∈ found, NotAfter bundle localeCompare query better.token entry.token

/-- The half step that a special token is moved up. -/
def boost (special : Bool) : Rat := if special then 1/2 else 0

theorem boosted_lt_iff (place other : Nat) (first second : Bool) :
    (place : Rat)-boost first < other-boost second ↔ place < other ∨ place = other ∧ first = true ∧ second = false := by
  have small (special : Bool) : 0 ≤ boost special ∧ boost special ≤ 1/2 := by
    cases special <;> norm_num [boost]
  rcases Nat.lt_trichotomy place other with before | rfl | after
  · have next : (place : Rat)+1 ≤ other := by exact_mod_cast before
    refine iff_of_true ?_ (Or.inl before)
    linarith [(small first).1,(small second).2]
  · cases first <;> cases second <;> norm_num [boost]
  · have next : (other : Rat)+1 ≤ place := by exact_mod_cast after
    refine iff_of_false ?_ (by omega)
    linarith [(small first).2,(small second).1]

theorem boosted_eq_iff (place other : Nat) (first second : Bool) :
    (place : Rat)-boost first = other-boost second ↔ place = other ∧ first = second := by
  refine ⟨fun same => ?_,fun ⟨places,flags⟩ => by rw [places,flags]⟩
  have before := (boosted_lt_iff place other first second).not.mp same.not_lt
  have after := (boosted_lt_iff other place second first).not.mp same.symm.not_lt
  cases first <;> cases second <;> simp_all <;> omega

theorem compareResults_iff (a b : SearchResult) : compareResults localeCompare a b ≤ 0 ↔
    a.rank < b.rank ∨ a.rank = b.rank ∧
      localeCompare (a.token.token.symbol.getD "") (b.token.token.symbol.getD "") ≤ 0 := by
  unfold compareResults
  split
  · rename_i differs
    rw [sub_ne_zero] at differs
    rw [sub_nonpos,le_iff_lt_or_eq]
    simp [differs]
  · rename_i same
    rw [not_not,sub_eq_zero] at same
    simp [same]

variable {localeCompare} in
theorem Comparison.total (comparison : Comparison localeCompare) (a b : SearchResult) :
    (decide (compareResults localeCompare a b ≤ 0) || decide (compareResults localeCompare b a ≤ 0)) = true := by
  rw [Bool.or_eq_true,decide_eq_true_eq,decide_eq_true_eq,compareResults_iff,compareResults_iff]
  rcases lt_trichotomy a.rank b.rank with before | same | after
  · exact Or.inl (Or.inl before)
  · by_cases ordered : localeCompare (a.token.token.symbol.getD "") (b.token.token.symbol.getD "") ≤ 0
    · exact Or.inl (Or.inr ⟨same,ordered⟩)
    · exact Or.inr (Or.inr ⟨same.symm,((comparison.flip _ _).mp (not_le.mp ordered)).le⟩)
  · exact Or.inr (Or.inl after)

variable {localeCompare} in
theorem Comparison.transitive (comparison : Comparison localeCompare) (a b c : SearchResult)
    (first : decide (compareResults localeCompare a b ≤ 0) = true)
    (second : decide (compareResults localeCompare b c ≤ 0) = true) :
    decide (compareResults localeCompare a c ≤ 0) = true := by
  rw [decide_eq_true_eq,compareResults_iff] at first second ⊢
  rcases first with before | ⟨same,ordered⟩
  · rcases second with after | ⟨also,_⟩
    · exact Or.inl (before.trans after)
    · exact Or.inl (also ▸ before)
  · rcases second with after | ⟨also,then_⟩
    · exact Or.inl (same ▸ after)
    · exact Or.inr ⟨same.trans also,comparison.trans _ _ _ ordered then_⟩

variable {bundle query localeCompare}

theorem searchResult_ok_iff {q : String} {token : IndexedToken} :
    (∃ result, searchResult bundle q token = .ok result) ↔ HasTexts token.token := by
  unfold searchResult HasTexts
  cases token.token.symbol <;> cases token.token.name <;> simp [lowered,bind,Except.bind,pure,Except.pure]

/-- A token that has texts gets the rank of its tier, or no rank where it does not match. -/
theorem searchResult_ok {token : IndexedToken} {result : Option SearchResult}
    (produced : searchResult bundle (bundle.toLowerCase query) token = .ok result) :
    (result = none ∧ ¬Matches bundle query token.token) ∨
    ∃ tier, InTier bundle query token.token tier ∧
      result = some ⟨token,tier.place-boost (isSpecial bundle token.token)⟩ := by
  obtain ⟨hasSymbol,hasName⟩ := searchResult_ok_iff.mp ⟨result,produced⟩
  obtain ⟨symbol,isSymbol⟩ := Option.isSome_iff_exists.mp hasSymbol
  obtain ⟨name,isName⟩ := Option.isSome_iff_exists.mp hasName
  simp only [searchResult,isSymbol,isName,lowered,bind,Except.bind,pure,Except.pure,Except.ok.injEq] at produced
  rcases @searchRank_cases bundle query _ _ _ isSymbol isName with ⟨rank,unmatched⟩ | ⟨tier,rank,within⟩
  · refine Or.inl ⟨?_,unmatched⟩
    rw [← produced,rank]
    rfl
  · refine Or.inr ⟨tier,within,?_⟩
    rw [← produced,rank,if_pos (Int.natCast_nonneg _)]
    cases special : isSpecial bundle token.token <;> simp [boost]

section
variable {tokens : List IndexedToken} {ranked : List (Option SearchResult)}

theorem ranked_matches (each : List.Forall₂ (fun token result => searchResult bundle (bundle.toLowerCase query) token = .ok result)
      tokens ranked) :
    ranked.reduceOption.map (·.token) = tokens.filter fun entry => decide (Matches bundle query entry.token) := by
  induction each with
  | nil => rfl
  | cons first others ih =>
    rw [List.filter_cons]
    rcases searchResult_ok first with ⟨rfl,unmatched⟩ | ⟨tier,within,rfl⟩
    · simp [unmatched,ih]
    · have matched : Matches bundle query _ := ⟨tier,within.1⟩
      simp [matched,ih]

theorem ranked_mem (each : List.Forall₂ (fun token result => searchResult bundle (bundle.toLowerCase query) token = .ok result)
      tokens ranked) {result : SearchResult} (member : result ∈ ranked.reduceOption) :
    ∃ tier, InTier bundle query result.token.token tier ∧
      result.rank = tier.place-boost (isSpecial bundle result.token.token) := by
  induction each with
  | nil => simp at member
  | cons first others ih =>
    rcases searchResult_ok first with ⟨rfl,_⟩ | ⟨tier,within,rfl⟩
    · exact ih (by simpa using member)
    · rcases List.mem_cons.mp (by simpa using member) with rfl | later
      · exact ⟨tier,within,rfl⟩
      · exact ih later

theorem notAfter_of_compare (each : List.Forall₂ (fun token result => searchResult bundle (bundle.toLowerCase query) token = .ok result)
      tokens ranked) {a b : SearchResult} (first : a ∈ ranked.reduceOption) (second : b ∈ ranked.reduceOption)
    (ordered : decide (compareResults localeCompare a b ≤ 0) = true) :
    NotAfter bundle localeCompare query a.token.token b.token.token := by
  obtain ⟨tier,within,rank⟩ := ranked_mem each first
  obtain ⟨below,inside,under⟩ := ranked_mem each second
  intro tier' below' within' inside'
  obtain rfl := within.unique within'
  obtain rfl := inside.unique inside'
  rw [decide_eq_true_eq,compareResults_iff,rank,under,boosted_lt_iff,boosted_eq_iff] at ordered
  rcases ordered with (better | ⟨same,special,plain⟩) | ⟨⟨same,alike⟩,symbols⟩
  · exact Or.inl better
  · exact Or.inr ⟨Tier.place_injective same,Or.inl ⟨special,plain⟩⟩
  · refine Or.inr ⟨Tier.place_injective same,Or.inr ⟨alike,fun symbol here later there => ?_⟩⟩
    rwa [here,there] at symbols

end

end

section
variable {bundle : Bundle} {localeCompare : String → String → Int} {lists : List TokenlistEntry} {index : TokenIndex}
  {chainId : Option Int} {chainMap : JsMap String IndexedToken} {query : String}

theorem searchTokens_ok_iff (chain : index.get chainId = some chainMap) (nonempty : query ≠ "") {found : List IndexedToken} :
    searchTokens bundle localeCompare index query chainId = .ok found ↔
    ∃ ranked, List.Forall₂ (fun token result => searchResult bundle (bundle.toLowerCase query) token = .ok result)
        (chainMap.map (·.2)) ranked ∧
      found = (best (fun a b => decide (compareResults localeCompare a b ≤ 0)) 20 ranked.reduceOption).map (·.token) := by
  have each (ranked : List (Option SearchResult)) :
      chainMap.mapM (fun entry => searchResult bundle (bundle.toLowerCase query) entry.2) = .ok ranked ↔
        List.Forall₂ (fun entry result => searchResult bundle (bundle.toLowerCase query) entry.2 = .ok result) chainMap ranked :=
    mapM_ok_iff
  simp only [List.forall₂_map_left_iff,← each]
  unfold searchTokens
  rw [chain]
  dsimp only
  rw [if_neg nonempty]
  cases chainMap.mapM fun entry => searchResult bundle (bundle.toLowerCase query) entry.2 with
  | error error => simp [bind,Except.bind]
  | ok ranked => simp [bind,Except.bind,pure,Except.pure,eq_comm]

theorem searchTokens_returns_iff (chain : index.get chainId = some chainMap) (nonempty : query ≠ "") :
    (∃ found, searchTokens bundle localeCompare index query chainId = .ok found) ↔
      ∀ entry ∈ chainMap.map (·.2), HasTexts entry.token := by
  have texts : (∃ ranked, (chainMap.map (·.2)).mapM (searchResult bundle (bundle.toLowerCase query)) = .ok ranked) ↔
      ∀ entry ∈ chainMap.map (·.2), ∃ result, searchResult bundle (bundle.toLowerCase query) entry = .ok result := mapM_ok_exists_iff
  simp only [searchResult_ok_iff,mapM_ok_iff] at texts
  rw [← texts]
  simp only [searchTokens_ok_iff chain nonempty]
  exact ⟨fun ⟨_,ranked,each,_⟩ => ⟨ranked,each⟩,fun ⟨ranked,each⟩ => ⟨_,ranked,each,rfl⟩⟩

theorem bestTwenty_of_found (comparison : Comparison localeCompare) (built : buildTokenIndex bundle lists = .ok index)
    (chain : index.get chainId = some chainMap) (nonempty : query ≠ "") {found : List IndexedToken}
    (searched : searchTokens bundle localeCompare index query chainId = .ok found) :
    BestTwenty bundle localeCompare query (chainMap.map (·.2)) found := by
  obtain ⟨ranked,each,rfl⟩ := (searchTokens_ok_iff chain nonempty).mp searched
  let le := fun a b => decide (compareResults localeCompare a b ≤ 0)
  have matching := ranked_matches each
  have keyed := buildTokenIndex_keyed built chain
  refine ⟨?_,?_,?_,?_,?_⟩
  · rw [List.map_map]
    refine best_map_nodup le 20 ranked.reduceOption _ ?_
    rw [← List.map_map,matching]
    have keys : (chainMap.map (·.2)).map (fun entry => bundle.toLowerCase entry.token.address) = chainMap.map (·.1) := by
      rw [List.map_map]
      exact List.map_congr_left fun entry member => (keyed.own entry member).symm
    refine List.Nodup.sublist (List.filter_sublist.map _) ?_
    rw [keys]
    exact keyed.distinct
  · rw [List.length_map,best_length,← List.length_map (f := SearchResult.token),matching,List.countP_eq_length_filter]
  · intro entry member
    obtain ⟨result,taken,rfl⟩ := List.mem_map.mp member
    have present := List.mem_map_of_mem (f := SearchResult.token) (best_subset le 20 ranked.reduceOption result taken)
    rw [matching,List.mem_filter,decide_eq_true_eq] at present
    exact present
  · rw [List.pairwise_map]
    refine (best_sorted le 20 ranked.reduceOption comparison.transitive comparison.total).imp_of_mem ?_
    intro a b first second ordered
    exact notAfter_of_compare each (best_subset le 20 _ a first) (best_subset le 20 _ b second) ordered
  · intro entry member matched left better taken
    obtain ⟨a,inside,rfl⟩ := List.mem_map.mp taken
    have there : entry ∈ ranked.reduceOption.map (·.token) := by
      rw [matching,List.mem_filter,decide_eq_true_eq]
      exact ⟨member,matched⟩
    obtain ⟨b,present,rfl⟩ := List.mem_map.mp there
    have out : b ∉ best le 20 ranked.reduceOption := fun member => left (List.mem_map_of_mem member)
    exact notAfter_of_compare each (best_subset le 20 _ a inside) present
      (best_before le 20 ranked.reduceOption comparison.transitive comparison.total inside present out)

end

/-- A search returns the best twenty of the tokens that match, in order, where every token of the
chain has its texts; else it throws. -/
theorem searchTokens_bestTwenty_iff (bundle : Bundle) {localeCompare : String → String → Int} (comparison : Comparison localeCompare)
    {lists : List TokenlistEntry} {index : TokenIndex} (built : buildTokenIndex bundle lists = .ok index)
    {chainId : Option Int} {chainMap : JsMap String IndexedToken} (chain : index.get chainId = some chainMap)
    {query : String} (nonempty : query ≠ "") :
    (∃ found, searchTokens bundle localeCompare index query chainId = .ok found ∧
      BestTwenty bundle localeCompare query (chainMap.map (·.2)) found) ↔
    ∀ entry ∈ chainMap.map (·.2), HasTexts entry.token := by
  rw [← searchTokens_returns_iff chain nonempty]
  exact ⟨fun ⟨found,searched,_⟩ => ⟨found,searched⟩,
    fun ⟨found,searched⟩ => ⟨found,searched,bestTwenty_of_found comparison built chain nonempty searched⟩⟩

def codePointCompare (a b : String) : Int := if a < b then -1 else if b < a then 1 else 0

theorem codePointCompare_le {a b : String} : codePointCompare a b ≤ 0 ↔ a ≤ b := by
  unfold codePointCompare
  rcases lt_trichotomy a b with before | rfl | after
  · simp [before,before.le]
  · simp
  · simp [after,after.not_gt]

theorem codePointCompare_comparison : Comparison codePointCompare where
  flip a b := by
    unfold codePointCompare
    rcases lt_trichotomy a b with before | rfl | after
    · simp [before,before.not_gt]
    · simp
    · simp [after,after.not_gt]
  trans a b c first second :=
    codePointCompare_le.mpr ((codePointCompare_le.mp first).trans (codePointCompare_le.mp second))

/-- One list of twenty-five tokens. -/
def manyTokens : List TokenlistEntry := [
  ⟨⟨"Many",none,false,false,true,none⟩,
    (List.range 25).map fun n => .token ⟨some 1,s!"0x{n}",s!"TOKEN{n}","Token",18⟩⟩]

theorem searchTokens_bestTwenty_many :
    ∃ index, buildTokenIndex ⟨"",[],asciiLower⟩ manyTokens = .ok index ∧ ∃ chainMap, index.get (some 1) = some chainMap ∧
      (chainMap.map (·.2)).countP (fun entry => decide (Matches ⟨"",[],asciiLower⟩ "token" entry.token)) = 25 ∧
      ∃ found, searchTokens ⟨"",[],asciiLower⟩ codePointCompare index "token" (some 1) = .ok found ∧ found.length = 20 := by
  obtain ⟨index,built⟩ : ∃ index, buildTokenIndex ⟨"",[],asciiLower⟩ manyTokens = .ok index := ⟨_,rfl⟩
  obtain ⟨chainMap,chain,texts,count⟩ : ∃ chainMap ∈ index.get (some 1), (∀ entry ∈ chainMap.map (·.2), HasTexts entry.token) ∧
      (chainMap.map (·.2)).countP (fun entry => decide (Matches ⟨"",[],asciiLower⟩ "token" entry.token)) = 25 := by
    cases built
    decide +kernel
  have nonempty : "token" ≠ "" := by decide
  obtain ⟨found,searched,best⟩ :=
    (searchTokens_bestTwenty_iff ⟨"",[],asciiLower⟩ codePointCompare_comparison built chain nonempty).mpr texts
  refine ⟨index,built,chainMap,chain,count,found,searched,?_⟩
  rw [best.length,count]
  rfl

/-- A list whose token has no symbol and no name. -/
def textless : List TokenlistEntry := [
  ⟨⟨"Textless",none,false,false,true,none⟩,[.token ⟨some 1,"0xAA",none,none,18⟩,.token ⟨some 1,"0xBB","TWO","Two",6⟩]⟩]

/-- Such a list can be imported, and no search on its chain returns. -/
theorem textless_search_throws :
    ∃ index, buildTokenIndex ⟨"",[],asciiLower⟩ textless = .ok index ∧ ∃ chainMap, index.get (some 1) = some chainMap ∧
      ¬∃ found, searchTokens ⟨"",[],asciiLower⟩ codePointCompare index "two" (some 1) = .ok found ∧
        BestTwenty ⟨"",[],asciiLower⟩ codePointCompare "two" (chainMap.map (·.2)) found := by
  obtain ⟨index,built⟩ : ∃ index, buildTokenIndex ⟨"",[],asciiLower⟩ textless = .ok index := ⟨_,rfl⟩
  obtain ⟨chainMap,chain,throws⟩ : ∃ chainMap ∈ index.get (some 1),
      searchTokens ⟨"",[],asciiLower⟩ codePointCompare index "two" (some 1) = .error .typeError := by
    cases built
    exact ⟨_,rfl,rfl⟩
  refine ⟨index,built,chainMap,chain,fun ⟨found,searched,_⟩ => ?_⟩
  rw [throws] at searched
  cases searched

end YPriceMagic.Frontend
