import YPriceMagic.Frontend.EffectivePair
import YPriceMagic.Frontend.Reachable

/-! The custom pairs that are reset when a list is removed, and the lists that their tokens came
from. -/
namespace YPriceMagic.Frontend

def Json.textAt (pair : Json) (side : String) : Option String :=
  match pair.get side with
  | .ok (some (.string text)) => some text
  | _ => none

def Json.sides (pair : Json) : List String := ["from","to"].filterMap pair.textAt

theorem Json.textAt_isSome {pair : Json} {side : String} :
    (pair.textAt side).isSome = true ↔ ∃ text, pair.get side = .ok (some (.string text)) := by
  unfold Json.textAt
  split
  · rename_i text read
    simp [read]
  · rename_i other
    exact ⟨fun none => Bool.noConfusion none,fun ⟨text,read⟩ => absurd read (other text)⟩

instance (pairs : Json) (key : String) : Decidable (pairs.PairAt key) :=
  match read : pairs.get key with
  | .error error => .isFalse fun ⟨_,other,_⟩ => nomatch read.symm.trans other
  | .ok custom => decidable_of_iff (truthy custom = true → ((custom.getD .null).textAt "from").isSome = true ∧
      ((custom.getD .null).textAt "to").isSome = true) <| by
    rw [Json.textAt_isSome,Json.textAt_isSome]
    constructor
    · intro texts
      refine ⟨custom,read,fun there => ?_⟩
      obtain ⟨⟨fromText,fromRead⟩,toText,toRead⟩ := texts there
      exact ⟨fromText,toText,fromRead,toRead⟩
    · rintro ⟨other,same,texts⟩ there
      obtain rfl := Except.ok.inj (read.symm.trans same)
      obtain ⟨fromText,toText,fromRead,toRead⟩ := texts there
      exact ⟨⟨fromText,fromRead⟩,toText,toRead⟩

instance (storage : Storage) : Decidable storage.PairsReadable :=
  decidable_of_iff ((storage.defaultPairs.parse (.object [])).PairAt Chain.ethereum.key ∧
      (storage.defaultPairs.parse (.object [])).PairAt Chain.base.key)
    ⟨fun both chain => match chain with
      | .ethereum => both.1
      | .base => both.2,fun every => ⟨every .ethereum,every .base⟩⟩

/-- What `buildTokenIndex` enters for one chain, of these lists. -/
def Available (bundle : Bundle) (lists : List TokenlistEntry) (chain : Chain) (address : String) : Prop :=
  (∃ entry ∈ enabledTokens lists, At bundle (some (chainIds chain)) (bundle.toLowerCase address) entry = true) ∨
    bundle.toLowerCase address = bundle.toLowerCase usdSentinel ∧ OnChain (some (chainIds chain)) lists

instance (bundle : Bundle) (lists : List TokenlistEntry) (chain : Chain) (address : String) :
    Decidable (Available bundle lists chain address) :=
  inferInstanceAs (Decidable ((∃ entry ∈ enabledTokens lists, _ = true) ∨ _ ∧ OnChain _ lists))

theorem available_iff {bundle : Bundle} {lists : List TokenlistEntry} {index : TokenIndex}
    (built : buildTokenIndex bundle lists = .ok index) (chain : Chain) (address : String) :
    (index.entry (some (chainIds chain)) (bundle.toLowerCase address)).isSome = true ↔ Available bundle lists chain address := by
  rw [buildTokenIndex_entry built,Option.isSome_or,Bool.or_eq_true,List.find?_isSome]
  refine or_congr Iff.rfl ?_
  split <;> simp_all

theorem Chain.key_inj {first second : Chain} (same : first.key = second.key) : first = second := by
  cases first <;> cases second <;> first | rfl | exact absurd same (by decide)

namespace Store

variable (bundle : Bundle)

/-- The pair stored for a chain. -/
def customPair (s : Store) (chain : Chain) : Option Json :=
  match s.getCustomPairs.get chain.key with
  | .ok custom => if truthy custom then custom else none
  | .error _ => none

def Indexed (s : Store) (chain : Chain) (address : String) : Prop :=
  (s.tokenIndex.entry (some (chainIds chain)) (bundle.toLowerCase address)).isSome = true

def Resets (s next : Store) (chain : Chain) : Prop := ∃ pair, s.customPair chain = some pair ∧ next.customPair chain = none

/-- A token of the chain's pair was in the index and is not there any more. -/
def TokenLost (s next : Store) (chain : Chain) : Prop :=
  ∃ pair ∈ s.customPair chain, ∃ address ∈ pair.sides, s.Indexed bundle chain address ∧ ¬next.Indexed bundle chain address

instance (s : Store) (chain : Chain) (address : String) : Decidable (s.Indexed bundle chain address) :=
  inferInstanceAs (Decidable (_ = true))

instance (s next : Store) (chain : Chain) : Decidable (TokenLost bundle s next chain) :=
  inferInstanceAs (Decidable (∃ pair ∈ s.customPair chain, ∃ address ∈ pair.sides, _ ∧ ¬_))

instance (s next : Store) (chain : Chain) : Decidable (s.Resets next chain) :=
  decidable_of_iff ((s.customPair chain).isSome = true ∧ (next.customPair chain).isNone = true) <| by
    rw [Option.isSome_iff_exists,Option.isNone_iff_eq_none]
    exact exists_and_right.symm

/-- The pairs that are reset are those that lost a token, and nothing else that is stored differs. -/
structure ResetsLost (s next : Store) : Prop where
  lost : ∀ chain, s.Resets next chain ↔ TokenLost bundle s next chain
  others : ∀ key, (∀ chain, s.Resets next chain → chain.key ≠ key) → next.getCustomPairs.get key = s.getCustomPairs.get key

/-- A token of the chain's pair is on none of the lists. -/
def Orphaned (s : Store) (lists : List TokenlistEntry) (chain : Chain) : Prop :=
  ∃ pair ∈ s.customPair chain, ∃ address ∈ pair.sides, ¬Available bundle lists chain address

/-- A token of the chain's pair is in the index and on none of the lists. -/
def Bereaved (s : Store) (lists : List TokenlistEntry) (chain : Chain) : Prop :=
  ∃ pair ∈ s.customPair chain, ∃ address ∈ pair.sides, s.Indexed bundle chain address ∧ ¬Available bundle lists chain address

instance (s : Store) (lists : List TokenlistEntry) (chain : Chain) : Decidable (Bereaved bundle s lists chain) :=
  inferInstanceAs (Decidable (∃ pair ∈ s.customPair chain, ∃ address ∈ pair.sides, _ ∧ ¬_))

/-- The key of the removed list, and the lists that stay. -/
structure ComparesRight (s : Store) (key : String) (left : List TokenlistEntry) : Prop where
  own : key = "default" → ∀ chain, ¬Bereaved bundle s left chain
  both : key ≠ "default" → s.storage.PairsReadable → ∀ chain, Orphaned bundle s left chain → Bereaved bundle s left chain
  half : key ≠ "default" → s.getCustomPairs.PairAt Chain.ethereum.key → ¬s.getCustomPairs.PairAt Chain.base.key →
    ¬Orphaned bundle s left .ethereum

/-- The pairs of some chains are gone, and nothing else that is stored differs. -/
structure Cleared (s next : Store) (which : Chain → Prop) : Prop where
  gone : ∀ chain, which chain → next.getCustomPairs.get chain.key = .ok none
  kept : ∀ key, (∀ chain, which chain → chain.key ≠ key) → next.getCustomPairs.get key = s.getCustomPairs.get key

variable {bundle} {s next : Store} {chain : Chain} {which : Chain → Prop}

theorem Cleared.of_eq (same : next.getCustomPairs = s.getCustomPairs) : Cleared s next fun _ => False :=
  ⟨fun _ never => never.elim,fun key _ => congrArg (Json.get · key) same⟩

theorem Cleared.trans {third : Store} {others : Chain → Prop} (before : Cleared s next which)
    (after : Cleared next third others) : Cleared s third fun chain => which chain ∨ others chain := by
  refine ⟨fun chain cleared => ?_,fun key stays => ?_⟩
  · by_cases again : others chain
    · exact after.gone chain again
    · rw [after.kept chain.key fun other goes same => again (Chain.key_inj same ▸ goes)]
      exact before.gone chain (cleared.resolve_right again)
  · rw [after.kept key fun chain goes => stays chain (Or.inr goes)]
    exact before.kept key fun chain goes => stays chain (Or.inl goes)

theorem Cleared.resets_iff (cleared : Cleared s next which) (stored : ∀ chain, which chain → (s.customPair chain).isSome = true)
    (chain : Chain) : s.Resets next chain ↔ which chain := by
  constructor
  · rintro ⟨pair,before,after⟩
    by_contra stays
    have same := cleared.kept chain.key fun other goes same => stays (Chain.key_inj same ▸ goes)
    rw [customPair,same] at after
    exact absurd (before.symm.trans after) (by simp)
  · intro goes
    obtain ⟨pair,before⟩ := Option.isSome_iff_exists.mp (stored chain goes)
    refine ⟨pair,before,?_⟩
    rw [customPair,cleared.gone chain goes]
    rfl

theorem Orphaned.stored {lists : List TokenlistEntry} (orphaned : Orphaned bundle s lists chain) :
    (s.customPair chain).isSome = true := by
  obtain ⟨pair,stored,_⟩ := orphaned
  exact Option.isSome_of_mem stored

theorem pairLost_none {custom : Option Json} (read : s.getCustomPairs.get chain.key = .ok custom)
    (falsy : truthy custom = false) : s.pairLost bundle chain = .ok false := by
  rw [pairLost,read]
  simp [falsy,bind,Except.bind,pure,Except.pure]

theorem pairLost_custom {custom : Option Json} (read : s.getCustomPairs.get chain.key = .ok custom)
    (there : truthy custom = true) : s.pairLost bundle chain =
      (pairAddress bundle (custom.getD .null) "from").bind fun fromAddr =>
        (pairAddress bundle (custom.getD .null) "to").bind fun toAddr =>
          (buildTokenIndex bundle (s.entries s.lists)).map fun index =>
            !(index.entry (some (chainIds chain)) fromAddr).isSome || !(index.entry (some (chainIds chain)) toAddr).isSome := by
  rw [pairLost,read]
  simp only [there,bind,Except.bind,pure,Except.pure,if_true,entry_eq_getD]
  rfl

theorem pairLost_malformed (malformed : ¬s.getCustomPairs.PairAt chain.key) :
    ∃ error, s.pairLost bundle chain = .error error := by
  cases read : s.getCustomPairs.get chain.key with
  | error error =>
    rw [pairLost,read]
    exact ⟨error,rfl⟩
  | ok custom =>
    cases there : truthy custom with
    | false => exact absurd ⟨custom,read,by simp [there]⟩ malformed
    | true =>
      rw [pairLost_custom read there]
      cases first : pairAddress bundle (custom.getD .null) "from" with
      | error error => exact ⟨error,rfl⟩
      | ok fromAddr =>
        cases second : pairAddress bundle (custom.getD .null) "to" with
        | error error => exact ⟨error,rfl⟩
        | ok toAddr =>
          obtain ⟨fromText,fromRead,_⟩ := (pairAddress_ok_iff _ _ _).mp first
          obtain ⟨toText,toRead,_⟩ := (pairAddress_ok_iff _ _ _).mp second
          exact absurd ⟨custom,read,fun _ => ⟨fromText,toText,fromRead,toRead⟩⟩ malformed

theorem pairLost_unreadable {error : JsError} (fails : buildTokenIndex bundle (s.entries s.lists) = .error error) :
    s.pairLost bundle chain ≠ .ok true := by
  cases read : s.getCustomPairs.get chain.key with
  | error error =>
    rw [pairLost,read]
    exact fun same => nomatch same
  | ok custom =>
    cases there : truthy custom with
    | false =>
      rw [pairLost_none read there]
      decide
    | true =>
      rw [pairLost_custom read there,fails]
      cases pairAddress bundle (custom.getD .null) "from" with
      | error error => exact fun same => nomatch same
      | ok fromAddr =>
        cases pairAddress bundle (custom.getD .null) "to" with
        | error error => exact fun same => nomatch same
        | ok toAddr => exact fun same => nomatch same

theorem pairLost_readable {index : TokenIndex} (pairs : s.getCustomPairs.PairAt chain.key)
    (built : buildTokenIndex bundle (s.entries s.lists) = .ok index) :
    ∃ lost, s.pairLost bundle chain = .ok lost ∧ (lost = true ↔ Orphaned bundle s (s.entries s.lists) chain) := by
  obtain ⟨custom,read,texts⟩ := pairs
  have stored : s.customPair chain = if truthy custom then custom else none := by rw [customPair,read]
  unfold Orphaned
  rw [stored]
  cases there : truthy custom with
  | false => exact ⟨false,pairLost_none read there,by simp⟩
  | true =>
    obtain ⟨fromText,toText,fromRead,toRead⟩ := texts there
    rw [pairLost_custom read there,(pairAddress_ok_iff _ _ _).mpr ⟨fromText,fromRead,rfl⟩,
      (pairAddress_ok_iff _ _ _).mpr ⟨toText,toRead,rfl⟩,built]
    refine ⟨_,rfl,?_⟩
    obtain ⟨pair,rfl⟩ : ∃ pair, custom = some pair := by
      cases custom with
      | none => simp [truthy] at there
      | some pair => exact ⟨pair,rfl⟩
    have sides : pair.sides = [fromText,toText] := by
      simp only [Option.getD_some] at fromRead toRead
      simp [Json.sides,Json.textAt,fromRead,toRead]
    simp [sides,← available_iff built]

theorem resetCustomPair_cleared (stored : (s.customPair chain).isSome = true) :
    (s.resetCustomPair chain).2 = .ok () ∧ Cleared s (s.resetCustomPair chain).1 fun other => other = chain := by
  unfold customPair at stored
  unfold resetCustomPair
  cases pairs : s.getCustomPairs with
  | object fields =>
    have deleted (key : String) : (Store.getCustomPairs {s with storage := {s.storage with
        defaultPairs := .value (.object (JsMap.delete fields chain.key))}}).get key =
        .ok (if key = chain.key then none else JsMap.get fields key) := congrArg Except.ok (JsMap.get_delete fields chain.key key)
    refine ⟨rfl,fun other same => ?_,fun key stays => ?_⟩
    · rw [deleted,if_pos (congrArg Chain.key same)]
    · rw [deleted,if_neg fun same => stays chain rfl same.symm,pairs]
      rfl
  | null | bool value | number value | string text | array items => simp [pairs,Json.get,truthy] at stored

theorem revertPair_malformed (malformed : ¬s.getCustomPairs.PairAt chain.key) :
    ∃ error, s.revertPair bundle chain = (s,.error error) := by
  obtain ⟨error,fails⟩ : ∃ error, s.pairLost bundle chain = .error error := pairLost_malformed malformed
  exact ⟨error,by rw [revertPair,fails]⟩

theorem revertPair_unreadable {error : JsError} (fails : buildTokenIndex bundle (s.entries s.lists) = .error error) :
    (s.revertPair bundle chain).1 = s := by
  unfold revertPair
  split
  · rename_i lost
    exact absurd lost (pairLost_unreadable fails)
  · rfl
  · rfl

theorem revertPair_cleared {index : TokenIndex} (pairs : s.getCustomPairs.PairAt chain.key)
    (built : buildTokenIndex bundle (s.entries s.lists) = .ok index) : (s.revertPair bundle chain).2 = .ok () ∧
      Cleared s (s.revertPair bundle chain).1 fun other => other = chain ∧ Orphaned bundle s (s.entries s.lists) chain := by
  obtain ⟨lost,decided,meaning⟩ := pairLost_readable pairs built
  unfold revertPair
  rw [decided]
  cases lost with
  | false =>
    have stays : ¬Orphaned bundle s (s.entries s.lists) chain := fun orphaned => Bool.noConfusion (meaning.mpr orphaned)
    exact ⟨rfl,fun _ goes => absurd goes.2 stays,fun _ _ => rfl⟩
  | true =>
    have orphaned := meaning.mp rfl
    obtain ⟨returned,cleared⟩ := resetCustomPair_cleared orphaned.stored
    exact ⟨returned,fun other goes => cleared.gone other goes.1,
      fun key stays => cleared.kept key fun other same => stays other ⟨same,orphaned⟩⟩

theorem resetsLost_iff (cleared : Cleared s next which) (stored : ∀ chain, which chain → (s.customPair chain).isSome = true) :
    ResetsLost bundle s next ↔ ∀ chain, which chain ↔ TokenLost bundle s next chain := by
  constructor
  · intro resets chain
    rw [← cleared.resets_iff stored]
    exact resets.lost chain
  · intro same
    refine ⟨fun chain => (cleared.resets_iff stored chain).trans (same chain),fun key stays => ?_⟩
    exact cleared.kept key fun chain goes => stays chain ((cleared.resets_iff stored chain).mpr goes)

/-- Where the index is the old one, no token is lost. -/
theorem resetsLost_stale (cleared : Cleared s next which) (stored : ∀ chain, which chain → (s.customPair chain).isSome = true)
    (index : next.tokenIndex = s.tokenIndex) : ResetsLost bundle s next ↔ ∀ chain, ¬which chain := by
  rw [resetsLost_iff cleared stored]
  refine forall_congr' fun chain => ?_
  have kept : ¬TokenLost bundle s next chain := by
    rintro ⟨_,_,_,_,before,after⟩
    rw [Indexed,index] at after
    exact after before
  rw [iff_false_right kept]

theorem resetsLost_rebuilt {lists : List TokenlistEntry} (cleared : Cleared s next which)
    (stored : ∀ chain, which chain → (s.customPair chain).isSome = true)
    (built : buildTokenIndex bundle lists = .ok next.tokenIndex) :
    ResetsLost bundle s next ↔ ∀ chain, which chain ↔ Bereaved bundle s lists chain := by
  rw [resetsLost_iff cleared stored]
  have lost (chain : Chain) : TokenLost bundle s next chain ↔ Bereaved bundle s lists chain := by
    unfold TokenLost Bereaved
    simp only [← available_iff built]
    rfl
  simp only [lost]

theorem Cleared.customPair_eq (cleared : Cleared s next which) (stays : ¬which chain) : next.customPair chain = s.customPair chain := by
  rw [customPair,cleared.kept chain.key fun other goes same => stays (Chain.key_inj same ▸ goes)]
  rfl

theorem Cleared.pairAt (cleared : Cleared s next which) (stays : ¬which chain) :
    next.getCustomPairs.PairAt chain.key ↔ s.getCustomPairs.PairAt chain.key := by
  rw [Json.PairAt,cleared.kept chain.key fun other goes same => stays (Chain.key_inj same ▸ goes)]
  rfl

theorem revertPair_tokenIndex (bundle : Bundle) (s : Store) (chain : Chain) :
    (s.revertPair bundle chain).1.tokenIndex = s.tokenIndex := by
  unfold revertPair
  split
  · unfold resetCustomPair
    split <;> rfl
  · rfl
  · rfl

/-- Both chains' pairs are compared with the lists, or the second one throws. -/
theorem revertPairs_cleared {index : TokenIndex} (ethereum : s.getCustomPairs.PairAt Chain.ethereum.key)
    (built : buildTokenIndex bundle (s.entries s.lists) = .ok index) :
    ∃ next, Adjusted s next ∧ next.tokenIndex = s.tokenIndex ∧
      ((s.getCustomPairs.PairAt Chain.base.key ∧
        (s.revertPair bundle .ethereum).andThen (fun s => s.revertPair bundle .base) = (next,.ok ()) ∧
        Cleared s next (Orphaned bundle s (s.entries s.lists))) ∨
      (¬s.getCustomPairs.PairAt Chain.base.key ∧
        (∃ error, (s.revertPair bundle .ethereum).andThen (fun s => s.revertPair bundle .base) = (next,.error error)) ∧
        Cleared s next fun other => other = .ethereum ∧ Orphaned bundle s (s.entries s.lists) .ethereum)) := by
  obtain ⟨returned,cleared⟩ := revertPair_cleared ethereum built
  have adjusted := revertPair_adjusted bundle s .ethereum
  have index := revertPair_tokenIndex bundle s .ethereum
  have goesOn : (s.revertPair bundle .ethereum).andThen (fun s => s.revertPair bundle .base) =
      (s.revertPair bundle .ethereum).1.revertPair bundle .base := by rw [Ran.andThen,returned]
  rw [goesOn]
  generalize (s.revertPair bundle .ethereum).1 = middle at cleared adjusted index
  have stays : ¬(Chain.base = .ethereum ∧ Orphaned bundle s (s.entries s.lists) .ethereum) := fun same => nomatch same.1
  by_cases base : s.getCustomPairs.PairAt Chain.base.key
  · have entries := adjusted.entries_eq
    obtain ⟨returned,second⟩ := revertPair_cleared ((cleared.pairAt stays).mpr base) (entries ▸ built)
    refine ⟨_,adjusted.trans (revertPair_adjusted bundle middle .base),(revertPair_tokenIndex bundle middle .base).trans index,
      Or.inl ⟨base,Prod.ext rfl returned,?_⟩⟩
    have orphans : Orphaned bundle middle (middle.entries middle.lists) .base ↔ Orphaned bundle s (s.entries s.lists) .base := by
      unfold Orphaned
      rw [entries,cleared.customPair_eq stays]
    have both := cleared.trans second
    refine ⟨fun chain orphaned => both.gone chain ?_,fun key others => both.kept key fun chain goes => others chain ?_⟩
    · cases chain with
      | ethereum => exact Or.inl ⟨rfl,orphaned⟩
      | base => exact Or.inr ⟨rfl,orphans.mpr orphaned⟩
    · rcases goes with ⟨rfl,orphaned⟩ | ⟨rfl,orphaned⟩
      · exact orphaned
      · exact orphans.mp orphaned
  · obtain ⟨error,fails⟩ : ∃ error, middle.revertPair bundle .base = (middle,.error error) :=
      revertPair_malformed (mt (cleared.pairAt stays).mp base)
    exact ⟨middle,adjusted,index,Or.inr ⟨base,⟨error,fails⟩,cleared⟩⟩

theorem andThen_stays {ran : Ran} {after : Store → Ran} (first : ran.1 = s) (second : (after s).1 = s) :
    (ran.andThen after).1 = s := by
  unfold Ran.andThen
  split
  · rw [first,second]
  · exact first

theorem removeList_eq {index ref : Nat} {list : ListMeta} (bundle : Bundle) (found : s.lists[index]? = some ref)
    (there : s.metaAt ref = some list) : s.removeList bundle index =
      ((if getListKey list = "default" then (s.dropList index ref,.ok ())
        else ((s.dropList index ref).revertPair bundle .ethereum).andThen fun s => s.revertPair bundle .base) : Ran).andThen
        fun s => s.rebuildAndSync bundle := by
  obtain ⟨entry,here,rfl⟩ := Option.map_eq_some_iff.mp there
  have inside : ¬((index : Int) < 0) := by omega
  rw [removeList,if_neg inside]
  simp [found,here]

theorem removeList_returns {index ref : Nat} {list : ListMeta} (bundle : Bundle) (found : s.lists[index]? = some ref)
    (there : s.metaAt ref = some list) (readable : ∀ entry ∈ s.entries (s.lists.eraseIdx index), entry.Readable)
    (pairs : s.storage.PairsReadable) : ∃ after, s.removeList bundle index = (after,.ok ()) ∧
      Adjusted (s.dropList index ref) after ∧ after.allLists = after.lists := by
  obtain ⟨tokenIndex,built⟩ := (buildTokenIndex_ok_iff bundle _).mpr readable
  have built : buildTokenIndex bundle ((s.dropList index ref).entries (s.dropList index ref).lists) = .ok tokenIndex := built
  have reverts : ∃ reverted, Adjusted (s.dropList index ref) reverted ∧
      ((if getListKey list = "default" then (s.dropList index ref,.ok ())
        else ((s.dropList index ref).revertPair bundle .ethereum).andThen fun s => s.revertPair bundle .base) : Ran) =
        (reverted,.ok ()) := by
    split
    · exact ⟨_,Adjusted.refl _,rfl⟩
    · obtain ⟨next,adjusted,_,⟨_,reverted,_⟩ | ⟨broken,_⟩⟩ := revertPairs_cleared (s := s.dropList index ref) (pairs .ethereum) built
      · exact ⟨next,adjusted,reverted⟩
      · exact absurd (pairs .base) broken
  obtain ⟨reverted,adjusted,same⟩ := reverts
  rw [removeList_eq bundle found there,same,Ran.andThen]
  dsimp only
  rw [rebuildAndSync_built (adjusted.entries_eq ▸ built)]
  exact ⟨_,rfl,adjusted.trans ⟨_,_,_,rfl⟩,rfl⟩

/-- A removal resets the pairs that lost a token exactly when its comparison with the lists that
stay, of every pair or of none, comes to the same. -/
theorem removeList_resets_iff {index ref : Nat} {list : ListMeta} (bundle : Bundle) (found : s.lists[index]? = some ref)
    (there : s.metaAt ref = some list) : ResetsLost bundle s (s.removeList bundle index).1 ↔
      ((∀ entry ∈ s.entries (s.lists.eraseIdx index), entry.Readable) →
        ComparesRight bundle s (getListKey list) (s.entries (s.lists.eraseIdx index))) := by
  rw [removeList_eq bundle found there,← buildTokenIndex_ok_iff bundle]
  have unchanged : Cleared s (s.dropList index ref) fun _ => False := .of_eq rfl
  have orphan (chain : Chain) (orphaned : Orphaned bundle s (s.entries (s.lists.eraseIdx index)) chain) := orphaned.stored
  cases built : buildTokenIndex bundle ((s.dropList index ref).entries (s.dropList index ref).lists) with
  | error error =>
    have fails : ¬∃ tokenIndex, buildTokenIndex bundle (s.entries (s.lists.eraseIdx index)) = .ok tokenIndex :=
      fun ⟨_,builds⟩ => nomatch built.symm.trans builds
    refine iff_of_true ?_ fun builds => absurd builds fails
    rw [andThen_stays (s := s.dropList index ref) ?_ (by rw [rebuildAndSync_fails built])]
    · exact (resetsLost_stale unchanged (fun _ => False.elim) rfl).mpr fun _ => not_false
    · split
      · rfl
      · exact andThen_stays (revertPair_unreadable built) (revertPair_unreadable built)
  | ok tokenIndex =>
    rw [forall_prop_of_true ⟨tokenIndex,built⟩]
    by_cases key : getListKey list = "default"
    · rw [if_pos key,Ran.andThen]
      dsimp only
      rw [rebuildAndSync_built built]
      have same : ResetsLost bundle s {s.dropList index ref with tokenIndex,allLists := (s.dropList index ref).lists} ↔
          ∀ chain, False ↔ Bereaved bundle s (s.entries (s.lists.eraseIdx index)) chain :=
        resetsLost_rebuilt (.of_eq rfl) (fun _ => False.elim) built
      refine same.trans ?_
      simp only [false_iff]
      exact ⟨fun none => ⟨fun _ => none,fun other => absurd key other,fun other => absurd key other⟩,fun compares => compares.own key⟩
    · rw [if_neg key]
      by_cases ethereum : s.getCustomPairs.PairAt Chain.ethereum.key
      · obtain ⟨next,adjusted,same,⟨base,reverted,cleared⟩ | ⟨base,⟨error,reverted⟩,cleared⟩⟩ := revertPairs_cleared
          (s := s.dropList index ref) ethereum built
        · rw [reverted,Ran.andThen]
          dsimp only
          rw [rebuildAndSync_built (adjusted.entries_eq ▸ built)]
          have resets : ResetsLost bundle s {next with tokenIndex,allLists := next.lists} ↔ _ :=
            resetsLost_rebuilt ⟨cleared.gone,cleared.kept⟩ orphan built
          refine resets.trans ⟨fun same => ⟨fun other => absurd other key,fun _ _ chain => (same chain).mp,
            fun _ _ broken => absurd base broken⟩,fun compares chain => ⟨compares.both key ?_ chain,?_⟩⟩
          · rintro (_ | _)
            · exact ethereum
            · exact base
          · rintro ⟨pair,stored,address,side,_,absent⟩
            exact ⟨pair,stored,address,side,absent⟩
        · rw [reverted,Ran.andThen]
          dsimp only
          have resets : ResetsLost bundle s next ↔ _ :=
            resetsLost_stale ⟨cleared.gone,cleared.kept⟩ (fun chain orphaned => orphaned.1 ▸ orphaned.2.stored) same
          refine resets.trans ⟨fun none => ⟨fun other => absurd other key,fun _ pairs => absurd (pairs .base) base,
            fun _ _ _ orphaned => none .ethereum ⟨rfl,orphaned⟩⟩,fun compares chain orphaned => ?_⟩
          exact compares.half key ethereum base orphaned.2
      · obtain ⟨error,fails⟩ : ∃ error, (s.dropList index ref).revertPair bundle .ethereum = (s.dropList index ref,.error error) :=
          revertPair_malformed ethereum
        rw [fails,Ran.andThen,Ran.andThen]
        dsimp only
        refine iff_of_true ((resetsLost_stale unchanged (fun _ => False.elim) rfl).mpr fun _ => not_false) ?_
        exact ⟨fun other => absurd other key,fun _ pairs => absurd (pairs .ethereum) ethereum,fun _ other => absurd other ethereum⟩

/-- A first page with a stored pair for Ethereum and one list of the user. -/
def pairedPage (bundle : Bundle) (pair : Json) : Option Store :=
  (firstPage bundle).map fun ran =>
    (addList bundle {ran.1 with storage := {ran.1.storage with defaultPairs := .value (.object [("ethereum",pair)])}} remoteList).1

theorem pairedPage_reachable {pair : Json} (loaded : pairedPage bundle pair = some s) : Reachable bundle s := by
  obtain ⟨ran,opened,rfl⟩ := Option.map_eq_some_iff.mp loaded
  have paired := Reachable.savePairs (firstPage_reachable opened) (.value (.object [("ethereum",pair)]))
  exact paired.step (show step bundle _ (.addList remoteList) = some _ from rfl)

theorem pairedPage_pairs {pair : Json} (loaded : pairedPage bundle pair = some s) :
    s.getCustomPairs = .object [("ethereum",pair)] := by
  obtain ⟨ran,opened,rfl⟩ := Option.map_eq_some_iff.mp loaded
  unfold addList
  rcases rebuildAndSync_cases bundle (insertList {ran.1 with
    storage := {ran.1.storage with defaultPairs := .value (.object [("ethereum",pair)])}} remoteList) with ⟨_,_,same⟩ | ⟨_,same⟩
  · rw [same]
    rfl
  · rw [same]
    rfl

/-- The removed list was the source of the token 0xAA, whose address it has in lower case. -/
theorem removeList_resets_remote :
    ∃ s, Reachable smallBundle s ∧ s.Resets (s.removeList smallBundle 2).1 .ethereum ∧
      ResetsLost smallBundle s (s.removeList smallBundle 2).1 := by
  obtain ⟨s,opened,found,there,resets,lost⟩ : ∃ s ∈ pairedPage smallBundle (pairJson "0xAA" "USD"),
      s.lists[2]? = some 3 ∧ s.metaAt 3 = some remoteList.toListMeta ∧ s.Resets (s.removeList smallBundle 2).1 .ethereum ∧
      Bereaved smallBundle s (s.entries (s.lists.eraseIdx 2)) .ethereum := by decide +kernel
  have base : s.getCustomPairs.get Chain.base.key = .ok none := by
    rw [pairedPage_pairs opened]
    rfl
  have other : getListKey remoteList.toListMeta ≠ "default" := by decide
  have nothing : s.customPair .base = none := by rw [customPair,base]; rfl
  refine ⟨s,pairedPage_reachable opened,resets,(removeList_resets_iff smallBundle found there).mpr fun _ => ⟨?_,?_,?_⟩⟩
  · exact fun default => absurd default other
  · rintro _ _ (_ | _) orphaned
    · exact lost
    · have stored := orphaned.stored
      rw [nothing] at stored
      cases stored
  · exact fun _ _ broken => absurd ⟨none,base,by simp [truthy]⟩ broken

/-- No list has the token 0xBB, and the removal of a list without it resets the pair. -/
theorem unlisted_pair_reset :
    ∃ s, Reachable smallBundle s ∧ (∃ list ∈ s.metaAt 3, s.lists[2]? = some 3 ∧ list.isDefault = false) ∧
      s.Resets (s.removeList smallBundle 2).1 .ethereum ∧ ¬TokenLost smallBundle s (s.removeList smallBundle 2).1 .ethereum ∧
      ¬ResetsLost smallBundle s (s.removeList smallBundle 2).1 := by
  obtain ⟨s,opened,removable,resets,kept⟩ : ∃ s ∈ pairedPage smallBundle (pairJson "0xBB" "USD"),
      (∃ list ∈ s.metaAt 3, s.lists[2]? = some 3 ∧ list.isDefault = false) ∧
      s.Resets (s.removeList smallBundle 2).1 .ethereum ∧
      ¬TokenLost smallBundle s (s.removeList smallBundle 2).1 .ethereum := by decide +kernel
  exact ⟨s,pairedPage_reachable opened,removable,resets,kept,fun right => kept ((right.lost .ethereum).mp resets)⟩

end Store

end YPriceMagic.Frontend
