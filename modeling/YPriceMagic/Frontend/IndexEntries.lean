import YPriceMagic.Frontend.TokenIndex

/-! What `buildTokenIndex` enters under each chain and address: the first token there, in the
order of the enabled lists and then of their tokens. -/
namespace YPriceMagic.Frontend

instance (list : TokenlistEntry) : Decidable list.Readable :=
  inferInstanceAs (Decidable (list.enabled = true → .malformed ∉ list.tokens))

def Element.indexed (key : String) : Element → Option IndexedToken
  | .token listed => some ⟨listed,key⟩
  | .malformed => none

def TokenlistEntry.indexed (list : TokenlistEntry) : List IndexedToken :=
  if list.enabled then list.tokens.filterMap (Element.indexed (getListKey list.toListMeta)) else []

/-- The tokens of the enabled lists, each with the key of its list. -/
def enabledTokens (lists : List TokenlistEntry) : List IndexedToken := lists.flatMap TokenlistEntry.indexed

def TokenIndex.entry (index : TokenIndex) (chainId : Option Int) (address : String) : Option IndexedToken :=
  (index.get chainId).bind fun chainMap => chainMap.get address

section
variable (bundle : Bundle) (toUpperCase : String → String)

def isTokenInIndex (index : TokenIndex) (address : String) (chainId : Option Int) : Bool :=
  if toUpperCase address = usdSentinel then true
  else (index.entry chainId (bundle.toLowerCase address)).isSome

def getTokenFromIndex (index : TokenIndex) (address : String) (chainId : Option Int) : Option IndexedToken :=
  if toUpperCase address = usdSentinel then some ⟨usdToken,"builtin"⟩
  else index.entry chainId (bundle.toLowerCase address)

end

section
variable (bundle : Bundle)

def insertToken (index : TokenIndex) (entry : IndexedToken) : TokenIndex :=
  index.set entry.token.chainId
    (JsMap.setNew ((index.get entry.token.chainId).getD []) (bundle.toLowerCase entry.token.address) entry)

def injectEveryChain (index : TokenIndex) : TokenIndex := index.map fun entry => (entry.1,injectUsd bundle entry.2)

/-- The token is on the chain, with that address in lower case. -/
def At (chainId : Option Int) (address : String) (entry : IndexedToken) : Bool :=
  decide (entry.token.chainId = chainId ∧ bundle.toLowerCase entry.token.address = address)

def OnChain (chainId : Option Int) (lists : List TokenlistEntry) : Prop :=
  ∃ entry ∈ enabledTokens lists, entry.token.chainId = chainId

instance (chainId : Option Int) (lists : List TokenlistEntry) : Decidable (OnChain chainId lists) :=
  inferInstanceAs (Decidable (∃ entry ∈ enabledTokens lists, entry.token.chainId = chainId))

end

theorem foldlM_ok {State Item Error : Type} {f : State → Item → Except Error State} {g : State → Item → State}
    {items : List Item} (each : ∀ item ∈ items, ∀ state, f state item = .ok (g state item)) (state : State) :
    items.foldlM f state = .ok (items.foldl g state) := by
  induction items generalizing state with
  | nil => rfl
  | cons item rest ih =>
    obtain ⟨first,others⟩ := List.forall_mem_cons.mp each
    rw [List.foldlM_cons,first]
    exact ih others (g state item)

variable {bundle : Bundle}

theorem indexList_readable {list : TokenlistEntry} (readable : list.Readable) (index : TokenIndex) :
    indexList bundle index list = .ok (list.indexed.foldl (insertToken bundle) index) := by
  unfold indexList TokenlistEntry.indexed
  split
  · rename_i enabled
    rw [List.foldl_filterMap]
    refine foldlM_ok (fun element member state => ?_) index
    cases element with
    | malformed => exact absurd member (readable enabled)
    | token token => rfl
  · rfl

/-- The nested loops are one loop over the enabled tokens. -/
theorem buildTokenIndex_readable {lists : List TokenlistEntry} (readable : ∀ list ∈ lists, list.Readable) :
    buildTokenIndex bundle lists = .ok (injectEveryChain bundle ((enabledTokens lists).foldl (insertToken bundle) [])) := by
  have looped : lists.foldlM (indexList bundle) [] = .ok ((enabledTokens lists).foldl (insertToken bundle) []) := by
    rw [enabledTokens,List.foldl_flatMap]
    exact foldlM_ok (fun list member index => indexList_readable (readable list member) index) []
  rw [buildTokenIndex,looped]
  rfl

theorem buildTokenIndex_eq {lists : List TokenlistEntry} {index : TokenIndex} (built : buildTokenIndex bundle lists = .ok index) :
    index = injectEveryChain bundle ((enabledTokens lists).foldl (insertToken bundle) []) := by
  rw [buildTokenIndex_readable ((buildTokenIndex_ok_iff bundle lists).mp ⟨index,built⟩)] at built
  exact (Except.ok.inj built).symm

theorem get_insertToken (index : TokenIndex) (entry : IndexedToken) (chainId : Option Int) :
    (insertToken bundle index entry).get chainId = if chainId = entry.token.chainId then
      some (JsMap.setNew ((index.get chainId).getD []) (bundle.toLowerCase entry.token.address) entry) else index.get chainId := by
  rw [insertToken,JsMap.get_set]
  split
  · rename_i same
    rw [same]
  · rfl

theorem entry_eq_getD (index : TokenIndex) (chainId : Option Int) (address : String) :
    index.entry chainId address = JsMap.get ((index.get chainId).getD []) address := by
  unfold TokenIndex.entry
  cases index.get chainId <;> rfl

theorem entry_insertToken (index : TokenIndex) (entry : IndexedToken) (chainId : Option Int) (address : String) :
    (insertToken bundle index entry).entry chainId address =
      (index.entry chainId address).or (if At bundle chainId address entry then some entry else none) := by
  rw [entry_eq_getD,entry_eq_getD,get_insertToken]
  by_cases here : chainId = entry.token.chainId
  · rw [if_pos here,Option.getD_some,JsMap.get_setNew]
    simp [At,here,eq_comm]
  · have elsewhere : At bundle chainId address entry = false := by simp [At,Ne.symm here]
    simp [here,elsewhere]

/-- Of the tokens at one place, the first stays. -/
theorem entry_foldl (bundle : Bundle) (tokens : List IndexedToken) (index : TokenIndex) (chainId : Option Int) (address : String) :
    (tokens.foldl (insertToken bundle) index).entry chainId address =
      (index.entry chainId address).or (tokens.find? (At bundle chainId address)) := by
  induction tokens generalizing index with
  | nil => simp
  | cons entry rest ih =>
    rw [List.foldl_cons,ih,entry_insertToken,Option.or_assoc,List.find?_cons]
    cases At bundle chainId address entry <;> rfl

theorem isSome_foldl (tokens : List IndexedToken) (index : TokenIndex) (chainId : Option Int) :
    ((tokens.foldl (insertToken bundle) index).get chainId).isSome = true ↔
      (index.get chainId).isSome = true ∨ ∃ entry ∈ tokens, entry.token.chainId = chainId := by
  induction tokens generalizing index with
  | nil => simp
  | cons entry rest ih =>
    rw [List.foldl_cons,ih,get_insertToken,List.exists_mem_cons_iff]
    by_cases here : chainId = entry.token.chainId
    · simp [here]
    · simp [here,Ne.symm here]

theorem get_injectEveryChain (index : TokenIndex) (chainId : Option Int) :
    (injectEveryChain bundle index).get chainId = (index.get chainId).map (injectUsd bundle) :=
  JsMap.get_map index (injectUsd bundle) chainId

theorem get_injectUsd (chainMap : JsMap String IndexedToken) (address : String) :
    (injectUsd bundle chainMap).get address =
      (chainMap.get address).or (if address = bundle.toLowerCase usdSentinel then some ⟨usdToken,"builtin"⟩ else none) :=
  JsMap.get_setNew ..

theorem buildTokenIndex_chain {lists : List TokenlistEntry} {index : TokenIndex}
    (built : buildTokenIndex bundle lists = .ok index) (chainId : Option Int) :
    (index.get chainId).isSome = true ↔ OnChain chainId lists := by
  rw [buildTokenIndex_eq built,get_injectEveryChain,Option.isSome_map,isSome_foldl]
  simp [OnChain,JsMap.get]

theorem buildTokenIndex_entry {lists : List TokenlistEntry} {index : TokenIndex}
    (built : buildTokenIndex bundle lists = .ok index) (chainId : Option Int) (address : String) :
    index.entry chainId address = ((enabledTokens lists).find? (At bundle chainId address)).or
      (if address = bundle.toLowerCase usdSentinel ∧ OnChain chainId lists then some ⟨usdToken,"builtin"⟩ else none) := by
  have chain := buildTokenIndex_chain built chainId
  have found := entry_foldl bundle (enabledTokens lists) [] chainId address
  rw [buildTokenIndex_eq built,get_injectEveryChain,Option.isSome_map] at chain
  rw [buildTokenIndex_eq built,TokenIndex.entry,get_injectEveryChain]
  rw [TokenIndex.entry] at found
  cases there : JsMap.get ((enabledTokens lists).foldl (insertToken bundle) []) chainId with
  | none =>
    rw [there] at chain found
    have absent : ¬OnChain chainId lists := fun on => by simpa using chain.mpr on
    have nowhere : (enabledTokens lists).find? (At bundle chainId address) = none := by
      simpa [TokenIndex.entry,JsMap.get] using found.symm
    simp [absent,nowhere]
  | some chainMap =>
    rw [there] at chain found
    have on : OnChain chainId lists := chain.mp rfl
    have first : chainMap.get address = (enabledTokens lists).find? (At bundle chainId address) := by
      simpa [TokenIndex.entry,JsMap.get] using found
    rw [Option.map_some,Option.bind_some,get_injectUsd,first]
    simp [on]

/-- First list wins, at every chain and address. -/
theorem buildTokenIndex_firstWins (bundle : Bundle) (lists : List TokenlistEntry) :
    ((∃ index, buildTokenIndex bundle lists = .ok index) ↔ ∀ list ∈ lists, list.Readable) ∧
    ∀ index, buildTokenIndex bundle lists = .ok index → ∀ chainId,
      (index.get chainId = none ↔ ¬OnChain chainId lists) ∧
      ∀ address, index.entry chainId address = ((enabledTokens lists).find? (At bundle chainId address)).or
        (if address = bundle.toLowerCase usdSentinel ∧ OnChain chainId lists then some ⟨usdToken,"builtin"⟩ else none) := by
  refine ⟨buildTokenIndex_ok_iff bundle lists,fun index built chainId => ⟨?_,buildTokenIndex_entry built chainId⟩⟩
  rw [← buildTokenIndex_chain built chainId,Option.not_isSome_iff_eq_none]

def asciiLower (text : String) : String := String.ofList (text.toList.map Char.toLower)

/-- Two lists with one address in different letter case, after one that is switched off. -/
def threeLists : List TokenlistEntry := [
  ⟨⟨"Off",none,false,false,false,none⟩,[.token ⟨some 1,"0xAA","OFF","Off",18⟩]⟩,
  ⟨⟨"First",none,false,false,true,none⟩,[.token ⟨some 1,"0xAA","ONE","One",18⟩]⟩,
  ⟨⟨"Second",none,false,false,true,none⟩,[.token ⟨some 1,"0xaa","TWO","Two",6⟩]⟩]

theorem buildTokenIndex_firstWins_threeLists :
    ∃ index, buildTokenIndex ⟨"",[],asciiLower⟩ threeLists = .ok index ∧ index.get (some 8453) = none ∧
      index.entry (some 1) "0xaa" = some ⟨⟨some 1,"0xAA","ONE","One",18⟩,"First"⟩ ∧
      index.entry (some 1) "usd" = some ⟨usdToken,"builtin"⟩ := by
  obtain ⟨builds,entries⟩ := buildTokenIndex_firstWins ⟨"",[],asciiLower⟩ threeLists
  obtain ⟨index,built⟩ := builds.mpr (by decide)
  refine ⟨index,built,(entries index built (some 8453)).1.mpr (by decide),?_,?_⟩
  · rw [(entries index built (some 1)).2]
    decide
  · rw [(entries index built (some 1)).2]
    decide

/-- Each token stands under its own address, and none stands there twice. -/
structure Keyed (bundle : Bundle) (chainMap : JsMap String IndexedToken) : Prop where
  distinct : chainMap.Distinct
  own : ∀ entry ∈ chainMap, entry.1 = bundle.toLowerCase entry.2.token.address

theorem Keyed.setNew {chainMap : JsMap String IndexedToken} (keyed : Keyed bundle chainMap) (entry : IndexedToken) :
    Keyed bundle (chainMap.setNew (bundle.toLowerCase entry.token.address) entry) := by
  refine ⟨keyed.distinct.setNew _ _,fun other member => ?_⟩
  rcases JsMap.mem_setNew member with rfl | old
  · rfl
  · exact keyed.own other old

theorem foldl_keyed (tokens : List IndexedToken) {index : TokenIndex}
    (before : ∀ chainId chainMap, index.get chainId = some chainMap → Keyed bundle chainMap) :
    ∀ chainId chainMap, JsMap.get (tokens.foldl (insertToken bundle) index) chainId = some chainMap → Keyed bundle chainMap := by
  induction tokens generalizing index with
  | nil => exact before
  | cons entry rest ih =>
    rw [List.foldl_cons]
    refine ih fun chainId chainMap found => ?_
    rw [get_insertToken] at found
    split at found
    · cases Option.some.inj found
      refine Keyed.setNew ?_ entry
      cases there : index.get chainId with
      | none => exact ⟨List.nodup_nil,fun _ member => absurd member List.not_mem_nil⟩
      | some chainMap => exact before chainId chainMap there
    · exact before chainId chainMap found

theorem buildTokenIndex_keyed {lists : List TokenlistEntry} {index : TokenIndex} {chainId : Option Int}
    {chainMap : JsMap String IndexedToken} (built : buildTokenIndex bundle lists = .ok index)
    (found : index.get chainId = some chainMap) : Keyed bundle chainMap := by
  rw [buildTokenIndex_eq built,get_injectEveryChain] at found
  obtain ⟨before,there,rfl⟩ := Option.map_eq_some_iff.mp found
  refine Keyed.setNew (foldl_keyed (enabledTokens lists) (fun _ _ nothing => ?_) chainId before there) ⟨usdToken,"builtin"⟩
  simp [JsMap.get] at nothing

end YPriceMagic.Frontend
