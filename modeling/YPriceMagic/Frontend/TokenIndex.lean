import Mathlib.Data.List.Forall2
import YPriceMagic.Frontend.JsMap

/-! Tokenlists and the index of their tokens, as the tokenlist store builds it. -/
namespace YPriceMagic.Frontend

/-- The exception of a property that is read of `undefined` or `null`, of a method that is
not there, and of a loop over what cannot be iterated. -/
inductive JsError
  | typeError
  deriving DecidableEq, Repr

/-- A token; a `chainId` that is no number is `none`, and so is a symbol or a name that is no text. -/
structure Token where
  chainId : Option Int
  address : String
  symbol : Option String
  name : Option String
  decimals : Nat
  deriving DecidableEq, Repr

/-- An element of a `tokens` array as it was parsed: a token, or a value without a text as
its `address`. Tokens that are no array at all read as one malformed element. -/
inductive Element
  | token (token : Token)
  | malformed
  deriving DecidableEq, Repr

/-- A tokenlist without its tokens; a missing name reads as the text that stands for it as
a key, and a missing flag as false. -/
structure ListMeta where
  name : String
  url : Option String
  isDefault : Bool
  isLocal : Bool
  enabled : Bool
  error : Option String
  deriving DecidableEq, Repr

structure TokenlistEntry extends ListMeta where
  tokens : List Element
  deriving DecidableEq, Repr

structure IndexedToken where
  token : Token
  sourceList : String
  deriving DecidableEq, Repr

abbrev TokenIndex := JsMap (Option Int) (JsMap String IndexedToken)

inductive Chain
  | ethereum
  | base
  deriving DecidableEq, Repr

def Chain.key : Chain → String
  | ethereum => "ethereum"
  | base => "base"

def chainIds : Chain → Int
  | .ethereum => 1
  | .base => 8453

def usdSentinel : String := "USD"

def nativeTokenAddress : String := "0xEeeeeEeeeEeEeeEeEeEeeEEEeeeeEeeeeeeeEEeE"

def usdToken : Token := ⟨some 0,usdSentinel,"USD","US Dollar (ypricemagic native)",0⟩

def defaultPairTokens : List Token := [
  ⟨some 1,nativeTokenAddress,"ETH","Ether (ETH)",18⟩,
  ⟨some 8453,nativeTokenAddress,"ETH","Ether (ETH)",18⟩,
  ⟨some 1,"0xf939E0A03FB07F59A73314E73794Be0E57ac1b4E","crvUSD","Curve USD",18⟩,
  ⟨some 1,"0xA0b86991c6218b36c1d19D4a2e9Eb0cE3606eB48","USDC","USD Coin",6⟩,
  ⟨some 8453,"0x833589fCD6eDb6E08f4c7C32D4f71b54bdA02913","USDC","USD Coin",6⟩,
  ⟨some 8453,"0x4200000000000000000000000000000000000006","WETH","Wrapped Ether",18⟩]

/-- The bundled tokenlist file, and `String.prototype.toLowerCase`. -/
structure Bundle where
  name : String
  tokens : List Token
  toLowerCase : String → String

def getListKey (list : ListMeta) : String :=
  if list.isDefault || list.isLocal then "default" else list.url.getD list.name

section
variable (bundle : Bundle)

/-- One element of an enabled list; the first token at an address wins. -/
def indexElement (key : String) (index : TokenIndex) : Element → Except JsError TokenIndex
  | .malformed => .error .typeError
  | .token token =>
    let addrLower := bundle.toLowerCase token.address
    let chainMap := (index.get token.chainId).getD []
    .ok (index.set token.chainId
      (if chainMap.has addrLower then chainMap else chainMap.set addrLower ⟨token,key⟩))

def indexList (index : TokenIndex) (list : TokenlistEntry) : Except JsError TokenIndex :=
  if list.enabled then list.tokens.foldlM (indexElement bundle (getListKey list.toListMeta)) index else .ok index

def injectUsd (chainMap : JsMap String IndexedToken) : JsMap String IndexedToken :=
  let key := bundle.toLowerCase usdSentinel
  if chainMap.has key then chainMap else chainMap.set key ⟨usdToken,"builtin"⟩

def buildTokenIndex (lists : List TokenlistEntry) : Except JsError TokenIndex := do
  let index ← lists.foldlM (indexList bundle) []
  return index.map fun entry => (entry.1,injectUsd bundle entry.2)

end

def TokenlistEntry.Readable (list : TokenlistEntry) : Prop := list.enabled = true → .malformed ∉ list.tokens

theorem foldlM_ok_iff {State Item Error : Type} {f : State → Item → Except Error State} {good : Item → Prop}
    (each : ∀ state item, (∃ after, f state item = .ok after) ↔ good item) (items : List Item) (state : State) :
    (∃ after, items.foldlM f state = .ok after) ↔ ∀ item ∈ items, good item := by
  induction items generalizing state with
  | nil => exact ⟨fun _ _ member => by simp at member,fun _ => ⟨state,rfl⟩⟩
  | cons item rest ih =>
    rw [List.forall_mem_cons,← each state item,List.foldlM_cons]
    cases first : f state item with
    | error error =>
      refine ⟨?_,?_⟩
      · rintro ⟨after,folded⟩
        simp [bind,Except.bind] at folded
      · rintro ⟨⟨after,same⟩,_⟩
        simp at same
    | ok next =>
      rw [← ih next]
      exact ⟨fun folded => ⟨⟨next,rfl⟩,folded⟩,fun both => both.2⟩

/-- What a loop produces, item by item. -/
theorem mapM_ok_iff {Item Value Error : Type} {f : Item → Except Error Value} {items : List Item} {values : List Value} :
    items.mapM f = .ok values ↔ List.Forall₂ (fun item value => f item = .ok value) items values := by
  induction items generalizing values with
  | nil => cases values <;> simp [pure,Except.pure]
  | cons item rest ih =>
    rw [List.mapM_cons]
    cases first : f item with
    | error error => cases values <;> simp [first,bind,Except.bind]
    | ok value =>
      cases others : rest.mapM f with
      | error error => cases values <;> simp [first,others,← ih,bind,Except.bind]
      | ok tail => cases values <;> simp [first,others,← ih,bind,Except.bind,pure,Except.pure]

theorem mapM_ok_exists_iff {Item Value Error : Type} {f : Item → Except Error Value} {items : List Item} :
    (∃ values, items.mapM f = .ok values) ↔ ∀ item ∈ items, ∃ value, f item = .ok value := by
  simp only [mapM_ok_iff]
  induction items with
  | nil => simp
  | cons item rest ih =>
    rw [List.forall_mem_cons,← ih]
    refine ⟨?_,?_⟩
    · rintro ⟨_,_ | ⟨first,others⟩⟩
      exact ⟨⟨_,first⟩,_,others⟩
    · rintro ⟨⟨value,first⟩,values,others⟩
      exact ⟨value::values,.cons first others⟩

theorem indexElement_ok_iff (bundle : Bundle) (key : String) (index : TokenIndex) (element : Element) :
    (∃ after, indexElement bundle key index element = .ok after) ↔ element ≠ .malformed := by
  cases element <;> simp [indexElement]

theorem indexList_ok_iff (bundle : Bundle) (index : TokenIndex) (list : TokenlistEntry) :
    (∃ after, indexList bundle index list = .ok after) ↔ list.Readable := by
  unfold indexList TokenlistEntry.Readable
  split
  · rename_i enabled
    rw [foldlM_ok_iff (indexElement_ok_iff bundle _)]
    exact ⟨fun all _ member => all _ member rfl,fun readable element member same => readable enabled (same ▸ member)⟩
  · rename_i disabled
    exact ⟨fun _ enabled => absurd enabled disabled,fun _ => ⟨index,rfl⟩⟩

/-- Building an index throws for nothing but a malformed element of an enabled list. -/
theorem buildTokenIndex_ok_iff (bundle : Bundle) (lists : List TokenlistEntry) :
    (∃ index, buildTokenIndex bundle lists = .ok index) ↔ ∀ list ∈ lists, list.Readable := by
  rw [← foldlM_ok_iff (indexList_ok_iff bundle) lists []]
  unfold buildTokenIndex
  cases folded : lists.foldlM (indexList bundle) [] with
  | ok after => exact ⟨fun _ => ⟨after,rfl⟩,fun _ => ⟨_,rfl⟩⟩
  | error error =>
    refine ⟨?_,?_⟩
    · rintro ⟨index,built⟩
      simp [bind,Except.bind] at built
    · rintro ⟨after,same⟩
      simp at same

end YPriceMagic.Frontend
