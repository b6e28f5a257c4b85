import YPriceMagic.Async.Run
import YPriceMagic.Frontend.SearchTokens
import YPriceMagic.Frontend.Tokenlist

/-! The token field: its text, and the matches that it found for an earlier text. -/
namespace YPriceMagic.Frontend
open YPriceMagic.Async

structure MatchToken extends IndexedToken where
  needsDisambiguation : Bool
  deriving DecidableEq, Repr

def isHexDigit (c : Char) : Bool :=
  decide ('0' ≤ c ∧ c ≤ '9') || decide ('a' ≤ c ∧ c ≤ 'f') || decide ('A' ≤ c ∧ c ≤ 'F')

/-- `/^0x[0-9a-fA-F]{40}$/` -/
def isHexAddr (text : String) : Bool :=
  match text.toList with
  | '0' :: 'x' :: digits => decide (digits.length = 40) && digits.all isHexDigit
  | _ => false

/-- The component with its props; `matchList` is `matches`, and `debouncing` that the timer runs. -/
structure Autocomplete where
  chain : Int
  index : TokenIndex
  initialAddress : Option String
  inputValue : String
  inputAddress : String
  matchList : List MatchToken
  highlightIndex : Int
  isOpen : Bool
  wasUserEdited : Bool
  debouncing : Bool

/-- What `onselect` is called with. -/
abbrev Selection := Option MatchToken × String

inductive FieldEvent
  | input (value : String)
  | debounce
  | changeChain (chain : Int)
  | changeIndex (index : TokenIndex)
  | changeInitial (address : Option String)
  | setFromAddress (address : String)
  | clear
  | focus
  | blurred
  | arrowDown
  | arrowUp
  | enter
  | escape
  | tab
  | hover (i : Nat)
  | pick (i : Nat)

/-- `0x`, hex digits, and a closing parenthesis. -/
def addressBefore : List Char → Option String
  | '0' :: 'x' :: digits =>
    let hex := digits.takeWhile isHexDigit
    if hex ≠ [] ∧ digits[hex.length]? = some ')' then some ("0x"++String.ofList hex) else none
  | _ => none

/-- `/\((0x[0-9a-fA-F]+)\)/`, the first match. -/
def addressInside : List Char → Option String
  | [] => none
  | c::rest => ((some c).filter fun c => decide (c = '(')).bind (fun _ => addressBefore rest) <|> addressInside rest

namespace Autocomplete

def extractAddress (s : Autocomplete) : String :=
  if s.inputAddress ≠ "" then s.inputAddress else (addressInside s.inputValue.toList).getD s.inputValue

def getValue (s : Autocomplete) : String := s.extractAddress

section
variable (bundle : Bundle) (localeCompare : String → String → Int) (toUpperCase trim : String → String)

/-- The results that become the matches; each has a symbol. -/
def showResults (s : Autocomplete) (results : List IndexedToken) : Autocomplete :=
  let symbol (token : IndexedToken) := token.token.symbol.map bundle.toLowerCase
  let matchList := (results.take 20).map fun token =>
    {token with needsDisambiguation := decide (1 < results.countP fun other => decide (symbol other = symbol token))}
  {s with matchList,highlightIndex := -1,isOpen := !matchList.isEmpty || isHexAddr (trim s.inputValue)}

def doSearch (s : Autocomplete) : Autocomplete :=
  if trim s.inputValue = "" then {s with matchList := [],isOpen := false}
  else
    match searchTokens bundle localeCompare s.index s.inputValue (some s.chain) with
    | .ok results => s.showResults bundle trim results
    | .error _ => s -- thrown before the first assignment

/-- The effect that runs when the chain or the index changes. -/
def searchAgain (s : Autocomplete) : Autocomplete :=
  if trim s.inputValue ≠ "" ∧ s.wasUserEdited = true then s.doSearch bundle localeCompare trim else s

def setFromAddress (s : Autocomplete) (address : String) : Autocomplete :=
  let shown := ((getTokenFromIndex bundle toUpperCase s.index address (some s.chain)).map (·.token.address)).getD address
  {s with wasUserEdited := false,inputValue := shown,inputAddress := shown,isOpen := false,highlightIndex := -1}

/-- The effect that runs when the initial address or the index changes. -/
def prefill (s : Autocomplete) : Autocomplete :=
  match s.initialAddress with
  | some address => if s.wasUserEdited then s else s.setFromAddress bundle toUpperCase address
  | none => s

/-- The component when it is mounted. -/
def mount (chain : Int) (index : TokenIndex) (initialAddress : Option String) : Autocomplete :=
  prefill bundle toUpperCase ⟨chain,index,initialAddress,"","",[],-1,false,false,false⟩

def handleInput (s : Autocomplete) (value : String) : Autocomplete :=
  {s with inputValue := value,wasUserEdited := true,inputAddress := "",debouncing := true}

def clear (s : Autocomplete) : Autocomplete :=
  {s with inputValue := "",inputAddress := "",matchList := [],isOpen := false,highlightIndex := -1,wasUserEdited := false}

def selectToken (s : Autocomplete) (token : MatchToken) : Autocomplete :=
  {s with inputValue := token.token.address,inputAddress := token.token.address,isOpen := false,highlightIndex := -1}

def handleArrowDown (s : Autocomplete) : Autocomplete :=
  if s.matchList.isEmpty then s
  else {s with isOpen := true,highlightIndex := (s.highlightIndex+1) % s.matchList.length}

def handleArrowUp (s : Autocomplete) : Autocomplete :=
  if s.matchList.isEmpty then s
  else {s with highlightIndex := if s.highlightIndex ≤ 0 then s.matchList.length-1 else s.highlightIndex-1}

/-- An index without a token would throw. -/
def handleEnter (s : Autocomplete) : Autocomplete × Option Selection :=
  if s.matchList.isEmpty then
    let addr := trim s.inputValue
    if isHexAddr addr then ({s with inputAddress := addr,isOpen := false,highlightIndex := -1},some (none,addr)) else (s,none)
  else
    let idx := if 0 ≤ s.highlightIndex then s.highlightIndex else 0
    match s.matchList[idx.toNat]? with
    | some token => (s.selectToken token,some (some token,token.token.address))
    | none => (s,none)

/-- The item "Import token", which stands where there are no matches. -/
def offersImport (s : Autocomplete) : Bool := s.matchList.isEmpty && isHexAddr (trim s.inputValue)

/-- The mouse over the `i`th item of the open list. -/
def hover (s : Autocomplete) (i : Nat) : Option Autocomplete :=
  if s.isOpen ∧ (i < s.matchList.length ∨ s.offersImport trim = true ∧ i = 0) then some {s with highlightIndex := i} else none

/-- The mouse pressed on it. -/
def pick (s : Autocomplete) (i : Nat) : Option Autocomplete :=
  if s.isOpen = false then none
  else if s.offersImport trim then
    let addr := trim s.inputValue
    if i = 0 then some {s with inputValue := addr,inputAddress := addr,isOpen := false,highlightIndex := -1} else none
  else s.matchList[i]?.map s.selectToken

def step (s : Autocomplete) : FieldEvent → Option Autocomplete
  | .input value => some (s.handleInput value)
  | .debounce => if s.debouncing then some {s.doSearch bundle localeCompare trim with debouncing := false} else none
  | .changeChain chain => some (searchAgain bundle localeCompare trim {s with chain})
  | .changeIndex index => some ((searchAgain bundle localeCompare trim {s with index}).prefill bundle toUpperCase)
  | .changeInitial initialAddress => some (prefill bundle toUpperCase {s with initialAddress})
  | .setFromAddress address => some (s.setFromAddress bundle toUpperCase address)
  | .clear => some s.clear
  | .focus => some {s with isOpen := s.isOpen || !s.matchList.isEmpty || isHexAddr (trim s.inputValue)}
  | .blurred => some {s with isOpen := false}
  | .arrowDown => some s.handleArrowDown
  | .arrowUp => some s.handleArrowUp
  | .enter => some (s.handleEnter trim).1
  | .escape | .tab => some {s with isOpen := false,highlightIndex := -1}
  | .hover i => s.hover trim i
  | .pick i => s.pick trim i

end

section
variable (bundle : Bundle) (localeCompare : String → String → Int) (trim : String → String)

def searchReturns (s : Autocomplete) : Bool :=
  decide (trim s.inputValue = "") || (searchTokens bundle localeCompare s.index s.inputValue (some s.chain)).isOk

/-- The event comes with a search, which returns, of what the field shows after it. -/
def searches (s : Autocomplete) : FieldEvent → Bool
  | .debounce => s.searchReturns bundle localeCompare trim
  | .changeChain chain => decide (trim s.inputValue ≠ "" ∧ s.wasUserEdited = true) &&
      searchReturns bundle localeCompare trim {s with chain}
  | .changeIndex index => decide (trim s.inputValue ≠ "" ∧ s.wasUserEdited = true) &&
      searchReturns bundle localeCompare trim {s with index}
  | _ => false

end

/-- What a search depends on is as it was. -/
def SameQuery (s next : Autocomplete) : Prop :=
  next.inputValue = s.inputValue ∧ next.chain = s.chain ∧ next.index = s.index

instance (s next : Autocomplete) : Decidable (s.SameQuery next) := inferInstanceAs (Decidable (_ ∧ _ ∧ _))

/-- Where the highlight stands, an item is there. -/
def Highlighted (s : Autocomplete) : Prop := s.matchList = [] ∨ s.highlightIndex < s.matchList.length

section
variable (bundle : Bundle) (localeCompare : String → String → Int)

/-- A search for what the field shows finds the token. -/
def Finds (s : Autocomplete) (token : IndexedToken) : Prop :=
  ∃ found, searchTokens bundle localeCompare s.index s.inputValue (some s.chain) = .ok found ∧ token ∈ found

instance (s : Autocomplete) (token : IndexedToken) : Decidable (s.Finds bundle localeCompare token) :=
  match searched : searchTokens bundle localeCompare s.index s.inputValue (some s.chain) with
  | .ok found => decidable_of_iff (token ∈ found) (by simp [Finds,searched])
  | .error _ => .isFalse (by simp [Finds,searched])

def Current (s : Autocomplete) : Prop := ∀ token ∈ s.matchList, s.Finds bundle localeCompare token.toIndexedToken

end

variable {bundle : Bundle} {localeCompare : String → String → Int} {toUpperCase trim : String → String} {s next : Autocomplete}
  {event : FieldEvent}

/-- A search throws and changes nothing, or the field's text is blank, or the matches are its results. -/
theorem doSearch_cases (bundle : Bundle) (localeCompare : String → String → Int) (trim : String → String) (s : Autocomplete) :
    (s.searchReturns bundle localeCompare trim = false ∧ s.doSearch bundle localeCompare trim = s) ∨
    s.searchReturns bundle localeCompare trim = true ∧
      (s.doSearch bundle localeCompare trim = {s with matchList := [],isOpen := false} ∨
      ∃ results, searchTokens bundle localeCompare s.index s.inputValue (some s.chain) = .ok results ∧
        s.doSearch bundle localeCompare trim = s.showResults bundle trim results) := by
  unfold doSearch searchReturns
  split
  · rename_i blank
    exact Or.inr ⟨by simp [blank],Or.inl rfl⟩
  · rename_i nonblank
    cases searchTokens bundle localeCompare s.index s.inputValue (some s.chain) with
    | error error => exact Or.inl ⟨by simp [nonblank,Except.isOk,Except.toBool],rfl⟩
    | ok results => exact Or.inr ⟨by simp [Except.isOk,Except.toBool],Or.inr ⟨results,rfl,rfl⟩⟩

theorem doSearch_current (returns : s.searchReturns bundle localeCompare trim = true) :
    Current bundle localeCompare (s.doSearch bundle localeCompare trim) := by
  intro token member
  rcases doSearch_cases bundle localeCompare trim s with ⟨thrown,_⟩ | ⟨_,blank | ⟨results,searched,shown⟩⟩
  · rw [thrown] at returns
    cases returns
  · rw [blank] at member
    cases member
  · rw [shown] at member ⊢
    obtain ⟨found,listed,rfl⟩ := List.mem_map.mp member
    exact ⟨results,searched,List.mem_of_mem_take listed⟩

theorem doSearch_getValue (s : Autocomplete) : (s.doSearch bundle localeCompare trim).getValue = s.getValue := by
  rcases doSearch_cases bundle localeCompare trim s with ⟨_,same⟩ | ⟨_,blank | ⟨results,_,shown⟩⟩
  · rw [same]
  · rw [blank]
    rfl
  · rw [shown]
    rfl

theorem Highlighted.doSearch (highlighted : s.Highlighted) : (s.doSearch bundle localeCompare trim).Highlighted := by
  rcases doSearch_cases bundle localeCompare trim s with ⟨_,same⟩ | ⟨_,blank | ⟨results,_,shown⟩⟩
  · rw [same]
    exact highlighted
  · rw [blank]
    exact Or.inl rfl
  · rw [shown]
    refine Or.inr ?_
    show (-1 : Int) < _
    omega

theorem handleEnter_none (s : Autocomplete) : (s.handleEnter trim).2 = none → (s.handleEnter trim).1 = s := by
  unfold handleEnter
  split
  · dsimp only
    split
    · exact fun selected => nomatch selected
    · exact fun _ => rfl
  · dsimp only
    split
    · exact fun selected => nomatch selected
    · exact fun _ => rfl

/-- Enter leaves the field as it is, or puts a selection into it. -/
theorem handleEnter_cases (trim : String → String) (s : Autocomplete) : (s.handleEnter trim).1 = s ∨ ∃ inputValue inputAddress,
    (s.handleEnter trim).1 = {s with inputValue,inputAddress,isOpen := false,highlightIndex := -1} := by
  unfold handleEnter
  split
  · dsimp only
    split
    · exact Or.inr ⟨_,_,rfl⟩
    · exact Or.inl rfl
  · dsimp only
    split
    · exact Or.inr ⟨_,_,rfl⟩
    · exact Or.inl rfl

theorem hover_cases {i : Nat} (hovered : s.hover trim i = some next) :
    (s.matchList = [] ∨ i < s.matchList.length) ∧ next = {s with highlightIndex := i} := by
  unfold hover at hovered
  split at hovered
  · rename_i reached
    refine ⟨?_,(Option.some.inj hovered).symm⟩
    rcases reached.2 with inside | ⟨offered,_⟩
    · exact Or.inr inside
    · rw [offersImport,Bool.and_eq_true,List.isEmpty_iff] at offered
      exact Or.inl offered.1
  · cases hovered

theorem pick_cases {i : Nat} (picked : s.pick trim i = some next) :
    ∃ address, next = {s with inputValue := address,inputAddress := address,isOpen := false,highlightIndex := -1} := by
  unfold pick at picked
  split at picked
  · cases picked
  · split at picked
    · dsimp only at picked
      split at picked
      · exact ⟨_,(Option.some.inj picked).symm⟩
      · cases picked
    · obtain ⟨token,_,rfl⟩ := Option.map_eq_some_iff.mp picked
      exact ⟨token.token.address,rfl⟩

theorem step_debounce (stepped : s.step bundle localeCompare toUpperCase trim .debounce = some next) :
    next = {s.doSearch bundle localeCompare trim with debouncing := false} := by
  change (if s.debouncing then _ else none) = some next at stepped
  split at stepped
  · exact (Option.some.inj stepped).symm
  · cases stepped

theorem doSearch_matchList (s : Autocomplete) : (s.doSearch bundle localeCompare trim).matchList = s.matchList ∨
    s.searchReturns bundle localeCompare trim = true := by
  rcases doSearch_cases bundle localeCompare trim s with ⟨_,same⟩ | ⟨returns,_⟩
  · exact Or.inl (by rw [same])
  · exact Or.inr returns

theorem searchAgain_matchList (s : Autocomplete) : (s.searchAgain bundle localeCompare trim).matchList = s.matchList ∨
    (decide (trim s.inputValue ≠ "" ∧ s.wasUserEdited = true) && s.searchReturns bundle localeCompare trim) = true := by
  unfold searchAgain
  split
  · rename_i edited
    refine (doSearch_matchList s).imp_right fun returns => ?_
    rw [returns,Bool.and_true]
    exact decide_eq_true edited
  · exact Or.inl rfl

theorem prefill_matchList (s : Autocomplete) : (s.prefill bundle toUpperCase).matchList = s.matchList := by
  unfold prefill
  split
  · split <;> rfl
  · rfl

theorem highlighted_of_neg (none : s.highlightIndex = -1) : s.Highlighted := by
  refine Or.inr ?_
  rw [none]
  omega

theorem Highlighted.searchAgain (highlighted : s.Highlighted) : (s.searchAgain bundle localeCompare trim).Highlighted := by
  unfold Autocomplete.searchAgain
  split
  · exact highlighted.doSearch
  · exact highlighted

theorem Highlighted.prefill (highlighted : s.Highlighted) : (s.prefill bundle toUpperCase).Highlighted := by
  unfold Autocomplete.prefill
  split
  · split
    · exact highlighted
    · exact highlighted_of_neg rfl
  · exact highlighted

theorem prefill_edited (edited : s.wasUserEdited = true) : s.prefill bundle toUpperCase = s := by
  unfold prefill
  split
  · rw [if_pos edited]
  · rfl

theorem doSearch_wasUserEdited (s : Autocomplete) : (s.doSearch bundle localeCompare trim).wasUserEdited = s.wasUserEdited := by
  rcases doSearch_cases bundle localeCompare trim s with ⟨_,same⟩ | ⟨_,blank | ⟨results,_,shown⟩⟩
  · rw [same]
  · rw [blank]
  · rw [shown]
    rfl

/-- The matches stay, but for a search and for `clear`. -/
theorem step_matchList (stepped : s.step bundle localeCompare toUpperCase trim event = some next) :
    next.matchList = s.matchList ∨ next.matchList = [] ∨ s.searches bundle localeCompare trim event = true := by
  cases event with
  | debounce =>
    obtain rfl := step_debounce stepped
    exact (doSearch_matchList s).imp_right Or.inr
  | changeChain chain =>
    cases Option.some.inj stepped
    exact (searchAgain_matchList {s with chain}).imp_right Or.inr
  | changeIndex index =>
    cases Option.some.inj stepped
    rw [prefill_matchList]
    exact (searchAgain_matchList {s with index}).imp_right Or.inr
  | changeInitial address =>
    cases Option.some.inj stepped
    exact Or.inl (prefill_matchList _)
  | clear =>
    cases Option.some.inj stepped
    exact Or.inr (Or.inl rfl)
  | arrowDown =>
    cases Option.some.inj stepped
    unfold handleArrowDown
    split <;> exact Or.inl rfl
  | arrowUp =>
    cases Option.some.inj stepped
    unfold handleArrowUp
    split <;> exact Or.inl rfl
  | enter =>
    cases Option.some.inj stepped
    rcases handleEnter_cases trim s with same | ⟨_,_,selected⟩
    · rw [same]
      exact Or.inl rfl
    · rw [selected]
      exact Or.inl rfl
  | hover i =>
    obtain ⟨_,rfl⟩ := hover_cases stepped
    exact Or.inl rfl
  | pick i =>
    obtain ⟨_,rfl⟩ := pick_cases stepped
    exact Or.inl rfl
  | input value | setFromAddress address | focus | blurred | escape | tab =>
    cases Option.some.inj stepped
    exact Or.inl rfl

/-- A search that comes with an event, and returns, is for what the field then shows. -/
theorem step_searches (stepped : s.step bundle localeCompare toUpperCase trim event = some next)
    (searched : s.searches bundle localeCompare trim event = true) : Current bundle localeCompare next := by
  cases event with
  | debounce =>
    obtain rfl := step_debounce stepped
    exact doSearch_current searched
  | changeChain chain =>
    cases Option.some.inj stepped
    obtain ⟨search,returns⟩ := Bool.and_eq_true_iff.mp searched
    have edited : trim s.inputValue ≠ "" ∧ s.wasUserEdited = true := of_decide_eq_true search
    rw [searchAgain,if_pos edited]
    exact doSearch_current returns
  | changeIndex index =>
    cases Option.some.inj stepped
    obtain ⟨search,returns⟩ := Bool.and_eq_true_iff.mp searched
    have edited : trim s.inputValue ≠ "" ∧ s.wasUserEdited = true := of_decide_eq_true search
    have kept : prefill bundle toUpperCase (doSearch bundle localeCompare trim {s with index}) = _ :=
      prefill_edited ((doSearch_wasUserEdited _).trans edited.2)
    rw [searchAgain,if_pos edited,kept]
    exact doSearch_current returns
  | _ => cases searched

theorem Current.sameQuery (current : Current bundle localeCompare s) (same : s.SameQuery next)
    (shown : next.matchList = s.matchList ∨ next.matchList = []) : Current bundle localeCompare next := by
  obtain ⟨text,chain,index⟩ := same
  intro token member
  rw [Finds,text,chain,index]
  rcases shown with kept | none
  · exact current token (kept ▸ member)
  · rw [none] at member
    cases member

theorem step_highlighted (highlighted : s.Highlighted)
    (stepped : s.step bundle localeCompare toUpperCase trim event = some next) : next.Highlighted := by
  cases event with
  | debounce =>
    obtain rfl := step_debounce stepped
    exact Highlighted.doSearch highlighted
  | changeChain chain =>
    cases Option.some.inj stepped
    exact Highlighted.searchAgain highlighted
  | changeIndex index =>
    cases Option.some.inj stepped
    exact Highlighted.prefill (Highlighted.searchAgain highlighted)
  | changeInitial address =>
    cases Option.some.inj stepped
    exact Highlighted.prefill highlighted
  | input value | focus | blurred =>
    cases Option.some.inj stepped
    exact highlighted
  | setFromAddress address | clear | escape | tab =>
    cases Option.some.inj stepped
    exact highlighted_of_neg rfl
  | arrowDown =>
    cases Option.some.inj stepped
    unfold handleArrowDown
    split
    · exact highlighted
    · rename_i nonempty
      have positive : 0 < s.matchList.length := List.length_pos_iff.mpr (by simpa using nonempty)
      exact Or.inr (Int.emod_lt_of_pos _ (Int.natCast_pos.mpr positive))
  | arrowUp =>
    cases Option.some.inj stepped
    unfold handleArrowUp
    split
    · exact highlighted
    · refine highlighted.imp_right fun inside => ?_
      show (if s.highlightIndex ≤ 0 then _ else _) < (s.matchList.length : Int)
      split <;> omega
  | enter =>
    cases Option.some.inj stepped
    rcases handleEnter_cases trim s with same | ⟨_,_,selected⟩
    · rw [same]
      exact highlighted
    · rw [selected]
      exact highlighted_of_neg rfl
  | hover i =>
    obtain ⟨inside,rfl⟩ := hover_cases stepped
    exact inside.imp_right Int.ofNat_lt.mpr
  | pick i =>
    obtain ⟨_,rfl⟩ := pick_cases stepped
    exact highlighted_of_neg rfl

/-- Where there are matches, Enter selects one of them. -/
theorem Highlighted.selects (highlighted : s.Highlighted) (nonempty : s.matchList ≠ []) :
    ∃ token ∈ s.matchList, (s.handleEnter trim).2 = some (some token,token.token.address) := by
  have inside := highlighted.resolve_left nonempty
  have positive : 0 < s.matchList.length := List.length_pos_iff.mpr nonempty
  have range : (if 0 ≤ s.highlightIndex then s.highlightIndex else 0).toNat < s.matchList.length := by
    split <;> omega
  have found := List.getElem?_eq_getElem range
  refine ⟨_,List.getElem_mem range,?_⟩
  unfold handleEnter
  rw [if_neg (by simpa using nonempty)]
  simp only [found]

/-- What Enter selects is a match for the field's text, or the text itself. -/
def SelectsShown (bundle : Bundle) (localeCompare : String → String → Int) (trim : String → String) (s : Autocomplete) : Prop :=
  ∀ token address, (s.handleEnter trim).2 = some (token,address) → match token with
    | some token => s.Finds bundle localeCompare token.toIndexedToken ∧ address = token.token.address
    | none => address = trim s.inputValue

theorem Current.selectsShown (current : s.matchList ≠ [] → Current bundle localeCompare s) :
    SelectsShown bundle localeCompare trim s := by
  intro token address selected
  unfold handleEnter at selected
  split at selected
  · dsimp only at selected
    split at selected
    · cases Option.some.inj selected
      rfl
    · cases selected
  · rename_i nonempty
    dsimp only at selected
    split at selected
    · rename_i found there
      cases Option.some.inj selected
      exact ⟨current (by simpa using nonempty) found (List.mem_of_getElem? there),rfl⟩
    · cases selected

end Autocomplete

/-- The field, and whether a search has run, and returned, since its text, its chain or its index last
changed. -/
structure Session extends Autocomplete where
  searched : Bool

namespace Session

section
variable (bundle : Bundle) (localeCompare : String → String → Int) (toUpperCase trim : String → String)

def mount (chain : Int) (index : TokenIndex) (initialAddress : Option String) : Session :=
  ⟨Autocomplete.mount bundle toUpperCase chain index initialAddress,false⟩

def step (s : Session) (event : FieldEvent) : Option Session :=
  (s.toAutocomplete.step bundle localeCompare toUpperCase trim event).map fun next =>
    ⟨next,s.toAutocomplete.searches bundle localeCompare trim event || s.searched && decide (s.toAutocomplete.SameQuery next)⟩

end

variable {bundle : Bundle} {localeCompare : String → String → Int} {toUpperCase trim : String → String} {s next : Session}
  {event : FieldEvent}

theorem step_current (current : s.searched = true → s.Current bundle localeCompare)
    (stepped : s.step bundle localeCompare toUpperCase trim event = some next) :
    next.searched = true → next.Current bundle localeCompare := by
  obtain ⟨field,moved,rfl⟩ := Option.map_eq_some_iff.mp stepped
  intro searched
  by_cases search : s.toAutocomplete.searches bundle localeCompare trim event = true
  · exact Autocomplete.step_searches moved search
  · rw [Bool.not_eq_true] at search
    simp only [search,Bool.false_or,Bool.and_eq_true,decide_eq_true_eq] at searched
    refine (current searched.1).sameQuery searched.2 ?_
    rcases Autocomplete.step_matchList moved with kept | none | other
    · exact Or.inl kept
    · exact Or.inr none
    · rw [search] at other
      cases other

/-- In every run, Enter selects one of the matches where there are any. -/
theorem enter_selects_match (bundle : Bundle) (localeCompare : String → String → Int) (toUpperCase trim : String → String)
    (chain : Int) (index : TokenIndex) (initialAddress : Option String) {events : List FieldEvent}
    (ran : run (step bundle localeCompare toUpperCase trim) (mount bundle toUpperCase chain index initialAddress) events = some s)
    (nonempty : s.matchList ≠ []) :
    ∃ token ∈ s.matchList, (s.handleEnter trim).2 = some (some token,token.token.address) := by
  have highlighted : s.Highlighted := by
    refine run_preserves (fun s : Session => s.Highlighted) ?_ ?_ ran
    · intro before event after highlighted stepped
      obtain ⟨field,moved,rfl⟩ := Option.map_eq_some_iff.mp stepped
      exact Autocomplete.step_highlighted highlighted moved
    · exact Autocomplete.Highlighted.prefill (Autocomplete.highlighted_of_neg rfl)
  exact highlighted.selects nonempty

/-- In every run, Enter selects what the field shows, where a search has run and returned since the field
last changed or there are no matches. -/
theorem enter_selects_shown (bundle : Bundle) (localeCompare : String → String → Int) (toUpperCase trim : String → String)
    (chain : Int) (index : TokenIndex) (initialAddress : Option String) {events : List FieldEvent}
    (ran : run (step bundle localeCompare toUpperCase trim) (mount bundle toUpperCase chain index initialAddress) events = some s)
    (searched : s.matchList ≠ [] → s.searched = true) : s.SelectsShown bundle localeCompare trim := by
  have current : s.searched = true → s.Current bundle localeCompare := by
    refine run_preserves (fun s => s.searched = true → s.Current bundle localeCompare)
      (fun _ _ _ current stepped => step_current current stepped) ?_ ran
    exact fun never => nomatch never
  exact Autocomplete.Current.selectsShown fun nonempty => current (searched nonempty)

/-- The built-in tokens of both chains. -/
def builtinIndex : TokenIndex := ((buildTokenIndex ⟨"",[],asciiLower⟩ [builtinList]).toOption).getD []

theorem enter_selects_shown_weth :
    ∃ s, run (step ⟨"",[],asciiLower⟩ codePointCompare id id) (mount ⟨"",[],asciiLower⟩ id 8453 builtinIndex none)
        [.input "weth",.debounce] = some s ∧ s.SelectsShown ⟨"",[],asciiLower⟩ codePointCompare id ∧
      (s.handleEnter id).2.map (·.2) = some "0x4200000000000000000000000000000000000006" := by
  obtain ⟨s,ran,searched,selects⟩ : ∃ s ∈ run (step ⟨"",[],asciiLower⟩ codePointCompare id id)
      (mount ⟨"",[],asciiLower⟩ id 8453 builtinIndex none) [.input "weth",.debounce], s.searched = true ∧
      (s.handleEnter id).2.map (·.2) = some "0x4200000000000000000000000000000000000006" := by decide +kernel
  exact ⟨s,ran,enter_selects_shown _ _ _ _ _ _ _ ran fun _ => searched,selects⟩

/-- Enter within the 150 ms after typing selects a match of the text before. -/
theorem early_enter_selects_usdc :
    ∃ s, run (step ⟨"",[],asciiLower⟩ codePointCompare id id) (mount ⟨"",[],asciiLower⟩ id 8453 builtinIndex none)
        [.input "usdc",.debounce,.input "weth"] = some s ∧ s.inputValue = "weth" ∧
      (s.handleEnter id).2.map (·.2) = some "0x833589fCD6eDb6E08f4c7C32D4f71b54bdA02913" ∧
      ¬s.SelectsShown ⟨"",[],asciiLower⟩ codePointCompare id := by
  obtain ⟨s,ran,text,token,_,selects,address,absent⟩ : ∃ s ∈ run (step ⟨"",[],asciiLower⟩ codePointCompare id id)
      (mount ⟨"",[],asciiLower⟩ id 8453 builtinIndex none) [.input "usdc",.debounce,.input "weth"], s.inputValue = "weth" ∧
      ∃ token ∈ s.matchList, (s.handleEnter id).2 = some (some token,token.token.address) ∧
      token.token.address = "0x833589fCD6eDb6E08f4c7C32D4f71b54bdA02913" ∧
      ¬s.Finds ⟨"",[],asciiLower⟩ codePointCompare token.toIndexedToken := by
    decide +kernel
  refine ⟨s,ran,text,?_,fun shown => absent (shown _ _ selects).1⟩
  rw [selects,Option.map_some,address]

-- With a token that has no texts on the chain, the search throws and the matches of the text before stay.
example :
    ∃ index ∈ (buildTokenIndex ⟨"",[],asciiLower⟩ (builtinList::textless)).toOption,
    ∃ s ∈ run (step ⟨"",[],asciiLower⟩ codePointCompare id id) (mount ⟨"",[],asciiLower⟩ id 1 builtinIndex none)
        [.input "usdc",.debounce,.changeIndex index,.input "eth",.debounce], s.searched = false ∧
      (s.handleEnter id).2.map (·.2) = some "0xA0b86991c6218b36c1d19D4a2e9Eb0cE3606eB48" := by decide +kernel

end Session

end YPriceMagic.Frontend
