import YPriceMagic.Server.Addresses

/-! The grammar that `parse_batch_params` accepts where no timestamp is given, and the positions of
its amounts. -/
namespace YPriceMagic.Server
open YPriceMagic.Python YPriceMagic.Python.Call
open YPriceMagic.Python.Text (strip stripBy splitOn isspace)

def trimmedSegments (text : String) : List String := (splitOn ',' text).map strip

/-- The segments of the tokens that are not blank. -/
def addressSegments : Option String → List String
  | none => []
  | some text => (trimmedSegments text).filter (· ≠ "")

/-- Texts of amounts that are absent or empty say nothing. -/
def amountSegments : Option String → Option (List String)
  | none => none
  | some text => if text = "" then none else some (trimmedSegments text)

/-- Blank, or a finite decimal above zero. -/
def Priced (segment : String) : Prop := segment = "" ∨ ∃ value, decimal segment = .ok (.finite value) ∧ 0 < value

def amountOf (segment : String) : Option Rat :=
  if segment = "" then none else match decimal segment with
    | .ok (.finite value) => some value
    | _ => none

/-- What the three texts must be like. -/
structure BatchGrammar (tokens block amounts : Option String) : Prop where
  some_token : 1 ≤ (addressSegments tokens).length
  few_tokens : (addressSegments tokens).length ≤ 100
  addresses : ∀ segment ∈ addressSegments tokens, ExactAddress segment
  block : ∀ text ∈ block, ∃ number, int text = .ok number ∧ 1 ≤ number ∧ number ≤ 2 ^ 63
  counted : ∀ segments ∈ amountSegments amounts, segments.length = (addressSegments tokens).length
  priced : ∀ segments ∈ amountSegments amounts, ∀ segment ∈ segments, Priced segment

theorem addressSegments_blank {text : String} (blank : strip text = "") : addressSegments (some text) = [] := by
  have empty : stripBy isspace text.toList = [] := by
    rw [← String.toList_ofList (l := stripBy isspace text.toList)]
    exact congrArg String.toList blank
  have spaces := Text.stripBy_eq_nil empty
  have whole : text.toList.splitOn ',' = [text.toList] := by
    apply List.splitOn_eq_singleton
    intro comma
    have space := spaces ',' comma
    revert space
    decide
  simp [addressSegments,trimmedSegments,splitOn,whole,blank]

theorem parseTokens_yields (tokens : Option String) (parsed : List String) : (parseTokens tokens).Yields parsed ↔
    parsed = addressSegments tokens ∧ (∀ segment ∈ parsed, ExactAddress segment) ∧ 1 ≤ parsed.length ∧ parsed.length ≤ 100 := by
  cases tokens with
  | none =>
    simp only [parseTokens,yields_throw,false_iff,addressSegments]
    rintro ⟨rfl,_,some_token,_⟩
    cases some_token
  | some text =>
    by_cases blank : strip text = ""
    · simp only [parseTokens,blank,if_true,yields_throw,false_iff,addressSegments_blank blank]
      rintro ⟨rfl,_,some_token,_⟩
      cases some_token
    · simp only [parseTokens,blank,if_false,yields_bind,yields_ite,yields_throw,yields_pure,and_false,false_or,
        parseTokensSegments_yields]
      constructor
      · rintro ⟨_,⟨rfl,valid⟩,nonempty,few,rfl⟩
        exact ⟨rfl,fun segment member => exact_of_segment member (valid segment member),Nat.pos_of_ne_zero nonempty,
          Nat.le_of_not_lt few⟩
      · rintro ⟨rfl,sound,some_token,few⟩
        exact ⟨_,⟨rfl,fun segment member => (sound segment member).valid⟩,Nat.ne_of_gt some_token,Nat.not_lt.mpr few,rfl⟩

theorem parseBlock_yields (block : Option String) (parsed : Option Nat) : (parseBlock block).Yields parsed ↔
    (∀ text ∈ block, ∃ number, int text = .ok number ∧ 1 ≤ number ∧ number ≤ 2 ^ 63) ∧
      parsed.map (Nat.cast : Nat → Int) = block.bind fun text => (int text).toOption := by
  cases block with
  | none => simp [parseBlock,eq_comm]
  | some text =>
    cases read : int text with
    | error raised => simp [parseBlock,read]
    | ok number =>
      have range : ¬(number ≤ 0 ∨ maxBlock < number) ↔ 1 ≤ number ∧ number ≤ 2 ^ 63 := by
        rw [not_or,not_le,not_lt,maxBlock,Int.lt_iff_add_one_le,zero_add]
      simp only [parseBlock,yields_bind,yields_attempt,read,yields_ite,yields_throw,yields_pure,and_false,false_or,
        range,Option.mem_some_iff,forall_eq',Option.bind_some,Except.toOption,Except.ok.injEq,exists_eq_left',
        reduceCtorEq,exists_false,or_false]
      refine and_congr_right fun inside => ⟨?_,fun same => ?_⟩
      · rintro rfl
        simp [Int.toNat_of_nonneg (by omega : 0 ≤ number)]
      · obtain ⟨block,rfl,cast⟩ := Option.map_eq_some_iff.mp same
        rw [← cast]
        exact congrArg some (Int.toNat_natCast block)

theorem positive_iff (number : Numerals.Number) (value : Rat) :
    positive number = some value ↔ number = .finite value ∧ 0 < value := by
  cases number with
  | finite found =>
    simp only [positive,Option.ite_none_right_eq_some,Option.some.injEq,Numerals.Number.finite.injEq]
    constructor
    · rintro ⟨above,rfl⟩
      exact ⟨rfl,above⟩
    · rintro ⟨rfl,above⟩
      exact ⟨above,rfl⟩
  | _ => simp [positive]

theorem parseAmountsSegments_yields (i : Nat) (segments : List String) (amounts : List (Option Rat)) :
    (parseAmountsSegments i segments).Yields amounts ↔
      amounts = (segments.map strip).map amountOf ∧ ∀ segment ∈ segments.map strip, Priced segment := by
  induction segments generalizing i amounts with
  | nil => simp [parseAmountsSegments,eq_comm]
  | cons segment segments ih =>
    rw [List.map_cons,List.map_cons,List.forall_mem_cons]
    by_cases blank : strip segment = ""
    · simp only [parseAmountsSegments,blank,if_true,yields_bind,yields_pure,ih]
      have nothing : amountOf "" = none := rfl
      constructor
      · rintro ⟨_,⟨rfl,all⟩,rfl⟩
        exact ⟨congrArg (·::_) nothing.symm,Or.inl rfl,all⟩
      · rintro ⟨rfl,_,all⟩
        exact ⟨_,⟨rfl,all⟩,congrArg (·::_) nothing.symm⟩
    · cases read : decimal (strip segment) with
      | error raised =>
        have unpriced : ¬Priced (strip segment) := by simp [Priced,blank,read]
        simp [parseAmountsSegments,blank,read,unpriced]
      | ok number =>
        cases found : positive number with
        | none =>
          have unpriced : ¬Priced (strip segment) := by
            rintro (empty | ⟨value,same,above⟩)
            · exact blank empty
            · rw [read] at same
              rw [(positive_iff number value).mpr ⟨Except.ok.inj same,above⟩] at found
              cases found
          simp [parseAmountsSegments,blank,read,found,unpriced]
        | some value =>
          obtain ⟨rfl,above⟩ := (positive_iff number value).mp found
          have priced : Priced (strip segment) := Or.inr ⟨value,read,above⟩
          have amount : amountOf (strip segment) = some value := by simp [amountOf,blank,read]
          simp only [parseAmountsSegments,blank,if_false,yields_bind,yields_attempt,read,yields_throw,and_false,
            exists_false,or_false,Except.ok.injEq,exists_eq_left',found,ih,yields_pure,amount,priced,true_and]
          constructor
          · rintro ⟨_,⟨rfl,all⟩,rfl⟩
            exact ⟨rfl,all⟩
          · rintro ⟨rfl,all⟩
            exact ⟨_,⟨rfl,all⟩,rfl⟩

theorem parseAmounts_yields (amounts : Option String) (parsed : Option (List (Option Rat))) :
    (parseAmounts amounts).Yields parsed ↔ parsed = (amountSegments amounts).map (·.map amountOf) ∧
      ∀ segments ∈ amountSegments amounts, ∀ segment ∈ segments, Priced segment := by
  cases amounts with
  | none => simp [parseAmounts,amountSegments,eq_comm]
  | some text =>
    by_cases empty : text = ""
    · simp [parseAmounts,amountSegments,empty,eq_comm]
    · have nonempty : (trimmedSegments text).map amountOf ≠ [] := by
        simp [trimmedSegments,splitOn,List.splitOn_ne_nil]
      simp only [parseAmounts,amountSegments,empty,if_false,yields_bind,yields_pure,parseAmountsSegments_yields,
        Option.map_some,Option.mem_some_iff,forall_eq']
      change (∃ list, (list = (trimmedSegments text).map amountOf ∧ ∀ segment ∈ trimmedSegments text, Priced segment) ∧
        (if list = [] then none else some list) = parsed) ↔ _
      constructor
      · rintro ⟨_,⟨rfl,all⟩,rfl⟩
        exact ⟨if_neg nonempty,all⟩
      · rintro ⟨rfl,all⟩
        exact ⟨_,⟨rfl,all⟩,if_neg nonempty⟩

theorem parseBatchParams_yields (now : Datetime.Utc) (tokens block amounts : Option String) (params : BatchParams) :
    (parseBatchParams now tokens block amounts none).Yields params ↔ (parseTokens tokens).Yields params.tokens ∧
      (parseBlock block).Yields params.block ∧ (parseAmounts amounts).Yields params.amounts ∧ params.timestamp = none := by
  simp only [parseBatchParams,yields_bind]
  constructor
  · rintro ⟨parsedTokens,readTokens,parsedBlock,readBlock,parsedAmounts,readAmounts,built⟩
    split at built
    · simp only [parseTimestamp,yields_bind,yields_pure,yields_ite,yields_throw,and_false,false_or,exists_eq_left'] at built
      obtain ⟨_,rfl⟩ := built
      exact ⟨readTokens,readBlock,readAmounts,rfl⟩
    · exact absurd built (yields_throw _ _)
  · rintro ⟨readTokens,readBlock,readAmounts,absent⟩
    refine ⟨_,readTokens,_,readBlock,_,readAmounts,?_⟩
    rw [dif_pos params.aligned]
    simp only [parseTimestamp,yields_bind,yields_pure,yields_ite,yields_throw,and_false,false_or,exists_eq_left']
    obtain ⟨parsedTokens,parsedBlock,parsedAmounts,timestamp,aligned⟩ := params
    cases absent
    exact ⟨by simp,rfl⟩

/-- Without a timestamp exactly the grammar is accepted; the tokens are the segments in order, and
each amount is that of the segment at its place. -/
theorem parseBatchParams_grammar (now : Datetime.Utc) (tokens block amounts : Option String) :
    ((∃ params, (parseBatchParams now tokens block amounts none).Yields params) ↔ BatchGrammar tokens block amounts) ∧
    ∀ params, (parseBatchParams now tokens block amounts none).Yields params →
      params.tokens = addressSegments tokens ∧ params.amounts = (amountSegments amounts).map (·.map amountOf) ∧
        params.block.map (Nat.cast : Nat → Int) = block.bind fun text => (int text).toOption := by
  simp only [parseBatchParams_yields,parseTokens_yields,parseBlock_yields,parseAmounts_yields]
  refine ⟨⟨?_,fun grammar => ?_⟩,fun params accepted => ⟨accepted.1.1,accepted.2.2.1.1,accepted.2.1.2⟩⟩
  · rintro ⟨params,⟨sameTokens,sound,some_token,few_tokens⟩,⟨ranged,_⟩,⟨sameAmounts,priced⟩,_⟩
    rw [sameTokens] at sound some_token few_tokens
    refine ⟨some_token,few_tokens,sound,ranged,fun segments member => ?_,priced⟩
    have counted := params.aligned (segments.map amountOf) (by rw [sameAmounts,member]; rfl)
    rwa [List.length_map,sameTokens] at counted
  · have aligned : ∀ list ∈ (amountSegments amounts).map (·.map amountOf), list.length = (addressSegments tokens).length := by
      intro list member
      obtain ⟨segments,found,rfl⟩ := Option.map_eq_some_iff.mp member
      rw [List.length_map]
      exact grammar.counted segments found
    obtain ⟨parsed,ranged⟩ : ∃ parsed : Option Nat,
        parsed.map (Nat.cast : Nat → Int) = block.bind fun text => (int text).toOption := by
      cases block with
      | none => exact ⟨none,rfl⟩
      | some text =>
        obtain ⟨number,read,above,_⟩ := grammar.block text rfl
        refine ⟨some number.toNat,?_⟩
        simp [read,Except.toOption,Int.toNat_of_nonneg (by omega : 0 ≤ number)]
    exact ⟨⟨_,parsed,_,none,aligned⟩,⟨rfl,grammar.addresses,grammar.some_token,grammar.few_tokens⟩,
      ⟨grammar.block,ranged⟩,⟨rfl,grammar.priced⟩,rfl⟩

/-- Two tokens around a blank segment, the first with an amount. -/
def sampleBatch : BatchParams := ⟨[sampleAddress,sampleAddress],none,some [some 2,none],none,by decide⟩

theorem grammar_sample : sampleBatch.tokens = addressSegments (some (sampleAddress ++ ", ," ++ sampleAddress)) ∧
    sampleBatch.amounts = (amountSegments (some "2,")).map (·.map amountOf) ∧
    sampleBatch.block.map (Nat.cast : Nat → Int) = none := by
  have readTokens : (parseTokens (some (sampleAddress ++ ", ," ++ sampleAddress))).run =
      .ok (.ok [sampleAddress,sampleAddress]) := by decide +kernel
  have readAmounts : (parseAmounts (some "2,")).run = .ok (.ok (some [some 2,none])) := by decide +kernel
  refine (parseBatchParams_grammar november (some (sampleAddress ++ ", ," ++ sampleAddress)) none (some "2,")).2 sampleBatch ?_
  exact (parseBatchParams_yields november _ _ _ _).mpr ⟨readTokens,rfl,readAmounts,rfl⟩

end YPriceMagic.Server
