import YPriceMagic.Server.BatchGrammar

/-! `/price` and a batch of one token: the two parsers take the same texts and read the same values
from them, up to the padding that a batch allows. -/
namespace YPriceMagic.Server
open YPriceMagic.Python YPriceMagic.Python.Call
open YPriceMagic.Python.Text (strip stripBy splitOn isspace)

theorem decimal_strip (text : String) : decimal (strip text) = decimal text := by
  rw [decimal,decimal,strip,String.toList_ofList,Numerals.decimalOf_stripBy]

theorem decimal_splitOn {text : String} {value : Rat} (read : decimal text = .ok (.finite value)) :
    splitOn ',' text = [text] := by
  apply Text.splitOn_whole
  refine @Numerals.decimalOf_no_comma _ value ?_
  unfold decimal at read
  split at read
  · rename_i found
    rw [found,Except.ok.inj read]
  · cases read

theorem hexDigit_range {c : Char} (digit : hexDigit c = true) : 48 ≤ c.toNat ∧ c.toNat ≤ 102 := by
  simp only [hexDigit,Bool.or_eq_true,Bool.and_eq_true,decide_eq_true_eq,Char.isDigit,Char.le_def,
    UInt32.le_iff_toNat_le] at digit
  rcases digit with (⟨low,high⟩ | ⟨low,high⟩) | ⟨low,high⟩ <;>
    exact ⟨le_trans (by decide) low,le_trans high (by decide)⟩

/-- Neither padding nor a separator of segments. -/
def solid (c : Char) : Prop := isspace c = false ∧ c ≠ ','

theorem solid_of_range {c : Char} (range : 48 ≤ c.toNat ∧ c.toNat ≤ 120) : solid c := by
  refine ⟨?_,?_⟩
  · simp [isspace]
    omega
  · rintro rfl
    exact absurd range.1 (by decide)

section
variable {token : String}

/-- A valid address is forty-two solid characters, and perhaps a newline. -/
theorem valid_split (valid : isValidAddress token = true) : ∃ address tail, token.toList = address ++ tail ∧
    (∀ c ∈ address, solid c) ∧ (tail = [] ∨ tail = ['\n']) ∧ ExactAddress (String.ofList address) := by
  obtain ⟨⟨rest,whole⟩,digits,ending⟩ := (isValidAddress_iff token).mp valid
  have shape : token.toList = '0' :: 'x' :: rest := whole.symm
  rw [EndsInNewline,shape] at ending
  rw [shape,List.drop_succ_cons,List.drop_succ_cons,List.drop_zero] at digits
  have sized : (rest.take 40).length = 40 := by
    rw [List.length_take]
    simp only [List.length_cons] at ending
    omega
  refine ⟨'0' :: 'x' :: rest.take 40,rest.drop 40,?_,?_,?_,?_⟩
  · rw [shape,List.cons_append,List.cons_append,List.take_append_drop]
  · refine List.forall_mem_cons.mpr ⟨solid_of_range (by decide),List.forall_mem_cons.mpr ⟨solid_of_range (by decide),?_⟩⟩
    intro c member
    have range := hexDigit_range (digits c member)
    exact solid_of_range ⟨range.1,by omega⟩
  · rcases ending with short | ⟨long,newline⟩
    · refine Or.inl (List.drop_eq_nil_iff.mpr ?_)
      simp only [List.length_cons] at short
      omega
    · have one : (rest.drop 40).length = 1 := by
        simp only [List.length_cons] at long
        rw [List.length_drop]
        omega
      obtain ⟨last,single⟩ := List.length_eq_one_iff.mp one
      have parts : '0' :: 'x' :: rest = ('0' :: 'x' :: rest.take 40) ++ [last] := by
        rw [← single,List.cons_append,List.cons_append,List.take_append_drop]
      rw [parts,List.getLast?_concat] at newline
      exact Or.inr (single.trans (congrArg (fun c => [c]) (Option.some.inj newline)))
  · constructor
    · exact ⟨rest.take 40,String.toList_ofList.symm⟩
    · rw [String.toList_ofList]
      exact digits
    · rw [String.toList_ofList,List.length_cons,List.length_cons,sized]

/-- A batch trims the newline that may end a valid address. -/
theorem valid_strip (valid : isValidAddress token = true) : ExactAddress (strip token) ∧ splitOn ',' token = [token] := by
  obtain ⟨address,tail,whole,filled,ending,exact⟩ := valid_split valid
  have blank : ∀ c ∈ tail, isspace c = true := by
    rcases ending with rfl | rfl
    · exact List.forall_mem_nil _
    · exact List.forall_mem_cons.mpr ⟨rfl,List.forall_mem_nil _⟩
  have trimmed : strip token = String.ofList address := by
    rw [strip,whole,Text.stripBy_append (fun c member => (filled c member).1) blank]
  refine ⟨trimmed ▸ exact,Text.splitOn_whole ?_⟩
  rw [whole,List.mem_append]
  rintro (inside | after)
  · exact (filled ',' inside).2 rfl
  · exact absurd (blank ',' after) (by decide)

theorem parseTokens_single (valid : isValidAddress token = true) : (parseTokens (some token)).Yields [strip token] := by
  obtain ⟨exact,whole⟩ := valid_strip valid
  have nonempty : strip token ≠ "" := by
    intro empty
    have length := exact.length
    rw [empty] at length
    cases length
  have segments : addressSegments (some token) = [strip token] := by
    simp [addressSegments,trimmedSegments,whole,nonempty]
  refine (parseTokens_yields (some token) [strip token]).mpr ⟨segments.symm,?_,le_rfl,Nat.le_add_left 1 99⟩
  exact List.forall_mem_cons.mpr ⟨exact,List.forall_mem_nil _⟩

end

theorem parseAmount_yields (amount : Option String) (parsed : Option Rat) : (parseAmount amount).Yields parsed ↔
    parsed.isSome = amount.isSome ∧ ∀ text ∈ amount, ∀ value ∈ parsed, decimal text = .ok (.finite value) ∧ 0 < value := by
  cases amount with
  | none => cases parsed <;> simp [parseAmount]
  | some text =>
    simp only [parseAmount,yields_bind,yields_attempt,yields_throw,and_false,exists_false,or_false]
    constructor
    · rintro ⟨number,read,taken⟩
      cases found : positive number with
      | none => simp [found] at taken
      | some value =>
        simp only [found,yields_pure] at taken
        obtain ⟨rfl,above⟩ := (positive_iff number value).mp found
        subst taken
        refine ⟨rfl,?_⟩
        rintro _ ⟨⟩ _ ⟨⟩
        exact ⟨read,above⟩
    · rintro ⟨present,reads⟩
      obtain ⟨value,rfl⟩ := Option.isSome_iff_exists.mp present
      obtain ⟨read,above⟩ := reads text rfl value rfl
      refine ⟨_,read,?_⟩
      simp [(positive_iff (.finite value) value).mpr ⟨rfl,above⟩]

/-- A single amount of a batch is the amount of a price. -/
theorem parseAmounts_single (text : String) (value : Rat) : (parseAmounts (some text)).Yields (some [some value]) ↔
    decimal text = .ok (.finite value) ∧ 0 < value := by
  rw [parseAmounts_yields]
  constructor
  · rintro ⟨same,priced⟩
    obtain ⟨segments,present,amounts⟩ := Option.map_eq_some_iff.mp same.symm
    obtain ⟨segment,rfl,amount⟩ := List.map_eq_singleton_iff.mp amounts
    have given : text ≠ "" := by
      rintro rfl
      cases present
    simp only [amountSegments,given,if_false,Option.some.injEq,trimmedSegments] at present
    obtain ⟨whole,split,rfl⟩ := List.map_eq_singleton_iff.mp present
    rw [Text.splitOn_eq_singleton split] at amount
    have one := priced [strip text] (by simp [amountSegments,given,trimmedSegments,split,Text.splitOn_eq_singleton split])
      (strip text) List.mem_cons_self
    rcases one with blank | ⟨found,read,above⟩
    · rw [amountOf,if_pos blank] at amount
      cases amount
    · have nonblank : strip text ≠ "" := by
        intro blank
        rw [amountOf,if_pos blank] at amount
        cases amount
      rw [amountOf,if_neg nonblank,read] at amount
      cases amount
      exact ⟨(decimal_strip text).symm.trans read,above⟩
  · rintro ⟨read,above⟩
    have given : text ≠ "" := by
      rintro rfl
      cases read
    have nonblank : strip text ≠ "" := by
      intro blank
      rw [← decimal_strip,blank] at read
      cases read
    have segments : amountSegments (some text) = some [strip text] := by
      simp [amountSegments,given,trimmedSegments,decimal_splitOn read]
    have amount : amountOf (strip text) = some value := by
      rw [amountOf,if_neg nonblank,decimal_strip,read]
    rw [segments]
    refine ⟨by simp [amount],?_⟩
    rintro _ ⟨⟩ segment member
    cases List.mem_singleton.mp member
    exact Or.inr ⟨value,(decimal_strip text).trans read,above⟩

section
variable (now : Datetime.Utc)

theorem parsePriceParams_iff (token block amount ignorePools timestamp : Option String) (params : PriceParams) :
    (parsePriceParams now token block amount ignorePools timestamp).Yields params ↔
      token = some params.token ∧ isValidAddress params.token = true ∧ (parseBlock block).Yields params.block ∧
        (parseAmount amount).Yields params.amount ∧ (parseIgnorePools ignorePools).Yields params.ignorePools ∧
        (parseTimestamp now timestamp).Yields params.timestamp ∧ ¬(params.timestamp.isSome ∧ params.block.isSome) := by
  cases token with
  | none => simp [parsePriceParams]
  | some token =>
    simp only [parsePriceParams,yields_ite,yields_throw,yields_bind,yields_pure,and_false,false_or,Bool.not_eq_true',
      Bool.not_eq_false]
    constructor
    · rintro ⟨_,valid,_,block,_,amount,_,pools,_,timestamp,exclusive,rfl⟩
      exact ⟨rfl,valid,block,amount,pools,timestamp,exclusive⟩
    · rintro ⟨same,valid,block,amount,pools,timestamp,exclusive⟩
      cases same
      refine ⟨?_,valid,_,block,_,amount,_,pools,_,timestamp,exclusive,rfl⟩
      intro empty
      rw [empty] at valid
      cases valid

theorem parseBatchParams_iff (tokens block amounts timestamp : Option String) (params : BatchParams) :
    (parseBatchParams now tokens block amounts timestamp).Yields params ↔ (parseTokens tokens).Yields params.tokens ∧
      (parseBlock block).Yields params.block ∧ (parseAmounts amounts).Yields params.amounts ∧
      (parseTimestamp now timestamp).Yields params.timestamp ∧ ¬(params.timestamp.isSome ∧ params.block.isSome) := by
  simp only [parseBatchParams,yields_bind]
  constructor
  · rintro ⟨_,tokens,_,block,_,amounts,built⟩
    split at built
    · simp only [yields_bind,yields_ite,yields_throw,and_false,false_or,yields_pure] at built
      obtain ⟨_,timestamp,exclusive,rfl⟩ := built
      exact ⟨tokens,block,amounts,timestamp,exclusive⟩
    · exact absurd built (yields_throw _ _)
  · rintro ⟨tokens,block,amounts,timestamp,exclusive⟩
    refine ⟨_,tokens,_,block,_,amounts,?_⟩
    rw [dif_pos params.aligned]
    simp only [yields_bind,yields_ite,yields_throw,and_false,false_or,yields_pure]
    exact ⟨_,timestamp,exclusive,rfl⟩

/-- What `/price` reads from its texts a batch of the one token reads too, and nothing else: the batch
takes padding around the token and an empty amount besides. -/
theorem price_is_single_batch (token : String) (block amount timestamp : Option String) (params : PriceParams) :
    (parsePriceParams now (some token) block amount none timestamp).Yields params ↔
      isValidAddress token = true ∧ params.token = token ∧ params.ignorePools = [] ∧ params.amount.isSome = amount.isSome ∧
        ∃ batch, (parseBatchParams now (some token) block amount timestamp).Yields batch ∧ batch.tokens = [strip token] ∧
          batch.block = params.block ∧ batch.amounts = params.amount.map ([some ·]) ∧ batch.timestamp = params.timestamp := by
  have amounts : params.amount.isSome = amount.isSome → ((parseAmount amount).Yields params.amount ↔
      (parseAmounts amount).Yields (params.amount.map ([some ·]))) := by
    intro present
    rw [parseAmount_yields]
    cases amount with
    | none =>
      rw [Option.isSome_none,Option.isSome_eq_false_iff,Option.isNone_iff_eq_none] at present
      simp [present,parseAmounts]
    | some text =>
      obtain ⟨value,found⟩ := Option.isSome_iff_exists.mp present
      simp [found,parseAmounts_single]
  have none_ignored : (parseIgnorePools none).Yields params.ignorePools ↔ params.ignorePools = [] := by
    simp [parseIgnorePools,eq_comm]
  simp only [parsePriceParams_iff,parseBatchParams_iff,none_ignored]
  constructor
  · rintro ⟨same,valid,readBlock,readAmount,ignored,readTimestamp,exclusive⟩
    cases same
    have present := ((parseAmount_yields amount params.amount).mp readAmount).1
    have aligned : ∀ list ∈ params.amount.map ([some ·]), list.length = [strip params.token].length := by
      intro list member
      obtain ⟨value,_,rfl⟩ := Option.map_eq_some_iff.mp member
      rfl
    exact ⟨valid,rfl,ignored,present,⟨[strip params.token],params.block,_,params.timestamp,aligned⟩,
      ⟨parseTokens_single valid,readBlock,(amounts present).mp readAmount,readTimestamp,exclusive⟩,rfl,rfl,rfl,rfl⟩
  · rintro ⟨valid,rfl,ignored,present,batch,⟨_,readBlock,readAmounts,readTimestamp,exclusive⟩,_,sameBlock,sameAmounts,sameTime⟩
    rw [sameBlock] at readBlock exclusive
    rw [sameTime] at readTimestamp exclusive
    rw [sameAmounts] at readAmounts
    exact ⟨rfl,valid,readBlock,(amounts present).mpr readAmounts,ignored,readTimestamp,exclusive⟩

end
end YPriceMagic.Server
