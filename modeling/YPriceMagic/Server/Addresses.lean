import YPriceMagic.Server.ParamsTotal

/-! Which texts the endpoints take for addresses, and what they hand on. -/
namespace YPriceMagic.Server
open YPriceMagic.Python YPriceMagic.Python.Call
open YPriceMagic.Python.Text (strip stripBy splitOn isspace)

def hexDigit (c : Char) : Bool := c.isDigit || ('a' ≤ c && c ≤ 'f') || ('A' ≤ c && c ≤ 'F')

/-- `0x` and forty hexadecimal digits, and nothing else. -/
structure ExactAddress (address : String) : Prop where
  start : "0x".toList <+: address.toList
  digits : ∀ c ∈ address.toList.drop 2, hexDigit c = true
  length : address.toList.length = 42

/-- The checks with which `check_bucket` begins. -/
def checkBucketToken : Option String → Parser String
  | none => throw ⟨"Missing required parameter: token"⟩
  | some token =>
    if token = "" then throw ⟨"Missing required parameter: token"⟩
    else if !isValidAddress token then throw ⟨"Invalid token address: " ++ token⟩
    else return token

def EndsInNewline (text : String) : Prop := text.toList.getLast? = some '\n'

instance (text : String) : Decidable (EndsInNewline text) := inferInstanceAs (Decidable (_ = _))

theorem isValidAddress_iff (address : String) : isValidAddress address = true ↔
    "0x".toList <+: address.toList ∧ (∀ c ∈ (address.toList.drop 2).take 40, hexDigit c = true) ∧
      (address.toList.length = 42 ∨ address.toList.length = 43 ∧ EndsInNewline address) := by
  unfold isValidAddress EndsInNewline
  simp [hexDigit,and_assoc]

theorem not_hexDigit_newline : hexDigit '\n' = false := by decide

theorem ExactAddress.valid {address : String} (exact : ExactAddress address) : isValidAddress address = true :=
  (isValidAddress_iff address).mpr
    ⟨exact.start,fun c member => exact.digits c (List.mem_of_mem_take member),Or.inl exact.length⟩

theorem ExactAddress.no_newline {address : String} (exact : ExactAddress address) : ¬EndsInNewline address := by
  intro ends
  have long : address.toList.drop 2 ≠ [] := by
    intro empty
    have short := congrArg List.length empty
    rw [List.length_drop,exact.length] at short
    cases short
  have last : (address.toList.drop 2).getLast? = some '\n' := by
    rw [List.getLast?_drop,if_neg (by rw [exact.length]; decide)]
    exact ends
  have digit := exact.digits '\n' (List.mem_of_getLast? last)
  rw [not_hexDigit_newline] at digit
  cases digit

/-- A valid address is exact, unless it ends in the newline that `$` passes over. -/
theorem exactAddress_iff {address : String} (valid : isValidAddress address = true) :
    ExactAddress address ↔ ¬EndsInNewline address := by
  refine ⟨ExactAddress.no_newline,fun trimmed => ?_⟩
  obtain ⟨start,digits,length⟩ := (isValidAddress_iff address).mp valid
  have length : address.toList.length = 42 := length.resolve_right fun ends => trimmed ends.2
  refine ⟨start,fun c member => digits c ?_,length⟩
  rwa [List.take_of_length_le (by rw [List.length_drop,length])]

theorem strip_no_newline (text : String) : ¬EndsInNewline (strip text) := by
  intro ends
  rw [EndsInNewline,strip,String.toList_ofList] at ends
  have solid := Text.stripBy_getLast? ends
  revert solid
  decide

/-- The trimmed segments that are not blank. -/
def segmentsOf (segments : List String) : List String := (segments.map strip).filter (· ≠ "")

theorem segmentsOf_cons (segment : String) (segments : List String) : segmentsOf (segment::segments) =
    if strip segment = "" then segmentsOf segments else strip segment::segmentsOf segments := by
  by_cases blank : strip segment = "" <;> simp [segmentsOf,blank]

theorem exact_of_segment {segments : List String} {address : String} (member : address ∈ segmentsOf segments)
    (valid : isValidAddress address = true) : ExactAddress address := by
  obtain ⟨segment,_,rfl⟩ := List.mem_map.mp (List.mem_filter.mp member).1
  exact (exactAddress_iff valid).mpr (strip_no_newline segment)

theorem no_segment_yields (addresses : List String) : (pure [] : Parser (List String)).Yields addresses ↔
    addresses = segmentsOf [] ∧ ∀ address ∈ addresses, isValidAddress address = true := by
  rw [yields_pure]
  constructor
  · rintro rfl
    exact ⟨rfl,List.forall_mem_nil _⟩
  · exact fun both => both.1.symm

/-- One round of the loops over segments: a blank one is dropped, an address is kept. -/
theorem segment_yields {stripped : String} {rest : Parser (List String)} {refusal : ParseError} {later : List String}
    (restYields : ∀ addresses, rest.Yields addresses ↔
      addresses = later ∧ ∀ address ∈ addresses, isValidAddress address = true) (addresses : List String) :
    (if stripped = "" then rest else if isValidAddress stripped then do return stripped::(← rest)
      else throw refusal : Parser (List String)).Yields addresses ↔
        addresses = (if stripped = "" then later else stripped::later) ∧
          ∀ address ∈ addresses, isValidAddress address = true := by
  by_cases blank : stripped = ""
  · simp [blank,restYields]
  · by_cases valid : isValidAddress stripped = true
    · simp only [blank,valid,if_false,if_true,yields_bind,yields_pure,restYields]
      constructor
      · rintro ⟨_,⟨rfl,all⟩,rfl⟩
        exact ⟨rfl,List.forall_mem_cons.mpr ⟨valid,all⟩⟩
      · rintro ⟨rfl,all⟩
        exact ⟨later,⟨rfl,(List.forall_mem_cons.mp all).2⟩,rfl⟩
    · simp only [blank,valid,if_false,Bool.false_eq_true,yields_throw,false_iff]
      rintro ⟨rfl,all⟩
      exact valid (all stripped List.mem_cons_self)

theorem parseTokensSegments_yields (i : Nat) (segments tokens : List String) :
    (parseTokensSegments i segments).Yields tokens ↔
      tokens = segmentsOf segments ∧ ∀ token ∈ tokens, isValidAddress token = true := by
  induction segments generalizing i tokens with
  | nil => exact no_segment_yields tokens
  | cons segment segments ih =>
    rw [segmentsOf_cons]
    exact segment_yields (ih (i+1)) tokens

theorem parseIgnorePoolsSegments_yields (segments pools : List String) :
    (parseIgnorePoolsSegments segments).Yields pools ↔
      pools = segmentsOf segments ∧ ∀ pool ∈ pools, isValidAddress pool = true := by
  induction segments generalizing pools with
  | nil => exact no_segment_yields pools
  | cons segment segments ih =>
    rw [segmentsOf_cons]
    exact segment_yields ih pools

theorem parseIgnorePools_exact {ignorePools : Option String} {pools : List String}
    (accepted : (parseIgnorePools ignorePools).Yields pools) : ∀ pool ∈ pools, ExactAddress pool := by
  cases ignorePools with
  | none => simp_all [parseIgnorePools]
  | some value =>
    by_cases empty : value = ""
    · simp_all [parseIgnorePools]
    · simp only [parseIgnorePools,empty,if_false,parseIgnorePoolsSegments_yields] at accepted
      intro pool member
      exact exact_of_segment (accepted.1 ▸ member) (accepted.2 pool member)

theorem parseTokens_exact {tokens : Option String} {parsed : List String} (accepted : (parseTokens tokens).Yields parsed) :
    ∀ token ∈ parsed, ExactAddress token := by
  cases tokens with
  | none => simp [parseTokens] at accepted
  | some value =>
    simp only [parseTokens,yields_ite,yields_bind,yields_throw,yields_pure,and_false,false_or,
      parseTokensSegments_yields] at accepted
    obtain ⟨_,_,read,_,_,rfl⟩ := accepted
    intro token member
    exact exact_of_segment (read.1 ▸ member) (read.2 token member)

end YPriceMagic.Server
