import Mathlib.Data.List.DropRight

/-! Python's `str` methods and its Unicode tables, on lists of characters. -/
namespace YPriceMagic.Python.Text

/-- `str.isspace` of one character. -/
def isspace (c : Char) : Bool :=
  let n := c.toNat
  (9 ≤ n && n ≤ 13) || (0x1c ≤ n && n ≤ 0x20) || n == 0x85 || n == 0xa0 || n == 0x1680 ||
    (0x2000 ≤ n && n ≤ 0x200a) || n == 0x2028 || n == 0x2029 || n == 0x202f || n == 0x205f || n == 0x3000

def stripBy (blank : Char → Bool) (text : List Char) : List Char :=
  (text.dropWhile blank).rdropWhile blank

def strip (text : String) : String := String.ofList (stripBy isspace text.toList)

def splitOn (separator : Char) (text : String) : List String :=
  (text.toList.splitOn separator).map String.ofList

/-- The zeros of the decimal digits of Unicode 15; each is followed by its nine other digits. -/
def decimalZeros : List Nat :=
  [0x30,0x660,0x6F0,0x7C0,0x966,0x9E6,0xA66,0xAE6,0xB66,0xBE6,0xC66,0xCE6,0xD66,0xDE6,0xE50,0xED0,
    0xF20,0x1040,0x1090,0x17E0,0x1810,0x1946,0x19D0,0x1A80,0x1A90,0x1B50,0x1BB0,0x1C40,0x1C50,0xA620,
    0xA8D0,0xA900,0xA9D0,0xA9F0,0xAA50,0xABF0,0xFF10,0x104A0,0x10D30,0x11066,0x110F0,0x11136,0x111D0,
    0x112F0,0x11450,0x114D0,0x11650,0x116C0,0x11730,0x118E0,0x11950,0x11C50,0x11D50,0x11DA0,0x11F50,
    0x16A60,0x16AC0,0x16B50,0x1D7CE,0x1D7D8,0x1D7E2,0x1D7EC,0x1D7F6,0x1E140,0x1E2F0,0x1E4F0,0x1E950,
    0x1FBF0]

/-- `unicodedata.decimal`. -/
def decimal (c : Char) : Option Nat :=
  (decimalZeros.find? fun first => first ≤ c.toNat && c.toNat < first+10).map (c.toNat - ·)

/-- The ASCII character as which a number's text reads a character. -/
def asciiDigit (c : Char) : Char :=
  if c.toNat < 127 then c
  else if isspace c then ' '
  else match decimal c with
    | some digit => Nat.digitChar digit
    | none => '?'

theorem asciiDigit_ascii {c : Char} (ascii : c.toNat < 127) : asciiDigit c = c := by
  simp [asciiDigit,ascii]

theorem stripBy_eq_self {blank : Char → Bool} {text : List Char} (solid : ∀ c ∈ text, blank c = false) :
    stripBy blank text = text := by
  unfold stripBy
  rw [List.dropWhile_eq_self_iff.mpr,List.rdropWhile_eq_self_iff.mpr]
  · intro nonempty
    simp [solid _ (List.getLast_mem nonempty)]
  · intro nonempty
    simp [solid _ (List.getElem_mem nonempty)]

theorem stripBy_eq_nil {blank : Char → Bool} {text : List Char} (empty : stripBy blank text = []) :
    ∀ c ∈ text, blank c = true := by
  rw [stripBy,List.rdropWhile_eq_nil_iff] at empty
  intro c member
  rw [← List.takeWhile_append_dropWhile (p := blank) (l := text)] at member
  obtain inside | rest := List.mem_append.mp member
  · exact List.mem_takeWhile_imp inside
  · exact empty c rest

theorem stripBy_getLast? {blank : Char → Bool} {text : List Char} {c : Char}
    (last : (stripBy blank text).getLast? = some c) : blank c = false := by
  have nonempty : stripBy blank text ≠ [] := by
    intro empty
    rw [empty] at last
    cases last
  rw [List.getLast?_eq_some_getLast nonempty] at last
  rw [← Option.some.inj last]
  exact Bool.eq_false_iff.mpr (List.rdropWhile_last_not blank _ nonempty)

theorem stripBy_append {blank : Char → Bool} {solid tail : List Char} (filled : ∀ c ∈ solid, blank c = false)
    (empty : ∀ c ∈ tail, blank c = true) : stripBy blank (solid ++ tail) = solid := by
  have trailing : (solid ++ tail).rdropWhile blank = solid := by
    rw [List.rdropWhile,List.reverse_append,List.dropWhile_append_of_pos (by simpa using empty)]
    exact List.rdropWhile_eq_self_iff.mpr fun nonempty => by simp [filled _ (List.getLast_mem nonempty)]
  cases solid with
  | nil =>
    rw [List.nil_append] at trailing ⊢
    rw [stripBy,List.rdropWhile_eq_nil_iff]
    exact fun c member => empty c ((List.dropWhile_suffix blank).subset member)
  | cons first rest =>
    rw [stripBy,List.dropWhile_eq_self_iff.mpr (fun _ => by simp [filled first List.mem_cons_self])]
    exact trailing

/-- A text is its stripped part between two blank ones. -/
theorem stripBy_between (blank : Char → Bool) (text : List Char) : ∃ before after,
    text = before ++ stripBy blank text ++ after ∧ (∀ c ∈ before, blank c = true) ∧ ∀ c ∈ after, blank c = true := by
  refine ⟨text.takeWhile blank,(text.dropWhile blank).rtakeWhile blank,?_,fun _ => List.mem_takeWhile_imp,
    fun _ => List.mem_rtakeWhile_imp⟩
  rw [List.append_assoc,stripBy,List.rdropWhile_append_rtakeWhile,List.takeWhile_append_dropWhile]

theorem mem_stripBy {blank : Char → Bool} {text : List Char} {c : Char} (member : c ∈ text) (solid : blank c = false) :
    c ∈ stripBy blank text := by
  obtain ⟨before,after,whole,empty,trailing⟩ := stripBy_between blank text
  rw [whole,List.mem_append,List.mem_append] at member
  rcases member with (early | inside) | late
  · exact absurd (empty c early) (by simp [solid])
  · exact inside
  · exact absurd (trailing c late) (by simp [solid])

theorem stripBy_stripBy (blank : Char → Bool) (text : List Char) : stripBy blank (stripBy blank text) = stripBy blank text := by
  have leading : (stripBy blank text).dropWhile blank = stripBy blank text := by
    apply List.dropWhile_eq_self_iff.mpr
    intro nonempty
    have start := (List.rdropWhile_prefix blank (text.dropWhile blank)).getElem nonempty
    change ¬blank ((text.dropWhile blank).rdropWhile blank)[0] = true
    rw [start]
    have bounded : 0 < (text.dropWhile blank).length :=
      nonempty.trans_le (List.rdropWhile_prefix blank (text.dropWhile blank)).length_le
    exact List.dropWhile_get_zero_not blank text bounded
  rw [stripBy,leading]
  exact List.rdropWhile_idempotent blank (text.dropWhile blank)

theorem splitOn_whole {separator : Char} {text : String} (whole : separator ∉ text.toList) :
    splitOn separator text = [text] := by
  rw [splitOn,List.splitOn_eq_singleton whole,List.map_singleton,String.ofList_toList]

theorem splitOn_eq_singleton {separator : Char} {text segment : String} (one : splitOn separator text = [segment]) :
    segment = text := by
  obtain ⟨characters,split,rfl⟩ := List.map_eq_singleton_iff.mp one
  have joined : [separator].intercalate (text.toList.splitOn separator) = text.toList := List.intercalate_splitOn separator
  rw [split,List.intercalate_singleton] at joined
  rw [joined,String.ofList_toList]

end YPriceMagic.Python.Text
