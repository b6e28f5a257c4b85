import Mathlib.Algebra.Order.Floor.Ring
import Mathlib.Data.Int.Log
import Mathlib.Data.Rat.Floor
import Mathlib.Tactic.Linarith
import Mathlib.Tactic.Positivity

/-! Rounding of rational numbers to binary64, to nearest with ties to even. -/
namespace YPriceMagic.Python.Binary64

def roundHalfEven (x : Rat) : Int :=
  if x - ⌊x⌋ < 1/2 then ⌊x⌋
  else if 1/2 < x - ⌊x⌋ then ⌊x⌋+1
  else if ⌊x⌋ % 2 = 0 then ⌊x⌋ else ⌊x⌋+1

/-- The unit in the last place is a power of two: 53 significant bits, and none below `2^-1074`. -/
def ulpExponent (x : Rat) : Int := max (Int.log 2 |x| - 52) (-1074)

def ulp (x : Rat) : Rat := 2 ^ ulpExponent x

def nearest (x : Rat) : Rat := roundHalfEven (x / ulp x) * ulp x

def overflows (x : Rat) : Bool := decide (2 ^ 1024 ≤ |nearest x|)

theorem ulp_pos (x : Rat) : 0 < ulp x := zpow_pos (by norm_num) _

theorem roundHalfEven_mem (x : Rat) : roundHalfEven x = ⌊x⌋ ∨ roundHalfEven x = ⌊x⌋+1 := by
  unfold roundHalfEven
  split_ifs <;> simp

theorem roundHalfEven_error (x : Rat) : |(roundHalfEven x : Rat) - x| ≤ 1/2 := by
  have below := Int.floor_le x
  have above := Int.lt_floor_add_one x
  unfold roundHalfEven
  rw [abs_le]
  split_ifs with low high even
  · constructor <;> linarith
  · push_cast
    constructor <;> linarith
  · constructor <;> linarith
  · push_cast
    constructor <;> linarith

@[simp] theorem roundHalfEven_int (n : Int) : roundHalfEven n = n := by
  simp [roundHalfEven]

theorem roundHalfEven_le {x : Rat} {n : Int} (bound : x ≤ n) : roundHalfEven x ≤ n := by
  rcases eq_or_lt_of_le bound with equal | less
  · subst equal
    simp
  · have floor : ⌊x⌋ < n := Int.floor_lt.mpr less
    rcases roundHalfEven_mem x with value | value <;> omega

theorem le_roundHalfEven {x : Rat} {n : Int} (bound : (n : Rat) ≤ x) : n ≤ roundHalfEven x := by
  have floor : n ≤ ⌊x⌋ := Int.le_floor.mpr bound
  rcases roundHalfEven_mem x with value | value <;> omega

/-- Rounding does not cross a multiple of the unit in the last place. -/
theorem nearest_le_multiple {x : Rat} {k : Int} (bound : x ≤ k * ulp x) : nearest x ≤ k * ulp x := by
  have scaled : x / ulp x ≤ k := (div_le_iff₀ (ulp_pos x)).mpr bound
  have rounded : (roundHalfEven (x / ulp x) : Rat) ≤ k := by exact_mod_cast roundHalfEven_le scaled
  exact mul_le_mul_of_nonneg_right rounded (ulp_pos x).le

theorem multiple_le_nearest {x : Rat} {k : Int} (bound : k * ulp x ≤ x) : k * ulp x ≤ nearest x := by
  have scaled : (k : Rat) ≤ x / ulp x := (le_div_iff₀ (ulp_pos x)).mpr bound
  have rounded : (k : Rat) ≤ roundHalfEven (x / ulp x) := by exact_mod_cast le_roundHalfEven scaled
  exact mul_le_mul_of_nonneg_right rounded (ulp_pos x).le

theorem nearest_error (x : Rat) : |nearest x - x| ≤ ulp x / 2 := by
  have positive := ulp_pos x
  have error := roundHalfEven_error (x / ulp x)
  have factor : nearest x - x = (roundHalfEven (x / ulp x) - x / ulp x) * ulp x := by
    rw [sub_mul,div_mul_cancel₀ _ positive.ne']
    rfl
  rw [factor,abs_mul,abs_of_pos positive]
  calc |(roundHalfEven (x / ulp x) : Rat) - x / ulp x| * ulp x
      ≤ 1/2 * ulp x := mul_le_mul_of_nonneg_right error positive.le
    _ = ulp x / 2 := by ring

theorem nearest_nonneg {x : Rat} (nonneg : 0 ≤ x) : 0 ≤ nearest x := by
  have bound := multiple_le_nearest (x := x) (k := 0) (by simpa using nonneg)
  simpa using bound

theorem nearest_nonpos {x : Rat} (nonpos : x ≤ 0) : nearest x ≤ 0 := by
  have bound := nearest_le_multiple (x := x) (k := 0) (by simpa using nonpos)
  simpa using bound

theorem ulp_le_abs {x : Rat} {e : Int} (range : -1074 ≤ e) (normal : (2 : Rat) ^ e ≤ |x|) : ulp x ≤ |x| := by
  have positive : 0 < |x| := lt_of_lt_of_le (zpow_pos (by norm_num) e) normal
  have log : e ≤ Int.log 2 |x| := (Int.zpow_le_iff_le_log (by norm_num) positive).mp (by exact_mod_cast normal)
  have exponent : ulpExponent x ≤ Int.log 2 |x| := by
    unfold ulpExponent
    omega
  calc ulp x ≤ 2 ^ Int.log 2 |x| := zpow_le_zpow_right₀ (by norm_num) exponent
    _ ≤ |x| := by exact_mod_cast Int.zpow_log_le_self (R := Rat) (b := 2) (by norm_num) positive

theorem nearest_neg {x : Rat} {e : Int} (range : -1074 ≤ e) (negative : x ≤ -(2 : Rat) ^ e) : nearest x < 0 := by
  have power : (0 : Rat) < 2 ^ e := zpow_pos (by norm_num) e
  have size : (2 : Rat) ^ e ≤ |x| := le_abs.mpr (.inr (by linarith))
  have step := ulp_le_abs range size
  rw [abs_of_neg (by linarith)] at step
  have bound : nearest x ≤ ((-1 : Int) : Rat) * ulp x := nearest_le_multiple (by push_cast; linarith)
  have positive := ulp_pos x
  push_cast at bound
  linarith

theorem ulpExponent_le {x : Rat} {e : Nat} (small : |x| < 2 ^ (e+1)) : ulpExponent x ≤ max ((e : Int) - 52) (-1074) := by
  unfold ulpExponent
  apply max_le_max_right
  rcases (abs_nonneg x).eq_or_lt with zero | positive
  · simp [← zero]
  · have log : Int.log 2 |x| < (e+1 : Nat) := by
      rw [← Int.lt_zpow_iff_log_lt (by norm_num) positive]
      exact_mod_cast small
    push_cast at log
    omega

/-- Integers of 53 bits are floats. -/
theorem nearest_int {n : Int} (small : |n| < 2 ^ 53) : nearest n = n := by
  have size : |(n : Rat)| < 2 ^ (52+1) := by exact_mod_cast small
  have exponent : ulpExponent (n : Rat) ≤ 0 := ulpExponent_le size
  obtain ⟨shift,same⟩ := Int.eq_ofNat_of_zero_le (Int.neg_nonneg.mpr exponent)
  have multiple : (n : Rat) = ((n * 2 ^ shift : Int) : Rat) * ulp n := by
    have power : ulp (n : Rat) = ((2 : Rat) ^ shift)⁻¹ := by
      rw [ulp,← Int.neg_neg (ulpExponent (n : Rat)),same,zpow_neg,zpow_natCast]
    rw [power]
    push_cast
    rw [mul_assoc,mul_inv_cancel₀ (by positivity),mul_one]
  have above := nearest_le_multiple multiple.le
  have below := multiple_le_nearest multiple.ge
  rw [← multiple] at above below
  exact le_antisymm above below

example : nearest (1/10) = 3602879701896397 / 36028797018963968 := by decide +kernel

end YPriceMagic.Python.Binary64
