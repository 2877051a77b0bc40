import Mathlib.Data.Int.Log
import Mathlib.Data.Rat.Floor
import Mathlib.Tactic.FieldSimp
import Mathlib.Tactic.Linarith
import Mathlib.Tactic.NormNum

/-!
# Rounding to a double

A double in the normal range is 53 bits times a power of two; here it is its value.  `nearest` rounds a positive number
to the nearest double, a tie to the even one: the result of an operation is `nearest` of the exact result.
-/

namespace Double

/-- The nearest integer; of two, the even one. -/
def roundHalfEven (x : ℚ) : ℤ :=
  if x - ⌊x⌋ < 1 / 2 then ⌊x⌋
  else if 1 / 2 < x - ⌊x⌋ then ⌊x⌋ + 1
  else if ⌊x⌋ % 2 = 0 then ⌊x⌋
  else ⌊x⌋ + 1

/-- The step between the doubles around a positive number. -/
def ulp (q : ℚ) : ℚ := 2 ^ (Int.log 2 q - 52)

def nearest (q : ℚ) : ℚ := roundHalfEven (q / ulp q) * ulp q

variable {x q : ℚ}

theorem roundHalfEven_le {k : ℤ} (h : x ≤ k) : roundHalfEven x ≤ k := by
  have hfloor : ⌊x⌋ ≤ k := Int.floor_le_iff.mpr (lt_of_le_of_lt h (lt_add_one _))
  by_cases hlt : ⌊x⌋ < k
  · unfold roundHalfEven
    split
    · exact hfloor
    · split
      · exact hlt
      · split
        · exact hfloor
        · exact hlt
  · -- the floor is `k`, and so is `x`
    have hfloor_eq : ⌊x⌋ = k := le_antisymm hfloor (not_lt.mp hlt)
    have hx : x - ⌊x⌋ < 1 / 2 := by
      rw [hfloor_eq]
      linarith
    unfold roundHalfEven
    rw [if_pos hx]
    exact hfloor

theorem sub_half_le_roundHalfEven (x : ℚ) : x - 1 / 2 ≤ roundHalfEven x := by
  have hfloor : x < ⌊x⌋ + 1 := Int.lt_floor_add_one x
  unfold roundHalfEven
  split
  · linarith
  · split
    · push_cast
      linarith
    · split
      · linarith
      · push_cast
        linarith

theorem ulp_pos (q : ℚ) : 0 < ulp q := zpow_pos (by norm_num) _

/-- A double has 53 bits. -/
theorem ulp_mul_le (h : 0 < q) : ulp q * 2 ^ 52 ≤ q := by
  have hlog : (2 : ℚ) ^ Int.log 2 q ≤ q := by exact_mod_cast Int.zpow_log_le_self (by norm_num) h
  calc ulp q * 2 ^ 52 = 2 ^ Int.log 2 q := by
        unfold ulp
        rw [← zpow_natCast, ← zpow_add₀ (by norm_num)]
        congr 1
        push_cast
        ring
    _ ≤ q := hlog

/-- Below `2 ^ 53` the integers are doubles, and rounding does not cross one. -/
theorem nearest_le {k : ℕ} (h : 0 < q) (hk : q ≤ k) (hsmall : q < 2 ^ 53) : nearest q ≤ k := by
  have hpos := ulp_pos q
  have hlog : Int.log 2 q < 53 := (Int.lt_zpow_iff_log_lt (by norm_num) h).mp (by exact_mod_cast hsmall)
  -- the integer is a multiple of the step
  obtain ⟨n, hn⟩ : ∃ n : ℕ, (n : ℤ) = 52 - Int.log 2 q := ⟨(52 - Int.log 2 q).toNat, Int.toNat_of_nonneg (by omega)⟩
  have hunits : (k : ℚ) = (k * 2 ^ n : ℕ) * ulp q := by
    unfold ulp
    rw [show Int.log 2 q - 52 = -(n : ℤ) by omega, zpow_neg, zpow_natCast]
    push_cast
    field_simp
  have hscaled : q / ulp q ≤ ((k * 2 ^ n : ℕ) : ℤ) := by
    rw [div_le_iff₀ hpos]
    exact_mod_cast hunits ▸ hk
  calc nearest q ≤ ((k * 2 ^ n : ℕ) : ℤ) * ulp q :=
        mul_le_mul_of_nonneg_right (Int.cast_le.mpr (roundHalfEven_le hscaled)) hpos.le
    _ = k := by exact_mod_cast hunits.symm

theorem le_nearest (h : 0 < q) : q * (1 - 1 / 2 ^ 53) ≤ nearest q := by
  have hpos := ulp_pos q
  have hstep := ulp_mul_le h
  calc q * (1 - 1 / 2 ^ 53) ≤ (q / ulp q - 1 / 2) * ulp q := by
        rw [sub_mul, div_mul_cancel₀ _ hpos.ne']
        linarith
    _ ≤ nearest q := mul_le_mul_of_nonneg_right (sub_half_le_roundHalfEven _) hpos.le

theorem nearest_le_self (h : q / ulp q - ⌊q / ulp q⌋ < 1 / 2) : nearest q ≤ q := by
  have hpos := ulp_pos q
  have hround : roundHalfEven (q / ulp q) = ⌊q / ulp q⌋ := if_pos h
  calc nearest q = ⌊q / ulp q⌋ * ulp q := by rw [nearest, hround]
    _ ≤ q / ulp q * ulp q := mul_le_mul_of_nonneg_right (Int.floor_le _) hpos.le
    _ = q := div_mul_cancel₀ _ hpos.ne'

theorem ulp_eq {e : ℤ} (hlow : (2 : ℚ) ^ e ≤ q) (hhigh : q < 2 ^ (e + 1)) : ulp q = 2 ^ (e - 52) := by
  have hpos : 0 < q := lt_of_lt_of_le (zpow_pos (by norm_num) e) hlow
  have hle : e ≤ Int.log 2 q := (Int.zpow_le_iff_le_log (by norm_num) hpos).mp (by exact_mod_cast hlow)
  have hlt : Int.log 2 q < e + 1 := (Int.lt_zpow_iff_log_lt (by norm_num) hpos).mp (by exact_mod_cast hhigh)
  rw [ulp, show Int.log 2 q = e by omega]

/-- Rounding does not change the integer above a number that is not too close to the integer below. -/
theorem ceil_nearest {k : ℕ} (h : 0 < q) (hk : q ≤ k) (hsmall : q < 2 ^ 53) (hlow : k - 1 < q * (1 - 1 / 2 ^ 53)) :
    ⌈nearest q⌉ = k := by
  rw [Int.ceil_eq_iff]
  push_cast
  exact ⟨hlow.trans_le (le_nearest h), nearest_le h hk hsmall⟩

end Double
