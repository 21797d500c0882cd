import Mathlib.Data.Int.Log
import Mathlib.Data.Rat.Floor
import Mathlib.Tactic.Linarith
import Mathlib.Tactic.FieldSimp
import Mathlib.Tactic.NormNum
import Mathlib.Tactic.Ring

/-! Binary floating point numbers by their values: rounding to `p` significant binary digits, to the
nearest and to the even one of two that are as near, and the relative errors that it makes.  Exponents
are not bounded, so this is the arithmetic of a format away from its largest and its smallest numbers. -/

namespace Rounding

variable {R : Type*} [Field R] [LinearOrder R] [IsStrictOrderedRing R]

/-! ### Relative errors -/

/-- `x` is `y` up to a relative error. -/
def Near (δ x y : R) : Prop := |x - y| ≤ δ * |y|

section Near

variable {δ ε x y z : R}

theorem Near.trans (h : Near δ x y) (h' : Near ε y z) (hδ : 0 ≤ δ) : Near (δ + ε + δ * ε) x z := by
  have hy : |y| ≤ (1 + ε) * |z| := by
    have htri := abs_sub_abs_le_abs_sub y z
    rw [Near] at h'
    linarith
  calc |x - z|
    _ ≤ |x - y| + |y - z| := abs_sub_le x y z
    _ ≤ δ * |y| + ε * |z| := add_le_add h h'
    _ ≤ δ * ((1 + ε) * |z|) + ε * |z| := by gcongr
    _ = (δ + ε + δ * ε) * |z| := by ring

theorem Near.mul_right (h : Near δ x y) (c : R) : Near δ (x * c) (y * c) := by
  rw [Near, ← sub_mul, abs_mul, abs_mul, ← mul_assoc]
  exact mul_le_mul_of_nonneg_right h (abs_nonneg c)

theorem Near.mono (h : Near δ x y) (hδ : δ ≤ ε) : Near ε x y :=
  le_trans h (mul_le_mul_of_nonneg_right hδ (abs_nonneg y))

end Near

/-! ### The nearest integer -/

variable [FloorRing R]

/-- The nearest integer, and the even one of two that are as near. -/
def nearestEven (x : R) : ℤ :=
  if Int.fract x < 1 / 2 then ⌊x⌋
  else if 1 / 2 < Int.fract x then ⌊x⌋ + 1
  else if ⌊x⌋ % 2 = 0 then ⌊x⌋
  else ⌊x⌋ + 1

omit [IsStrictOrderedRing R] in
theorem nearestEven_cases (x : R) :
    nearestEven x = ⌊x⌋ ∧ Int.fract x ≤ 1 / 2 ∨ nearestEven x = ⌊x⌋ + 1 ∧ 1 / 2 ≤ Int.fract x := by
  unfold nearestEven
  split_ifs with hlow hhigh heven
  · exact .inl ⟨rfl, hlow.le⟩
  · exact .inr ⟨rfl, hhigh.le⟩
  · exact .inl ⟨rfl, not_lt.mp hhigh⟩
  · exact .inr ⟨rfl, not_lt.mp hlow⟩

theorem abs_sub_nearestEven_le (x : R) : |nearestEven x - x| ≤ 1 / 2 := by
  have hfract := Int.floor_add_fract x
  have hpos := Int.fract_nonneg x
  have hlt := Int.fract_lt_one x
  rw [abs_le]
  obtain ⟨heq, hle⟩ | ⟨heq, hle⟩ := nearestEven_cases x
  · rw [heq]
    constructor <;> linarith
  · rw [heq]
    push_cast
    constructor <;> linarith

@[simp] theorem nearestEven_intCast (n : ℤ) : nearestEven (n : R) = n := by
  simp [nearestEven]

omit [IsStrictOrderedRing R] in
theorem nearestEven_nonneg {x : R} (hx : 0 ≤ x) : 0 ≤ nearestEven x := by
  have hfloor := Int.floor_nonneg.mpr hx
  obtain ⟨heq, -⟩ | ⟨heq, -⟩ := nearestEven_cases x <;> omega

omit [IsStrictOrderedRing R] in
theorem nearestEven_le {x : R} {n : ℤ} (hx : x < n) : nearestEven x ≤ n := by
  have hfloor := Int.floor_lt.mpr hx
  obtain ⟨heq, -⟩ | ⟨heq, -⟩ := nearestEven_cases x <;> omega

/-! ### Significant digits -/

/-- The place of the last of `p` binary digits of a number. -/
def ulp (p : ℕ) (x : R) : R := 2 ^ (Int.log 2 |x| + 1 - p)

/-- The nearest number with `p` significant binary digits. -/
def roundTo (p : ℕ) (x : R) : R := nearestEven (x / ulp p x) * ulp p x

variable {p : ℕ} {x : R}

theorem ulp_pos (p : ℕ) (x : R) : 0 < ulp p x := zpow_pos two_pos _

@[simp] theorem roundTo_zero (p : ℕ) : roundTo p (0 : R) = 0 := by
  rw [roundTo, zero_div, ← Int.cast_zero, nearestEven_intCast, Int.cast_zero, zero_mul]

/-- The last digit is at most `2 ^ (1 - p)` of the number. -/
theorem ulp_le (hx : x ≠ 0) : ulp p x ≤ 2 * |x| / 2 ^ p := by
  have hlog : (2 : R) ^ Int.log 2 |x| ≤ |x| := by
    have h := Int.zpow_log_le_self (b := 2) (by decide) (abs_pos.mpr hx)
    exact_mod_cast h
  have hsplit : ulp p x = 2 ^ Int.log 2 |x| * 2 / 2 ^ p := by
    rw [ulp, zpow_sub₀ two_ne_zero, zpow_add_one₀ two_ne_zero, zpow_natCast]
  rw [hsplit, mul_comm (2 : R) |x|]
  gcongr

/-- A number is smaller than `2 ^ p` units of its last digit. -/
theorem abs_lt_ulp (p : ℕ) (x : R) : |x| < 2 ^ p * ulp p x := by
  have hlog : |x| < (2 : R) ^ (Int.log 2 |x| + 1) := by
    have h := Int.lt_zpow_succ_log_self (b := 2) (by decide) |x|
    exact_mod_cast h
  have hsplit : (2 : R) ^ p * ulp p x = 2 ^ (Int.log 2 |x| + 1) := by
    rw [ulp, ← zpow_natCast, ← zpow_add₀ two_ne_zero]
    congr 1
    ring
  rwa [hsplit]

/-- What is written with `p` digits is not changed. -/
theorem roundTo_eq_self {m : ℤ} (h : x = m * ulp p x) : roundTo p x = x := by
  have hdiv : x / ulp p x = m := by
    rw [div_eq_iff (ulp_pos p x).ne']
    exact h
  rw [roundTo, hdiv, nearestEven_intCast, ← h]

/-- Natural numbers below `2 ^ p` are written with `p` digits. -/
theorem roundTo_natCast {n : ℕ} (h : n < 2 ^ p) : roundTo p (n : R) = n := by
  cases n with
  | zero => simp
  | succ n =>
    -- the last digit is not after the point
    have hlog : Nat.log 2 (n + 1) < p := (Nat.log_lt_iff_lt_pow (by decide) n.succ_ne_zero).mpr h
    obtain ⟨k, hk⟩ : ∃ k : ℕ, p = Nat.log 2 (n + 1) + 1 + k := Nat.exists_eq_add_of_le hlog
    have hulp : ulp p ((n + 1 : ℕ) : R) = 1 / 2 ^ k := by
      rw [ulp, Nat.abs_cast, Int.log_natCast, one_div, ← zpow_natCast, ← zpow_neg]
      congr 1
      omega
    apply roundTo_eq_self (m := (n + 1) * 2 ^ k)
    rw [hulp]
    push_cast
    field_simp

/-- A nonnegative number is rounded to at most `2 ^ p` units of its last digit. -/
theorem exists_roundTo_eq (hx : 0 ≤ x) : ∃ m : ℕ, m ≤ 2 ^ p ∧ roundTo p x = m * ulp p x := by
  have hnonneg := nearestEven_nonneg (div_nonneg hx (ulp_pos p x).le)
  have hlt : x / ulp p x < ((2 ^ p : ℕ) : ℤ) := by
    rw [div_lt_iff₀ (ulp_pos p x)]
    have h := abs_lt_ulp p x
    rw [abs_of_nonneg hx] at h
    exact_mod_cast h
  have hle := nearestEven_le hlt
  refine ⟨(nearestEven (x / ulp p x)).toNat, by omega, ?_⟩
  have hcast : ((nearestEven (x / ulp p x)).toNat : R) = nearestEven (x / ulp p x) := by
    exact_mod_cast Int.toNat_of_nonneg hnonneg
  rw [hcast, roundTo]

theorem roundTo_nonneg (hx : 0 ≤ x) : 0 ≤ roundTo p x := by
  obtain ⟨m, -, heq⟩ := exists_roundTo_eq (p := p) hx
  rw [heq]
  exact mul_nonneg m.cast_nonneg (ulp_pos p x).le

/-- Rounding makes an error of half a unit. -/
theorem near_roundTo (p : ℕ) (x : R) : Near (1 / 2 ^ p) (roundTo p x) x := by
  by_cases hx : x = 0
  · simp [hx, Near]
  · have hulp := ulp_pos p x
    have hsub : roundTo p x - x = (nearestEven (x / ulp p x) - x / ulp p x) * ulp p x := by
      rw [roundTo, sub_mul, div_mul_cancel₀ x hulp.ne']
    rw [Near, hsub, abs_mul, abs_of_pos hulp]
    calc |nearestEven (x / ulp p x) - x / ulp p x| * ulp p x
      _ ≤ 1 / 2 * ulp p x := by gcongr; exact abs_sub_nearestEven_le _
      _ ≤ 1 / 2 * (2 * |x| / 2 ^ p) := by gcongr; exact ulp_le hx
      _ = 1 / 2 ^ p * |x| := by ring

/-- The integer part of a rounded number has at most `p` significant digits. -/
theorem exists_floor_roundTo (p : ℕ) (hx : 0 ≤ x) :
    ∃ m k : ℕ, m ≤ 2 ^ p ∧ ⌊roundTo p x⌋₊ = m * 2 ^ k := by
  obtain ⟨m, hm, heq⟩ := exists_roundTo_eq (p := p) hx
  rcases le_or_gt 0 (Int.log 2 |x| + 1 - p) with hexp | hexp
  · -- the last digit is before the point
    obtain ⟨k, hk⟩ := Int.eq_ofNat_of_zero_le hexp
    have hulp : ulp p x = 2 ^ k := by rw [ulp, hk, zpow_natCast]
    refine ⟨m, k, hm, ?_⟩
    rw [heq, hulp]
    exact_mod_cast Nat.floor_natCast (R := R) (m * 2 ^ k)
  · have hulp : ulp p x ≤ 1 := zpow_le_one_of_nonpos₀ one_le_two hexp.le
    refine ⟨⌊roundTo p x⌋₊, 0, ?_, by simp⟩
    apply Nat.floor_le_of_le
    calc roundTo p x
      _ = m * ulp p x := heq
      _ ≤ m * 1 := by gcongr
      _ ≤ (2 ^ p : ℕ) := by rw [mul_one]; exact_mod_cast hm

end Rounding
