import MwBtcSwap.Lib.Json
import MwBtcSwap.Lib.Rounding
import MwBtcSwap.Bitcoin.Core

/-! The satoshis of an amount that the node lists.  The node writes bitcoins with eight decimals, the
program reads them as an `f32`, multiplies by `100_000_000.0` and takes the integer part. -/

namespace MwBtcSwap.Bitcoin

open Rounding

/-- The `f64` of a literal with an exponent, as `serde_json` makes it of the digits and a power of ten. -/
def f64FromParts (significand exponent : ℤ) : ℚ :=
  if 0 ≤ exponent then
    roundTo 53 (roundTo 53 (significand : ℚ) * roundTo 53 (10 ^ exponent.toNat))
  else roundTo 53 (roundTo 53 (significand : ℚ) / roundTo 53 (10 ^ (-exponent).toNat))

/-- The `f32` of a literal, which is made of an `f64` when the literal has an exponent. -/
def readF32 (n : Json.Number) : ℚ :=
  match n.exponent with
  | none => roundTo 24 (n.mantissa : ℚ)
  | some exponent => roundTo 24 (f64FromParts n.mantissa exponent)

/-- `e.amount * 100_000_000.0` -/
def satProduct (n : Json.Number) : ℚ := roundTo 24 (readF32 n * roundTo 24 100000000)

/-- The same `as u64`. -/
def satAmount (n : Json.Number) : ℕ := min ⌊satProduct n⌋₊ (2 ^ 64 - 1)

/-- The literal that the node writes for an amount of satoshis. -/
def amountLiteral (n : ℕ) : Json.Number := ⟨n, some (-8)⟩

/-- One in eleven of these amounts is one satoshi short. -/
example : satAmount (amountLiteral 26) = 26 ∧ satAmount (amountLiteral 27) = 26 := by decide +kernel

/-- Two amounts that differ by more than the fee of a transaction. -/
example : satAmount (amountLiteral 19999999300) = 20000000000 ∧
    satAmount (amountLiteral 20000000000) = 20000000000 := by decide +kernel

/-! ### The error -/

/-- The relative error of the three roundings. -/
def satError : ℚ := 1 / 2 ^ 23 + 1 / 2 ^ 46

variable {n : ℕ}

theorem readF32_amountLiteral (h : n ≤ maxMoney) :
    readF32 (amountLiteral n) = roundTo 24 (roundTo 53 ((n : ℚ) / 100000000)) := by
  have hdigits : roundTo 53 (n : ℚ) = n := roundTo_natCast (h.trans_lt (by decide))
  have hten : roundTo 53 (100000000 : ℚ) = 100000000 := by decide +kernel
  have hpow : (10 : ℚ) ^ (-(-8 : ℤ)).toNat = 100000000 := by decide +kernel
  simp only [readF32, amountLiteral, f64FromParts, Int.cast_natCast, hpow, hdigits, hten]
  rfl

theorem satProduct_amountLiteral (h : n ≤ maxMoney) :
    satProduct (amountLiteral n) =
      roundTo 24 (roundTo 24 (roundTo 53 ((n : ℚ) / 100000000)) * 100000000) := by
  have hfactor : roundTo 24 (100000000 : ℚ) = 100000000 := by decide +kernel
  rw [satProduct, readF32_amountLiteral h, hfactor]

theorem near_satProduct (h : n ≤ maxMoney) : Near satError (satProduct (amountLiteral n)) n := by
  have hread := (near_roundTo 24 (roundTo 53 ((n : ℚ) / 100000000))).trans
    (near_roundTo 53 ((n : ℚ) / 100000000)) (by norm_num)
  have hscaled := hread.mul_right 100000000
  rw [div_mul_cancel₀ (n : ℚ) (by norm_num : (100000000 : ℚ) ≠ 0)] at hscaled
  rw [satProduct_amountLiteral h]
  refine ((near_roundTo 24 _).trans hscaled (by norm_num)).mono ?_
  norm_num [satError]

theorem satProduct_bounds (h : n ≤ maxMoney) :
    0 ≤ satProduct (amountLiteral n) ∧ n - satError * n ≤ satProduct (amountLiteral n) ∧
      satProduct (amountLiteral n) ≤ n + satError * n := by
  have hnear := near_satProduct h
  rw [Near, Nat.abs_cast, abs_le] at hnear
  refine ⟨?_, by linarith [hnear.1], by linarith [hnear.2]⟩
  rw [satProduct_amountLiteral h]
  refine roundTo_nonneg (mul_nonneg (roundTo_nonneg (roundTo_nonneg ?_)) (by norm_num))
  positivity

/-- No amount exceeds a `u64`. -/
theorem satAmount_eq (h : n ≤ maxMoney) : satAmount (amountLiteral n) = ⌊satProduct (amountLiteral n)⌋₊ := by
  obtain ⟨-, -, hle⟩ := satProduct_bounds h
  have hn : (n : ℚ) ≤ 2100000000000000 := by exact_mod_cast h
  have herror : satError * n ≤ 1 * n := by
    gcongr
    norm_num [satError]
  apply min_eq_left
  apply Nat.floor_le_of_le
  norm_num
  linarith

/-- What the program makes of an amount: the integer part loses less than one satoshi. -/
theorem satAmount_bounds (h : n ≤ maxMoney) :
    (satAmount (amountLiteral n) : ℚ) ≤ n + satError * n ∧
      (n : ℚ) - satError * n < satAmount (amountLiteral n) + 1 := by
  obtain ⟨hpos, hlow, hhigh⟩ := satProduct_bounds h
  rw [satAmount_eq h]
  exact ⟨(Nat.floor_le hpos).trans hhigh, hlow.trans_lt (Nat.lt_floor_add_one _)⟩

/-- Up to 0.08 bitcoin, an amount is reported as it is or as one satoshi less. -/
theorem satAmount_small (h : n < 2 ^ 23) :
    satAmount (amountLiteral n) = n ∨ satAmount (amountLiteral n) + 1 = n := by
  obtain ⟨hhigh, hlow⟩ := satAmount_bounds (h.le.trans (by decide))
  have hn : (n : ℚ) ≤ 2 ^ 23 - 1 := by
    have hle : ((n + 1 : ℕ) : ℚ) ≤ (2 ^ 23 : ℕ) := Nat.cast_le.mpr h
    push_cast at hle
    linarith
  have herror : satError * n < 1 := by
    calc satError * (n : ℚ)
      _ ≤ satError * (2 ^ 23 - 1) := by gcongr; norm_num [satError]
      _ < 1 := by norm_num [satError]
  have hlt : (satAmount (amountLiteral n) : ℚ) < (n + 1 : ℕ) := by
    push_cast
    linarith
  have hgt : (n : ℚ) < (satAmount (amountLiteral n) + 2 : ℕ) := by
    push_cast
    linarith
  have hlt' := Nat.cast_lt.mp hlt
  have hgt' := Nat.cast_lt.mp hgt
  omega

/-- No amount is reported with more than 24 significant binary digits. -/
theorem satAmount_digits (h : n ≤ maxMoney) :
    ∃ m k : ℕ, m ≤ 2 ^ 24 ∧ satAmount (amountLiteral n) = m * 2 ^ k := by
  rw [satAmount_eq h, satProduct_amountLiteral h]
  refine exists_floor_roundTo 24 (mul_nonneg (roundTo_nonneg (roundTo_nonneg ?_)) (by norm_num))
  positivity

/-! ### Sums -/

/-- The sum of amounts as the program reads them. -/
def satSum (amounts : List ℕ) : ℕ := (amounts.map fun n => satAmount (amountLiteral n)).sum

variable {amounts : List ℕ}

theorem satSum_le (h : amounts.sum ≤ maxMoney) :
    (satSum amounts : ℚ) ≤ amounts.sum + satError * amounts.sum := by
  induction amounts with
  | nil => simp [satSum]
  | cons n amounts ih =>
    rw [List.sum_cons] at h
    have htail := ih (by omega)
    obtain ⟨hhead, -⟩ := satAmount_bounds (n := n) (by omega)
    rw [satSum] at htail
    simp only [satSum, List.map_cons, List.sum_cons, Nat.cast_add]
    linarith

theorem satSum_lt (h : amounts.sum ≤ maxMoney) : satSum amounts < 2 ^ 64 := by
  have hsum : (amounts.sum : ℚ) ≤ 2100000000000000 := by exact_mod_cast h
  have hcast : (satSum amounts : ℚ) < 2 ^ 64 := by
    calc (satSum amounts : ℚ)
      _ ≤ amounts.sum + satError * amounts.sum := satSum_le h
      _ ≤ 2100000000000000 + satError * 2100000000000000 := by gcongr; norm_num [satError]
      _ < 2 ^ 64 := by norm_num [satError]
  exact_mod_cast hcast

theorem satSum_small (h : amounts.sum < 2 ^ 23) :
    satSum amounts ≤ amounts.sum ∧ amounts.sum ≤ satSum amounts + amounts.length := by
  induction amounts with
  | nil => simp [satSum]
  | cons n amounts ih =>
    rw [List.sum_cons] at h
    obtain ⟨hle, hge⟩ := ih (by omega)
    have hhead := satAmount_small (n := n) (by omega)
    rw [satSum] at hle hge
    simp only [satSum, List.map_cons, List.sum_cons, List.length_cons]
    omega

/-- A sum that is reported as 40 bitcoins at most is short of that by less than the fee. -/
theorem satSum_le_add_fee (h : amounts.sum ≤ maxMoney) (hle : satSum amounts ≤ 4000000000) :
    satSum amounts ≤ amounts.sum + btcFee := by
  by_contra! hlt
  have hbound := satSum_le h
  have hsum : (amounts.sum : ℚ) ≤ 4000000000 := by
    have hnat : amounts.sum ≤ 4000000000 := by omega
    exact_mod_cast hnat
  have herror : satError * amounts.sum ≤ 500 := by
    calc satError * (amounts.sum : ℚ)
      _ ≤ satError * 4000000000 := by gcongr; norm_num [satError]
      _ ≤ 500 := by norm_num [satError]
  have hover : (amounts.sum + 500 : ℚ) < satSum amounts := by exact_mod_cast hlt
  linarith

end MwBtcSwap.Bitcoin
