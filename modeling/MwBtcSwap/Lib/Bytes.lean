import Mathlib.Data.List.Basic
import Mathlib.Tactic.Ring

/-! Numbers as byte strings of a fixed width, lowest byte first. -/

namespace Bytes

/-- The lowest `width` bytes of a number. -/
def toLE : ℕ → ℕ → List UInt8
  | 0, _ => []
  | width + 1, v => UInt8.ofNat (v % 256) :: toLE width (v / 256)

def ofLE : List UInt8 → ℕ
  | [] => 0
  | b :: bytes => b.toNat + 256 * ofLE bytes

@[simp] theorem length_toLE (width v : ℕ) : (toLE width v).length = width := by
  induction width generalizing v with
  | zero => rfl
  | succ width ih => simp [toLE, ih]

theorem toNat_ofNat_mod (v : ℕ) : (UInt8.ofNat (v % 256)).toNat = v % 256 := by
  simp [UInt8.toNat_ofNat']

/-- A number that fits into the width is read back. -/
theorem ofLE_toLE {width v : ℕ} (h : v < 256 ^ width) : ofLE (toLE width v) = v := by
  induction width generalizing v with
  | zero =>
    simp only [pow_zero] at h
    have hv : v = 0 := by omega
    simp [toLE, ofLE, hv]
  | succ width ih =>
    have hdiv : v / 256 < 256 ^ width := by
      rw [pow_succ] at h
      exact Nat.div_lt_of_lt_mul (by omega)
    rw [toLE, ofLE, ih hdiv, toNat_ofNat_mod]
    omega

end Bytes
