import MwBtcSwap.Lib.Interaction
import Mathlib.Algebra.BigOperators.Group.List.Basic
import Mathlib.Algebra.GroupWithZero.Nat
import Mathlib.Data.Int.Notation

/-! Machine integers as the compiled program handles them.  A `u64` is a natural number below
`2 ^ 64`; an operation that leaves the range panics in a build with overflow checks and wraps in a
build without them. -/

namespace Machine

open Interaction

/-- Addition of two `u64`. -/
def addU64 (checks : Bool) (a b : ℕ) : Outcome ℕ :=
  if a + b < 2 ^ 64 then .ok (a + b)
  else if checks then .error (.panic "attempt to add with overflow")
  else .ok ((a + b) % 2 ^ 64)

/-- Subtraction of two `u64`. -/
def subU64 (checks : Bool) (a b : ℕ) : Outcome ℕ :=
  if b ≤ a then .ok (a - b)
  else if checks then .error (.panic "attempt to subtract with overflow")
  else .ok ((2 ^ 64 + a - b) % 2 ^ 64)

/-- `i64::try_from` of a `u64`. -/
def i64OfU64 (a : ℕ) : Option ℤ := if a < 2 ^ 63 then some a else none

/-- `u64::try_from` of an `i64`. -/
def u64OfI64 (a : ℤ) : Option ℕ := if 0 ≤ a then some a.toNat else none

/-- `u32::try_from` of an `i64`. -/
def u32OfI64 (a : ℤ) : Option ℕ := if 0 ≤ a ∧ a < 2 ^ 32 then some a.toNat else none

@[simp] theorem addU64_of_lt {checks : Bool} {a b : ℕ} (h : a + b < 2 ^ 64) :
    addU64 checks a b = .ok (a + b) := by
  simp only [addU64, h, if_true]

@[simp] theorem subU64_of_le {checks : Bool} {a b : ℕ} (h : b ≤ a) :
    subU64 checks a b = .ok (a - b) := by
  simp only [subU64, h, if_true]

@[simp] theorem i64OfU64_of_lt {a : ℕ} (h : a < 2 ^ 63) : i64OfU64 a = some (a : ℤ) := by
  simp only [i64OfU64, h, if_true]

theorem i64OfU64_eq_some {a : ℕ} {b : ℤ} (h : i64OfU64 a = some b) : a < 2 ^ 63 ∧ b = a := by
  simp only [i64OfU64, Option.ite_none_right_eq_some, Option.some.injEq] at h
  exact ⟨h.1, h.2.symm⟩

@[simp] theorem u32OfI64_natCast {a : ℕ} (h : a < 2 ^ 32) : u32OfI64 a = some a := by
  have hrange : (0 : ℤ) ≤ a ∧ (a : ℤ) < 2 ^ 32 := by omega
  simp only [u32OfI64, hrange, and_self, if_true, Int.toNat_natCast]

/-- The sum of a list of `u64`, added from the left. -/
def sumU64 (checks : Bool) (values : List ℕ) : Outcome ℕ := values.foldlM (addU64 checks) 0

theorem foldlM_addU64 {checks : Bool} {values : List ℕ} {a : ℕ} (h : a + values.sum < 2 ^ 64) :
    values.foldlM (addU64 checks) a = .ok (a + values.sum) := by
  induction values generalizing a with
  | nil => simp
  | cons v values ih =>
    rw [List.sum_cons] at h
    rw [List.foldlM_cons, addU64_of_lt (by omega), Outcome.ok_bind, ih (by omega), List.sum_cons,
      Nat.add_assoc]

theorem sumU64_of_lt {checks : Bool} {values : List ℕ} (h : values.sum < 2 ^ 64) :
    sumU64 checks values = .ok values.sum := by
  rw [sumU64, foldlM_addU64 (by omega), Nat.zero_add]

/-- An addition panics on overflow when it is checked, and else keeps the remainder. -/
theorem addU64_eq (checks : Bool) (a b : ℕ) :
    addU64 checks a b =
      if checks = true ∧ 2 ^ 64 ≤ a + b then .error (.panic "attempt to add with overflow")
      else .ok ((a + b) % 2 ^ 64) := by
  unfold addU64
  by_cases hlt : a + b < 2 ^ 64
  · rw [if_pos hlt, if_neg (by omega), Nat.mod_eq_of_lt hlt]
  · rw [if_neg hlt]
    cases checks with
    | false => rfl
    | true => rw [if_pos rfl, if_pos ⟨rfl, by omega⟩]

/-- A subtraction panics on underflow when it is checked, and else keeps the remainder. -/
theorem subU64_eq (checks : Bool) {a b : ℕ} (ha : a < 2 ^ 64) :
    subU64 checks a b =
      if checks = true ∧ a < b then .error (.panic "attempt to subtract with overflow")
      else .ok ((2 ^ 64 + a - b) % 2 ^ 64) := by
  unfold subU64
  by_cases hle : b ≤ a
  · have hmod : (2 ^ 64 + a - b) % 2 ^ 64 = a - b := by omega
    rw [if_pos hle, if_neg (by omega), hmod]
  · rw [if_neg hle]
    cases checks with
    | false => rfl
    | true => rw [if_pos rfl, if_pos ⟨rfl, by omega⟩]

theorem subU64_lt {checks : Bool} {a b c : ℕ} (ha : a < 2 ^ 64) (h : subU64 checks a b = .ok c) :
    c < 2 ^ 64 := by
  rw [subU64_eq checks ha] at h
  split_ifs at h
  cases h
  exact Nat.mod_lt _ (Nat.two_pow_pos 64)

theorem foldlM_addU64_eq (checks : Bool) {a : ℕ} (values : List ℕ) (ha : a < 2 ^ 64) :
    values.foldlM (addU64 checks) a =
      if checks = true ∧ 2 ^ 64 ≤ a + values.sum then .error (.panic "attempt to add with overflow")
      else .ok ((a + values.sum) % 2 ^ 64) := by
  induction values generalizing a with
  | nil =>
    rw [List.foldlM_nil, List.sum_nil, Nat.add_zero, if_neg (by omega), Nat.mod_eq_of_lt ha]
    rfl
  | cons v values ih =>
    rw [List.foldlM_cons, List.sum_cons, addU64_eq]
    by_cases hover : checks = true ∧ 2 ^ 64 ≤ a + v
    · rw [if_pos hover, if_pos ⟨hover.1, by omega⟩]
      rfl
    · rw [if_neg hover, Outcome.ok_bind, ih (Nat.mod_lt _ (by omega))]
      have hmod : ((a + v) % 2 ^ 64 + values.sum) % 2 ^ 64 = (a + (v + values.sum)) % 2 ^ 64 := by
        omega
      rw [hmod]
      cases checks with
      | false => rfl
      | true =>
        -- the sum so far is exact
        have hexact : (a + v) % 2 ^ 64 = a + v := Nat.mod_eq_of_lt (by simpa using hover)
        rw [hexact, Nat.add_assoc]

/-- A sum is exact when it is checked, and else keeps the remainder. -/
theorem sumU64_eq (checks : Bool) (values : List ℕ) :
    sumU64 checks values =
      if checks = true ∧ 2 ^ 64 ≤ values.sum then .error (.panic "attempt to add with overflow")
      else .ok (values.sum % 2 ^ 64) := by
  have hfold := foldlM_addU64_eq checks values (show 0 < 2 ^ 64 by omega)
  rwa [Nat.zero_add] at hfold

theorem sumU64_lt {checks : Bool} {values : List ℕ} {c : ℕ} (h : sumU64 checks values = .ok c) :
    c < 2 ^ 64 := by
  rw [sumU64_eq] at h
  split_ifs at h
  cases h
  exact Nat.mod_lt _ (Nat.two_pow_pos 64)

theorem failsOnly_addU64 {S : Failure → Prop} (h : S (.panic "attempt to add with overflow"))
    (checks : Bool) (a b : ℕ) : Outcome.FailsOnly S (addU64 checks a b) := by
  intro e he
  rw [addU64_eq] at he
  split at he
  · cases he
    exact h
  · cases he

theorem failsOnly_subU64 {S : Failure → Prop} (h : S (.panic "attempt to subtract with overflow"))
    (checks : Bool) (a b : ℕ) : Outcome.FailsOnly S (subU64 checks a b) := by
  intro e he
  unfold subU64 at he
  split_ifs at he
  cases he
  exact h

theorem failsOnly_sumU64 {S : Failure → Prop} (h : S (.panic "attempt to add with overflow"))
    (checks : Bool) (values : List ℕ) : Outcome.FailsOnly S (sumU64 checks values) := by
  intro e he
  rw [sumU64_eq] at he
  split at he
  · cases he
    exact h
  · cases he

/-! ### Decimal text -/

/-- The number of a list of decimal digits, after the digits of `acc`. -/
def digits (acc : ℕ) : List Char → Option ℕ
  | [] => some acc
  | c :: rest => if 48 ≤ c.toNat ∧ c.toNat ≤ 57 then digits (10 * acc + (c.toNat - 48)) rest else none

/-- `str::parse::<i64>`: an optional sign and at least one digit, in range. -/
def parseI64 (text : String) : Option ℤ :=
  let magnitude (cs : List Char) : Option ℕ := if cs.isEmpty then none else digits 0 cs
  let value : Option ℤ := match text.toList with
    | '-' :: rest => (magnitude rest).map fun n => -(n : ℤ)
    | '+' :: rest => (magnitude rest).map fun n => (n : ℤ)
    | cs => (magnitude cs).map fun n => (n : ℤ)
  value.filter fun n => -2 ^ 63 ≤ n && n < 2 ^ 63

example : parseI64 "-500000000" = some (-500000000) := by decide

theorem parseI64_range {text : String} {n : ℤ} (h : parseI64 text = some n) :
    -2 ^ 63 ≤ n ∧ n < 2 ^ 63 := by
  obtain ⟨-, hn⟩ := Option.filter_eq_some_iff.mp h
  simpa using hn

/-- `str::parse::<u64>`: an optional plus and at least one digit, in range. -/
def parseU64 (text : String) : Option ℕ :=
  let magnitude (cs : List Char) : Option ℕ := if cs.isEmpty then none else digits 0 cs
  let value : Option ℕ := match text.toList with
    | '+' :: rest => magnitude rest
    | cs => magnitude cs
  value.filter fun n => n < 2 ^ 64

theorem digits_eq {cs : List Char} (h : ∀ c ∈ cs, c.isDigit = true) (acc : ℕ) :
    digits acc cs = some (Nat.ofDigitChars 10 cs acc) := by
  induction cs generalizing acc with
  | nil => rfl
  | cons c cs ih =>
    have hc : 48 ≤ c.toNat ∧ c.toNat ≤ 57 := by
      have hdigit := h c List.mem_cons_self
      simp only [Char.isDigit, Bool.and_eq_true, decide_eq_true_eq, ge_iff_le] at hdigit
      exact ⟨UInt32.le_iff_toNat_le.mp hdigit.1, UInt32.le_iff_toNat_le.mp hdigit.2⟩
    rw [digits, if_pos hc, Nat.ofDigitChars_cons, ih fun d hd => h d (List.mem_cons_of_mem c hd)]
    rfl

theorem isDigit_toDigits {n : ℕ} {c : Char} (h : c ∈ Nat.toDigits 10 n) : c.isDigit = true :=
  Nat.isDigit_of_mem_toDigits (by decide) (by decide) h

theorem digits_toDigits (n : ℕ) : digits 0 (Nat.toDigits 10 n) = some n := by
  rw [digits_eq fun c hc => isDigit_toDigits hc, Nat.ofDigitChars_ten_toDigits]

/-- The digits of a number do not begin with a sign. -/
theorem toDigits_ne_cons {n : ℕ} {c : Char} (h : c.isDigit = false) (rest : List Char) :
    Nat.toDigits 10 n ≠ c :: rest := by
  intro hcons
  have hfirst : c.isDigit = true := isDigit_toDigits (hcons ▸ List.mem_cons_self)
  rw [h] at hfirst
  cases hfirst

theorem toList_toString (n : ℕ) : (toString n).toList = Nat.toDigits 10 n := Nat.toList_repr

/-- The decimal text of a number is read back. -/
theorem parseI64_toString {n : ℕ} (h : n < 2 ^ 63) : parseI64 (toString n) = some (n : ℤ) := by
  simp only [parseI64, toList_toString]
  split
  · next rest heq => exact (toDigits_ne_cons rfl rest heq).elim
  · next rest heq => exact (toDigits_ne_cons rfl rest heq).elim
  · rw [List.isEmpty_eq_false_iff.mpr Nat.toDigits_ne_nil]
    simp [digits_toDigits]
    omega

theorem parseU64_toString {n : ℕ} (h : n < 2 ^ 64) : parseU64 (toString n) = some n := by
  simp only [parseU64, toList_toString]
  split
  · next rest heq => exact (toDigits_ne_cons rfl rest heq).elim
  · rw [List.isEmpty_eq_false_iff.mpr Nat.toDigits_ne_nil]
    simp [digits_toDigits]
    omega

theorem parseU64_lt {text : String} {n : ℕ} (h : parseU64 text = some n) : n < 2 ^ 64 := by
  obtain ⟨-, hn⟩ := Option.filter_eq_some_iff.mp h
  simpa using hn

end Machine
