import Mathlib.Data.List.Basic

/-! Hexadecimal text of byte strings.  Bytes are written with lower case digits, and digits of both
cases are read. -/

namespace Hex

/-- The digit of a value below 16. -/
def digit (n : ℕ) : Char :=
  if n < 10 then Char.ofNat (48 + n) else Char.ofNat (87 + n)

/-- The value of a digit. -/
def value (c : Char) : Option ℕ :=
  if 48 ≤ c.toNat ∧ c.toNat ≤ 57 then some (c.toNat - 48)
  else if 97 ≤ c.toNat ∧ c.toNat ≤ 102 then some (c.toNat - 87)
  else if 65 ≤ c.toNat ∧ c.toNat ≤ 70 then some (c.toNat - 55)
  else none

/-- The two digits of a byte, high half first. -/
def pair (b : UInt8) : List Char := [digit (b.toNat / 16), digit (b.toNat % 16)]

def encode (bytes : List UInt8) : String := String.ofList (bytes.flatMap pair)

/-- The bytes of a list of digits; an odd number of digits is no byte string. -/
def decodeChars : List Char → Option (List UInt8)
  | [] => some []
  | [_] => none
  | hi :: lo :: rest => do
    let h ← value hi
    let l ← value lo
    let bytes ← decodeChars rest
    return UInt8.ofNat (16 * h + l) :: bytes

def decode (text : String) : Option (List UInt8) := decodeChars text.toList

theorem value_digit : ∀ n < 16, value (digit n) = some n := by decide

theorem decodeChars_pairs (bytes : List UInt8) :
    decodeChars (bytes.flatMap pair) = some bytes := by
  induction bytes with
  | nil => rfl
  | cons b bytes ih =>
    have hb := b.toNat_lt_size
    have hi : value (digit (b.toNat / 16)) = some (b.toNat / 16) :=
      value_digit _ (by simp [UInt8.size] at hb; omega)
    have lo : value (digit (b.toNat % 16)) = some (b.toNat % 16) := value_digit _ (by omega)
    have hsum : UInt8.ofNat (16 * (b.toNat / 16) + b.toNat % 16) = b := by
      rw [Nat.div_add_mod, UInt8.ofNat_toNat]
    simp only [List.flatMap_cons, pair, List.cons_append, List.nil_append, decodeChars, hi, lo, ih,
      hsum, Option.bind_eq_bind, Option.bind_some, pure]

/-- What `encode` writes, `decode` reads back. -/
@[simp] theorem decode_encode (bytes : List UInt8) : decode (encode bytes) = some bytes := by
  simp [decode, encode, decodeChars_pairs]

example : encode [0x0f, 0xa0] = "0fa0" := by decide

/-- Different texts of one byte string: only the case of a digit differs. -/
example : decode "0A" = decode "0a" := by decide

end Hex
