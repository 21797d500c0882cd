import MwBtcSwap.Bitcoin.Types
import MwBtcSwap.Lib.Script
import Mathlib.Algebra.Module.Basic

/-! The `bitcoin` crate, which is not part of the repository: its functions are the fields of `BtcLib`,
and `Lawful` states what the program relies on.  What Bitcoin asks of a transaction (its scripts, its
lock time) is written out over these fields. -/

namespace MwBtcSwap.Bitcoin

open Script

/-- The functions of the `bitcoin` crate that the program calls. -/
structure BtcLib (K P : Type) where
  /-- Whether the program is built with overflow checks. -/
  overflowChecks : Bool
  /-- The generator of keys. -/
  G : P
  /-- `PrivateKey::to_bytes` -/
  secretToBytes : K → List UInt8
  /-- `SecretKey::from_slice` -/
  secretFromSlice : List UInt8 → Option K
  /-- `PublicKey::to_bytes` -/
  pubKeyToBytes : PublicKey P → List UInt8
  /-- The key of a byte string, compressed or not. -/
  pubKeyFromSlice : List UInt8 → Option P
  toWif : PrivateKey K → String
  fromWif : String → Option (PrivateKey K)
  hash160 : List UInt8 → List UInt8
  /-- `Transaction::signature_hash` of a transaction without its input scripts, for an input, a script
  and a type of hash. -/
  signatureHash : Transaction → ℕ → List UInt8 → UInt8 → List UInt8
  /-- The DER form of `Secp256k1::sign`. -/
  sign : (msg : List UInt8) → K → List UInt8
  /-- The verification of a DER signature under the bytes of a key. -/
  verify : (msg sig key : List UInt8) → Bool
  txid : Transaction → Txid
  /-- `Address::from_script`, as text. -/
  addressFromScript : List UInt8 → Network → Option String

/-- `FFFFFFFF`: the sequence of an input that does not look at the lock time. -/
def finalSequence : ℕ := 4294967295

/-- Lock times from here on are times, those below are heights. -/
def lockTimeThreshold : ℕ := 500000000

namespace Transaction

/-- The transaction without its input scripts, which no signature covers. -/
def blank (tx : Transaction) : Transaction :=
  { tx with input := tx.input.map fun i => { i with scriptSig := [], witness := [] } }

/-- Both lock times are heights or both are times, the operand has been reached, and the input looks at
the lock time. -/
def checkLockTime (tx : Transaction) (ix : ℕ) (n : ℤ) : Bool :=
  decide ((tx.lockTime < lockTimeThreshold ↔ n < lockTimeThreshold) ∧ n ≤ tx.lockTime) &&
    tx.input[ix]?.any fun i => decide (i.sequence ≠ finalSequence)

/-- The transaction can be in a block of a height whose median time past is `mtp`. -/
def IsFinal (tx : Transaction) (height mtp : ℕ) : Prop :=
  tx.lockTime = 0 ∨ tx.lockTime < (if tx.lockTime < lockTimeThreshold then height else mtp) ∨
    ∀ i ∈ tx.input, i.sequence = finalSequence

instance (tx : Transaction) (height mtp : ℕ) : Decidable (tx.IsFinal height mtp) :=
  inferInstanceAs (Decidable (_ ∨ _ ∨ _))

end Transaction

variable {K P : Type} [CommRing K] [AddCommGroup P] [Module K P]

namespace BtcLib

variable (B : BtcLib K P)

/-- `PrivateKey::public_key` -/
def publicKey (sk : PrivateKey K) : PublicKey P := ⟨sk.compressed, sk.key • B.G⟩

/-- The message that a signature of an input signs. -/
def sigHash (tx : Transaction) (ix : ℕ) (script : List UInt8) (hashType : UInt8) : List UInt8 :=
  B.signatureHash tx.blank ix script hashType

/-- The last byte of a signature is the type of its hash. -/
def checkSig (tx : Transaction) (ix : ℕ) (sig key script : List UInt8) : Bool :=
  match sig.getLast? with
  | some hashType => B.verify (B.sigHash tx ix script hashType) sig.dropLast key
  | none => false

/-- What scripts ask of an input of a transaction. -/
def checker (tx : Transaction) (ix : ℕ) : Checker where
  checkSig := B.checkSig tx ix
  checkLockTime := tx.checkLockTime ix
  hash160 := B.hash160

/-- The script of an input satisfies the script of an output. -/
def satisfies (tx : Transaction) (ix : ℕ) (scriptPubkey : List UInt8) : Bool :=
  tx.input[ix]?.any fun i => verifyScript (B.checker tx ix) i.scriptSig scriptPubkey

/-- No other script has the hash of a script. -/
def Binds (script : List UInt8) : Prop := ∀ s, B.hash160 s = B.hash160 script → s = script

/-- What the program relies on: codecs read back what they wrote, the bytes of keys and signatures have
their forms, and signatures verify. -/
structure Lawful : Prop where
  pubKey_codec : ∀ pk : PublicKey P, pk.key ≠ 0 →
    B.pubKeyFromSlice (B.pubKeyToBytes pk) = some pk.key
  pubKey_bytes : ∀ pk : PublicKey P, ∃ b bytes, B.pubKeyToBytes pk = b :: bytes ∧ b ≠ 0x30 ∧
    bytes.length = if pk.compressed then 32 else 64
  wif_codec : ∀ sk : PrivateKey K, sk.key ≠ 0 → B.fromWif (B.toWif sk) = some sk
  hash160_length : ∀ bytes, (B.hash160 bytes).length = 20
  sign_verifies : ∀ (sk : PrivateKey K) msg, sk.key ≠ 0 →
    B.verify msg (B.sign msg sk.key) (B.pubKeyToBytes (B.publicKey sk)) = true
  sign_bytes : ∀ msg k, ∃ bytes, B.sign msg k = 0x30 :: bytes ∧ 7 ≤ bytes.length ∧ bytes.length < 72
  txid_length : ∀ tx, (B.txid tx).bytes.length = 32

end BtcLib

end MwBtcSwap.Bitcoin
