import MwBtcSwap.Grin.Library
import MwBtcSwap.Lib.Bytes
import MwBtcSwap.Lib.Serde
import Mathlib.Algebra.Field.ZMod
import Mathlib.Tactic.DeriveEncodable
import Std.Data.String.ToNat

/-! The libraries can be as `Lawful` asks: an instance that computes with exponents.  Scalars are
numbers modulo the order of the curve, a point is written by its discrete logarithm to the base `G`,
and a rangeproof opens its commitment. -/

namespace MwBtcSwap.Grin

open Schnorr

/-- The order of secp256k1. -/
abbrev order : ℕ := 115792089237316195423570985008687907852837564279074904382605163141518161494337

abbrev Scalar := ZMod order

/-- The numerals of scalars. -/
instance scalarOfNat (n : ℕ) : OfNat Scalar (n + 2) := ⟨((n + 2 : ℕ) : Scalar)⟩

namespace Exponents

/-! ### Bytes -/

def scalarBytes (k : Scalar) : List UInt8 := (Bytes.toLE 32 k.val).reverse

/-- 32 bytes of a number that is neither 0 nor past the order. -/
def scalarOfBytes (bytes : List UInt8) : Option Scalar :=
  let v := Bytes.ofLE bytes.reverse
  if bytes.length = 32 ∧ v ≠ 0 ∧ v < order then some (v : Scalar) else none

def pointBytes (tag : UInt8) (p : Scalar) : List UInt8 := tag :: scalarBytes p

def pointOfBytes (tag : UInt8) : List UInt8 → Option Scalar
  | t :: bytes => if t = tag then scalarOfBytes bytes else none
  | [] => none

theorem val_lt (k : Scalar) : k.val < 256 ^ 32 := lt_trans (ZMod.val_lt k) (by decide)

theorem scalarOfBytes_scalarBytes {k : Scalar} (h : k ≠ 0) :
    scalarOfBytes (scalarBytes k) = some k := by
  have hval : k.val ≠ 0 := by rwa [Ne, ZMod.val_eq_zero]
  simp only [scalarOfBytes, scalarBytes, List.reverse_reverse, List.length_reverse,
    Bytes.length_toLE, Bytes.ofLE_toLE (val_lt k), true_and]
  rw [if_pos ⟨hval, ZMod.val_lt k⟩, ZMod.natCast_zmod_val]

theorem pointOfBytes_pointBytes {tag : UInt8} {p : Scalar} (h : p ≠ 0) :
    pointOfBytes tag (pointBytes tag p) = some p := by
  simp [pointOfBytes, pointBytes, scalarOfBytes_scalarBytes h]

/-! ### Rangeproofs -/

/-- The generator of values. -/
def H : Scalar := 7

def commitment (p : Scalar) : Commitment := ⟨pointBytes 8 p⟩

/-- A proof that opens its commitment: the value in 8 bytes and the blinding factor. -/
def openingProof (value : ℕ) (blind : Scalar) : RangeProof :=
  ⟨Bytes.toLE 8 value ++ Bytes.toLE 32 blind.val⟩

def verifyOpening (c : Commitment) (proof : RangeProof) : Bool :=
  let value := Bytes.ofLE (proof.bytes.take 8)
  let blind := Bytes.ofLE (proof.bytes.drop 8)
  decide (c = commitment ((value : Scalar) * H + (blind : Scalar)))

theorem verifyOpening_openingProof {value : ℕ} {blind : Scalar} (h : value < 2 ^ 64) :
    verifyOpening (commitment ((value : Scalar) * H + blind)) (openingProof value blind) = true := by
  have hvalue : Bytes.ofLE (Bytes.toLE 8 value) = value := Bytes.ofLE_toLE (by norm_num; omega)
  have htake : (Bytes.toLE 8 value ++ Bytes.toLE 32 blind.val).take 8 = Bytes.toLE 8 value :=
    List.take_left' (Bytes.length_toLE _ _)
  have hdrop : (Bytes.toLE 8 value ++ Bytes.toLE 32 blind.val).drop 8 = Bytes.toLE 32 blind.val :=
    List.drop_left' (Bytes.length_toLE _ _)
  simp only [verifyOpening, openingProof, htake, hdrop, hvalue, Bytes.ofLE_toLE (val_lt blind),
    ZMod.natCast_zmod_val, decide_true]

/-! ### Text -/

instance encodableUInt8 : Encodable UInt8 :=
  Encodable.ofLeftInjection UInt8.toNat (fun n => some (UInt8.ofNat n)) (by simp)

instance encodableScalar : Encodable Scalar :=
  Encodable.ofLeftInjection ZMod.val (fun n => some (n : Scalar)) (by simp)

instance encodableString : Encodable String :=
  Encodable.ofLeftInjection (fun text => text.toList.map Char.toNat)
    (fun codes => some (String.ofList (codes.map Char.ofNat)))
    (by simp [Function.comp_def, Char.ofNat_toNat])

deriving instance Encodable for Commitment, RangeProof, FeeFields, KernelFeaturesArgs, CommitsV4,
  Signature, ParticipantData, SlateV4, SerMPCtx

/-- A text of a value, as a decimal number. -/
def toText {α : Type} [Encodable α] (a : α) : String := (Encodable.encode a).repr

def ofText {α : Type} [Encodable α] (text : String) : Option α :=
  text.toNat?.bind Encodable.decode

theorem ofText_toText {α : Type} [Encodable α] (a : α) : ofText (toText a) = some a := by
  simp [ofText, toText, Nat.toNat?_repr]

/-- A value as a JSON string. -/
def codec {α : Type} [Encodable α] : Json.Codec α :=
  .viaString toText ofText (fun _ => True) (fun a _ => ofText_toText a) fun _ _ _ => trivial

/-! ### The instance -/

/-- `Commitment::from_vec`: 33 bytes, cut off or filled up with zeros. -/
def commitFromVec (bytes : List UInt8) : Commitment :=
  ⟨bytes.take 33 ++ List.replicate (33 - bytes.length) 0⟩

/-- A number of the message of a kernel. -/
def message : KernelFeatures → ℕ
  | .plain fee => 4 * fee.raw
  | .coinbase => 1
  | .heightLocked fee height => 4 * (fee.raw + 2 ^ 64 * height) + 2
  | .noRecentDuplicate fee height => 4 * (fee.raw + 2 ^ 64 * height) + 3

/-- The commitments of a body are different and not cut through, and the body fits into a block. -/
def bodyOk (ins outs : List Commitment) (kernels : ℕ) : Bool :=
  decide (ins.Nodup ∧ outs.Nodup ∧ ∀ c ∈ ins, c ∉ outs) &&
    decide (ins.length + 21 * outs.length + 3 * kernels ≤ 40000)

end Exponents

open Exponents

/-- The libraries, by exponents.  The fees, the heights and the limits are those of Grin. -/
def exponents : GrinLib Scalar Scalar where
  overflowChecks := false
  G := 1
  H := H
  challenge nonceSum keySum msg := 3 * nonceSum + 5 * keySum + message msg + 1
  secretToBytes := scalarBytes
  secretFromSlice := scalarOfBytes
  pubKeyToBytes := pointBytes 2
  pubKeyFromSlice := pointOfBytes 2
  commitOfPoint := commitment
  pointOfCommit c := pointOfBytes 8 c.bytes
  commitFromVec := commitFromVec
  bulletProof value blind _ _ := openingProof value blind
  verifyBulletProof := verifyOpening
  bulletProofRound1 _ _ _ nonce := (nonce, nonce)
  bulletProofRound2 _ blind _ _ _ _ _ := blind
  bulletProofFinal value _ _ tauX _ _ _ _ := some (openingProof value tauX)
  txFee inputs outputs kernels := (inputs + 21 * outputs + 3 * kernels) * 500000
  feeFieldsNew fee := if fee = 0 ∨ 2 ^ 40 ≤ fee then none else some ⟨fee⟩
  feeAt _ fee := fee.raw % 2 ^ 40
  yearHeight := 524160
  nrdRelativeHeight height := decide (0 < height ∧ height ≤ 10080)
  sortInputs := id
  insertOutput o outs := if o.commit ∈ outs.map Output.commit then outs else o :: outs
  bodyOk tx :=
    bodyOk (tx.inputs.map Input.commit) (tx.outputs.map Output.commit) tx.kernels.length
  slateToJson := toText
  slateFromJson := ofText
  ctxToJson := toText
  ctxFromJson := ofText

theorem exponents_bodyOk (tx : Transaction Scalar Scalar) :
    exponents.bodyOk tx =
      bodyOk (tx.inputs.map Input.commit) (tx.outputs.map Output.commit) tx.kernels.length := rfl

/-- The place of an output depends on its commitment alone. -/
theorem exponents_insertOutput (o : Output) (outs : List Output) :
    (exponents.insertOutput o outs).map Output.commit =
      if o.commit ∈ outs.map Output.commit then outs.map Output.commit
      else o.commit :: outs.map Output.commit := by
  simp only [exponents]
  split <;> rfl

theorem exponents_pedersen (value : ℕ) (blind : Scalar) :
    exponents.pedersen value blind = (value : Scalar) * H + blind := by
  simp [GrinLib.pedersen, exponents]

/-- A commitment of the instance is that of the opened point. -/
theorem exponents_commit {value : ℕ} {blind : Scalar} {c : Commitment}
    (h : exponents.commit value blind = some c) : c = commitment ((value : Scalar) * H + blind) := by
  rw [← exponents_pedersen]
  exact (GrinLib.commit_eq_some.mp h).2

theorem exponents_joint {value : ℕ} {a b shared na nb : Scalar} {c : Commitment}
    (hv : value < 2 ^ 64) (hc : exponents.commit value (a + b) = some c) :
    ∃ proof, exponents.bulletProofFinal value a shared
        (exponents.jointTau value a b shared na nb c) (exponents.jointT1 value a b shared na nb)
        (exponents.jointT2 value a b shared na nb) c na = some proof ∧
      exponents.verifyBulletProof c proof = true := by
  have htau : exponents.jointTau value a b shared na nb c = a + b := add_comm b a
  rw [htau, exponents_commit hc]
  exact ⟨_, rfl, verifyOpening_openingProof hv⟩

theorem exponents_commitFromVec (p : Scalar) :
    commitFromVec (commitment p).bytes = commitment p := by
  have hlen : (commitment p).bytes.length = 33 := by simp [commitment, pointBytes, scalarBytes]
  simp [commitFromVec, hlen, List.take_of_length_le]

theorem exponents_lawful : exponents.Lawful where
  secret_codec k h := by simpa only [exponents] using scalarOfBytes_scalarBytes h
  secret_zero := by decide
  secret_zero_slice := by decide
  pubKey_codec p h := by simpa only [exponents] using pointOfBytes_pointBytes h
  commit_codec p h := by
    simpa only [exponents, commitment] using pointOfBytes_pointBytes h
  commit_vec p := by simpa only [exponents] using exponents_commitFromVec p
  bulletProof_verifies value blind _ _ c hv hc := by
    rw [exponents_commit hc]
    exact verifyOpening_openingProof hv
  joint_verifies _ _ _ _ _ _ _ hv hc := exponents_joint hv hc
  feeFields_read fee r h height := by
    simp only [exponents] at h ⊢
    split at h
    · cases h
    · rename_i hfee
      cases h
      exact Nat.mod_eq_of_lt (not_le.mp fun hle => hfee (.inr hle))
  txFee_mono i o k := by
    simp only [exponents]
    omega
  sortInputs_perm l := List.Perm.refl l
  insertOutput_perm o outs h := by
    simp only [exponents, h, if_false]
    exact List.Perm.refl _
  insertOutput_mem o outs := by
    rw [exponents_insertOutput]
    split
    · assumption
    · simp
  slate_json v := by simpa only [exponents] using ofText_toText v
  ctx_json v := by simpa only [exponents] using ofText_toText v

end MwBtcSwap.Grin
