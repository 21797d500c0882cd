import MwBtcSwap.Grin.Types
import MwBtcSwap.Lib.Interaction

/-! The Grin crates and `serde_json`, which are not part of the repository: their functions are the
fields of `GrinLib`, and `Lawful` states what the program relies on.  The curve operations and the
aggregated signatures are written out over these fields, as the libraries document them. -/

namespace MwBtcSwap.Grin

open Schnorr Interaction

/-- The functions of the Grin crates that the program calls. -/
structure GrinLib (K P : Type) where
  /-- Whether the program is built with overflow checks. -/
  overflowChecks : Bool
  /-- The generator of keys and blinding factors. -/
  G : P
  /-- The generator of values. -/
  H : P
  /-- The challenge for a nonce sum, a key sum and the message of a kernel. -/
  challenge : P → P → KernelFeatures → K
  secretToBytes : K → List UInt8
  /-- `SecretKey::from_slice` -/
  secretFromSlice : List UInt8 → Option K
  /-- `PublicKey::serialize_vec`, compressed. -/
  pubKeyToBytes : P → List UInt8
  /-- `PublicKey::from_slice` -/
  pubKeyFromSlice : List UInt8 → Option P
  commitOfPoint : P → Commitment
  pointOfCommit : Commitment → Option P
  /-- `Commitment::from_vec` -/
  commitFromVec : List UInt8 → Commitment
  /-- `bullet_proof` of a value and its blinding factor, with two nonces. -/
  bulletProof : ℕ → K → K → K → RangeProof
  verifyBulletProof : Commitment → RangeProof → Bool
  /-- Round 1 of `bullet_proof_multisig` for an amount, a blinding share, the shared nonce and the
  party's nonce: the party's shares of `t_1` and `t_2`. -/
  bulletProofRound1 : ℕ → K → K → K → P × P
  /-- Round 2, for the sums of `t_1` and `t_2` and the commitment: the party's share of `tau_x`. -/
  bulletProofRound2 : ℕ → K → K → P → P → Commitment → K → K
  /-- The last call, which makes the proof from the sum of `tau_x`. -/
  bulletProofFinal : ℕ → K → K → K → P → P → Commitment → K → Option RangeProof
  /-- `tx_fee` for numbers of inputs, outputs and kernels. -/
  txFee : ℕ → ℕ → ℕ → ℕ
  /-- `FeeFields::new(0, fee)` -/
  feeFieldsNew : ℕ → Option FeeFields
  /-- `FeeFields::fee` at a height. -/
  feeAt : ℕ → FeeFields → ℕ
  /-- `consensus::YEAR_HEIGHT` -/
  yearHeight : ℕ
  /-- Whether `NRDRelativeHeight::new` accepts a height. -/
  nrdRelativeHeight : ℕ → Bool
  /-- The order in which `Transaction::new` puts inputs. -/
  sortInputs : List Input → List Input
  /-- `Transaction::with_output` on the outputs. -/
  insertOutput : Output → List Output → List Output
  /-- The checks of `Transaction::validate` on the shape of a transaction: weight, order, duplicates,
  cut-through and features. -/
  bodyOk : Transaction K P → Bool
  slateToJson : SlateV4 K P → String
  slateFromJson : String → Option (SlateV4 K P)
  ctxToJson : SerMPCtx → String
  ctxFromJson : String → Option SerMPCtx

variable {K P : Type} [CommRing K] [AddCommGroup P] [Module K P] [DecidableEq K] [DecidableEq P]

/-- `PublicKey::from_combination` -/
def fromCombination (keys : List P) : Option P := if keys.sum = 0 then none else some keys.sum

/-- `SecretKey::add_assign`, which refuses a sum of 0. -/
def addSecret (a b : K) : Option K := if a + b = 0 then none else some (a + b)

/-- `blind_sum` of the keychain, which refuses a sum of 0. -/
def blindSum (key : K) : Option K := if key = 0 then none else some key

/-- `aggsig::add_signatures` -/
def addSignatures (sigs : List (Signature K P)) (pubNonceSum : P) : Signature K P :=
  ⟨pubNonceSum, (sigs.map Signature.s).sum⟩

namespace GrinLib

variable (L : GrinLib K P)

/-- `value * H + blinding * G` -/
def pedersen (value : ℕ) (blind : K) : P := (value : K) • L.H + blind • L.G

/-- `Secp256k1::commit` -/
def commit (value : ℕ) (blind : K) : Option Commitment :=
  if L.pedersen value blind = 0 then none else some (L.commitOfPoint (L.pedersen value blind))

/-- The points of a list of commitments, if they all are points. -/
def points (coms : List Commitment) : Option (List P) := coms.mapM L.pointOfCommit

/-- `Secp256k1::commit_sum` with positive commitments only. -/
def commitSum (coms : List Commitment) : Option Commitment := do
  let ps ← L.points coms
  if ps.sum = 0 then none else some (L.commitOfPoint ps.sum)

/-- `PublicKey::from_secret_key` -/
def fromSecretKey (k : K) : Option P := if k = 0 then none else some (k • L.G)

/-- `aggsig::sign_single` -/
def signSingle (msg : KernelFeatures) (secKey secNonce : K) (extra : Option K)
    (pubNonceSum pubKeySum : P) : Signature K P :=
  sign L.G (L.challenge pubNonceSum pubKeySum msg) secKey secNonce (extra.getD 0)

/-- `aggsig::verify_single` of a partial signature. -/
def verifySingle (sig : Signature K P) (msg : KernelFeatures) (pubNonceSum pubKey pubKeySum : P)
    (extra : Option P) : Bool :=
  decide (Valid L.G (L.challenge pubNonceSum pubKeySum msg) pubKey (extra.getD 0) sig)

/-- `aggsig::verify_completed_sig`: the nonce of the challenge is that of the signature. -/
def verifyCompletedSig (sig : Signature K P) (pubKey : P) (msg : KernelFeatures) : Bool :=
  L.verifySingle sig msg sig.nonce pubKey pubKey none

/-- `KernelFeatures::fee`, at a height. -/
def kernelFee (height : ℕ) : KernelFeatures → ℕ
  | .plain fee => L.feeAt height fee
  | .coinbase => 0
  | .heightLocked fee _ => L.feeAt height fee
  | .noRecentDuplicate fee _ => L.feeAt height fee

/-- `Transaction::fee` -/
def fee (height : ℕ) (tx : Transaction K P) : ℕ :=
  (tx.kernels.map fun k => L.kernelFee height k.features).sum

/-- `TxKernel::verify` -/
def verifyKernel (k : TxKernel K P) : Bool :=
  match L.pointOfCommit k.excess with
  | some pubKey => L.verifyCompletedSig k.excessSig pubKey k.features
  | none => false

/-- `verify_kernel_sums`: outputs minus inputs plus the fee open to the kernel excess and the
offset. -/
def kernelSums (tx : Transaction K P) : Bool :=
  match L.points (tx.outputs.map Output.commit), L.points (tx.inputs.map Input.commit),
      L.points (tx.kernels.map TxKernel.excess) with
  | some outs, some ins, some excess =>
    decide (outs.sum - ins.sum + (L.fee 0 tx : K) • L.H = excess.sum + tx.offset • L.G)
  | _, _, _ => false

/-- `Transaction::validate` -/
def validate (tx : Transaction K P) : Bool :=
  L.bodyOk tx && tx.outputs.all (fun o => L.verifyBulletProof o.commit o.proof) &&
    tx.kernels.all L.verifyKernel && L.kernelSums tx

/-- The two-party rangeproof of `value` with blinding shares `a` and `b` and nonces `na` and `nb`
under the shared nonce: its sums of `t_1`, of `t_2`, and of `tau_x`. -/
def jointT1 (value : ℕ) (a b shared na nb : K) : P :=
  (L.bulletProofRound1 value a shared na).1 + (L.bulletProofRound1 value b shared nb).1

@[inherit_doc jointT1]
def jointT2 (value : ℕ) (a b shared na nb : K) : P :=
  (L.bulletProofRound1 value a shared na).2 + (L.bulletProofRound1 value b shared nb).2

@[inherit_doc jointT1]
def jointTau (value : ℕ) (a b shared na nb : K) (c : Commitment) : K :=
  L.bulletProofRound2 value b shared (L.jointT1 value a b shared na nb)
      (L.jointT2 value a b shared na nb) c nb +
    L.bulletProofRound2 value a shared (L.jointT1 value a b shared na nb)
      (L.jointT2 value a b shared na nb) c na

/-- What the program relies on: codecs read back what they wrote, proofs that were made for a
commitment verify, the orders of a transaction only permute it, and fees are read back. -/
structure Lawful : Prop where
  secret_codec : ∀ k : K, k ≠ 0 → L.secretFromSlice (L.secretToBytes k) = some k
  secret_zero : L.secretToBytes 0 = List.replicate 32 0
  secret_zero_slice : L.secretFromSlice (List.replicate 32 0) = none
  pubKey_codec : ∀ p : P, p ≠ 0 → L.pubKeyFromSlice (L.pubKeyToBytes p) = some p
  commit_codec : ∀ p : P, p ≠ 0 → L.pointOfCommit (L.commitOfPoint p) = some p
  commit_vec : ∀ p : P, L.commitFromVec (L.commitOfPoint p).bytes = L.commitOfPoint p
  bulletProof_verifies : ∀ value blind rew prf c, value < 2 ^ 64 → L.commit value blind = some c →
    L.verifyBulletProof c (L.bulletProof value blind rew prf) = true
  joint_verifies : ∀ value a b shared na nb c, value < 2 ^ 64 → L.commit value (a + b) = some c →
    ∃ proof, L.bulletProofFinal value a shared (L.jointTau value a b shared na nb c)
        (L.jointT1 value a b shared na nb) (L.jointT2 value a b shared na nb) c na = some proof ∧
      L.verifyBulletProof c proof = true
  feeFields_read : ∀ fee r, L.feeFieldsNew fee = some r → ∀ height, L.feeAt height r = fee
  txFee_mono : ∀ i o k, L.txFee i o k ≤ L.txFee i (o + 1) k
  sortInputs_perm : ∀ l, (L.sortInputs l).Perm l
  insertOutput_perm : ∀ o outs, o.commit ∉ outs.map Output.commit →
    (L.insertOutput o outs).Perm (o :: outs)
  insertOutput_mem : ∀ o outs, o.commit ∈ (L.insertOutput o outs).map Output.commit
  slate_json : ∀ v, L.slateFromJson (L.slateToJson v) = some v
  ctx_json : ∀ v, L.ctxFromJson (L.ctxToJson v) = some v

variable {L}

omit [DecidableEq K] in
theorem commit_eq_some {value : ℕ} {blind : K} {com : Commitment} :
    L.commit value blind = some com ↔
      L.pedersen value blind ≠ 0 ∧ com = L.commitOfPoint (L.pedersen value blind) := by
  unfold commit
  split_ifs with h <;> simp [h, eq_comm]

omit [CommRing K] [Module K P] [DecidableEq K] in
theorem commitSum_eq_some {coms : List Commitment} {com : Commitment} :
    L.commitSum coms = some com ↔
      ∃ ps, L.points coms = some ps ∧ ps.sum ≠ 0 ∧ com = L.commitOfPoint ps.sum := by
  simp only [commitSum, Option.bind_eq_bind, Option.bind_eq_some_iff]
  refine exists_congr fun ps => and_congr_right fun _ => ?_
  split_ifs with h <;> simp [h, eq_comm]

end GrinLib

end MwBtcSwap.Grin
