import MwBtcSwap.Grin.Slate
import MwBtcSwap.Lib.Hex

/-! `grin_routines.rs` and `grin_types.rs`: the text forms of keys, commitments and coins, and the
rangeproof that two parties make together. -/

namespace MwBtcSwap.Grin

open Schnorr Interaction

variable {K P : Type} [CommRing K] [AddCommGroup P] [Module K P] [DecidableEq K] [DecidableEq P]

variable (L : GrinLib K P)

/-- `serialize_secret_key` -/
def serializeSecretKey (key : K) : String := Hex.encode (L.secretToBytes key)

/-- The text that `deserialize_secret_key` reads as `ZERO_KEY`. -/
def zeroKeyText : String := "0000000000000000000000000000000000000000000000000000000000000000"

/-- `deserialize_secret_key` -/
def deserializeSecretKey (key : String) : Outcome K :=
  if key = zeroKeyText then .ok 0
  else do
    let bytes ← Outcome.unwrap "Failed to deserialize a secret key from hex string" (Hex.decode key)
    Outcome.unwrap "Failed to deserialize a secret key from hex string" (L.secretFromSlice bytes)

/-- `serialize_commitment` -/
def serializeCommitment (com : Commitment) : String := Hex.encode com.bytes

/-- `deserialize_commitment` -/
def deserializeCommitment (com : String) : Outcome Commitment := do
  let bytes ← Outcome.unwrap "Failed to deserialize pedersen commitment" (Hex.decode com)
  return L.commitFromVec bytes

/-- `serialize_grin_public_key` -/
def serializeGrinPublicKey (pk : P) : String := Hex.encode (L.pubKeyToBytes pk)

/-- `deserialize_grin_pub_key` -/
def deserializeGrinPubKey (text : String) : Outcome P := do
  let bytes ← Outcome.unwrap "called `Result::unwrap()` on an `Err` value" (Hex.decode text)
  Outcome.unwrap "called `Result::unwrap()` on an `Err` value" (L.pubKeyFromSlice bytes)

/-- `MWCoin::new` -/
def MWCoin.new (commitment : Commitment) (blindingFactor : K) (value : ℕ) : MWCoin :=
  ⟨serializeCommitment commitment, serializeSecretKey L blindingFactor, value⟩

/-- `sig_extract_s`: a scalar of 0 is no secret key. -/
def sigExtractS (sig : Signature K P) : Outcome K :=
  if sig.s = 0 then .error (.panic "called `Result::unwrap()` on an `Err` value") else .ok sig.s

/-- `estimate_fees` -/
def estimateFees (numInp numOut numKer : ℕ) : ℕ := L.txFee numInp numOut numKer

namespace MPBPContext

/-- `MPBPContext::new` -/
def new (sharedNonce : K) (amount : ℕ) (com : Commitment) : MPBPContext K P where
  t1 := 0
  t2 := 0
  amount := amount
  sharedNonce := sharedNonce
  tauX := 0
  commit := com

/-- `MPBPContext::to_string` -/
def toText (ctx : MPBPContext K P) : String := L.ctxToJson
  { t1 := serializeGrinPublicKey L ctx.t1
    t2 := serializeGrinPublicKey L ctx.t2
    amount := ctx.amount
    sharedNonce := serializeSecretKey L ctx.sharedNonce
    commit := serializeCommitment ctx.commit
    tauX := serializeSecretKey L ctx.tauX }

/-- `MPBPContext::from_string` -/
def fromText (text : String) : Outcome (MPBPContext K P) := do
  let ser ← Outcome.unwrap "called `Result::unwrap()` on an `Err` value" (L.ctxFromJson text)
  let t1 ← deserializeGrinPubKey L ser.t1
  let t2 ← deserializeGrinPubKey L ser.t2
  let sharedNonce ← deserializeSecretKey L ser.sharedNonce
  let tauX ← deserializeSecretKey L ser.tauX
  let commit ← deserializeCommitment L ser.commit
  return { t1, t2, amount := ser.amount, sharedNonce, tauX, commit }

/-- `MPBPContext::add_commit` -/
def addCommit (ctx : MPBPContext K P) (c2 : Commitment) : Outcome (MPBPContext K P) := do
  let sum ← Outcome.unwrap "called `Result::unwrap()` on an `Err` value"
    (L.commitSum [ctx.commit, c2])
  return { ctx with commit := sum }

/-- `add_t_1` and `add_t_2`: the first share replaces the blank key, later ones are added. -/
def addShare (t share : P) : Outcome P :=
  if t = 0 then .ok share
  else Outcome.unwrap "called `Result::unwrap()` on an `Err` value" (fromCombination [t, share])

/-- `MPBPContext::add_tau_x` -/
def addTauX (ctx : MPBPContext K P) (tauX : K) : Outcome (MPBPContext K P) := do
  let sum ← Outcome.unwrap "called `Result::unwrap()` on an `Err` value" (addSecret ctx.tauX tauX)
  return { ctx with tauX := sum }

end MPBPContext

/-- `mp_bullet_proof_r1` -/
def mpBulletProofR1 (ctx : MPBPContext K P) (blind secNonce : K) : Outcome (MPBPContext K P) := do
  let shares := L.bulletProofRound1 ctx.amount blind ctx.sharedNonce secNonce
  let t1 ← MPBPContext.addShare ctx.t1 shares.1
  let t2 ← MPBPContext.addShare ctx.t2 shares.2
  return { ctx with t1 := t1, t2 := t2 }

/-- `mp_bullet_proof_r2` -/
def mpBulletProofR2 (ctx : MPBPContext K P) (blind secNonce : K) : Outcome (MPBPContext K P) :=
  ctx.addTauX (L.bulletProofRound2 ctx.amount blind ctx.sharedNonce ctx.t1 ctx.t2 ctx.commit secNonce)

/-! What they do when no sum is 0. -/

section Sums

variable {L} {ctx : MPBPContext K P} {blind secNonce : K}

/-- The blank key is the sum of no shares. -/
theorem MPBPContext.addShare_eq {t share : P} (h : t + share ≠ 0) :
    addShare t share = .ok (t + share) := by
  unfold addShare
  split_ifs with ht
  · rw [ht, zero_add]
  · simp [fromCombination, h]

omit [DecidableEq K] in
theorem MPBPContext.addCommit_eq (hL : L.Lawful) {c2 : Commitment} {p q sum : P} (hp : p ≠ 0)
    (hctx : ctx.commit = L.commitOfPoint p) (hq : L.pointOfCommit c2 = some q) (hsum : p + q = sum)
    (h : sum ≠ 0) : ctx.addCommit L c2 = .ok { ctx with commit := L.commitOfPoint sum } := by
  have hpoints : L.points [ctx.commit, c2] = some [p, q] := by
    simp [GrinLib.points, hctx, hL.commit_codec p hp, hq]
  have hcommit : L.commitSum [ctx.commit, c2] = some (L.commitOfPoint sum) := by
    refine GrinLib.commitSum_eq_some.mpr ⟨[p, q], hpoints, ?_⟩
    rw [List.sum_pair, hsum]
    exact ⟨h, rfl⟩
  rw [addCommit, hcommit]
  rfl

omit [CommRing K] [Module K P] [DecidableEq K] in
theorem mpBulletProofR1_eq {t1 t2 : P}
    (ht1 : ctx.t1 + (L.bulletProofRound1 ctx.amount blind ctx.sharedNonce secNonce).1 = t1)
    (ht2 : ctx.t2 + (L.bulletProofRound1 ctx.amount blind ctx.sharedNonce secNonce).2 = t2)
    (h1 : t1 ≠ 0) (h2 : t2 ≠ 0) :
    mpBulletProofR1 L ctx blind secNonce = .ok { ctx with t1 := t1, t2 := t2 } := by
  rw [← ht1] at h1 ⊢
  rw [← ht2] at h2 ⊢
  rw [mpBulletProofR1, MPBPContext.addShare_eq h1, Outcome.ok_bind, MPBPContext.addShare_eq h2]
  rfl

omit [AddCommGroup P] [Module K P] [DecidableEq P] in
theorem mpBulletProofR2_eq {tau : K}
    (htau : ctx.tauX + L.bulletProofRound2 ctx.amount blind ctx.sharedNonce ctx.t1 ctx.t2 ctx.commit
      secNonce = tau) (h : tau ≠ 0) :
    mpBulletProofR2 L ctx blind secNonce = .ok { ctx with tauX := tau } := by
  rw [← htau] at h ⊢
  rw [mpBulletProofR2, MPBPContext.addTauX, addSecret, if_neg h]
  rfl

end Sums

/-- `mp_bullet_proof_fin` -/
def mpBulletProofFin (ctx : MPBPContext K P) (blind secNonce : K) : Outcome RangeProof :=
  Outcome.unwrap "Failed to finalize MP bulletproof"
    (L.bulletProofFinal ctx.amount blind ctx.sharedNonce ctx.tauX ctx.t1 ctx.t2 ctx.commit secNonce)

end MwBtcSwap.Grin
