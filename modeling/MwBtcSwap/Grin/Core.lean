import MwBtcSwap.Grin.Routines

/-! `grin_core.rs`: the building blocks of the Grin transactions.  The random keys that a function
draws are the fields of a structure that it takes. -/

namespace MwBtcSwap.Grin

open Schnorr Interaction Machine

variable {K P : Type} [CommRing K] [AddCommGroup P] [Module K P] [DecidableEq K] [DecidableEq P]

/-- The keys that `spend_coins` draws. -/
structure SpendRand (K : Type) where
  changeCoinKey : K
  sigNonce : K
  prfNonce : K
  rewNonce : K
  offset : K

/-- The keys that `recv_coins` and `apt_recv_coins` draw. -/
structure RecvRand (K : Type) where
  outCoinKey : K
  rewNonce : K
  prfNonce : K
  sigNonce : K

/-- The keys that `drecv_coins_r1` draws; `drecv_coins_r2` draws all but the shared nonce. -/
structure DRecvRand (K : Type) where
  outCoinBlind : K
  sharedNonce : K
  prfNonce : K
  sigNonce : K

structure SpendCoinsResult (K P : Type) where
  slate : Slate K P
  sigKey : K
  sigNonce : K
  changeCoin : Option MWCoin

structure RecvCoinsResult (K P : Type) where
  slate : Slate K P
  outputCoin : MWCoin

structure AptRecCoinsResult (K P : Type) where
  slate : Slate K P
  outputCoin : MWCoin
  /-- The adapted signature and the signature itself. -/
  prtSig : Signature K P × Signature K P

structure DRecvCoinsResult (K P : Type) where
  slate : Slate K P
  outKeyBlind : K
  sigNonce : K
  prfNonce : K
  prfCtx : MPBPContext K P

variable (L : GrinLib K P)

/-- The loop over the outputs of a transaction that starts most functions. -/
def verifyOutputs (tx : Transaction K P) : Outcome Unit :=
  if tx.outputs.all fun o => L.verifyBulletProof o.commit o.proof then .ok ()
  else .error (.panic "Failed to verify outputcoin rangeproof")

/-- Two positions of the list hold the same commitment text. -/
def duplicateInputs (inputs : List MWCoin) : Bool :=
  inputs.zipIdx.any fun coin => inputs.zipIdx.any fun cmp =>
    coin.2 != cmp.2 && coin.1.commitment == cmp.1.commitment

/-- The admission test of `spend_coins`; the sum is only computed for more than one output. -/
def notEnoughValue (numOfOutputs inpval fundValue fee : ℕ) : Outcome Bool :=
  if numOfOutputs > 1 then do
    let need ← addU64 L.overflowChecks fundValue fee
    return decide (inpval < need) || decide (inpval < fundValue)
  else return decide (inpval < fundValue)

/-- The input of a coin and the key of the party's share of it. -/
def readInput (coin : MWCoin) : Outcome (Input × K) := do
  let commitment ← deserializeCommitment L coin.commitment
  let inpKey ← deserializeSecretKey L coin.blindingFactor
  return (⟨.plain, commitment⟩, inpKey)

/-- The change output, which is made only for a positive value, and its coin. -/
def changeOutput (rand : SpendRand K) (changeValue : ℤ) : Outcome (Option (Output × MWCoin)) :=
  if changeValue > 0 then do
    let commitment ← Outcome.unwrap "Failed to create change coin commitment"
      (L.commit changeValue.toNat rand.changeCoinKey)
    let proof := L.bulletProof changeValue.toNat rand.changeCoinKey rand.rewNonce rand.prfNonce
    return some (⟨.plain, commitment, proof⟩,
      MWCoin.new L commitment rand.changeCoinKey changeValue.toNat)
  else return none

/-- The outputs of a transaction that has at most the change. -/
def changeOutputs : Option (Output × MWCoin) → List Output
  | some (output, _) => L.insertOutput output []
  | none => []

/-- `GrinCore::spend_coins` -/
def spendCoins (rand : SpendRand K) (inputs : List MWCoin)
    (fundValue timelock numOfOutputs numParticipants : ℕ) : Outcome (SpendCoinsResult K P) := do
  let lockHeightParam := if timelock ≠ 0 then some timelock else none
  let slate : Slate K P := Slate.blankWithKernelFeatures numParticipants
    (if lockHeightParam.isSome then 2 else 0) lockHeightParam
  let fee := L.txFee inputs.length numOfOutputs 1
  let inpval ← sumU64 L.overflowChecks (inputs.map (·.value))
  if inputs.isEmpty then throw (.err "No inputs provided")
  if fundValue = 0 then throw (.err "Invalid parameters for fund_value provided")
  if ← notEnoughValue L numOfOutputs inpval fundValue fee then
    throw (.err "Spend coins function failed, input coins do not have enough value")
  if duplicateInputs inputs then
    throw (.err "Spend coins function failed, duplicate input coins provided")
  let feeField ← Outcome.unwrap "called `Result::unwrap()` on an `Err` value" (L.feeFieldsNew fee)
  let coins ← inputs.mapM (readInput L)
  let inp ← Outcome.unwrap "called `Result::unwrap()` on an `Err` value" (i64OfU64 inpval)
  let fund ← Outcome.unwrap "called `Result::unwrap()` on an `Err` value" (i64OfU64 fundValue)
  let feeI ← Outcome.unwrap "called `Result::unwrap()` on an `Err` value" (i64OfU64 fee)
  let change ← changeOutput L rand (inp - fund - feeI)
  let changeKey := if change.isSome then rand.changeCoinKey else 0
  -- the blinding sum of the change minus the inputs, less the offset that is split off it
  let finalKey := changeKey - (coins.map Prod.snd).sum - rand.offset
  let tx : Transaction K P :=
    { offset := rand.offset
      inputs := L.sortInputs (coins.map Prod.fst)
      outputs := changeOutputs L change
      kernels := [] }
  let slate ← Outcome.expect "Failed to complete round 1 on the senders turn"
    (({ slate with feeFields := feeField, amount := fundValue, offset := rand.offset,
                   tx := some tx } : Slate K P).fillRound1 L finalKey rand.sigNonce)
  return ⟨slate, finalKey, rand.sigNonce, change.map Prod.snd⟩

/-- The test of the kernel features in `d_spend_coins`. -/
def validFeatures (slate : Slate K P) (timelock : ℕ) : Outcome Bool :=
  if timelock ≠ 0 then
    if slate.kernelFeatures = 2 then do
      let args ← Outcome.unwrap "called `Option::unwrap()` on a `None` value"
        slate.kernelFeaturesArgs
      return decide (args.lockHeight = timelock)
    else return false
  else return decide (slate.kernelFeatures = 0)

/-- `GrinCore::d_spend_coins`, with the signing nonce that it draws. -/
def dSpendCoins (sigNonce : K) (inputs : List MWCoin) (slate : Slate K P)
    (fundValue timelock : ℕ) : Outcome (SpendCoinsResult K P) := do
  let tx := slate.tx.getD Transaction.empty
  verifyOutputs L tx
  if slate.amount ≠ fundValue then throw (.err "Transaction amount found to be invalid")
  if tx.inputs.length ≠ inputs.length then
    throw (.err "Inputs don't match with coins given in parameters")
  if !(← validFeatures slate timelock) then
    throw (.err "Transaction timelock is not setup correctly!")
  let keys ← inputs.mapM fun coin => deserializeSecretKey L coin.blindingFactor
  let finalKey ← Outcome.unwrap "Failed to calculate final blinding factor sum" (blindSum (-keys.sum))
  let slate ← Outcome.expect "Failed to complete round 1 on the senders turn"
    (slate.fillRound1 L finalKey sigNonce)
  return ⟨slate, finalKey, sigNonce, none⟩

/-- The start that `recv_coins` and `apt_recv_coins` share: the output coin is created and added,
the kernel is set and the receiver takes part in round 1. -/
def addRecvOutput (rand : RecvRand K) (slate : Slate K P) (fundValue : ℕ) :
    Outcome (Slate K P × Commitment) := do
  let tx := slate.tx.getD Transaction.empty
  verifyOutputs L tx
  let commitment ← Outcome.unwrap
    "Failed to generate pedersen commitment for recv_coins output coin"
    (L.commit fundValue rand.outCoinKey)
  let proof := L.bulletProof fundValue rand.outCoinKey rand.rewNonce rand.prfNonce
  let slate ← Outcome.expect "Failed to udpate kernel in recv_coins"
    (({ slate with tx := some (tx.withOutput L ⟨.plain, commitment, proof⟩) } :
      Slate K P).updateKernel L)
  let slate ← Outcome.expect "Failed to complete round 1 on receivers turn"
    (slate.fillRound1 L rand.outCoinKey rand.sigNonce)
  return (slate, commitment)

/-- `GrinCore::recv_coins` -/
def recvCoins (rand : RecvRand K) (slate : Slate K P) (fundValue : ℕ) :
    Outcome (RecvCoinsResult K P) := do
  let (slate, commitment) ← addRecvOutput L rand slate fundValue
  let slate ← Outcome.expect "Failed to complete round 2 on receivers turn"
    (slate.fillRound2 L rand.outCoinKey rand.sigNonce)
  return ⟨slate, MWCoin.new L commitment rand.outCoinKey fundValue⟩

/-- `GrinCore::apt_recv_coins` -/
def aptRecvCoins (rand : RecvRand K) (slate : Slate K P) (fundValue : ℕ) (x : K) :
    Outcome (AptRecCoinsResult K P) := do
  let (slate, commitment) ← addRecvOutput L rand slate fundValue
  let pubNonceSum ← Outcome.expect "called `Result::unwrap()` on an `Err` value" slate.pubNonceSum
  let pubBlindSum ← Outcome.expect "called `Result::unwrap()` on an `Err` value" slate.pubBlindSum
  let msg ← Outcome.expect "called `Result::unwrap()` on an `Err` value" (slate.msgToSign L)
  let sig := L.signSingle msg rand.outCoinKey rand.sigNonce none pubNonceSum pubBlindSum
  let aptSig := L.signSingle msg rand.outCoinKey rand.sigNonce (some x) pubNonceSum pubBlindSum
  let slate ← Outcome.expect "called `Result::unwrap()` on an `Err` value"
    (slate.storeSig L rand.outCoinKey rand.sigNonce aptSig)
  return ⟨slate, MWCoin.new L commitment rand.outCoinKey fundValue, (aptSig, sig)⟩

/-- `GrinCore::drecv_coins_r1` -/
def drecvCoinsR1 (rand : DRecvRand K) (slate : Slate K P) (fundValue : ℕ) :
    Outcome (DRecvCoinsResult K P) := do
  verifyOutputs L (slate.tx.getD Transaction.empty)
  let slate ← Outcome.expect "Faile to fill_round_1 on drecv_coins r1"
    (slate.fillRound1 L rand.outCoinBlind rand.sigNonce)
  let com ← Outcome.unwrap "Failed to generate pedersen commitment for drecv_coins_r1"
    (L.commit fundValue rand.outCoinBlind)
  let prfCtx ← Outcome.expect "Failed to run round 1A of mp bulletproofs"
    (mpBulletProofR1 L (MPBPContext.new rand.sharedNonce fundValue com) rand.outCoinBlind
      rand.prfNonce)
  return ⟨slate, rand.outCoinBlind, rand.sigNonce, rand.prfNonce, prfCtx⟩

/-- `GrinCore::drecv_coins_r2` -/
def drecvCoinsR2 (rand : DRecvRand K) (slate : Slate K P) (fundValue : ℕ)
    (prfCtx : MPBPContext K P) : Outcome (RecvCoinsResult K P × MPBPContext K P) := do
  verifyOutputs L (slate.tx.getD Transaction.empty)
  let com ← Outcome.unwrap "Failed to generete pedersen commitment for drecv_coins_r2"
    (L.commit 0 rand.outCoinBlind)
  let prfCtx ← prfCtx.addCommit L com
  let prfCtx ← Outcome.expect "Failed to run round 1B of mp bulletproofs"
    (mpBulletProofR1 L prfCtx rand.outCoinBlind rand.prfNonce)
  let prfCtx ← Outcome.expect "Failed to run round 2A of mp bulletproofs"
    (mpBulletProofR2 L prfCtx rand.outCoinBlind rand.prfNonce)
  let slate ← Outcome.expect "Failed to run fill_round_1 on drecv_coins_r2"
    (slate.fillRound1 L rand.outCoinBlind rand.sigNonce)
  let slate ← Outcome.expect "Failed to run fill_round_2 on drecv_coins_r2"
    (slate.fillRound2 L rand.outCoinBlind rand.sigNonce)
  return (⟨slate, MWCoin.new L prfCtx.commit rand.outCoinBlind fundValue⟩, prfCtx)

/-- `GrinCore::drecv_coins_r3` -/
def drecvCoinsR3 (slate : Slate K P) (prfCtx : MPBPContext K P) (outCoinBlind prfNonce sigNonce : K) :
    Outcome (RecvCoinsResult K P) := do
  let commit := prfCtx.commit
  let amount := prfCtx.amount
  let prfCtx ← Outcome.expect "failed to run round 2 of mp_bullet_proof"
    (mpBulletProofR2 L prfCtx outCoinBlind prfNonce)
  let proof ← Outcome.expect "Failed to finalize mp bulletproof"
    (mpBulletProofFin L prfCtx outCoinBlind prfNonce)
  let tx ← Outcome.unwrap "called `Option::unwrap()` on a `None` value" slate.tx
  let slate ← Outcome.expect "called `Result::unwrap()` on an `Err` value"
    (({ slate with tx := some (tx.withOutput L ⟨.plain, commit, proof⟩) } :
      Slate K P).fillRound2 L outCoinBlind sigNonce)
  let slate ← Outcome.expect "Failed to update kernel in drecv_coins_r3" (slate.updateKernel L)
  return ⟨slate, MWCoin.new L commit outCoinBlind amount⟩

/-- The check of one entry in the adapted branch of `fin_tx`. -/
def verifyAptSig (msg : KernelFeatures) (pubNonceSum pubBlindSum pubX : P)
    (p : ParticipantData K P) : Outcome Unit :=
  match p.partSig with
  | none => .ok ()
  | some sig =>
    if L.verifySingle sig msg pubNonceSum p.publicBlindExcess pubBlindSum (some pubX) then .ok ()
    else .error (.panic "Partial adapted signature verification failed")

omit [DecidableEq K] in
/-- An entry passes when it has no signature or one that carries the extra key. -/
theorem verifyAptSig_eq_ok {L : GrinLib K P} {msg : KernelFeatures}
    {pubNonceSum pubBlindSum pubX : P} {p : ParticipantData K P} :
    verifyAptSig L msg pubNonceSum pubBlindSum pubX p = .ok () ↔
      ∀ sig, p.partSig = some sig →
        Valid L.G (L.challenge pubNonceSum pubBlindSum msg) p.publicBlindExcess pubX sig := by
  cases h : p.partSig with
  | none => simp [verifyAptSig, h]
  | some sig => simp [verifyAptSig, h, GrinLib.verifySingle]

/-- The adapted branch of `fin_tx`: complete entries are verified with the extra key, and the own
signature is added. -/
def aptFinTx (slate : Slate K P) (secKey secNonce : K) (pubX : P) : Outcome (Slate K P) := do
  let pubNonceSum ← Outcome.expect "called `Result::unwrap()` on an `Err` value" slate.pubNonceSum
  let pubBlindSum ← Outcome.expect "called `Result::unwrap()` on an `Err` value" slate.pubBlindSum
  let msg ← Outcome.expect "called `Result::unwrap()` on an `Err` value" (slate.msgToSign L)
  slate.participantData.forM (verifyAptSig L msg pubNonceSum pubBlindSum pubX)
  Outcome.expect "called `Result::unwrap()` on an `Err` value"
    (slate.storeSig L secKey secNonce
      (L.signSingle msg secKey secNonce none pubNonceSum pubBlindSum))

/-- The replacement of the adapted signature in `fin_tx`. -/
def replaceSig (slate : Slate K P) (oldSig newSig : Signature K P) : Outcome (Slate K P) := do
  let data ← Slate.setPartSig (fun p => decide (p.partSig = some oldSig)) newSig slate.participants
    slate.participantData
  return { slate with participantData := data }

/-- `GrinCore::fin_tx` -/
def finTx (slate : Slate K P) (secKey secNonce : K) (finalize : Bool) (pubX : Option P)
    (replace : Option (Signature K P × Signature K P)) : Outcome (Slate K P) := do
  let tx ← Outcome.unwrap "called `Option::unwrap()` on a `None` value" slate.tx
  verifyOutputs L tx
  let slate ← match pubX with
    | some pubX => aptFinTx L slate secKey secNonce pubX
    | none => do
      let slate ← match replace with
        | some (oldSig, newSig) => replaceSig slate oldSig newSig
        | none => .ok slate
      Outcome.expect "Failed to complete round 2 on senders turn"
        (slate.fillRound2 L secKey secNonce)
  if finalize then Outcome.expect "Failed to finalize transaction" (slate.finalize L)
  else return slate

/-- `GrinCore::ext_witness` -/
def extWitness (prtSig aptSig : Signature K P) : Outcome K := do
  let aptS ← sigExtractS aptSig
  let prtS ← sigExtractS prtSig
  Outcome.unwrap "called `Result::unwrap()` on an `Err` value" (addSecret aptS (-prtS))

/-! ### What the functions leave -/

section Keeps

variable {L}

theorem fillRound1_keeps {S S' : Slate K P} {key nonce : K} (h : S.fillRound1 L key nonce = .ok S') :
    ∃ data, S' = { S with participantData := data } := by
  simp only [Slate.fillRound1, Slate.addParticipantInfo, Outcome.bind_eq_ok, Outcome.pure_eq_ok,
    Except.ok.injEq] at h
  obtain ⟨_, -, _, -, h⟩ := h
  exact ⟨_, h.symm⟩

theorem storeSig_keeps {S S' : Slate K P} {key nonce : K} {sig : Signature K P}
    (h : S.storeSig L key nonce sig = .ok S') : ∃ data, S' = { S with participantData := data } := by
  simp only [Slate.storeSig, Outcome.bind_eq_ok, Outcome.pure_eq_ok, Except.ok.injEq] at h
  obtain ⟨_, -, _, -, _, -, h⟩ := h
  exact ⟨_, h.symm⟩

theorem fillRound2_keeps {S S' : Slate K P} {key nonce : K} (h : S.fillRound2 L key nonce = .ok S') :
    ∃ data, S' = { S with participantData := data } := by
  simp only [Slate.fillRound2, Outcome.bind_eq_ok] at h
  obtain ⟨_, -, _, -, _, -, _, -, h⟩ := h
  exact storeSig_keeps h

/-- `fin_tx` changes the entries and the kernel of a slate. -/
theorem finTx_keeps {S S' : Slate K P} {secKey secNonce : K} {fin : Bool} {pubX : Option P}
    {replace : Option (Signature K P × Signature K P)}
    (h : finTx L S secKey secNonce fin pubX replace = .ok S') :
    ∃ data tx tx', S.tx = some tx ∧ S' = { S with participantData := data, tx := some tx' } ∧
      tx'.inputs = tx.inputs ∧ tx'.outputs = tx.outputs := by
  obtain ⟨tx, data, htx, h⟩ : ∃ tx data, S.tx = some tx ∧ (if fin then
        Outcome.expect "Failed to finalize transaction"
          (({ S with participantData := data } : Slate K P).finalize L)
      else .ok { S with participantData := data }) = .ok S' := by
    cases pubX with
    | some pubX =>
      simp only [finTx, aptFinTx, Outcome.bind_eq_ok, Outcome.expect_eq_ok, Outcome.unwrap_eq_ok] at h
      obtain ⟨tx, htx, _, -, S₁, ⟨_, -, _, -, _, -, _, -, hstore⟩, h⟩ := h
      obtain ⟨data, rfl⟩ := storeSig_keeps hstore
      exact ⟨tx, data, htx, h⟩
    | none =>
      cases replace with
      | none =>
        simp only [finTx, Outcome.bind_eq_ok, Outcome.expect_eq_ok, Outcome.unwrap_eq_ok] at h
        obtain ⟨tx, htx, _, -, _, hS, S₁, hround, h⟩ := h
        cases hS
        obtain ⟨data, rfl⟩ := fillRound2_keeps hround
        exact ⟨tx, data, htx, h⟩
      | some sigs =>
        simp only [finTx, replaceSig, Outcome.bind_eq_ok, Outcome.expect_eq_ok, Outcome.unwrap_eq_ok,
          Outcome.pure_eq_ok, Except.ok.injEq] at h
        obtain ⟨tx, htx, _, -, _, ⟨_, -, rfl⟩, S₁, hround, h⟩ := h
        obtain ⟨data, rfl⟩ := fillRound2_keeps hround
        exact ⟨tx, data, htx, h⟩
  cases fin with
  | false =>
    simp only [Bool.false_eq_true, if_false, Except.ok.injEq] at h
    exact ⟨data, tx, tx, htx, by rw [← h, ← htx], rfl, rfl⟩
  | true =>
    simp only [if_true, Outcome.expect_eq_ok] at h
    obtain ⟨tx', k, k', htx', -, -, rfl, -⟩ := Slate.finalize_eq_ok h
    obtain rfl : tx = tx' := Option.some.inj (htx.symm.trans htx')
    exact ⟨data, tx, _, htx, rfl, rfl, rfl⟩

/-- It signs the kernel that the slate described before. -/
theorem finTx_msgToSign {S S' : Slate K P} {secKey secNonce : K} {fin : Bool} {pubX : Option P}
    {replace : Option (Signature K P × Signature K P)}
    (h : finTx L S secKey secNonce fin pubX replace = .ok S') :
    S'.msgToSign L = S.msgToSign L := by
  obtain ⟨data, tx, tx', -, rfl, -⟩ := finTx_keeps h
  rfl

/-- `d_spend_coins` adds an entry to a slate of the amount. -/
theorem dSpendCoins_keeps {S : Slate K P} {sigNonce : K} {inputs : List MWCoin} {fundValue timelock : ℕ}
    {r : SpendCoinsResult K P} (h : dSpendCoins L sigNonce inputs S fundValue timelock = .ok r) :
    S.amount = fundValue ∧ ∃ data, r.slate = { S with participantData := data } := by
  simp only [dSpendCoins, Outcome.bind_eq_ok, Outcome.expect_eq_ok, Outcome.pure_eq_ok,
    Outcome.throw_eq_error, Outcome.error_bind, Outcome.error_ite_eq_ok, Except.ok.injEq] at h
  obtain ⟨_, -, hamount, -, _, -, -, _, -, _, -, S', hround, rfl⟩ := h
  exact ⟨not_not.mp hamount, fillRound1_keeps hround⟩

/-- `apt_recv_coins` adds an output of the amount. -/
theorem aptRecvCoins_output {S : Slate K P} {rand : RecvRand K} {fundValue : ℕ} {x : K}
    {r : AptRecCoinsResult K P} (h : aptRecvCoins L rand S fundValue x = .ok r) :
    ∃ o, L.commit fundValue rand.outCoinKey = some o.commit ∧ r.slate.tx.map Transaction.outputs =
      some (L.insertOutput o (S.tx.getD Transaction.empty).outputs) := by
  simp only [aptRecvCoins, addRecvOutput, Outcome.bind_eq_ok, Outcome.expect_eq_ok, Outcome.unwrap_eq_ok,
    Outcome.pure_eq_ok, Except.ok.injEq] at h
  obtain ⟨_, ⟨_, -, com, hcom, S₁, hkernel, S₂, hround, rfl⟩, _, -, _, -, _, -, S₃, hstore, rfl⟩ := h
  obtain ⟨tx, features, htx, -, rfl⟩ := Slate.updateKernel_eq_ok.mp hkernel
  obtain ⟨data₂, rfl⟩ := fillRound1_keeps hround
  obtain ⟨data₃, rfl⟩ := storeSig_keeps hstore
  cases htx
  exact ⟨⟨.plain, com, _⟩, hcom, rfl⟩

end Keeps

end MwBtcSwap.Grin
