import MwBtcSwap.Grin.Runs

/-! What every completed run of the protocols leaves, for all keys and nonces.  The slates of a run
keep the inputs, the fee, the lock height and the offset that the first party set; the outputs grow
as the parties add theirs, and what is finalized is valid. -/

namespace MwBtcSwap.Grin

open Schnorr Interaction Machine

variable {K P : Type} [CommRing K] [AddCommGroup P] [Module K P] [DecidableEq K] [DecidableEq P]

variable {L : GrinLib K P}

/-! ### Slates -/

omit [DecidableEq K] in
/-- The signature of a slate depends on its entries and its kernel message. -/
theorem finalizeSignature_congr {S T : Slate K P} (hdata : S.participantData = T.participantData)
    (hmsg : S.msgToSign L = T.msgToSign L) : S.finalizeSignature L = T.finalizeSignature L := by
  have hn : S.pubNonceSum = T.pubNonceSum := by simp only [Slate.pubNonceSum, hdata]
  have hb : S.pubBlindSum = T.pubBlindSum := by simp only [Slate.pubBlindSum, hdata]
  simp only [Slate.finalizeSignature, Slate.verifyPartSigs, Slate.partSigs, hdata, hn, hb, hmsg]
  rfl

section Follows

variable {p : Plan K} {outs : List Output} {kernels : List (TxKernel K P)}
  {data : List (ParticipantData K P)} {S : Slate K P}

omit [DecidableEq K] in
/-- A finalized slate of a plan is valid, and without a lock height the wire keeps it. -/
theorem Plan.finalize_inv (h : (p.slate outs kernels data).finalize L = .ok S) :
    ∃ kernel kernel', kernels = [kernel] ∧ S = p.slate outs [kernel'] data ∧
      kernel'.features = kernel.features ∧ L.validate (p.tx outs [kernel']) = true ∧
      L.verifyKernel kernel' = true ∧
      (p.timelock = 0 → kernel.features = p.features → p.wireKernel L outs data = kernel') := by
  simp only [Slate.finalize, Outcome.bind_eq_ok] at h
  obtain ⟨sig, hsig, h⟩ := h
  obtain ⟨tx, kernel, excess, htx, hk, hexcess, rfl, hv, hval⟩ :=
    Slate.finalizeTransaction_eq_ok h
  cases htx
  refine ⟨kernel, { kernel with excess := excess, excessSig := sig }, hk, rfl, rfl, hval, hv, ?_⟩
  intro htime hfeat
  have hmsg : (p.slate outs kernels data).msgToSign L =
      ((p.slate outs ([] : List (TxKernel K P)) data).toV4.calcSlate).msgToSign L := by
    rw [Plan.msgToSign_slate]
    simp [Plan.features, htime, Slate.msgToSign, Slate.txKernelFeatures, SlateV4.calcSlate,
      Slate.blank, Slate.blankWithKernelFeatures, Slate.toV4, Plan.slate]
  have hsig' : ((p.slate outs ([] : List (TxKernel K P)) data).toV4.calcSlate).finalizeSignature L =
      .ok sig := by
    rw [← hsig]
    exact (finalizeSignature_congr (S := p.slate outs kernels data)
      (T := (p.slate outs ([] : List (TxKernel K P)) data).toV4.calcSlate) rfl hmsg).symm
  have hexcess' : ((p.slate outs ([] : List (TxKernel K P)) data).toV4.calcSlate).calcExcess L =
      .ok excess := hexcess
  have hcoms : (p.slate outs ([] : List (TxKernel K P)) data).toV4.coms =
      some (p.inputs.map Input.toV4 ++ outs.map Output.toV4) := rfl
  have htx : (p.slate outs ([] : List (TxKernel K P)) data).toV4.txFeatures = kernel.features := by
    rw [hfeat]
    simp [SlateV4.txFeatures, Slate.toV4, Plan.slate, htime, Plan.features]
  simp only [Plan.wireKernel, txFromSlateV4, hcoms, Option.map_some, hexcess', hsig',
    List.headD_cons, htx]

/-- The adapted branch of `fin_tx` changes the entries. -/
theorem finTx_apt_inv {secKey secNonce : K} {pubX : P}
    (h : finTx L (p.slate outs kernels data) secKey secNonce false (some pubX) none = .ok S) :
    ∃ data', S = p.slate outs kernels data' := by
  simp only [finTx, aptFinTx, Outcome.bind_eq_ok, Outcome.expect_eq_ok, Bool.false_eq_true, if_false,
    Outcome.pure_eq_ok, Except.ok.injEq] at h
  obtain ⟨_, -, _, -, S', ⟨_, -, _, -, _, -, _, -, hstore⟩, rfl⟩ := h
  obtain ⟨data', rfl⟩ := storeSig_keeps hstore
  exact ⟨data', rfl⟩

/-- Round 2 in `fin_tx` changes the entries, and its finalization is that of the slate. -/
theorem finTx_inv {secKey secNonce : K} {finalize : Bool}
    (h : finTx L (p.slate outs kernels data) secKey secNonce finalize none none = .ok S) :
    ∃ data', (if finalize then (p.slate outs kernels data').finalize L
      else .ok (p.slate outs kernels data')) = .ok S := by
  simp only [finTx, Outcome.bind_eq_ok, Outcome.expect_eq_ok, Outcome.pure_eq_ok] at h
  obtain ⟨_, -, _, -, _, hS, S', hround, h⟩ := h
  cases hS
  obtain ⟨data', rfl⟩ := fillRound2_keeps hround
  refine ⟨data', ?_⟩
  cases finalize with
  | false => exact h
  | true =>
    rw [if_pos rfl, Outcome.expect_eq_ok] at h
    exact h

/-- The same after a replacement. -/
theorem finTx_replace_inv {secKey secNonce : K} {oldSig newSig : Signature K P}
    (h : finTx L (p.slate outs kernels data) secKey secNonce true none (some (oldSig, newSig)) =
      .ok S) : ∃ data', (p.slate outs kernels data').finalize L = .ok S := by
  simp only [finTx, replaceSig, Outcome.bind_eq_ok, Outcome.expect_eq_ok, Outcome.pure_eq_ok,
    Except.ok.injEq, if_true] at h
  obtain ⟨_, -, _, -, S₁, ⟨data₁, -, rfl⟩, S', hround, h⟩ := h
  obtain ⟨data', rfl⟩ := fillRound2_keeps hround
  exact ⟨data', h⟩

/-- `d_spend_coins` changes the entries. -/
theorem dSpendCoins_inv {sigNonce : K} {inputs : List MWCoin} {fundValue timelock : ℕ}
    {r : SpendCoinsResult K P}
    (h : dSpendCoins L sigNonce inputs (p.slate outs kernels data) fundValue timelock = .ok r) :
    ∃ data', r.slate = p.slate outs kernels data' := by
  obtain ⟨-, data', hslate⟩ := dSpendCoins_keeps h
  exact ⟨data', hslate⟩

/-- The receiver adds its output and a blank kernel. -/
theorem addRecvOutput_inv {rand : RecvRand K} {fundValue : ℕ} {com : Commitment}
    (h : addRecvOutput L rand (p.slate outs kernels data) fundValue = .ok (S, com)) :
    L.commit fundValue rand.outCoinKey = some com ∧ com = (recvOutput L rand fundValue).commit ∧
      ∃ data', S = p.slate (L.insertOutput (recvOutput L rand fundValue) outs)
        [TxKernel.withFeatures p.features] data' := by
  simp only [addRecvOutput, Outcome.bind_eq_ok, Outcome.unwrap_eq_ok, Outcome.expect_eq_ok,
    Outcome.pure_eq_ok, Except.ok.injEq, Prod.mk.injEq] at h
  obtain ⟨_, -, com', hcom, S₁, hkernel, S₂, hround, rfl, rfl⟩ := h
  have hcom' : com' = (recvOutput L rand fundValue).commit := by
    exact (GrinLib.commit_eq_some.mp hcom).2
  obtain ⟨data', rfl⟩ := fillRound1_keeps hround
  obtain ⟨tx, features, htx, hf, rfl⟩ := Slate.updateKernel_eq_ok.mp hkernel
  refine ⟨hcom, hcom', data', ?_⟩
  have hf' : features = p.features := by
    have hp : (p.slate outs kernels data).txKernelFeatures L = .ok p.features :=
      Plan.txKernelFeatures_slate
    exact Except.ok.inj (hf.symm.trans hp)
  cases htx
  subst hf' hcom'
  rfl

/-- `recv_coins` adds the output of the coin that it returns. -/
theorem recvCoins_inv {rand : RecvRand K} {fundValue : ℕ} {r : RecvCoinsResult K P}
    (h : recvCoins L rand (p.slate outs kernels data) fundValue = .ok r) :
    r.outputCoin = recvCoin L rand fundValue ∧
      ∃ data', r.slate = p.slate (L.insertOutput (recvOutput L rand fundValue) outs)
        [TxKernel.withFeatures p.features] data' := by
  simp only [recvCoins, Outcome.bind_eq_ok, Outcome.expect_eq_ok, Outcome.pure_eq_ok,
    Except.ok.injEq] at h
  obtain ⟨⟨S₁, com⟩, hadd, S', hround, rfl⟩ := h
  obtain ⟨-, rfl, data₁, rfl⟩ := addRecvOutput_inv hadd
  obtain ⟨data', rfl⟩ := fillRound2_keeps hround
  exact ⟨rfl, data', rfl⟩

/-- `apt_recv_coins` adds the output of the coin that it returns. -/
theorem aptRecvCoins_inv {rand : RecvRand K} {fundValue : ℕ} {x : K} {r : AptRecCoinsResult K P}
    (h : aptRecvCoins L rand (p.slate outs kernels data) fundValue x = .ok r) :
    r.outputCoin = recvCoin L rand fundValue ∧
      ∃ data', r.slate = p.slate (L.insertOutput (recvOutput L rand fundValue) outs)
        [TxKernel.withFeatures p.features] data' := by
  simp only [aptRecvCoins, Outcome.bind_eq_ok, Outcome.expect_eq_ok, Outcome.pure_eq_ok,
    Except.ok.injEq] at h
  obtain ⟨⟨S₁, com⟩, hadd, _, -, _, -, _, -, S', hstore, rfl⟩ := h
  obtain ⟨-, rfl, data₁, rfl⟩ := addRecvOutput_inv hadd
  obtain ⟨data', rfl⟩ := storeSig_keeps hstore
  exact ⟨rfl, data', rfl⟩

/-- `drecv_coins_r1` starts the context of the shared output. -/
theorem drecvCoinsR1_inv {a : DRecvRand K} {fundValue : ℕ} {r : DRecvCoinsResult K P}
    (h : drecvCoinsR1 L a (p.slate outs kernels data) fundValue = .ok r) :
    L.pedersen fundValue a.outCoinBlind ≠ 0 ∧ r.outKeyBlind = a.outCoinBlind ∧
      r.prfCtx.commit = L.commitOfPoint (L.pedersen fundValue a.outCoinBlind) ∧
      r.prfCtx.amount = fundValue ∧ ∃ data', r.slate = p.slate outs kernels data' := by
  simp only [drecvCoinsR1, mpBulletProofR1, MPBPContext.new, Outcome.bind_eq_ok,
    Outcome.unwrap_eq_ok, Outcome.expect_eq_ok, Outcome.pure_eq_ok, Except.ok.injEq] at h
  obtain ⟨_, -, S', hround, com, hcom, ctx, ⟨_, -, _, -, rfl⟩, rfl⟩ := h
  obtain ⟨data', rfl⟩ := fillRound1_keeps hround
  obtain ⟨hne, rfl⟩ := GrinLib.commit_eq_some.mp hcom
  exact ⟨hne, rfl, rfl, rfl, data', rfl⟩

/-- `drecv_coins_r2` adds the second share to the commitment of the context. -/
theorem drecvCoinsR2_inv (hL : L.Lawful) {b : DRecvRand K} {fundValue : ℕ} {ctx : MPBPContext K P}
    {q : P} (hq : q ≠ 0) (hctx : ctx.commit = L.commitOfPoint q)
    {r : RecvCoinsResult K P × MPBPContext K P}
    (h : drecvCoinsR2 L b (p.slate outs kernels data) fundValue ctx = .ok r) :
    r.2.commit = L.commitOfPoint (q + L.pedersen 0 b.outCoinBlind) ∧ r.2.amount = ctx.amount ∧
      r.1.outputCoin = MWCoin.new L r.2.commit b.outCoinBlind fundValue ∧
      ∃ data', r.1.slate = p.slate outs kernels data' := by
  simp only [drecvCoinsR2, mpBulletProofR1, mpBulletProofR2, MPBPContext.addCommit,
    MPBPContext.addTauX, Outcome.bind_eq_ok, Outcome.unwrap_eq_ok, Outcome.expect_eq_ok,
    Outcome.pure_eq_ok, Except.ok.injEq] at h
  obtain ⟨_, -, com, hcom, ctx₁, ⟨sum, hsum, rfl⟩, ctx₂, ⟨_, -, _, -, rfl⟩, ctx₃, ⟨_, -, rfl⟩, S₁,
    hround₁, S₂, hround₂, rfl⟩ := h
  obtain ⟨data₁, rfl⟩ := fillRound1_keeps hround₁
  obtain ⟨data', rfl⟩ := fillRound2_keeps hround₂
  refine ⟨?_, rfl, rfl, data', rfl⟩
  obtain ⟨hne, rfl⟩ := GrinLib.commit_eq_some.mp hcom
  obtain ⟨ps, hps, -, rfl⟩ := GrinLib.commitSum_eq_some.mp hsum
  have hpoints : L.points [ctx.commit, L.commitOfPoint (L.pedersen 0 b.outCoinBlind)] =
      some [q, L.pedersen 0 b.outCoinBlind] := by
    simp [GrinLib.points, hctx, hL.commit_codec _ hq, hL.commit_codec _ hne]
  rw [hpoints] at hps
  cases hps
  rw [List.sum_pair]

/-- `drecv_coins_r3` adds the shared output. -/
theorem drecvCoinsR3_inv {ctx : MPBPContext K P} {blind prfNonce sigNonce : K}
    {r : RecvCoinsResult K P}
    (h : drecvCoinsR3 L (p.slate outs kernels data) ctx blind prfNonce sigNonce = .ok r) :
    r.outputCoin = MWCoin.new L ctx.commit blind ctx.amount ∧
      ∃ proof data', r.slate = p.slate (L.insertOutput ⟨.plain, ctx.commit, proof⟩ outs)
        [TxKernel.withFeatures p.features] data' := by
  simp only [drecvCoinsR3, Outcome.bind_eq_ok, Outcome.unwrap_eq_ok, Outcome.expect_eq_ok,
    Outcome.pure_eq_ok, Except.ok.injEq] at h
  obtain ⟨_, -, proof, -, tx, htx, S₁, hround, S₂, hkernel, rfl⟩ := h
  cases htx
  obtain ⟨data', rfl⟩ := fillRound2_keeps hround
  have hup : S₂ = p.slate (L.insertOutput ⟨.plain, ctx.commit, proof⟩ outs)
      [TxKernel.withFeatures p.features] data' := by
    have hp : (p.slate (L.insertOutput ⟨.plain, ctx.commit, proof⟩ outs) kernels data').updateKernel L =
        .ok _ := Plan.updateKernel_slate
    exact Except.ok.inj (hkernel.symm.trans hp)
  exact ⟨rfl, proof, data', hup⟩

omit [DecidableEq K] in
/-- The text of a context keeps its commitment and its amount. -/
theorem fromText_inv (hL : L.Lawful) {ctx ctx' : MPBPContext K P} {q : P}
    (hctx : ctx.commit = L.commitOfPoint q) (h : MPBPContext.fromText L (ctx.toText L) = .ok ctx') :
    ctx'.commit = ctx.commit ∧ ctx'.amount = ctx.amount := by
  simp only [MPBPContext.fromText, MPBPContext.toText, hL.ctx_json, Outcome.unwrap_some,
    Outcome.ok_bind, Outcome.bind_eq_ok, Outcome.pure_eq_ok, Except.ok.injEq, hctx,
    deserializeCommitment_serialize hL] at h
  obtain ⟨_, -, _, -, _, -, _, -, _, rfl, rfl⟩ := h
  exact ⟨hctx.symm, rfl⟩

end Follows

/-- `spend_coins` starts a plan with its inputs, fee and change. -/
theorem spendCoins_inv {rand : SpendRand K} {inputs : List MWCoin}
    {fundValue timelock numOfOutputs numParticipants : ℕ} {r : SpendCoinsResult K P}
    (hnum : numParticipants ≠ 0)
    (h : spendCoins L rand inputs fundValue timelock numOfOutputs numParticipants = .ok r) :
    ∃ inpval inp fund fee coins ff c data,
      sumU64 L.overflowChecks (inputs.map MWCoin.value) = .ok inpval ∧
      i64OfU64 inpval = some inp ∧ i64OfU64 fundValue = some fund ∧
      i64OfU64 (L.txFee inputs.length numOfOutputs 1) = some fee ∧
      inputs.mapM (readInput L) = .ok coins ∧
      L.feeFieldsNew (L.txFee inputs.length numOfOutputs 1) = some ff ∧
      changeOutput L rand (inp - fund - fee) = .ok c ∧ r.changeCoin = c.map Prod.snd ∧
      r.slate = (spendPlan L rand coins ff fundValue timelock numParticipants).slate
        (changeOutputs L c) [] data := by
  obtain ⟨inpval, coins, ff, c, data, hsum, -, -, hff, hcoins, hinp, hfund, hfee, hc, hcoin, hslate⟩ :=
    spendCoins_eq_ok h
  refine ⟨inpval, _, _, _, coins, ff, c, data, hsum, i64OfU64_of_lt hinp, i64OfU64_of_lt hfund,
    i64OfU64_of_lt hfee, hcoins, hff, hc, hcoin, ?_⟩
  rw [hslate]
  exact congrArg (fun S : Slate K P => { S with participantData := data }) (spendPlan_start hnum)

/-! ### Runs -/

/-- A transaction whose sums balance and whose single kernel is signed. -/
def Balanced (L : GrinLib K P) (tx : Transaction K P) : Prop :=
  L.kernelSums tx = true ∧ ∃ kernel, tx.kernels = [kernel] ∧ L.verifyKernel kernel = true

omit [DecidableEq K] in
theorem balanced_of_validate {p : Plan K} {outs : List Output} {kernel : TxKernel K P}
    (hval : L.validate (p.tx outs [kernel]) = true) (hv : L.verifyKernel kernel = true) :
    Balanced L (p.tx outs [kernel]) := by
  simp only [GrinLib.validate, Bool.and_eq_true] at hval
  exact ⟨hval.2, kernel, rfl, hv⟩

/-- What a run of the shared output leaves: one coin, of which both parties hold a share, and a
transaction with its output.  Without a lock height both parties hold the same transaction. -/
def SharedOutDone (L : GrinLib K P) (a b : DRecvRand K) (fundValue timelock : ℕ)
    (ra rb : DSharedOutMwTxResult K P) : Prop :=
  ra.sharedCoin =
      MWCoin.new L (L.commitOfPoint (sharedPoint L a b fundValue)) a.outCoinBlind fundValue ∧
    rb.sharedCoin =
      MWCoin.new L (L.commitOfPoint (sharedPoint L a b fundValue)) b.outCoinBlind fundValue ∧
    ∃ tx tx', ra.tx.tx = some tx ∧ rb.tx.tx = some tx' ∧
      L.commitOfPoint (sharedPoint L a b fundValue) ∈ tx.outputs.map Output.commit ∧
      L.commitOfPoint (sharedPoint L a b fundValue) ∈ tx'.outputs.map Output.commit ∧
      Balanced L tx ∧ (timelock = 0 → tx' = tx)

/-- The first party of a completed run of the shared output finalizes a slate whose kernel was just
set, and the second party reads the result. -/
theorem sharedOut_inv {σ τ : Type} {s : σ} {s' : τ} (hL : L.Lawful) {rand : SpendRand K}
    {a b : DRecvRand K} {inp : List MWCoin} {fundValue timelock : ℕ}
    {r : List (Msg K P) × DSharedOutMwTxResult K P × DSharedOutMwTxResult K P}
    (h : talk L (dsharedOutMwTxAlice L rand a inp fundValue timelock s)
      (dsharedOutMwTxBob L b fundValue s') = some r) :
    ∃ (p : Plan K) (outs : List Output) (data : List (ParticipantData K P)),
      p.timelock = timelock ∧
      (p.slate outs [TxKernel.withFeatures p.features] data).finalize L = .ok r.2.1.tx ∧
      Slate.deserializeUpgrade L (r.2.1.tx.toJson L) = .ok r.2.2.tx ∧
      L.commitOfPoint (sharedPoint L a b fundValue) ∈ outs.map Output.commit ∧
      r.2.1.sharedCoin =
        MWCoin.new L (L.commitOfPoint (sharedPoint L a b fundValue)) a.outCoinBlind fundValue ∧
      r.2.2.sharedCoin =
        MWCoin.new L (L.commitOfPoint (sharedPoint L a b fundValue)) b.outCoinBlind fundValue := by
  simp only [dsharedOutMwTxAlice, dsharedOutMwTxBob, receiveSlate, Proc.bind_apply, Prog.bind_assoc,
    talk_lift_left, talk_lift_right, talk_send, talk_recv, Option.map_eq_some_iff, Proc.pure_apply,
    talk_ret, Outcome.expect_eq_ok, Msg.render] at h
  obtain ⟨spend, hspend, r1, hr1, _, ⟨_, ⟨S₁, hS₁, ctx₁, hctx₁, r2, hr2, _, ⟨_, ⟨S₂, hS₂, ctx₂, hctx₂,
    r3, hr3, fin, hfin, _, ⟨S₃, hS₃, hret⟩, rfl⟩, rfl⟩, rfl⟩, rfl⟩, rfl⟩ := h
  cases hret
  obtain ⟨inpval, i, f, fee, coins, ff, c, data, -, -, -, -, -, -, -, -, hplan⟩ :=
    spendCoins_inv (by decide) hspend
  rw [hplan] at hr1
  obtain ⟨hne, hblind, hcom₁, hamount₁, data₁, hslate₁⟩ := drecvCoinsR1_inv hr1
  rw [hslate₁, Plan.deserializeUpgrade_slate hL] at hS₁
  cases hS₁
  obtain ⟨hc₁, ha₁⟩ := fromText_inv hL hcom₁ hctx₁
  obtain ⟨hcom₂, hamount₂, hcoinB, data₂, hslate₂⟩ :=
    drecvCoinsR2_inv hL hne (hc₁.trans hcom₁) hr2
  rw [hslate₂, Plan.deserializeUpgrade_slate hL] at hS₂
  cases hS₂
  obtain ⟨hc₂, ha₂⟩ := fromText_inv hL hcom₂ hctx₂
  obtain ⟨hcoinA, proof, data₃, hslate₃⟩ := drecvCoinsR3_inv hr3
  rw [hslate₃] at hfin
  obtain ⟨data₄, hfin⟩ := finTx_inv hfin
  rw [if_pos rfl] at hfin
  have hpoint : L.pedersen fundValue a.outCoinBlind + L.pedersen 0 b.outCoinBlind =
      sharedPoint L a b fundValue := by
    rw [pedersen_add, Nat.add_zero, sharedPoint]
  rw [hpoint] at hcom₂
  have hmem := hL.insertOutput_mem ⟨.plain, ctx₂.commit, proof⟩ (changeOutputs L c)
  rw [hc₂, hcom₂] at hmem
  refine ⟨_, _, data₄, rfl, hfin, hS₃, ?_, ?_, ?_⟩
  · simpa [hc₂, hcom₂] using hmem
  · rw [hcoinA, hc₂, ha₂, hcom₂, hamount₂, ha₁, hamount₁, hblind]
  · rw [hcoinB, hcom₂]

/-- Every completed run of the shared output leaves a shared coin and its funding transaction. -/
theorem sharedOut_done {σ τ : Type} {s : σ} {s' : τ} (hL : L.Lawful) {rand : SpendRand K} {a b : DRecvRand K}
    {inp : List MWCoin} {fundValue timelock : ℕ}
    {r : List (Msg K P) × DSharedOutMwTxResult K P × DSharedOutMwTxResult K P}
    (h : talk L (dsharedOutMwTxAlice L rand a inp fundValue timelock s)
      (dsharedOutMwTxBob L b fundValue s') = some r) :
    SharedOutDone L a b fundValue timelock r.2.1 r.2.2 := by
  obtain ⟨p, outs, data, rfl, hfin, hread, hmem, hcoinA, hcoinB⟩ := sharedOut_inv hL h
  obtain ⟨kernel, kernel', hk, hfinal, -, hval, hv, hwire⟩ := Plan.finalize_inv hfin
  cases hk
  rw [hfinal, Plan.deserializeUpgrade_slate hL] at hread
  obtain hread := (Except.ok.inj hread).symm
  rw [SharedOutDone, hfinal, hread]
  refine ⟨hcoinA, hcoinB, _, _, rfl, rfl, hmem, hmem, balanced_of_validate hval hv, ?_⟩
  intro ht
  rw [hwire ht rfl]

section SharedInp

variable {rand : SpendRand K} {sigNonce : K} {recv : RecvRand K} {coinA coinB : MWCoin}
  {shareA shareB : K} {value fundValue timelock : ℕ}

/-- What a run that spends a shared coin leaves: both parties hold one transaction that spends the
coin alone into the receiver's output alone. -/
def SharedInpDone (L : GrinLib K P) (recv : RecvRand K) (value : ℕ) (shareA shareB : K)
    (fundValue : ℕ) (txA txB : Option (Transaction K P)) (coin : Option MWCoin) : Prop :=
  ∃ tx, txA = some tx ∧ txB = some tx ∧ tx.inputs = [sharedInput L value shareA shareB] ∧
    tx.outputs = [recvOutput L recv fundValue] ∧ coin = some (recvCoin L recv fundValue) ∧
    Balanced L tx

/-- The party that starts to spend a shared coin has no change. -/
theorem sharedInp_spend_inv (hcoin : SharedCoin L coinA coinB value shareA shareB)
    (hval : SpendsAll L value fundValue) {r : SpendCoinsResult K P}
    (h : spendCoins L rand [coinA] fundValue timelock 1 3 = .ok r) :
    ∃ ff data, r.slate = (sharedPlan L rand value shareA shareB fundValue timelock ff).slate [] []
      data := by
  obtain ⟨inpval, inp, fund, fee, coins, ff, c, data, hsum, hinp, hfund, hfee, hcoins, -, hc, -,
    hplan⟩ := spendCoins_inv (by decide) h
  have htotal := hval.total
  have hbound := hval.bound
  have hread : ([coinA].mapM (readInput L)) = .ok [(sharedInput L value shareA shareB, shareA)] := by
    simp [hcoin.readA]
  rw [hread] at hcoins
  cases hcoins
  have hval' : sumU64 L.overflowChecks ([coinA].map MWCoin.value) = .ok value := by
    rw [sumU64_of_lt (by simp [hcoin.valueA]; omega)]
    simp [hcoin.valueA]
  rw [hval'] at hsum
  cases hsum
  rw [i64OfU64_of_lt hbound] at hinp
  rw [i64OfU64_of_lt (by omega)] at hfund
  rw [List.length_singleton, i64OfU64_of_lt (by omega)] at hfee
  cases hinp
  cases hfund
  cases hfee
  have hzero : ((value : ℤ) - fundValue - (L.txFee 1 1 1 : ℕ)) = 0 := by omega
  rw [hzero] at hc
  cases hc
  exact ⟨ff, data, hplan⟩

/-- Both parties of a completed run of the shared input finalize one slate, whose kernel they just
set. -/
theorem sharedInp_inv {σ τ : Type} {s : σ} {s' : τ} (hL : L.Lawful)
    (hcoin : SharedCoin L coinA coinB value shareA shareB) (hval : SpendsAll L value fundValue)
    {r : List (Msg K P) × DBuildMWTxResult K P × DBuildMWTxResult K P}
    (h : talk L (dsharedInpMwTxAlice L rand coinA fundValue timelock s)
      (dsharedInpMwTxBob L sigNonce recv coinB fundValue timelock s') = some r) :
    ∃ ff data, ((sharedPlan L rand value shareA shareB fundValue timelock ff).slate
        [recvOutput L recv fundValue]
        [TxKernel.withFeatures
          (sharedPlan L rand value shareA shareB fundValue timelock ff).features] data).finalize L =
          .ok r.2.1.tx ∧
      r.2.2.tx = r.2.1.tx ∧ r.2.2.coin = some (recvCoin L recv fundValue) := by
  simp only [dsharedInpMwTxAlice, dsharedInpMwTxBob, receiveSlate, Proc.bind_apply, Prog.bind_assoc,
    talk_lift_left, talk_lift_right, talk_send, talk_recv, Option.map_eq_some_iff, Proc.pure_apply,
    talk_ret, Outcome.expect_eq_ok, Msg.render] at h
  obtain ⟨spend, hspend, _, ⟨S₁, hS₁, dspend, hdspend, rcv, hrcv, fin, hfin, _, ⟨S₂, hS₂, S₃, hS₃, S₄,
    hS₄, _, ⟨S₅, hS₅, S₆, hS₆, S₇, hS₇, hret⟩, rfl⟩, rfl⟩, rfl⟩ := h
  cases hret
  obtain ⟨ff, data, hplan⟩ := sharedInp_spend_inv hcoin hval hspend
  rw [hplan, Plan.deserializeUpgrade_slate hL] at hS₁
  cases hS₁
  obtain ⟨data₁, hslate₁⟩ := dSpendCoins_inv hdspend
  rw [hslate₁] at hrcv
  obtain ⟨hcoinB, data₂, hslate₂⟩ := recvCoins_inv hrcv
  rw [hslate₂] at hfin
  obtain ⟨data₃, hfin⟩ := finTx_inv hfin
  cases hfin
  rw [Plan.deserializeUpgrade_slate hL] at hS₂
  cases hS₂
  rw [Plan.updateKernel_slate] at hS₃
  cases hS₃
  obtain ⟨data₄, hfin⟩ := finTx_inv hS₄
  rw [if_pos rfl, insertOutput_nil hL] at hfin
  obtain ⟨kernel, kernel', hk, hfinal, -, -, -, -⟩ := Plan.finalize_inv hfin
  cases hk
  rw [hfinal, Plan.deserializeUpgrade_slate hL] at hS₅
  cases hS₅
  rw [Plan.updateKernel_slate] at hS₆
  cases hS₆
  -- both parties finalize the same slate
  rw [hfin] at hS₇
  exact ⟨ff, data₄, hfin, (Except.ok.inj hS₇).symm, by rw [hcoinB]⟩

/-- Every completed run of the shared input spends the coin into the output of the receiver. -/
theorem sharedInp_done {σ τ : Type} {s : σ} {s' : τ} (hL : L.Lawful)
    (hcoin : SharedCoin L coinA coinB value shareA shareB) (hval : SpendsAll L value fundValue)
    {r : List (Msg K P) × DBuildMWTxResult K P × DBuildMWTxResult K P}
    (h : talk L (dsharedInpMwTxAlice L rand coinA fundValue timelock s)
      (dsharedInpMwTxBob L sigNonce recv coinB fundValue timelock s') = some r) :
    SharedInpDone L recv value shareA shareB fundValue r.2.1.tx.tx r.2.2.tx.tx r.2.2.coin := by
  obtain ⟨ff, data, hfin, htx, hcoinB⟩ := sharedInp_inv hL hcoin hval h
  obtain ⟨kernel, kernel', -, hfinal, -, hvalid, hv, -⟩ := Plan.finalize_inv hfin
  have hinputs : (sharedPlan L rand value shareA shareB fundValue timelock ff).inputs = _ :=
    sharedPlan_inputs hL
  rw [htx, hfinal]
  exact ⟨_, rfl, rfl, hinputs, rfl, hcoinB, balanced_of_validate hvalid hv⟩

/-- The second party of a completed run of the contract finalizes what it read from the wire, and the
first party reads the result. -/
theorem contract_inv {σ τ : Type} {s : σ} {s' : τ} (hL : L.Lawful)
    (hcoin : SharedCoin L coinA coinB value shareA shareB) (hval : SpendsAll L value fundValue)
    {x : K} {pubX : P}
    {r : List (Msg K P) × ContractMwResult K P × ContractMwResult K P}
    (h : talk L (dcontractMwTxAlice L rand coinA fundValue timelock pubX s)
      (dcontractMwTxBob L sigNonce recv coinB fundValue timelock x s') = some r) :
    ∃ ff kernel data, kernel.features = .plain ff ∧
      ((sharedPlan L rand value shareA shareB fundValue timelock ff).slate
        [recvOutput L recv fundValue] [kernel] data).finalize L = .ok r.2.2.tx ∧
      Slate.deserializeUpgrade L (r.2.2.tx.toJson L) = .ok r.2.1.tx ∧
      r.2.2.coin = some (recvCoin L recv fundValue) := by
  simp only [dcontractMwTxAlice, dcontractMwTxBob, receiveSlate, Proc.bind_apply, Prog.bind_assoc,
    talk_lift_left, talk_lift_right, talk_send, talk_recv, Option.map_eq_some_iff, Proc.pure_apply,
    talk_ret, Outcome.expect_eq_ok, Msg.render] at h
  obtain ⟨spend, hspend, _, ⟨S₁, hS₁, dspend, hdspend, rcv, hrcv, _, ⟨S₂, hS₂, apt, -, S₃, hS₃, _,
    ⟨S₄, hS₄, S₅, hS₅, _, ⟨S₆, hS₆, sig, -, w, -, hret⟩, rfl⟩, rfl⟩, rfl⟩, rfl⟩ := h
  cases hret
  obtain ⟨ff, data, hplan⟩ := sharedInp_spend_inv hcoin hval hspend
  rw [hplan, Plan.deserializeUpgrade_slate hL] at hS₁
  cases hS₁
  obtain ⟨data₁, hslate₁⟩ := dSpendCoins_inv hdspend
  rw [hslate₁] at hrcv
  obtain ⟨hcoinB, data₂, hslate₂⟩ := aptRecvCoins_inv hrcv
  rw [hslate₂, Plan.deserializeUpgrade_slate hL] at hS₂
  cases hS₂
  obtain ⟨data₃, rfl⟩ := finTx_apt_inv hS₃
  rw [Plan.deserializeUpgrade_slate hL] at hS₄
  cases hS₄
  obtain ⟨data₄, hfin⟩ := finTx_replace_inv hS₅
  rw [insertOutput_nil hL] at hfin
  exact ⟨ff, _, data₄, Plan.wireKernel_features, hfin, hS₆, by rw [hcoinB]⟩

/-- Every completed run of the contract spends the coin into the output of the receiver. -/
theorem contract_done {σ τ : Type} {s : σ} {s' : τ} (hL : L.Lawful)
    (hcoin : SharedCoin L coinA coinB value shareA shareB) (hval : SpendsAll L value fundValue)
    {x : K} {pubX : P}
    {r : List (Msg K P) × ContractMwResult K P × ContractMwResult K P}
    (h : talk L (dcontractMwTxAlice L rand coinA fundValue 0 pubX s)
      (dcontractMwTxBob L sigNonce recv coinB fundValue 0 x s') = some r) :
    SharedInpDone L recv value shareA shareB fundValue r.2.1.tx.tx r.2.2.tx.tx r.2.2.coin := by
  obtain ⟨ff, kernel, data, hplain, hfin, hread, hcoinB⟩ := contract_inv hL hcoin hval h
  obtain ⟨_, kernel', hk, hfinal, -, hvalid, hv, hwire⟩ := Plan.finalize_inv hfin
  cases hk
  rw [hfinal, Plan.deserializeUpgrade_slate hL, hwire rfl hplain] at hread
  have hinputs : (sharedPlan L rand value shareA shareB fundValue 0 ff).inputs = _ :=
    sharedPlan_inputs hL
  rw [hfinal, ← Except.ok.inj hread]
  exact ⟨_, rfl, rfl, hinputs, rfl, hcoinB, balanced_of_validate hvalid hv⟩

end SharedInp

/-- Honest runs build valid transactions.  Whatever the keys, nonces and offsets: a completed run of
the shared output gives the parties the two halves of one coin and a balanced, signed transaction with
its output; a completed run of the shared input, with any lock height, or of the contract spends such
a coin into one output of the agreed value, balanced and signed.  And the runs do complete, for all
choices for which the calls to the library succeed. -/
theorem honest_runs_balanced (hL : L.Lawful) :
    (∀ rand a b inp coins fundValue timelock value,
      Funding L inp coins fundValue (L.txFee inp.length 2 1) value →
      (∀ r, talk L (dsharedOutMwTxAlice L rand a inp fundValue timelock ())
          (dsharedOutMwTxBob L b fundValue ()) = some r →
        SharedOutDone L a b fundValue timelock r.2.1 r.2.2) ∧
      ∀ ff, SharedOutKeys L rand a b coins inp.length fundValue timelock value ff →
        ∃ r, talk L (dsharedOutMwTxAlice L rand a inp fundValue timelock ())
          (dsharedOutMwTxBob L b fundValue ()) = some r) ∧
    (∀ rand sigNonce recv coinA coinB value shareA shareB fundValue timelock,
      SharedCoin L coinA coinB value shareA shareB → SpendsAll L value fundValue →
      (∀ r, talk L (dsharedInpMwTxAlice L rand coinA fundValue timelock ())
          (dsharedInpMwTxBob L sigNonce recv coinB fundValue timelock ()) = some r →
        SharedInpDone L recv value shareA shareB fundValue r.2.1.tx.tx r.2.2.tx.tx r.2.2.coin) ∧
      ∀ ff, SharedInpKeys L rand sigNonce recv value shareA shareB fundValue timelock ff →
        ∃ r, talk L (dsharedInpMwTxAlice L rand coinA fundValue timelock ())
          (dsharedInpMwTxBob L sigNonce recv coinB fundValue timelock ()) = some r) ∧
    (∀ rand sigNonce recv coinA coinB value shareA shareB fundValue x,
      SharedCoin L coinA coinB value shareA shareB → SpendsAll L value fundValue →
      (∀ r, talk L (dcontractMwTxAlice L rand coinA fundValue 0 (x • L.G) ())
          (dcontractMwTxBob L sigNonce recv coinB fundValue 0 x ()) = some r →
        SharedInpDone L recv value shareA shareB fundValue r.2.1.tx.tx r.2.2.tx.tx r.2.2.coin) ∧
      ∀ ff, ContractKeys L rand sigNonce recv value shareA shareB fundValue x ff →
        ∃ r, talk L (dcontractMwTxAlice L rand coinA fundValue 0 (x • L.G) ())
          (dcontractMwTxBob L sigNonce recv coinB fundValue 0 x ()) = some r) := by
  refine ⟨?_, ?_, ?_⟩
  · intro rand a b inp coins fundValue timelock value hin
    exact ⟨fun r hr => sharedOut_done hL hr, fun ff hkeys => sharedOut_completes () () hL hin hkeys⟩
  · intro rand sigNonce recv coinA coinB value shareA shareB fundValue timelock hcoin hval
    exact ⟨fun r hr => sharedInp_done hL hcoin hval hr,
      fun ff hkeys => sharedInp_completes () () hL hcoin hval hkeys⟩
  · intro rand sigNonce recv coinA coinB value shareA shareB fundValue x hcoin hval
    exact ⟨fun r hr => contract_done hL hcoin hval hr,
      fun ff hkeys => ⟨_, contract_run () () hL hcoin hval hkeys⟩⟩

/-- The theorem at the sample choices. -/
theorem honest_runs_balanced_sample :
    exponents.Lawful ∧
    (∃ r, talk exponents
        (dsharedOutMwTxAlice exponents sampleSpend sampleShareA [sampleCoin] 1012500000 0 ())
        (dsharedOutMwTxBob exponents sampleShareB 1012500000 ()) = some r ∧
      SharedOutDone exponents sampleShareA sampleShareB 1012500000 0 r.2.1 r.2.2) ∧
    (∃ r, talk exponents
        (dsharedInpMwTxAlice exponents sampleSpend (sampleShared 21) 1000000000 700000 ())
        (dsharedInpMwTxBob exponents 51 sampleRecv (sampleShared 31) 1000000000 700000 ()) = some r ∧
      SharedInpDone exponents sampleRecv 1012500000 21 31 1000000000 r.2.1.tx.tx r.2.2.tx.tx
        r.2.2.coin) ∧
    ∃ r, talk exponents
        (dcontractMwTxAlice exponents sampleSpend (sampleShared 21) 1000000000 0 61 ())
        (dcontractMwTxBob exponents 51 sampleRecv (sampleShared 31) 1000000000 0 61 ()) = some r ∧
      SharedInpDone exponents sampleRecv 1012500000 21 31 1000000000 r.2.1.tx.tx r.2.2.tx.tx
        r.2.2.coin := by
  obtain ⟨hout, hinp, hcon⟩ := honest_runs_balanced exponents_lawful
  refine ⟨exponents_lawful, ?_, ?_, ?_⟩
  · obtain ⟨hdone, hrun⟩ := hout sampleSpend sampleShareA sampleShareB _ _ _ 0 _ sample_funding
    obtain ⟨r, hr⟩ := hrun _ (sample_sharedOutKeys 0)
    exact ⟨r, hr, hdone r hr⟩
  · obtain ⟨hdone, hrun⟩ := hinp sampleSpend 51 sampleRecv _ _ _ _ _ _ 700000 sample_sharedCoin
      sample_spendsAll
    obtain ⟨r, hr⟩ := hrun _ (sample_sharedInpKeys 700000)
    exact ⟨r, hr, hdone r hr⟩
  · obtain ⟨hdone, hrun⟩ := hcon sampleSpend 51 sampleRecv _ _ _ _ _ _ 61 sample_sharedCoin
      sample_spendsAll
    obtain ⟨r, hr⟩ := hrun _ sample_contractKeys
    exact ⟨r, hr, hdone r hr⟩
end MwBtcSwap.Grin
