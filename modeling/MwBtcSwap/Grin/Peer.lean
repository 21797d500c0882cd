import MwBtcSwap.Grin.Runs

/-! What the protocols promise whatever the peer sends.  A run with any answers that returns a value
has verified what its own checks verify, and nothing of the messages after the last check. -/

namespace MwBtcSwap.Grin

open Schnorr Interaction

variable {K P : Type} [CommRing K] [AddCommGroup P] [Module K P] [DecidableEq K] [DecidableEq P]

variable {σ : Type} {L : GrinLib K P}

omit [DecidableEq K] in
/-- A complete run goes through a received slate only when the message is one. -/
@[simp] theorem steps_receiveSlate_bind {α : Type} {f : Slate K P → Process K P σ α}
    {t : Trace K P σ} {s s' : σ} {a : α} :
    Steps ((receiveSlate L s).bind f) t (.ret s' a) ↔
      ∃ m S t', Slate.deserializeUpgrade L m = .ok S ∧ t = ⟨s, .recv, .ok m⟩ :: t' ∧
        Steps (f S s) t' (.ret s' a) := by
  simp only [receiveSlate, Proc.bind_apply, Prog.bind_assoc, steps_receiveMsg_bind,
    steps_lift_bind, Outcome.expect_eq_ok]
  constructor
  · rintro ⟨m, t', rfl, S, hS, h⟩
    exact ⟨m, S, t', hS, rfl, h⟩
  · rintro ⟨m, S, t', hS, rfl, h⟩
    exact ⟨m, t', rfl, S, hS, h⟩

/-! ### The witness of a contract -/

omit [CommRing K] [AddCommGroup P] [Module K P] [DecidableEq K] [DecidableEq P] in
theorem slot2Sig_eq_ok {S : Slate K P} {sig : Signature K P} :
    slot2Sig S = .ok sig ↔ ∃ p, S.participantData[2]? = some p ∧ p.partSig = some sig := by
  simp [slot2Sig, Outcome.bind_eq_ok]

omit [AddCommGroup P] [Module K P] [DecidableEq P] in
/-- The witness is the difference of the two signatures. -/
theorem extWitness_eq_ok {prtSig aptSig : Signature K P} {x : K}
    (h : extWitness prtSig aptSig = .ok x) : x = aptSig.s - prtSig.s := by
  simp only [extWitness, Outcome.bind_eq_ok, Outcome.unwrap_eq_ok, sigExtractS] at h
  obtain ⟨aptS, hApt, prtS, hPrt, hx⟩ := h
  split at hApt
  · cases hApt
  split at hPrt
  · cases hPrt
  cases hApt
  cases hPrt
  simp only [addSecret] at hx
  split at hx
  · cases hx
  · rw [sub_eq_add_neg]
    exact (Option.some.inj hx).symm

/-- The adapted branch of `fin_tx` returns only when every signature in the slate carries the extra
key. -/
theorem finTx_adapted {S S' : Slate K P} {secKey secNonce : K} {finalize : Bool} {pubX : P}
    {replace : Option (Signature K P × Signature K P)}
    (h : finTx L S secKey secNonce finalize (some pubX) replace = .ok S') :
    ∃ nonceSum blindSum msg, S.pubNonceSum = .ok nonceSum ∧ S.pubBlindSum = .ok blindSum ∧
      S.msgToSign L = .ok msg ∧ ∀ p ∈ S.participantData, ∀ sig, p.partSig = some sig →
        Valid L.G (L.challenge nonceSum blindSum msg) p.publicBlindExcess pubX sig := by
  simp only [finTx, aptFinTx, Outcome.bind_eq_ok, Outcome.expect_eq_ok, Outcome.forM_eq_ok] at h
  obtain ⟨-, -, -, -, -, ⟨nonceSum, hn, blindSum, hb, msg, hm, -, hall, -⟩, -⟩ := h
  exact ⟨nonceSum, blindSum, msg, hn, hb, hm, fun p hp => verifyAptSig_eq_ok.mp (hall p hp)⟩

/-- Whether entry 2 of the peer's last slate answers the challenge of its first slate under the key
and the nonce of entry 2 there, without an extra key. -/
def unadapts (L : GrinLib K P) (ptx2 finalSlate : Slate K P) : Outcome Bool := do
  let entry ← Outcome.unwrap unwrapNone ptx2.participantData[2]?
  let aptSigBob ← slot2Sig ptx2
  let sigBob ← slot2Sig finalSlate
  let nonceSum ← ptx2.pubNonceSum
  let blindSum ← ptx2.pubBlindSum
  let msg ← ptx2.msgToSign L
  return L.verifySingle ⟨aptSigBob.nonce, sigBob.s⟩ msg nonceSum entry.publicBlindExcess blindSum none

/-- Whatever the peer sends: a returned witness opens `pub_x` exactly when the peer's last slate
holds the signature that belongs to the adapted signature of its first.  The code checks the adapted
signature against `pub_x` and does not check the last slate. -/
theorem dcontractMwTxAlice_witness_iff {rand : SpendRand K} {inp : MWCoin} {fundValue timelock : ℕ}
    {pubX : P} {s s' : σ} {t : Trace K P σ} {r : ContractMwResult K P}
    (h : Steps (dcontractMwTxAlice L rand inp fundValue timelock pubX s) t (.ret s' r)) :
    r.x • L.G = pubX ↔ ∃ m₁ m₂ ptx2 finalSlate, received t = [m₁, m₂] ∧
      Slate.deserializeUpgrade L m₁ = .ok ptx2 ∧ Slate.deserializeUpgrade L m₂ = .ok finalSlate ∧
      unadapts L ptx2 finalSlate = .ok true := by
  simp only [dcontractMwTxAlice, Proc.bind_apply, steps_lift_bind, steps_sendMsg_bind,
    steps_receiveSlate_bind, Proc.pure_apply, steps_ret] at h
  obtain ⟨spend, -, _, rfl, m₁, S₁, _, hS₁, rfl, apt, hapt, ptx3, hptx3, _, rfl, m₂, S₂, _, hS₂, rfl,
    sig, hsig, x, hx, rfl, hr⟩ := h
  cases hr
  obtain ⟨p, hp, hpsig⟩ := slot2Sig_eq_ok.mp hapt
  obtain ⟨nonceSum, blindSum, msg, hn, hb, hm, hall⟩ := finTx_adapted hptx3
  have hvalid := hall p (List.mem_of_getElem? hp) apt hpsig
  have hun : unadapts L S₁ S₂ = .ok (L.verifySingle ⟨apt.nonce, sig.s⟩ msg nonceSum
      p.publicBlindExcess blindSum none) := by
    simp [unadapts, hp, hapt, hsig, hn, hb, hm]
  have hmsgs : received (K := K) (P := P) (σ := σ)
      [⟨s, .send (.slate .contract .ptx spend.slate), .ok ()⟩, ⟨s, .recv, .ok m₁⟩,
        ⟨s, .send (.slate .contract .ptx3 ptx3), .ok ()⟩, ⟨s, .recv, .ok m₂⟩] = [m₁, m₂] := rfl
  rw [extWitness_eq_ok hx, extra_iff hvalid, hmsgs]
  constructor
  · intro hv
    exact ⟨m₁, m₂, S₁, S₂, rfl, hS₁, hS₂, by simp [hun, GrinLib.verifySingle, hv]⟩
  · rintro ⟨_, _, T₁, T₂, hm, hT₁, hT₂, hv⟩
    cases hm
    obtain rfl : S₁ = T₁ := Except.ok.inj (hS₁.symm.trans hT₁)
    obtain rfl : S₂ = T₂ := Except.ok.inj (hS₂.symm.trans hT₂)
    simpa [hun, GrinLib.verifySingle] using hv

/-- The first answer of an honest peer in the sample contract: the adapted signature of the secret 61
is in entry 2. -/
def sampleAnswer : Slate Scalar Scalar :=
  (sharedPlan exponents sampleSpend 1012500000 21 31 1000000000 0 ⟨12500000⟩).slate
    [recvOutput exponents sampleRecv 1000000000] [TxKernel.withFeatures (.plain ⟨12500000⟩)]
    (entries exponents (sharedInpSigners sampleSpend 51 sampleRecv 21 31)
      (aptSigs exponents sampleSpend 51 sampleRecv 21 31 61 ⟨12500000⟩))

/-- Its last slate. -/
def sampleFinal : Slate Scalar Scalar :=
  contractSlate exponents sampleSpend 51 sampleRecv 1012500000 21 31 1000000000 ⟨12500000⟩

/-- A last slate whose signatures belong to nothing. -/
def sampleForged : Slate Scalar Scalar :=
  { sampleFinal with participantData := sampleFinal.participantData.map fun p =>
      { p with partSig := some ⟨p.publicNonce, 1⟩ } }

theorem dcontractMwTxAlice_witness_sample :
    ∃ t r, Steps (dcontractMwTxAlice exponents sampleSpend (sampleShared 21) 1000000000 0 61 ()) t
        (.ret () r) ∧ r.x • exponents.G = 61 := by
  have hfeed : feed streamOnly (fun _ q => q.returned fun _ => true)
      (dcontractMwTxAlice exponents sampleSpend (sampleShared 21) 1000000000 0 61 ())
      [sampleAnswer.toJson exponents, sampleFinal.toJson exponents] [] = true := by
    simp only [dcontractMwTxAlice, receiveSlate, Proc.bind_apply, Prog.bind_assoc, feed_lift,
      feed_send (show streamOnly (.send _) = .ok () from rfl), feed_recv,
      Slate.deserializeUpgrade_toJson exponents_lawful, Outcome.expect_ok, Proc.pure_apply, feed_ret]
    decide +kernel
  obtain ⟨t, s, r, hsteps, hrec, -⟩ := steps_of_feed_returned hfeed
  have hun : unadapts exponents (Slate.ofV4 exponents sampleAnswer.toV4)
      (Slate.ofV4 exponents sampleFinal.toV4) = .ok true := by decide +kernel
  refine ⟨t, r, hsteps, (dcontractMwTxAlice_witness_iff hsteps).mpr ⟨_, _, _, _, hrec, ?_, ?_, hun⟩⟩
  · exact Slate.deserializeUpgrade_toJson exponents_lawful _
  · exact Slate.deserializeUpgrade_toJson exponents_lawful _

/-- With a forged last slate the function returns a witness that does not open `pub_x`. -/
theorem dcontractMwTxAlice_witness_forged :
    ∃ t r, Steps (dcontractMwTxAlice exponents sampleSpend (sampleShared 21) 1000000000 0 61 ()) t
        (.ret () r) ∧
      received t = [sampleAnswer.toJson exponents, sampleForged.toJson exponents] ∧
      r.x • exponents.G ≠ 61 := by
  have hfeed : feed streamOnly (fun _ q => q.returned fun r => decide (r.x • exponents.G ≠ 61))
      (dcontractMwTxAlice exponents sampleSpend (sampleShared 21) 1000000000 0 61 ())
      [sampleAnswer.toJson exponents, sampleForged.toJson exponents] [] = true := by
    simp only [dcontractMwTxAlice, receiveSlate, Proc.bind_apply, Prog.bind_assoc, feed_lift,
      feed_send (show streamOnly (.send _) = .ok () from rfl), feed_recv,
      Slate.deserializeUpgrade_toJson exponents_lawful, Outcome.expect_ok, Proc.pure_apply, feed_ret]
    decide +kernel
  obtain ⟨t, s, r, hsteps, hrec, hx⟩ := steps_of_feed_returned hfeed
  exact ⟨t, r, hsteps, hrec, of_decide_eq_true hx⟩

/-! ### The refund -/

theorem serializeCommitment_injective : Function.Injective serializeCommitment := by
  intro a b h
  have hbytes : some a.bytes = some b.bytes := by
    rw [← Hex.decode_encode, ← Hex.decode_encode]
    exact congrArg Hex.decode h
  cases a
  cases b
  simpa using hbytes

/-- The coin that `recv_coins` returns is the one whose output it adds. -/
theorem recvCoins_coin {rand : RecvRand K} {S : Slate K P} {fundValue : ℕ} {r : RecvCoinsResult K P}
    (h : recvCoins L rand S fundValue = .ok r) :
    ∃ com, L.commit fundValue rand.outCoinKey = some com ∧
      r.outputCoin = MWCoin.new L com rand.outCoinKey fundValue := by
  simp only [recvCoins, addRecvOutput, Outcome.bind_eq_ok, Outcome.unwrap_eq_ok,
    Outcome.pure_eq_ok] at h
  obtain ⟨_, ⟨-, -, com, hcom, _, -, _, -, hS'⟩, _, -, hr⟩ := h
  cases hS'
  cases hr
  exact ⟨com, hcom, rfl⟩

/-- What a stored refund has to be: a transaction that spends the coin alone, pays the returned coin
with the agreed value, and has one kernel, locked to the agreed height and signed. -/
def IsRefund (L : GrinLib K P) (inp : MWCoin) (fundValue timelock : ℕ) (r : DBuildMWTxResult K P) :
    Prop :=
  ∃ tx com coin kernel fee, r.tx.tx = some tx ∧
    deserializeCommitment L inp.commitment = .ok com ∧ tx.inputs.map Input.commit = [com] ∧
    r.coin = some coin ∧ coin.value = fundValue ∧
    (∃ o ∈ tx.outputs, serializeCommitment o.commit = coin.commitment) ∧
    tx.kernels = [kernel] ∧ kernel.features = .heightLocked fee timelock ∧
    L.verifyKernel kernel = true

/-- The peer's last slate lists the coin as its only input, has the output of the key that the refund
coin was made with, and describes a kernel locked to the agreed height. -/
def DescribesRefund (L : GrinLib K P) (rand : RecvRand K) (inp : MWCoin) (fundValue timelock : ℕ)
    (m : String) : Prop :=
  ∃ S tx com out, Slate.deserializeUpgrade L m = .ok S ∧ S.tx = some tx ∧
    deserializeCommitment L inp.commitment = .ok com ∧ tx.inputs.map Input.commit = [com] ∧
    L.commit fundValue rand.outCoinKey = some out ∧ out ∈ tx.outputs.map Output.commit ∧
    S.kernelFeatures = 2 ∧ S.kernelFeaturesArgs = some ⟨timelock⟩

/-- Whatever the peer sends: what `dshared_inp_mw_tx_bob` returns is a refund exactly when the peer's
last slate describes one.  The inputs, the outputs and the lock height of that slate are not compared
with those of the slate that was signed. -/
theorem dsharedInpMwTxBob_isRefund_iff {sigNonce : K} {rand : RecvRand K} {inp : MWCoin}
    {fundValue timelock : ℕ} {s s' : σ} {t : Trace K P σ} {r : DBuildMWTxResult K P}
    (h : Steps (dsharedInpMwTxBob L sigNonce rand inp fundValue timelock s) t (.ret s' r)) :
    IsRefund L inp fundValue timelock r ↔
      ∃ m₁ m₂, received t = [m₁, m₂] ∧ DescribesRefund L rand inp fundValue timelock m₂ := by
  simp only [dsharedInpMwTxBob, Proc.bind_apply, steps_lift_bind, steps_sendMsg_bind,
    steps_receiveSlate_bind, Proc.pure_apply, steps_ret, Outcome.expect_eq_ok] at h
  obtain ⟨m₁, S₁, _, -, rfl, dspend, -, recv, hrecv, fin, -, _, rfl, m₂, S₂, _, hS₂, rfl, S₃, hS₃, S₄,
    hS₄, rfl, hr⟩ := h
  cases hr
  obtain ⟨com, hcom, hcoin⟩ := recvCoins_coin hrecv
  obtain ⟨tx, features, htx, hf, rfl⟩ := Slate.updateKernel_eq_ok.mp hS₃
  obtain ⟨tx', k, k', htx', hk, hfeat, rfl, hv, -⟩ := Slate.finalize_eq_ok hS₄
  cases htx'
  cases hk
  have hmsgs : received (K := K) (P := P) (σ := σ)
      [⟨s, .recv, .ok m₁⟩, ⟨s, .send (.slate .sharedInp .ptx2 fin), .ok ()⟩, ⟨s, .recv, .ok m₂⟩] =
        [m₁, m₂] := rfl
  rw [hmsgs]
  constructor
  · rintro ⟨_, c, coin, kernel, fee, htx', hc, hins, hcoin', -, ⟨o, ho, hoc⟩, hker, hlock, -⟩
    cases htx'
    cases hcoin'
    cases hker
    rw [hcoin] at hoc
    have hout : o.commit = com := serializeCommitment_injective hoc
    have hheight : features = .heightLocked fee timelock := hfeat.symm.trans hlock
    rw [hheight] at hf
    obtain ⟨-, hfl, hargs⟩ := Slate.txKernelFeatures_heightLocked.mp hf
    exact ⟨m₁, m₂, rfl, S₂, tx, c, com, hS₂, htx, hc, hins, hcom,
      hout ▸ List.mem_map_of_mem ho, hfl, hargs⟩
  · rintro ⟨_, _, hm, S, tx₂, c, out, hS, htx₂, hc, hins, hout, hmem, hfl, hargs⟩
    cases hm
    rw [hS₂] at hS
    cases hS
    rw [htx] at htx₂
    cases htx₂
    rw [hcom] at hout
    cases hout
    obtain ⟨o, ho, hoc⟩ := List.mem_map.mp hmem
    have hheight := Slate.txKernelFeatures_heightLocked (L := L).mpr ⟨rfl, hfl, hargs⟩
    rw [hf] at hheight
    cases hheight
    exact ⟨_, c, recv.outputCoin, k', S₂.feeFields, rfl, hc, hins, rfl, by rw [hcoin]; rfl,
      ⟨o, ho, by rw [hcoin, hoc]; rfl⟩, rfl, hfeat, hv⟩

/-- The first slate of the peer in the sample refund, locked to height 700000. -/
def sampleRefundStart : Slate Scalar Scalar :=
  (sharedPlan exponents sampleSpend 1012500000 21 31 1000000000 700000 ⟨12500000⟩).slate [] []
    (entries exponents [⟨-21 - sampleSpend.offset, sampleSpend.sigNonce⟩] fun _ => none)

/-- The last slate of an honest peer. -/
def sampleRefund : Slate Scalar Scalar :=
  let Z := sharedInpSigners sampleSpend 51 sampleRecv 21 31
  (sharedPlan exponents sampleSpend 1012500000 21 31 1000000000 700000 ⟨12500000⟩).slate
    [recvOutput exponents sampleRecv 1000000000] []
    (entries exponents Z (signedBy exponents Z (.heightLocked ⟨12500000⟩ 700000) Z))

/-- A transaction of the peer alone: it spends another coin, whose key the peer has, without a lock
height. -/
def sampleUnrelated : Slate Scalar Scalar :=
  contractSlate exponents sampleSpend 51 ⟨45, 46, 47, 48⟩ 1012500000 22 32 1000000000 ⟨12500000⟩

theorem dsharedInpMwTxBob_isRefund_sample :
    ∃ t r, Steps (dsharedInpMwTxBob exponents 51 sampleRecv (sampleShared 31) 1000000000 700000 ()) t
        (.ret () r) ∧ IsRefund exponents (sampleShared 31) 1000000000 700000 r := by
  have hfeed : feed streamOnly (fun _ q => q.returned fun _ => true)
      (dsharedInpMwTxBob exponents 51 sampleRecv (sampleShared 31) 1000000000 700000 ())
      [sampleRefundStart.toJson exponents, sampleRefund.toJson exponents] [] = true := by
    simp only [dsharedInpMwTxBob, receiveSlate, Proc.bind_apply, Prog.bind_assoc, feed_lift,
      feed_send (show streamOnly (.send _) = .ok () from rfl), feed_recv,
      Slate.deserializeUpgrade_toJson exponents_lawful, Outcome.expect_ok, Proc.pure_apply, feed_ret]
    decide +kernel
  obtain ⟨t, s, r, hsteps, hrec, -⟩ := steps_of_feed_returned hfeed
  refine ⟨t, r, hsteps, (dsharedInpMwTxBob_isRefund_iff hsteps).mpr ⟨_, _, hrec, ?_⟩⟩
  have hcom : deserializeCommitment exponents (sampleShared 31).commitment =
      .ok (sharedInput exponents 1012500000 21 31).commit := by decide +kernel
  have hout : exponents.commit 1000000000 sampleRecv.outCoinKey =
      some (recvOutput exponents sampleRecv 1000000000).commit := by decide +kernel
  exact ⟨_, _, _, _, Slate.deserializeUpgrade_toJson exponents_lawful _, rfl, hcom, by decide +kernel,
    hout, by decide +kernel, rfl, rfl⟩

/-- The unrelated transaction is returned as the refund. -/
theorem dsharedInpMwTxBob_isRefund_unrelated :
    ∃ t r, Steps (dsharedInpMwTxBob exponents 51 sampleRecv (sampleShared 31) 1000000000 700000 ()) t
        (.ret () r) ∧
      received t = [sampleRefundStart.toJson exponents, sampleUnrelated.toJson exponents] ∧
      ¬ IsRefund exponents (sampleShared 31) 1000000000 700000 r := by
  have hfeed : feed streamOnly
      (fun _ q => q.returned fun r => decide (∀ tx ∈ r.tx.tx, ∀ k ∈ tx.kernels,
        k.features = .plain ⟨12500000⟩))
      (dsharedInpMwTxBob exponents 51 sampleRecv (sampleShared 31) 1000000000 700000 ())
      [sampleRefundStart.toJson exponents, sampleUnrelated.toJson exponents] [] = true := by
    simp only [dsharedInpMwTxBob, receiveSlate, Proc.bind_apply, Prog.bind_assoc, feed_lift,
      feed_send (show streamOnly (.send _) = .ok () from rfl), feed_recv,
      Slate.deserializeUpgrade_toJson exponents_lawful, Outcome.expect_ok, Proc.pure_apply, feed_ret]
    decide +kernel
  obtain ⟨t, s, r, hsteps, hrec, hplain⟩ := steps_of_feed_returned hfeed
  refine ⟨t, r, hsteps, hrec, ?_⟩
  rintro ⟨tx, -, -, k, fee, htx, -, -, -, -, -, hker, hlock, -⟩
  have hfeatures : k.features = .plain ⟨12500000⟩ :=
    of_decide_eq_true hplain tx htx k (by rw [hker]; exact List.mem_singleton_self k)
  rw [hfeatures] at hlock
  cases hlock

end MwBtcSwap.Grin
