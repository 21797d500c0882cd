import MwBtcSwap.Grin.Peer

/-! The kernel that the first party of a shared input signs.  The slate that it signs comes back from
the peer, and the message of the signature is that of the fields of this slate. -/

namespace MwBtcSwap.Grin

open Schnorr Interaction

variable {K P : Type} [CommRing K] [AddCommGroup P] [Module K P] [DecidableEq K] [DecidableEq P]

variable {σ : Type} (L : GrinLib K P)

/-- A slate that is to be signed: the message of the signature, and the sums of the nonces and of the
keys. -/
structure Signing (K P : Type) where
  slate : Slate K P
  msg : KernelFeatures
  nonceSum : P
  blindSum : P

/-- What `fill_round_2` computes before it signs. -/
def Slate.round2 (S : Slate K P) : Outcome (Signing K P) := do
  S.verifyPartSigs L
  let nonceSum ← S.pubNonceSum
  let blindSum ← S.pubBlindSum
  let msg ← S.msgToSign L
  return ⟨S, msg, nonceSum, blindSum⟩

/-- The signature of `fill_round_2`, stored in the slate. -/
def Signing.sign (signing : Signing K P) (secKey secNonce : K) : Outcome (Slate K P) :=
  signing.slate.storeSig L secKey secNonce
    (L.signSingle signing.msg secKey secNonce none signing.nonceSum signing.blindSum)

theorem Slate.fillRound2_eq (S : Slate K P) (secKey secNonce : K) :
    S.fillRound2 L secKey secNonce = S.round2 L >>= fun signing => signing.sign L secKey secNonce := by
  simp only [fillRound2, round2, Signing.sign, bind_assoc, pure_bind]

/-- What `dshared_inp_mw_tx_alice` computes of the peer's answer before it signs. -/
def refundSigning (answer : Slate K P) : Outcome (Signing K P) := do
  let slate ← Outcome.expect unwrapErr (answer.updateKernel L)
  let tx ← Outcome.unwrap "called `Option::unwrap()` on a `None` value" slate.tx
  verifyOutputs L tx
  Outcome.expect "Failed to complete round 2 on senders turn" (slate.round2 L)

/-- `dshared_inp_mw_tx_alice` with a note at the place where it signs. -/
def notedInpMwTxAlice (note : KernelFeatures → Process K P σ Unit) (rand : SpendRand K) (inp : MWCoin)
    (fundValue timelock : ℕ) : Process K P σ (DBuildMWTxResult K P) := do
  let spend ← Proc.lift (spendCoins L rand [inp] fundValue timelock 1 3)
  sendMsg (.slate .sharedInp .ptx spend.slate)
  let answer ← receiveSlate L
  let signing ← Proc.lift (refundSigning L answer)
  note signing.msg
  let signed ← Proc.lift (Outcome.expect "Failed to complete round 2 on senders turn"
    (signing.sign L spend.sigKey spend.sigNonce))
  let finSlate ← Proc.lift (Outcome.expect "Failed to finalize transaction" (signed.finalize L))
  sendMsg (.slate .sharedInp .tx finSlate)
  return ⟨finSlate, spend.changeCoin⟩

/-- The note is at the one place where the function signs. -/
theorem dsharedInpMwTxAlice_eq_noted (rand : SpendRand K) (inp : MWCoin) (fundValue timelock : ℕ) :
    (dsharedInpMwTxAlice L rand inp fundValue timelock : Process K P σ _) =
      notedInpMwTxAlice L (fun _ => pure ()) rand inp fundValue timelock := by
  simp only [dsharedInpMwTxAlice, notedInpMwTxAlice, refundSigning, finTx, Slate.fillRound2_eq,
    Outcome.expect_bind, if_true, Proc.lift_bind, Proc.bind_assoc]
  rfl

/-! ### What is signed -/

/-- The note of a signed message in a log. -/
def logSigned (msg : KernelFeatures) : Process K P (List KernelFeatures) Unit :=
  Proc.modify fun log => log ++ [msg]

variable {L}

omit [CommRing K] [AddCommGroup P] [Module K P] [DecidableEq K] [DecidableEq P] in
/-- What comes after the signature leaves the memory alone and hears nothing. -/
theorem steps_afterSigning {α β : Type} {x : Outcome α} {y : α → Outcome β} {msg : β → Msg K P}
    {r : β → DBuildMWTxResult K P} {s : σ} {t : Trace K P σ}
    {q : Program K P σ (DBuildMWTxResult K P)}
    (h : Steps ((Proc.lift x >>= fun a => Proc.lift (y a) >>= fun b => sendMsg (msg b) >>= fun _ =>
      pure (r b)) s) t q) : q.mem = s ∧ received t = [] := by
  obtain ⟨e, -, rfl, rfl⟩ | ⟨a, -, h⟩ := h.lift_bind_inv
  · exact ⟨rfl, rfl⟩
  obtain ⟨e, -, rfl, rfl⟩ | ⟨b, -, h⟩ := h.lift_bind_inv
  · exact ⟨rfl, rfl⟩
  obtain ⟨rfl, hmem⟩ | ⟨ans, t, rfl, hrest⟩ := h.request_bind_inv
  · exact ⟨hmem, rfl⟩
  obtain ⟨e, -, rfl, rfl⟩ | ⟨_, -, h⟩ := hrest
  · exact ⟨rfl, rfl⟩
  obtain ⟨rfl, rfl⟩ := steps_ret.mp h
  exact ⟨rfl, rfl⟩

/-- A run with the log: nothing is signed and no answer was heard that comes to be signed, or one answer
was heard and is signed. -/
theorem notedInpMwTxAlice_log {rand : SpendRand K} {inp : MWCoin} {fundValue timelock : ℕ}
    {t : Trace K P (List KernelFeatures)}
    {q : Program K P (List KernelFeatures) (DBuildMWTxResult K P)}
    (h : Steps (notedInpMwTxAlice L logSigned rand inp fundValue timelock []) t q) :
    (q.mem = [] ∧ ∀ text ∈ received t, ∀ answer signing,
        Slate.deserializeUpgrade L text = .ok answer → refundSigning L answer ≠ .ok signing) ∨
      ∃ text answer signing, received t = [text] ∧ Slate.deserializeUpgrade L text = .ok answer ∧
        refundSigning L answer = .ok signing ∧ q.mem = [signing.msg] := by
  simp only [notedInpMwTxAlice, receiveSlate, Proc.bind_assoc] at h
  obtain ⟨e, -, rfl, rfl⟩ | ⟨spend, -, hsend⟩ := h.lift_bind_inv
  · exact .inl ⟨rfl, fun _ htext => by cases htext⟩
  obtain ⟨rfl, hmem⟩ | ⟨ans, t, rfl, hans⟩ := hsend.request_bind_inv
  · exact .inl ⟨hmem, fun _ htext => by cases htext⟩
  obtain ⟨e, -, rfl, rfl⟩ | ⟨_, -, hrecv⟩ := hans
  · exact .inl ⟨rfl, fun _ htext => by cases htext⟩
  obtain ⟨rfl, hmem⟩ | ⟨ans', t, rfl, hans'⟩ := hrecv.request_bind_inv
  · exact .inl ⟨hmem, fun _ htext => by cases htext⟩
  obtain ⟨e, hread, rfl, rfl⟩ | ⟨text, hread, hparse⟩ := hans'
  · left
    refine ⟨rfl, ?_⟩
    intro text htext
    cases ans' with
    | ok msg => cases hread
    | error e' => cases htext
  obtain rfl := Outcome.expect_eq_ok.mp hread
  obtain ⟨e, herror, rfl, rfl⟩ | ⟨answer, hanswer, hsigning⟩ := hparse.lift_bind_inv
  · left
    refine ⟨rfl, ?_⟩
    intro text' htext answer signing hanswer
    obtain rfl : text' = text := by simpa [received?] using htext
    rw [hanswer] at herror
    cases herror
  have hanswer := Outcome.expect_eq_ok.mp hanswer
  obtain ⟨e, herror, rfl, rfl⟩ | ⟨signing, hsigning, hend⟩ := hsigning.lift_bind_inv
  · left
    refine ⟨rfl, ?_⟩
    intro text' htext answer' signing hanswer' hsigning
    obtain rfl : text' = text := by simpa [received?] using htext
    rw [hanswer, Except.ok.injEq] at hanswer'
    subst hanswer'
    rw [hsigning] at herror
    cases herror
  · right
    obtain ⟨hmem, hreceived⟩ := steps_afterSigning hend
    refine ⟨text, answer, signing, ?_, hanswer, hsigning, hmem⟩
    simp [received?, hreceived]

omit [DecidableEq K] in
/-- The message of the signature is that of the fields of the answer. -/
theorem refundSigning_heightLocked {answer : Slate K P} {signing : Signing K P} {fee : FeeFields}
    {timelock : ℕ} (h : refundSigning L answer = .ok signing) :
    signing.msg = .heightLocked fee timelock ↔ answer.kernelFeatures = 2 ∧
      answer.kernelFeaturesArgs = some ⟨timelock⟩ ∧ answer.feeFields = fee := by
  simp only [refundSigning, Slate.round2, Outcome.bind_eq_ok, Outcome.expect_eq_ok, Outcome.pure_eq_ok,
    Except.ok.injEq, Slate.updateKernel_eq_ok] at h
  obtain ⟨S, ⟨tx, features, -, -, rfl⟩, _, -, _, -, _, -, _, -, _, -, msg, hmsg, rfl⟩ := h
  have hmsg : answer.txKernelFeatures L = .ok msg := hmsg
  have hlocked : answer.txKernelFeatures L = .ok (.heightLocked fee timelock) ↔ answer.feeFields = fee ∧
      answer.kernelFeatures = 2 ∧ answer.kernelFeaturesArgs = some ⟨timelock⟩ :=
    Slate.txKernelFeatures_heightLocked
  rw [hmsg, Except.ok.injEq] at hlocked
  rw [hlocked]
  constructor
  · rintro ⟨hfee, hkind, hargs⟩
    exact ⟨hkind, hargs, hfee⟩
  · rintro ⟨hkind, hargs, hfee⟩
    exact ⟨hfee, hkind, hargs⟩

/-- The fee that `spend_coins` computes for the refund. -/
def RefundFee (L : GrinLib K P) (rand : SpendRand K) (inp : MWCoin) (fundValue timelock : ℕ)
    (fee : FeeFields) : Prop :=
  ∃ spend, spendCoins L rand [inp] fundValue timelock 1 3 = .ok spend ∧ spend.slate.feeFields = fee

/-- Whatever the peer sends, `dshared_inp_mw_tx_alice` signs nothing but the refund with the agreed lock
height and its own fee exactly when no answer that comes to be signed has other fields. -/
theorem dsharedInpMwTxAlice_signs_iff {rand : SpendRand K} {inp : MWCoin} {fundValue timelock : ℕ}
    {t : Trace K P (List KernelFeatures)}
    {q : Program K P (List KernelFeatures) (DBuildMWTxResult K P)}
    (h : Steps (notedInpMwTxAlice L logSigned rand inp fundValue timelock []) t q) :
    (∀ msg ∈ q.mem, ∃ fee, RefundFee L rand inp fundValue timelock fee ∧
        msg = .heightLocked fee timelock) ↔
      ∀ text ∈ received t, ∀ answer signing, Slate.deserializeUpgrade L text = .ok answer →
        refundSigning L answer = .ok signing → answer.kernelFeatures = 2 ∧
          answer.kernelFeaturesArgs = some ⟨timelock⟩ ∧
          RefundFee L rand inp fundValue timelock answer.feeFields := by
  obtain ⟨hmem, hnone⟩ | ⟨text, answer, signing, hreceived, hanswer, hsigning, hmem⟩ :=
    notedInpMwTxAlice_log h
  · rw [hmem]
    constructor
    · intro _ text htext answer signing hanswer hsigning
      exact (hnone text htext answer signing hanswer hsigning).elim
    · intro _ msg hmsg
      cases hmsg
  · rw [hmem, hreceived]
    simp only [List.mem_singleton, forall_eq]
    constructor
    · rintro ⟨fee, hfee, hmsg⟩ answer' signing' hanswer' _
      rw [hanswer, Except.ok.injEq] at hanswer'
      subst hanswer'
      obtain ⟨hkind, hargs, rfl⟩ := (refundSigning_heightLocked hsigning).mp hmsg
      exact ⟨hkind, hargs, hfee⟩
    · intro hfields
      obtain ⟨hkind, hargs, hfee⟩ := hfields answer signing hanswer hsigning
      exact ⟨_, hfee, (refundSigning_heightLocked hsigning).mpr ⟨hkind, hargs, rfl⟩⟩

/-- The answer of a peer to the sample refund, with the lock height that it chose. -/
def sampleRefundAnswer (timelock : ℕ) : Slate Scalar Scalar :=
  let Z := sharedInpSigners sampleSpend 51 sampleRecv 21 31
  (sharedPlan exponents sampleSpend 1012500000 21 31 1000000000 timelock ⟨12500000⟩).slate
    [recvOutput exponents sampleRecv 1000000000] []
    (entries exponents Z (signedBy exponents Z (.heightLocked ⟨12500000⟩ timelock)
      [⟨-31, 51⟩, recvSigner sampleRecv]))

/-- The run of a party that agreed on the height 700000, with such a peer. -/
def signsRefund (timelock : ℕ) : Bool :=
  feed streamOnly (fun _ q => decide (q.mem = [.heightLocked ⟨12500000⟩ timelock]) &&
      q.returned fun _ => true)
    (notedInpMwTxAlice exponents logSigned sampleSpend (sampleShared 21) 1000000000 700000 [])
    [(sampleRefundAnswer timelock).toJson exponents] []

theorem steps_of_signsRefund {timelock : ℕ} (h : signsRefund timelock = true) :
    ∃ t q, Steps (notedInpMwTxAlice exponents logSigned sampleSpend (sampleShared 21) 1000000000 700000 [])
        t q ∧
      received t = [(sampleRefundAnswer timelock).toJson exponents] ∧
      q.mem = [.heightLocked ⟨12500000⟩ timelock] ∧ q.returned (fun _ => true) = true := by
  obtain ⟨t, q, hsteps, hreceived, hcheck⟩ := steps_of_feed h
  rw [Bool.and_eq_true, decide_eq_true_eq] at hcheck
  exact ⟨t, q, hsteps, hreceived, hcheck⟩

theorem dsharedInpMwTxAlice_signs_sample : ∃ t q,
    Steps (notedInpMwTxAlice exponents logSigned sampleSpend (sampleShared 21) 1000000000 700000 []) t q ∧
    ∀ msg ∈ q.mem, ∃ fee, RefundFee exponents sampleSpend (sampleShared 21) 1000000000 700000 fee ∧
      msg = .heightLocked fee 700000 := by
  have hfeed : signsRefund 700000 = true := by
    simp only [signsRefund, notedInpMwTxAlice, receiveSlate, Proc.bind_apply, Prog.bind_assoc, feed_lift,
      logSigned, feed_send (show streamOnly (.send _) = .ok () from rfl), feed_recv, Proc.modify_apply,
      Prog.bind_ret, Slate.deserializeUpgrade_toJson exponents_lawful, Outcome.expect_ok,
      Proc.pure_apply, feed_ret]
    decide +kernel
  obtain ⟨t, q, hsteps, hreceived, -⟩ := steps_of_signsRefund hfeed
  have hspend := sharedInp_spend (L := exponents) sample_sharedCoin sample_spendsAll
    (sample_sharedInpKeys 700000)
  refine ⟨t, q, hsteps, (dsharedInpMwTxAlice_signs_iff hsteps).mpr ?_⟩
  intro text htext answer signing hanswer _
  rw [hreceived, List.mem_singleton] at htext
  rw [htext, Slate.deserializeUpgrade_toJson exponents_lawful, Except.ok.injEq] at hanswer
  subst hanswer
  exact ⟨rfl, rfl, _, hspend, rfl⟩

/-- The peer chose the height 1: the party that agreed on the height 700000 signs, and completes the
refund. -/
theorem dsharedInpMwTxAlice_signs_early : ∃ t q,
    Steps (notedInpMwTxAlice exponents logSigned sampleSpend (sampleShared 21) 1000000000 700000 []) t q ∧
    received t = [(sampleRefundAnswer 1).toJson exponents] ∧ q.returned (fun _ => true) = true ∧
    ¬ ∀ msg ∈ q.mem, ∃ fee, RefundFee exponents sampleSpend (sampleShared 21) 1000000000 700000 fee ∧
      msg = .heightLocked fee 700000 := by
  have hfeed : signsRefund 1 = true := by
    simp only [signsRefund, notedInpMwTxAlice, receiveSlate, Proc.bind_apply, Prog.bind_assoc, feed_lift,
      logSigned, feed_send (show streamOnly (.send _) = .ok () from rfl), feed_recv, Proc.modify_apply,
      Prog.bind_ret, Slate.deserializeUpgrade_toJson exponents_lawful, Outcome.expect_ok,
      Proc.pure_apply, feed_ret]
    decide +kernel
  obtain ⟨t, q, hsteps, hreceived, hmem, hreturned⟩ := steps_of_signsRefund hfeed
  refine ⟨t, q, hsteps, hreceived, hreturned, fun h => ?_⟩
  obtain ⟨fee, -, hmsg⟩ := h (.heightLocked ⟨12500000⟩ 1) (by rw [hmem]; exact List.mem_singleton_self _)
  cases hmsg

end MwBtcSwap.Grin
