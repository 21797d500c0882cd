import MwBtcSwap.Grin.Peer
import MwBtcSwap.Swap.Keys

/-! The witness of the swap in honest runs of the contract: the Bitcoin owner's secret goes into the
adapted signature of its output, and the Grin owner gets the same secret out of the final slate. -/

namespace MwBtcSwap

open Interaction Grin Bitcoin Schnorr

variable {K P : Type} [CommRing K] [AddCommGroup P] [Module K P] [DecidableEq K] [DecidableEq P]

variable {L : GrinLib K P} {B : BtcLib K P} {rand : SpendRand K} {sigNonce : K} {recv : RecvRand K}
  {coinA coinB : MWCoin} {shareA shareB x : K} {value fundValue : ℕ} {ff : FeeFields}

/-- What an honest run of the contract with the secret `x` is: four slates, of which the second holds
the adapted signature in entry 2 and the last the signature without `x`. -/
structure ContractRun (L : GrinLib K P) (rand : SpendRand K) (sigNonce : K) (recv : RecvRand K)
    (coinA coinB : MWCoin) (fundValue : ℕ) (x : K) (ptx ptx2 ptx3 fin : Slate K P)
    (aptSig sig : Signature K P) (coin : MWCoin) : Prop where
  /-- The slates are exchanged, and the parties return. -/
  completes : talk L (dcontractMwTxAlice L rand coinA fundValue 0 (x • L.G) ())
      (dcontractMwTxBob L sigNonce recv coinB fundValue 0 x ()) =
    some ([.slate .contract .ptx ptx, .slate .contract .ptx2 ptx2, .slate .contract .ptx3 ptx3,
      .slate .contract .tx fin], ⟨fin, none, x⟩, ⟨fin, some coin, x⟩)
  /-- The adapted signature passes the check with the extra key. -/
  adapted : ∃ entry nonceSum blindSum msg, ptx2.participantData[2]? = some entry ∧
    entry.partSig = some aptSig ∧ ptx2.pubNonceSum = .ok nonceSum ∧
    ptx2.pubBlindSum = .ok blindSum ∧ ptx2.msgToSign L = .ok msg ∧
    verifyAptSig L msg nonceSum blindSum (x • L.G) entry = .ok ()
  /-- The replacement changes this entry and no other. -/
  replaced : replaceSig ptx3 aptSig sig =
    .ok { ptx3 with participantData :=
      ptx3.participantData.modify 2 fun p => { p with partSig := some sig } }
  /-- What is replaced is finalized. -/
  finalized : ∃ S key, Slate.deserializeUpgrade L (ptx3.toJson L) = .ok S ∧
    finTx L S key sigNonce true none (some (aptSig, sig)) = .ok fin
  /-- The two signatures are in entry 2 of the slates, and their difference is the secret. -/
  extracted : slot2Sig ptx2 = .ok aptSig ∧ slot2Sig fin = .ok sig ∧ extWitness sig aptSig = .ok x

omit [DecidableEq K] [DecidableEq P] in
/-- The replacement in the entries of the three signers is one in entry 2. -/
theorem modify_aptSlate {kernels : List (TxKernel K P)} {sigs sigs' : Signer K → Option (Signature K P)}
    {sig : Signature K P}
    (hA : sigs' ⟨-shareA - rand.offset, rand.sigNonce⟩ = sigs ⟨-shareA - rand.offset, rand.sigNonce⟩)
    (hB : sigs' ⟨-shareB, sigNonce⟩ = sigs ⟨-shareB, sigNonce⟩)
    (hR : sigs' (recvSigner recv) = some sig) :
    aptSlate L rand sigNonce recv value shareA shareB fundValue ff kernels sigs' =
      { aptSlate L rand sigNonce recv value shareA shareB fundValue ff kernels sigs with
        participantData := (aptSlate L rand sigNonce recv value shareA shareB fundValue ff kernels
          sigs).participantData.modify 2 fun p => { p with partSig := some sig } } := by
  simp [aptSlate, Plan.slate, entries, sharedInpSigners, Signer.entry, hA, hB, hR]

/-- In an honest run of the contract the witness that the Grin owner extracts, as a Bitcoin key, is the
secret of the Bitcoin owner. -/
theorem contract_witness_exact (hL : L.Lawful) (hC : SameCurve L B)
    (hcoin : SharedCoin L coinA coinB value shareA shareB) (hval : SpendsAll L value fundValue)
    (h : ContractKeys L rand sigNonce recv value shareA shareB fundValue x ff) :
    grinSkFromBtcSk L B (createPrivateKey x) = .ok x ∧
    (∃ ptx ptx2 ptx3 fin aptSig sig coin, ContractRun L rand sigNonce recv coinA coinB fundValue x
      ptx ptx2 ptx3 fin aptSig sig coin) ∧
    privateKeyFromGrinSk B (L.secretToBytes x) = .ok (createPrivateKey x) := by
  obtain ⟨houts, -, -, -⟩ := sharedInp_facts hL hcoin hval h.toSharedInpKeys
  have hnodup := h.signable.nodup
  simp only [sharedInpSigners, List.nodup_cons, List.mem_cons, List.not_mem_nil, or_false,
    not_or] at hnodup
  have happly : ∀ kernels, ∃ S, finTx L
      (aptSlate L rand sigNonce recv value shareA shareB fundValue ff kernels
        (aptSigs L rand sigNonce recv shareA shareB x ff)) (-shareA - rand.offset) rand.sigNonce false
      (some (x • L.G)) none = .ok S := fun kernels => ⟨_, contract_finTx_apt h houts kernels⟩
  refine ⟨(hC.privateKey h.secret).1, ⟨_, aptSlate L rand sigNonce recv value shareA shareB fundValue
    ff _ (aptSigs L rand sigNonce recv shareA shareB x ff), aptSlate L rand sigNonce recv value shareA
    shareB fundValue ff _ (aptSigs3 L rand sigNonce recv shareA shareB x ff), _, _, _, _,
    contract_run () () hL hcoin hval h, ?_, ?_, ?_, slot2Sig_aptSlate _, slot2Sig_contractSlate,
    contract_extWitness h⟩, (hC.privateKey h.secret).2⟩
  · obtain ⟨S, hS⟩ := happly [TxKernel.withFeatures (.plain ff)]
    obtain ⟨nonceSum, blindSum, msg, hn, hb, hm, hall⟩ := finTx_adapted hS
    obtain ⟨entry, hentry, hsig⟩ := slot2Sig_eq_ok.mp
      (@slot2Sig_aptSlate K P _ _ _ _ L rand sigNonce recv shareA shareB x value fundValue ff
        [TxKernel.withFeatures (.plain ff)])
    exact ⟨entry, nonceSum, blindSum, msg, hentry, hsig, hn, hb, hm,
      verifyAptSig_eq_ok.mpr (hall entry (List.mem_of_getElem? hentry))⟩
  · refine (contract_replaceSig h _).trans (congrArg Except.ok (modify_aptSlate ?_ ?_ ?_))
    · simp [signedBy, aptSigs3]
    · rw [aptSigs3, Function.update_of_ne (Ne.symm hnodup.1.1), aptSigs,
        Function.update_of_ne hnodup.2.1]
      simp [signedBy, hnodup.2.1, Ne.symm hnodup.1.1]
    · simp [signedBy]
  · exact ⟨_, _, Plan.deserializeUpgrade_slate hL, contract_finTx_replace h hL hcoin hval⟩

theorem contract_witness_sample :
    ∃ ptx ptx2 ptx3 fin aptSig sig coin, ContractRun exponents sampleSpend 51 sampleRecv
      (sampleShared 21) (sampleShared 31) 1000000000 61 ptx ptx2 ptx3 fin aptSig sig coin :=
  (contract_witness_exact exponents_lawful (exponents_sameCurve []) sample_sharedCoin sample_spendsAll
    sample_contractKeys).2.1

/-- The keys of a first party whose entry is that of the second party's share: the sum of its share 21
and its offset 10 is the share 31, and both draw the nonce 51. -/
def clashingSpend : SpendRand Scalar := ⟨11, 51, 13, 14, 10⟩

/-- Such a run of the contract does not complete: the two entries are one, and there is no entry 2.
No signature of the parties has the scalar 0, over the entries that there are or over all three. -/
theorem contract_witness_clash :
    SharedCoin exponents (sampleShared 21) (sampleShared 31) 1012500000 21 31 ∧
    SpendsAll exponents 1012500000 1000000000 ∧
    (∀ Z ∈ [[⟨-31, 51⟩, recvSigner sampleRecv], sharedInpSigners clashingSpend 51 sampleRecv 21 31],
      ∀ i ∈ Z, (signature exponents Z (.plain ⟨12500000⟩) i).s ≠ 0 ∧
        (aptSignature exponents Z (.plain ⟨12500000⟩) i 61).s ≠ 0) ∧
    talk exponents (dcontractMwTxAlice exponents clashingSpend (sampleShared 21) 1000000000 0
        ((61 : Scalar) • exponents.G) ())
      (dcontractMwTxBob exponents 51 sampleRecv (sampleShared 31) 1000000000 0 61 ()) = none := by
  refine ⟨sample_sharedCoin, sample_spendsAll, by decide +kernel, ?_⟩
  simp only [dcontractMwTxAlice, dcontractMwTxBob, receiveSlate, Proc.bind_apply, Prog.bind_assoc,
    talk_lift_left_eq, talk_lift_right_eq, talk_send, talk_recv, Msg.render,
    Slate.deserializeUpgrade_toJson exponents_lawful, Outcome.expect_ok, Proc.pure_apply, talk_ret]
  decide +kernel

end MwBtcSwap
