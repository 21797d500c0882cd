import MwBtcSwap.Grin.Exponents
import MwBtcSwap.Grin.Honest
import MwBtcSwap.Grin.Tx

/-! Honest runs of the protocols of `GrinTx`: two parties that follow them end with a valid
transaction. -/

namespace MwBtcSwap.Grin

open Schnorr Interaction Machine

variable {K P : Type} [CommRing K] [AddCommGroup P] [Module K P] [DecidableEq K] [DecidableEq P]

variable {L : GrinLib K P}

/-! ### Coins -/

/-- The coin is read as an input and a key that open its commitment. -/
def Opens (L : GrinLib K P) (coin : MWCoin) (d : Input × K) : Prop :=
  readInput L coin = .ok d ∧ d.1.commit = L.commitOfPoint (L.pedersen coin.value d.2) ∧
    L.pedersen coin.value d.2 ≠ 0

omit [DecidableEq K] [DecidableEq P] in
theorem mapM_of_opens {inp : List MWCoin} {coins : List (Input × K)}
    (h : List.Forall₂ (Opens L) inp coins) : inp.mapM (readInput L) = .ok coins := by
  induction h with
  | nil => rfl
  | cons hd _ ih => simp [hd.1, ih]

/-- A coin that a party made opens. -/
theorem opens_new (hL : L.Lawful) {value : ℕ} {key : K} (h : L.pedersen value key ≠ 0) :
    Opens L (MWCoin.new L (L.commitOfPoint (L.pedersen value key)) key value)
      (⟨.plain, L.commitOfPoint (L.pedersen value key)⟩, key) := by
  refine ⟨?_, rfl, h⟩
  simp [readInput, MWCoin.new, deserializeCommitment_serialize hL,
    deserializeSecretKey_serialize hL]

omit [DecidableEq K] in
/-- The commitments of coins add up to the commitment of their values and keys. -/
theorem pointSum_of_opens (hL : L.Lawful) {inp : List MWCoin} {coins : List (Input × K)}
    (h : List.Forall₂ (Opens L) inp coins) :
    PointSum L (coins.map fun d => d.1.commit)
      (L.pedersen (inp.map MWCoin.value).sum (coins.map Prod.snd).sum) := by
  induction h with
  | nil => simpa [GrinLib.pedersen] using pointSum_nil (L := L)
  | cons hd _ ih =>
    rw [List.map_cons, List.map_cons, List.map_cons, List.sum_cons, List.sum_cons, hd.2.1,
      ← pedersen_add]
    exact pointSum_cons hL hd.2.2 ih

/-- Input coins with different commitments that cover a fund value and a fee, with `value` left for
the change. -/
structure Funding (L : GrinLib K P) (inp : List MWCoin) (coins : List (Input × K))
    (fundValue fee value : ℕ) : Prop where
  opens : List.Forall₂ (Opens L) inp coins
  nonempty : inp ≠ []
  nodup : (coins.map fun c => c.1.commit).Nodup
  fund : 0 < fundValue
  total : (inp.map MWCoin.value).sum = fundValue + fee + value
  bound : (inp.map MWCoin.value).sum < 2 ^ 63

section Change

variable {rand : SpendRand K} {inp : List MWCoin} {coins : List (Input × K)}
  {fundValue timelock value numParticipants : ℕ} {ff : FeeFields}

section

omit [DecidableEq K]

/-- The change is the only other output. -/
theorem pointSum_changeOutputs (hL : L.Lawful)
    (hchange : 0 < value → L.pedersen value rand.changeCoinKey ≠ 0) :
    PointSum L ((changeOutputs L (change L rand value)).map Output.commit)
      (L.pedersen value (if 0 < value then rand.changeCoinKey else 0)) := by
  by_cases hpos : 0 < value
  · simp only [change, if_pos hpos, changeOutputs]
    refine PointSum.perm ?_ ((hL.insertOutput_perm _ [] (by simp)).map Output.commit).symm
    simpa using pointSum_cons hL (hchange hpos) pointSum_nil
  · have hzero : value = 0 := by omega
    simpa [change, changeOutputs, hzero, GrinLib.pedersen] using pointSum_nil (L := L)

theorem length_changeOutputs (rand : SpendRand K) (value : ℕ) (hL : L.Lawful) :
    (changeOutputs L (change L rand value)).length ≤ 1 := by
  by_cases hpos : 0 < value
  · simp only [change, if_pos hpos, changeOutputs]
    rw [(hL.insertOutput_perm _ [] (by simp)).length_eq]
    simp
  · simp [change, hpos, changeOutputs]

theorem pointSum_inputs (hL : L.Lawful) (hopens : List.Forall₂ (Opens L) inp coins) :
    PointSum L ((spendPlan L rand coins ff fundValue timelock numParticipants).inputs.map Input.commit)
      (L.pedersen (inp.map MWCoin.value).sum (coins.map Prod.snd).sum) := by
  apply PointSum.perm (pointSum_of_opens hL hopens)
  have hperm := (hL.sortInputs_perm (coins.map Prod.fst)).map Input.commit
  rw [List.map_map] at hperm
  exact hperm.symm

/-- With the change and one new output a transaction has at most the two outputs that its fee pays
for. -/
theorem txFee_outputs (hL : L.Lawful) (hopens : List.Forall₂ (Opens L) inp coins) {o : Output}
    (hfresh : o.commit ∉ (changeOutputs L (change L rand value)).map Output.commit) :
    L.txFee (spendPlan L rand coins ff fundValue timelock numParticipants).inputs.length
      (L.insertOutput o (changeOutputs L (change L rand value))).length 1 ≤
        L.txFee inp.length 2 1 := by
  have hins : (spendPlan L rand coins ff fundValue timelock numParticipants).inputs.length =
      inp.length := by
    rw [hopens.length_eq]
    simpa [spendPlan] using (hL.sortInputs_perm (coins.map Prod.fst)).length_eq
  have hnum : (L.insertOutput o (changeOutputs L (change L rand value))).length =
      (changeOutputs L (change L rand value)).length + 1 :=
    (hL.insertOutput_perm _ _ hfresh).length_eq
  have hone := length_changeOutputs rand value hL
  rw [hins, hnum]
  rcases Nat.le_one_iff_eq_zero_or_eq_one.mp hone with h0 | h1
  · rw [h0]
    exact hL.txFee_mono _ 1 _
  · rw [h1]

end

end Change

/-! ### The shared output -/

section SharedOut

variable {rand : SpendRand K} {a b : DRecvRand K} {inp : List MWCoin} {coins : List (Input × K)}
  {fundValue timelock value : ℕ} {ff : FeeFields}

/-- The three signers of a shared output: the spending key of the first party, and the shares of
both in the output. -/
def sharedOutSigners (rand : SpendRand K) (a b : DRecvRand K) (coins : List (Input × K))
    (value : ℕ) : List (Signer K) :=
  [⟨spendKey rand value coins, rand.sigNonce⟩, drecvSigner a, drecvSigner b]

/-- The choices of a run of the shared output for which the calls to the library succeed. -/
structure SharedOutKeys (L : GrinLib K P) (rand : SpendRand K) (a b : DRecvRand K)
    (coins : List (Input × K)) (numInputs fundValue timelock value : ℕ) (ff : FeeFields) :
    Prop where
  fee : L.feeFieldsNew (L.txFee numInputs 2 1) = some ff
  change : 0 < value → L.pedersen value rand.changeCoinKey ≠ 0
  provable : Provable L a b fundValue
  signable : Signable L (sharedOutSigners rand a b coins value)
  fresh : L.commitOfPoint (sharedPoint L a b fundValue) ∉
    (changeOutputs L (Grin.change L rand value)).map Output.commit
  body : ∀ proof, L.bodyOk ((spendPlan L rand coins ff fundValue timelock 3).tx
    (L.insertOutput ⟨.plain, L.commitOfPoint (sharedPoint L a b fundValue), proof⟩
      (changeOutputs L (Grin.change L rand value)))
    [fullKernel L (sharedOutSigners rand a b coins value)
      (spendPlan L rand coins ff fundValue timelock 3).features]) = true

omit [DecidableEq K] [DecidableEq P] in
/-- The sums of the funding transaction balance. -/
theorem sharedOut_balance {fee : ℕ} {total : ℕ} (htotal : total = fundValue + fee + value) :
    sharedPoint L a b fundValue + L.pedersen value (if 0 < value then rand.changeCoinKey else 0) -
        L.pedersen total (coins.map Prod.snd).sum + (fee : K) • L.H =
      keySum L (sharedOutSigners rand a b coins value) + rand.offset • L.G := by
  subst htotal
  simp only [keySum, sharedOutSigners, sharedPoint, spendKey, drecvSigner, GrinLib.pedersen,
    List.map_cons, List.map_nil, List.sum_cons, List.sum_nil, Nat.cast_add, add_smul, sub_smul]
  abel

/-- The outputs of the funding transaction: the shared output and the change. -/
def fundingOutputs (L : GrinLib K P) (rand : SpendRand K) (a b : DRecvRand K) (fundValue value : ℕ)
    (proof : RangeProof) : List Output :=
  L.insertOutput ⟨.plain, L.commitOfPoint (sharedPoint L a b fundValue), proof⟩
    (changeOutputs L (change L rand value))

omit [DecidableEq K] in
/-- The funding transaction is valid. -/
theorem sharedOut_validate (hL : L.Lawful)
    (hin : Funding L inp coins fundValue (L.txFee inp.length 2 1) value)
    (h : SharedOutKeys L rand a b coins inp.length fundValue timelock value ff) {proof : RangeProof}
    (hproof : Proven L (fundingOutputs L rand a b fundValue value proof)) :
    L.validate ((spendPlan L rand coins ff fundValue timelock 3).tx
      (fundingOutputs L rand a b fundValue value proof)
      [fullKernel L (sharedOutSigners rand a b coins value)
        (spendPlan L rand coins ff fundValue timelock 3).features]) = true := by
  have houts : PointSum L ((fundingOutputs L rand a b fundValue value proof).map Output.commit)
      (sharedPoint L a b fundValue +
        L.pedersen value (if 0 < value then rand.changeCoinKey else 0)) :=
    PointSum.perm (pointSum_cons hL h.provable.shared (pointSum_changeOutputs hL h.change))
      ((hL.insertOutput_perm ⟨.plain, L.commitOfPoint (sharedPoint L a b fundValue), proof⟩ _
        h.fresh).map Output.commit).symm
  exact validate_tx hL h.signable (h.body proof) hproof h.fee houts (pointSum_inputs hL hin.opens)
    (sharedOut_balance hin.total)

/-- The funding transaction that a run of the shared output builds. -/
def fundingTx (L : GrinLib K P) (rand : SpendRand K) (a b : DRecvRand K) (coins : List (Input × K))
    (fundValue timelock value : ℕ) (ff : FeeFields) (proof : RangeProof) : Transaction K P :=
  (spendPlan L rand coins ff fundValue timelock 3).tx
    (fundingOutputs L rand a b fundValue value proof)
    [fullKernel L (sharedOutSigners rand a b coins value)
      (spendPlan L rand coins ff fundValue timelock 3).features]

/-- A run of the shared output completes with its funding transaction. -/
theorem sharedOut_run {σ τ : Type} (s : σ) (s' : τ) (hL : L.Lawful)
    (hin : Funding L inp coins fundValue (L.txFee inp.length 2 1) value)
    (h : SharedOutKeys L rand a b coins inp.length fundValue timelock value ff) :
    ∃ proof r, talk L (dsharedOutMwTxAlice L rand a inp fundValue timelock s)
        (dsharedOutMwTxBob L b fundValue s') = some r ∧
      r.2.1.tx.tx = some (fundingTx L rand a b coins fundValue timelock value ff proof) ∧
      L.validate (fundingTx L rand a b coins fundValue timelock value ff proof) = true := by
  have htotal := hin.total
  have hlt := hin.bound
  obtain ⟨proof, hproof, hverify⟩ := hL.joint_verifies fundValue a.outCoinBlind b.outCoinBlind
    a.sharedNonce a.prfNonce b.prfNonce _ (by omega) (commit_of_ne h.provable.shared)
  have hread := mapM_of_opens hin.opens
  have hu := h.signable.usable
  have hd := h.signable.distinct
  simp only [sharedOutSigners, List.mem_cons, List.not_mem_nil, or_false, forall_eq_or_imp,
    forall_eq, List.pairwise_cons, List.Pairwise.nil, and_true] at hu hd
  have houts := proven_changeOutputs hL (by omega) h.change
  have houts' : Proven L (fundingOutputs L rand a b fundValue value proof) :=
    houts.insert hL h.fresh hverify
  have hlen : (sharedOutSigners rand a b coins value).length ≤
      (spendPlan L rand coins ff fundValue timelock 3).numParticipants := by
    simp [spendPlan, sharedOutSigners]
  have hweight : L.txFee (spendPlan L rand coins ff fundValue timelock 3).inputs.length
      (fundingOutputs L rand a b fundValue value proof).length 1 ≤ L.txFee inp.length 2 1 :=
    txFee_outputs hL hin.opens h.fresh
  have hspend := spendCoins_eq timelock 3 hread hin.nonempty hin.nodup
    hin.fund rfl h.fee htotal hlt (by omega) h.change hu.1
  have hr1 := drecvCoinsR1_eq (L := L) (a := a)
    (p := spendPlan L rand coins ff fundValue timelock 3)
    (Z := [⟨spendKey rand value coins, rand.sigNonce⟩]) [] houts h.provable.fund hu.2.1
    (by simpa using hd.1.1)
  have hctx1 : MPBPContext.fromText L ((prfCtx1 L a fundValue).toText L) =
      .ok (prfCtx1 L a fundValue) :=
    fromText_toText hL h.provable.first1 h.provable.first2 (hL.commit_vec _)
  have hctx2 : MPBPContext.fromText L ((prfCtx2 L a b fundValue).toText L) =
      .ok (prfCtx2 L a b fundValue) :=
    fromText_toText hL h.provable.joint1 h.provable.joint2 (hL.commit_vec _)
  have hr2 := fun kernels => drecvCoinsR2_eq (L := L) (a := a) (b := b)
    (p := spendPlan L rand coins ff fundValue timelock 3)
    (Z := [⟨spendKey rand value coins, rand.sigNonce⟩, drecvSigner a]) kernels hL houts h.provable
    h.signable hlen
  have hr3 := fun kernels => drecvCoinsR3_eq (L := L)
    (p := spendPlan L rand coins ff fundValue timelock 3)
    (changeOutputs L (change L rand value)) kernels [drecvSigner b] h.provable hproof h.signable
    (by simp [sharedOutSigners]) hlen
  have hfin := finTx_finalize (p := spendPlan L rand coins ff fundValue timelock 3)
    (i := ⟨spendKey rand value coins, rand.sigNonce⟩)
    (TxKernel.withFeatures (spendPlan L rand coins ff fundValue timelock 3).features)
    [drecvSigner a, drecvSigner b] hL houts' h.signable (by simp [sharedOutSigners]) hlen
    (by simp [sharedOutSigners]) h.fee rfl
    hweight (by simp only [spendPlan]; omega) (sharedOut_validate hL hin h houts')
  simp only [fundingOutputs, sharedOutSigners] at hfin hr3
  simp only [dsharedOutMwTxAlice, dsharedOutMwTxBob, receiveSlate, Proc.bind_apply, Prog.bind_assoc,
    hspend, Outcome.expect_ok, Proc.lift_ok, Prog.bind_ret, hr1, talk_send, Msg.render,
    Plan.deserializeUpgrade_slate hL, hctx1, List.cons_append, List.nil_append, hr2, talk_recv, hctx2,
    hr3, hfin, Proc.pure_apply, talk_ret, Option.map_some]
  exact ⟨proof, _, rfl, rfl, sharedOut_validate hL hin h houts'⟩

theorem sharedOut_completes {σ τ : Type} (s : σ) (s' : τ) (hL : L.Lawful)
    (hin : Funding L inp coins fundValue (L.txFee inp.length 2 1) value)
    (h : SharedOutKeys L rand a b coins inp.length fundValue timelock value ff) :
    ∃ r, talk L (dsharedOutMwTxAlice L rand a inp fundValue timelock s)
      (dsharedOutMwTxBob L b fundValue s') = some r := by
  obtain ⟨-, r, hr, -⟩ := sharedOut_run s s' hL hin h
  exact ⟨r, hr⟩

end SharedOut

/-! ### Spending a shared coin -/

section SharedInp

variable {rand : SpendRand K} {sigNonce : K} {recv : RecvRand K} {coinA coinB : MWCoin}
  {shareA shareB : K} {value fundValue timelock : ℕ} {ff : FeeFields}

/-- The input of a coin that two parties share. -/
def sharedInput (L : GrinLib K P) (value : ℕ) (shareA shareB : K) : Input :=
  ⟨.plain, L.commitOfPoint (L.pedersen value (shareA + shareB))⟩

/-- A coin that two parties share: both hold its commitment and a share of its blinding factor. -/
structure SharedCoin (L : GrinLib K P) (coinA coinB : MWCoin) (value : ℕ) (shareA shareB : K) :
    Prop where
  point : L.pedersen value (shareA + shareB) ≠ 0
  readA : readInput L coinA = .ok (sharedInput L value shareA shareB, shareA)
  readB : readInput L coinB = .ok (sharedInput L value shareA shareB, shareB)
  valueA : coinA.value = value

omit [DecidableEq K] [DecidableEq P] in
theorem SharedCoin.symm (h : SharedCoin L coinA coinB value shareA shareB) (hvalue : coinB.value = value) :
    SharedCoin L coinB coinA value shareB shareA := by
  have hinput : sharedInput L value shareB shareA = sharedInput L value shareA shareB := by
    rw [sharedInput, sharedInput, add_comm]
  exact ⟨by rw [add_comm]; exact h.point, by rw [hinput]; exact h.readB, by rw [hinput]; exact h.readA,
    hvalue⟩

/-- The halves of a shared coin, as the shared output records them, are a shared coin. -/
theorem sharedCoin_new (hL : L.Lawful) {value : ℕ} {shareA shareB : K}
    (h : L.pedersen value (shareA + shareB) ≠ 0) :
    SharedCoin L
      (MWCoin.new L (L.commitOfPoint (L.pedersen value (shareA + shareB))) shareA value)
      (MWCoin.new L (L.commitOfPoint (L.pedersen value (shareA + shareB))) shareB value) value
      shareA shareB := by
  have hread : ∀ share, readInput L
      (MWCoin.new L (L.commitOfPoint (L.pedersen value (shareA + shareB))) share value) =
      .ok (sharedInput L value shareA shareB, share) := by
    intro share
    simp [readInput, MWCoin.new, deserializeCommitment_serialize hL,
      deserializeSecretKey_serialize hL, sharedInput]
  exact ⟨h, hread shareA, hread shareB, rfl⟩

/-- A fund value that, with the fee, is the value of the coin. -/
structure SpendsAll (L : GrinLib K P) (value fundValue : ℕ) : Prop where
  positive : 0 < fundValue
  total : value = fundValue + L.txFee 1 1 1
  bound : value < 2 ^ 63

/-- The plan of a transaction that spends a shared coin. -/
def sharedPlan (L : GrinLib K P) (rand : SpendRand K) (value : ℕ) (shareA shareB : K)
    (fundValue timelock : ℕ) (ff : FeeFields) : Plan K :=
  spendPlan L rand [(sharedInput L value shareA shareB, shareA)] ff fundValue timelock 3

/-- The three signers of a shared input: the shares of both parties, and the output. -/
def sharedInpSigners (rand : SpendRand K) (sigNonce : K) (recv : RecvRand K) (shareA shareB : K) :
    List (Signer K) :=
  [⟨-shareA - rand.offset, rand.sigNonce⟩, ⟨-shareB, sigNonce⟩, recvSigner recv]

/-- The choices of a run that spends a shared coin for which the calls to the library succeed. -/
structure SharedInpKeys (L : GrinLib K P) (rand : SpendRand K) (sigNonce : K) (recv : RecvRand K)
    (value : ℕ) (shareA shareB : K) (fundValue timelock : ℕ) (ff : FeeFields) : Prop where
  fee : L.feeFieldsNew (L.txFee 1 1 1) = some ff
  output : L.pedersen fundValue recv.outCoinKey ≠ 0
  signable : Signable L (sharedInpSigners rand sigNonce recv shareA shareB)
  body : L.bodyOk ((sharedPlan L rand value shareA shareB fundValue timelock ff).tx
    [recvOutput L recv fundValue]
    [fullKernel L (sharedInpSigners rand sigNonce recv shareA shareB)
      (sharedPlan L rand value shareA shareB fundValue timelock ff).features]) = true

omit [DecidableEq K] in
theorem insertOutput_nil (hL : L.Lawful) (o : Output) : L.insertOutput o [] = [o] :=
  List.perm_singleton.mp (hL.insertOutput_perm o [] (by simp))

omit [DecidableEq K] in
theorem sharedPlan_inputs (hL : L.Lawful) :
    (sharedPlan L rand value shareA shareB fundValue timelock ff).inputs =
      [sharedInput L value shareA shareB] :=
  List.perm_singleton.mp (hL.sortInputs_perm [sharedInput L value shareA shareB])

/-- The first party starts with its share of the coin, and without change. -/
theorem sharedInp_spend (hcoin : SharedCoin L coinA coinB value shareA shareB)
    (hval : SpendsAll L value fundValue)
    (h : SharedInpKeys L rand sigNonce recv value shareA shareB fundValue timelock ff) :
    spendCoins L rand [coinA] fundValue timelock 1 3 =
      .ok ⟨(sharedPlan L rand value shareA shareB fundValue timelock ff).slate [] []
          (entries L [⟨-shareA - rand.offset, rand.sigNonce⟩] fun _ => none),
        -shareA - rand.offset, rand.sigNonce, none⟩ := by
  have htotal := hval.total
  have hbound := hval.bound
  have hkey : spendKey rand 0 [(sharedInput L value shareA shareB, shareA)] =
      -shareA - rand.offset := by
    simp [spendKey]
  have hread : [coinA].mapM (readInput L) = .ok [(sharedInput L value shareA shareB, shareA)] := by
    simp [hcoin.readA]
  have htotal' : ([coinA].map MWCoin.value).sum = fundValue + L.txFee 1 1 1 + 0 := by
    simp [hcoin.valueA, htotal]
  have hspend := spendCoins_eq timelock 3 hread (by simp) (by simp) hval.positive rfl h.fee htotal'
    (by simpa [hcoin.valueA] using hbound) (by omega) (by simp)
    (by rw [hkey]; exact h.signable.usable _ (by simp [sharedInpSigners]))
  rw [hkey] at hspend
  simpa [change, changeOutputs, sharedPlan] using hspend

omit [DecidableEq K] in
/-- The transaction that spends a shared coin is valid. -/
theorem sharedInp_validate (hL : L.Lawful) (hcoin : SharedCoin L coinA coinB value shareA shareB)
    (hval : SpendsAll L value fundValue)
    (h : SharedInpKeys L rand sigNonce recv value shareA shareB fundValue timelock ff)
    (hproof : Proven L [recvOutput L recv fundValue]) :
    L.validate ((sharedPlan L rand value shareA shareB fundValue timelock ff).tx
      [recvOutput L recv fundValue]
      [fullKernel L (sharedInpSigners rand sigNonce recv shareA shareB)
        (sharedPlan L rand value shareA shareB fundValue timelock ff).features]) = true := by
  have houts : PointSum L ([recvOutput L recv fundValue].map Output.commit)
      (L.pedersen fundValue recv.outCoinKey) := by
    simpa [recvOutput] using pointSum_cons hL h.output pointSum_nil
  have hins : PointSum L
      ((sharedPlan L rand value shareA shareB fundValue timelock ff).inputs.map Input.commit)
      (L.pedersen value (shareA + shareB)) := by
    rw [sharedPlan_inputs hL]
    simpa [sharedInput] using pointSum_cons hL hcoin.point pointSum_nil
  refine validate_tx hL h.signable h.body hproof h.fee houts hins ?_
  rw [hval.total]
  simp only [keySum, sharedInpSigners, recvSigner, GrinLib.pedersen, sharedPlan, spendPlan,
    List.map_cons, List.map_nil, List.sum_cons, List.sum_nil, Nat.cast_add, add_smul, sub_smul,
    neg_smul]
  abel

/-- The shared facts of the runs that spend a shared coin. -/
theorem sharedInp_facts (hL : L.Lawful) (hcoin : SharedCoin L coinA coinB value shareA shareB)
    (hval : SpendsAll L value fundValue)
    (h : SharedInpKeys L rand sigNonce recv value shareA shareB fundValue timelock ff) :
    Proven L [recvOutput L recv fundValue] ∧
      L.txFee (sharedPlan L rand value shareA shareB fundValue timelock ff).inputs.length
        [recvOutput L recv fundValue].length 1 ≤ L.txFee 1 1 1 ∧
      (sharedPlan L rand value shareA shareB fundValue timelock ff).amount + L.txFee 1 1 1 <
        2 ^ 64 ∧
      ∀ kernels, dSpendCoins L sigNonce [coinB]
        ((sharedPlan L rand value shareA shareB fundValue timelock ff).slate [] kernels
          (entries L [⟨-shareA - rand.offset, rand.sigNonce⟩] fun _ => none)) fundValue timelock =
        .ok ⟨(sharedPlan L rand value shareA shareB fundValue timelock ff).slate [] kernels
            (entries L [⟨-shareA - rand.offset, rand.sigNonce⟩, ⟨-shareB, sigNonce⟩] fun _ => none),
          -shareB, sigNonce, none⟩ := by
  have htotal := hval.total
  have hbound := hval.bound
  have hkeyB : deserializeSecretKey L coinB.blindingFactor = .ok shareB := by
    have hread := hcoin.readB
    simp only [readInput, Outcome.bind_eq_ok, Outcome.pure_eq_ok, Except.ok.injEq,
      Prod.mk.injEq] at hread
    obtain ⟨_, -, _, hkey, -, rfl⟩ := hread
    exact hkey
  have hd := h.signable.distinct
  simp only [sharedInpSigners, List.pairwise_cons, List.mem_cons, List.not_mem_nil, or_false,
    forall_eq_or_imp, forall_eq] at hd
  refine ⟨?_, ?_, ?_, fun kernels => ?_⟩
  · intro o ho
    rw [List.mem_singleton] at ho
    subst ho
    exact hL.bulletProof_verifies _ _ _ _ _ (by omega) (commit_of_ne h.output)
  · rw [sharedPlan_inputs hL]
    exact le_refl _
  · simp only [sharedPlan, spendPlan]
    omega
  · exact dSpendCoins_eq (Z := [⟨-shareA - rand.offset, rand.sigNonce⟩]) hkeyB proven_nil rfl
      (by rw [sharedPlan_inputs hL]; rfl) rfl (h.signable.usable _ (by simp [sharedInpSigners]))
      (by simpa using hd.1.1)

/-- A run of the shared input completes, with any lock height. -/
theorem sharedInp_completes {σ τ : Type} (s : σ) (s' : τ) (hL : L.Lawful)
    (hcoin : SharedCoin L coinA coinB value shareA shareB) (hval : SpendsAll L value fundValue)
    (h : SharedInpKeys L rand sigNonce recv value shareA shareB fundValue timelock ff) :
    ∃ r, talk L (dsharedInpMwTxAlice L rand coinA fundValue timelock s)
      (dsharedInpMwTxBob L sigNonce recv coinB fundValue timelock s') = some r := by
  obtain ⟨houts, hweight, hamount, hdspend⟩ := sharedInp_facts hL hcoin hval h
  have hspend := sharedInp_spend hcoin hval h
  have hrecv := fun kernels => recvCoins_eq (L := L)
    (p := sharedPlan L rand value shareA shareB fundValue timelock ff)
    (Z := [⟨-shareA - rand.offset, rand.sigNonce⟩, ⟨-shareB, sigNonce⟩]) kernels proven_nil h.output
    h.signable (by simp [sharedPlan, spendPlan])
  have hlen : (sharedInpSigners rand sigNonce recv shareA shareB).length ≤
      (sharedPlan L rand value shareA shareB fundValue timelock ff).numParticipants := by
    simp [sharedPlan, spendPlan, sharedInpSigners]
  have hsign := fun kernels => finTx_sign
    (p := sharedPlan L rand value shareA shareB fundValue timelock ff) (i := ⟨-shareB, sigNonce⟩)
    kernels [recvSigner recv] houts h.signable
    (by simp [sharedInpSigners]) hlen
  have hvalid := sharedInp_validate hL hcoin hval h houts
  have hfin := finTx_finalize (p := sharedPlan L rand value shareA shareB fundValue timelock ff)
    (i := ⟨-shareA - rand.offset, rand.sigNonce⟩)
    (TxKernel.withFeatures (sharedPlan L rand value shareA shareB fundValue timelock ff).features)
    [⟨-shareB, sigNonce⟩, recvSigner recv] hL houts h.signable
    (by simp [sharedInpSigners]) hlen (by simp [sharedInpSigners]) h.fee rfl hweight hamount hvalid
  have hfinB := Plan.finalize_slate
    (p := sharedPlan L rand value shareA shareB fundValue timelock ff)
    (TxKernel.withFeatures (sharedPlan L rand value shareA shareB fundValue timelock ff).features)
    (sharedInpSigners rand sigNonce recv shareA shareB) hL h.signable
    (by simp) h.fee rfl hweight hamount hvalid
  simp only [sharedInpSigners] at hsign hfin hfinB
  simp only [dsharedInpMwTxAlice, dsharedInpMwTxBob, receiveSlate, Proc.bind_apply, Prog.bind_assoc,
    hspend, Proc.lift_ok, Prog.bind_ret, talk_send, Msg.render, Plan.deserializeUpgrade_slate hL,
    Outcome.expect_ok, hdspend, hrecv, List.cons_append, List.nil_append, insertOutput_nil hL, hsign,
    talk_recv, Plan.updateKernel_slate, hfin, hfinB, Proc.pure_apply, talk_ret, Option.map_some]
  exact ⟨_, rfl⟩

end SharedInp

/-! ### The contract -/

section Contract

variable {rand : SpendRand K} {sigNonce : K} {recv : RecvRand K} {coinA coinB : MWCoin}
  {shareA shareB x : K} {value fundValue : ℕ} {ff : FeeFields}

/-- The choices of a run of the contract for which the calls to the library succeed and the adapted
signature is not also the first party's signature. -/
structure ContractKeys (L : GrinLib K P) (rand : SpendRand K) (sigNonce : K) (recv : RecvRand K)
    (value : ℕ) (shareA shareB : K) (fundValue : ℕ) (x : K) (ff : FeeFields) : Prop
    extends SharedInpKeys L rand sigNonce recv value shareA shareB fundValue 0 ff where
  secret : x ≠ 0
  aptScalar : (aptSignature L (sharedInpSigners rand sigNonce recv shareA shareB) (.plain ff)
    (recvSigner recv) x).s ≠ 0
  scalar : (signature L (sharedInpSigners rand sigNonce recv shareA shareB) (.plain ff)
    (recvSigner recv)).s ≠ 0
  unlike : signature L (sharedInpSigners rand sigNonce recv shareA shareB) (.plain ff)
      ⟨-shareA - rand.offset, rand.sigNonce⟩ ≠
    aptSignature L (sharedInpSigners rand sigNonce recv shareA shareB) (.plain ff)
      (recvSigner recv) x

/-- The signatures of the contract when only the adapted one is there. -/
def aptSigs (L : GrinLib K P) (rand : SpendRand K) (sigNonce : K) (recv : RecvRand K)
    (shareA shareB x : K) (ff : FeeFields) : Signer K → Option (Signature K P) :=
  Function.update (fun _ => none) (recvSigner recv)
    (some (aptSignature L (sharedInpSigners rand sigNonce recv shareA shareB) (.plain ff)
      (recvSigner recv) x))

/-- The signatures of the contract when the first party has added its own. -/
def aptSigs3 (L : GrinLib K P) (rand : SpendRand K) (sigNonce : K) (recv : RecvRand K)
    (shareA shareB x : K) (ff : FeeFields) : Signer K → Option (Signature K P) :=
  Function.update (aptSigs L rand sigNonce recv shareA shareB x ff)
    ⟨-shareA - rand.offset, rand.sigNonce⟩
    (some (signature L (sharedInpSigners rand sigNonce recv shareA shareB) (.plain ff)
      ⟨-shareA - rand.offset, rand.sigNonce⟩))

/-- The final slate of the contract. -/
def contractSlate (L : GrinLib K P) (rand : SpendRand K) (sigNonce : K) (recv : RecvRand K)
    (value : ℕ) (shareA shareB : K) (fundValue : ℕ) (ff : FeeFields) : Slate K P :=
  (sharedPlan L rand value shareA shareB fundValue 0 ff).slate [recvOutput L recv fundValue]
    [fullKernel L (sharedInpSigners rand sigNonce recv shareA shareB) (.plain ff)]
    (entries L (sharedInpSigners rand sigNonce recv shareA shareB)
      (signedBy L (sharedInpSigners rand sigNonce recv shareA shareB) (.plain ff)
        [⟨-shareB, sigNonce⟩, recvSigner recv, ⟨-shareA - rand.offset, rand.sigNonce⟩]))

/-- The four slates of the contract. -/
def contractMsgs (L : GrinLib K P) (rand : SpendRand K) (sigNonce : K) (recv : RecvRand K)
    (value : ℕ) (shareA shareB : K) (fundValue : ℕ) (x : K) (ff : FeeFields) : List (Msg K P) :=
  let p := sharedPlan L rand value shareA shareB fundValue 0 ff
  let Z := sharedInpSigners rand sigNonce recv shareA shareB
  let outs := [recvOutput L recv fundValue]
  let apt := entries L Z (aptSigs L rand sigNonce recv shareA shareB x ff)
  [.slate .contract .ptx (p.slate [] []
      (entries L [⟨-shareA - rand.offset, rand.sigNonce⟩] fun _ => none)),
    .slate .contract .ptx2 (p.slate outs [TxKernel.withFeatures (.plain ff)] apt),
    .slate .contract .ptx3 (p.slate outs [p.wireKernel L outs apt]
      (entries L Z (aptSigs3 L rand sigNonce recv shareA shareB x ff))),
    .slate .contract .tx (contractSlate L rand sigNonce recv value shareA shareB fundValue ff)]

section

omit [DecidableEq P]

/-- What the second party's replacement leaves are the signatures of the first party and of the
output. -/
theorem aptSigs_replaced (hne : (⟨-shareA - rand.offset, rand.sigNonce⟩ : Signer K) ≠ recvSigner recv) :
    Function.update (aptSigs3 L rand sigNonce recv shareA shareB x ff) (recvSigner recv)
        (some (signature L (sharedInpSigners rand sigNonce recv shareA shareB) (.plain ff)
          (recvSigner recv))) =
      signedBy L (sharedInpSigners rand sigNonce recv shareA shareB) (.plain ff)
        [recvSigner recv, ⟨-shareA - rand.offset, rand.sigNonce⟩] := by
  rw [aptSigs3, aptSigs, Function.update_comm hne, Function.update_idem, ← signedBy_nil (L := L),
    Function.update_comm hne.symm, update_signedBy, update_signedBy]

/-- The adapted signature is the only one, and it carries the extra key. -/
theorem aptSigs_valid
    (hA : (⟨-shareA - rand.offset, rand.sigNonce⟩ : Signer K) ≠ recvSigner recv)
    (hB : (⟨-shareB, sigNonce⟩ : Signer K) ≠ recvSigner recv) :
    ∀ i ∈ sharedInpSigners rand sigNonce recv shareA shareB, ∀ s,
      aptSigs L rand sigNonce recv shareA shareB x ff i = some s →
        Valid L.G (L.challenge (nonceSum L (sharedInpSigners rand sigNonce recv shareA shareB))
          (keySum L (sharedInpSigners rand sigNonce recv shareA shareB)) (.plain ff)) (i.key • L.G)
          (x • L.G) s := by
  intro i hi s hs
  simp only [sharedInpSigners, List.mem_cons, List.not_mem_nil, or_false] at hi
  rcases hi with rfl | rfl | rfl
  · simp [aptSigs, hA] at hs
  · simp [aptSigs, hB] at hs
  · simp only [aptSigs, Function.update_self, Option.some.injEq] at hs
    subst hs
    exact aptSignature_valid

/-- The adapted signature is held by the entry of the output alone. -/
theorem aptSigs3_iff
    (hA : ¬ (⟨-shareA - rand.offset, rand.sigNonce⟩ : Signer K) = ⟨-shareB, sigNonce⟩ ∧
      ¬ (⟨-shareA - rand.offset, rand.sigNonce⟩ : Signer K) = recvSigner recv)
    (hB : (⟨-shareB, sigNonce⟩ : Signer K) ≠ recvSigner recv)
    (hunlike : signature L (sharedInpSigners rand sigNonce recv shareA shareB) (.plain ff)
        ⟨-shareA - rand.offset, rand.sigNonce⟩ ≠
      aptSignature L (sharedInpSigners rand sigNonce recv shareA shareB) (.plain ff)
        (recvSigner recv) x) :
    ∀ i ∈ sharedInpSigners rand sigNonce recv shareA shareB,
      aptSigs3 L rand sigNonce recv shareA shareB x ff i =
        some (aptSignature L (sharedInpSigners rand sigNonce recv shareA shareB) (.plain ff)
          (recvSigner recv) x) ↔ i = recvSigner recv := by
  intro i hi
  simp only [sharedInpSigners, List.mem_cons, List.not_mem_nil, or_false] at hi
  rcases hi with rfl | rfl | rfl
  · simp only [aptSigs3, Function.update_self, Option.some.injEq, hA.2, iff_false]
    exact hunlike
  · rw [aptSigs3, Function.update_of_ne (Ne.symm hA.1), aptSigs, Function.update_of_ne hB]
    simp [hB]
  · rw [aptSigs3, Function.update_of_ne (Ne.symm hA.2), aptSigs, Function.update_self]
    simp

end

omit [DecidableEq K] [DecidableEq P] in
/-- The entries of the contract fit its slate. -/
theorem length_sharedInpSigners :
    (sharedInpSigners rand sigNonce recv shareA shareB).length ≤
      (sharedPlan L rand value shareA shareB fundValue 0 ff).numParticipants := by
  simp [sharedPlan, spendPlan, sharedInpSigners]

/-- The slate of the contract with the receiver's output and these signatures. -/
def aptSlate (L : GrinLib K P) (rand : SpendRand K) (sigNonce : K) (recv : RecvRand K) (value : ℕ)
    (shareA shareB : K) (fundValue : ℕ) (ff : FeeFields) (kernels : List (TxKernel K P))
    (sigs : Signer K → Option (Signature K P)) : Slate K P :=
  (sharedPlan L rand value shareA shareB fundValue 0 ff).slate [recvOutput L recv fundValue] kernels
    (entries L (sharedInpSigners rand sigNonce recv shareA shareB) sigs)

section Steps

variable (h : ContractKeys L rand sigNonce recv value shareA shareB fundValue x ff)

include h

/-- The second party's answer. -/
theorem contract_aptRecvCoins (hL : L.Lawful) (kernels : List (TxKernel K P)) :
    aptRecvCoins L recv
      ((sharedPlan L rand value shareA shareB fundValue 0 ff).slate [] kernels
        (entries L [⟨-shareA - rand.offset, rand.sigNonce⟩, ⟨-shareB, sigNonce⟩] fun _ => none))
      fundValue x =
      .ok ⟨aptSlate L rand sigNonce recv value shareA shareB fundValue ff
          [TxKernel.withFeatures (.plain ff)] (aptSigs L rand sigNonce recv shareA shareB x ff),
        recvCoin L recv fundValue,
        (aptSignature L (sharedInpSigners rand sigNonce recv shareA shareB) (.plain ff)
            (recvSigner recv) x,
          signature L (sharedInpSigners rand sigNonce recv shareA shareB) (.plain ff)
            (recvSigner recv))⟩ := by
  have hr := aptRecvCoins_eq (L := L) (x := x)
    (p := sharedPlan L rand value shareA shareB fundValue 0 ff)
    (Z := [⟨-shareA - rand.offset, rand.sigNonce⟩, ⟨-shareB, sigNonce⟩]) kernels proven_nil h.output
    h.signable (by simp [sharedPlan, spendPlan])
  rwa [insertOutput_nil hL] at hr

/-- The first party's check of the adapted signature, after which it adds its own. -/
theorem contract_finTx_apt (houts : Proven L [recvOutput L recv fundValue])
    (kernels : List (TxKernel K P)) :
    finTx L (aptSlate L rand sigNonce recv value shareA shareB fundValue ff kernels
        (aptSigs L rand sigNonce recv shareA shareB x ff))
      (-shareA - rand.offset) rand.sigNonce false (some (x • L.G)) none =
      .ok (aptSlate L rand sigNonce recv value shareA shareB fundValue ff kernels
        (aptSigs3 L rand sigNonce recv shareA shareB x ff)) := by
  have hnodup := h.signable.nodup
  simp only [sharedInpSigners, List.nodup_cons, List.mem_cons, List.not_mem_nil, or_false,
    not_or] at hnodup
  exact finTx_apt (i := ⟨-shareA - rand.offset, rand.sigNonce⟩) houts h.signable
    (by simp [sharedInpSigners]) length_sharedInpSigners (aptSigs_valid hnodup.1.2 hnodup.2.1)

/-- The replacement of the adapted signature. -/
theorem contract_replaceSig (kernels : List (TxKernel K P)) :
    replaceSig (aptSlate L rand sigNonce recv value shareA shareB fundValue ff kernels
        (aptSigs3 L rand sigNonce recv shareA shareB x ff))
      (aptSignature L (sharedInpSigners rand sigNonce recv shareA shareB) (.plain ff)
        (recvSigner recv) x)
      (signature L (sharedInpSigners rand sigNonce recv shareA shareB) (.plain ff)
        (recvSigner recv)) =
      .ok (aptSlate L rand sigNonce recv value shareA shareB fundValue ff kernels
        (signedBy L (sharedInpSigners rand sigNonce recv shareA shareB) (.plain ff)
          [recvSigner recv, ⟨-shareA - rand.offset, rand.sigNonce⟩])) := by
  have hnodup := h.signable.nodup
  simp only [sharedInpSigners, List.nodup_cons, List.mem_cons, List.not_mem_nil, or_false,
    not_or] at hnodup
  rw [← aptSigs_replaced hnodup.1.2]
  exact replaceSig_slate h.signable.nodup (i := recvSigner recv) (by simp [sharedInpSigners])
    length_sharedInpSigners (aptSigs3_iff hnodup.1 hnodup.2.1 h.unlike)

/-- The second party's replacement and finalization. -/
theorem contract_finTx_replace (hL : L.Lawful)
    (hcoin : SharedCoin L coinA coinB value shareA shareB) (hval : SpendsAll L value fundValue) :
    finTx L (aptSlate L rand sigNonce recv value shareA shareB fundValue ff
        [(sharedPlan L rand value shareA shareB fundValue 0 ff).wireKernel L
          [recvOutput L recv fundValue]
          (entries L (sharedInpSigners rand sigNonce recv shareA shareB)
            (aptSigs3 L rand sigNonce recv shareA shareB x ff))]
        (aptSigs3 L rand sigNonce recv shareA shareB x ff)) (-shareB) sigNonce true none
      (some (aptSignature L (sharedInpSigners rand sigNonce recv shareA shareB) (.plain ff)
          (recvSigner recv) x,
        signature L (sharedInpSigners rand sigNonce recv shareA shareB) (.plain ff)
          (recvSigner recv))) =
      .ok (contractSlate L rand sigNonce recv value shareA shareB fundValue ff) := by
  obtain ⟨houts, hweight, hamount, -⟩ := sharedInp_facts hL hcoin hval h.toSharedInpKeys
  refine (finTx_replace (contract_replaceSig h _)).trans ?_
  exact finTx_finalize (p := sharedPlan L rand value shareA shareB fundValue 0 ff)
    (i := ⟨-shareB, sigNonce⟩) _ _ hL houts h.signable (by simp [sharedInpSigners])
    length_sharedInpSigners (by simp [sharedInpSigners]) h.fee Plan.wireKernel_features hweight hamount
    (sharedInp_validate hL hcoin hval h.toSharedInpKeys houts)

/-- The final slate is read from the wire as it was sent. -/
theorem contract_wire (hL : L.Lawful) :
    Slate.deserializeUpgrade L
      ((contractSlate L rand sigNonce recv value shareA shareB fundValue ff).toJson L) =
      .ok (contractSlate L rand sigNonce recv value shareA shareB fundValue ff) := by
  have hk := Plan.wireKernel_signed (p := sharedPlan L rand value shareA shareB fundValue 0 ff)
    [recvOutput L recv fundValue]
    [⟨-shareB, sigNonce⟩, recvSigner recv, ⟨-shareA - rand.offset, rand.sigNonce⟩] h.signable
    (by simp [sharedInpSigners]) rfl
  have hfeatures : (sharedPlan L rand value shareA shareB fundValue 0 ff).features = .plain ff := rfl
  simp only [Plan.signed, hfeatures] at hk
  rw [contractSlate, Plan.deserializeUpgrade_slate hL, hk]

omit [DecidableEq P] in
/-- The witness is the difference of the two signatures of the output. -/
theorem contract_extWitness :
    extWitness (signature L (sharedInpSigners rand sigNonce recv shareA shareB) (.plain ff)
        (recvSigner recv))
      (aptSignature L (sharedInpSigners rand sigNonce recv shareA shareB) (.plain ff)
        (recvSigner recv) x) = .ok x := by
  have hsub := sign_sub_sign L.G
    (L.challenge (nonceSum L (sharedInpSigners rand sigNonce recv shareA shareB))
      (keySum L (sharedInpSigners rand sigNonce recv shareA shareB)) (.plain ff))
    (recvSigner recv).key (recvSigner recv).nonce x
  rw [sub_eq_add_neg] at hsub
  simp only [extWitness, sigExtractS, h.aptScalar, h.scalar, if_false, Outcome.ok_bind, addSecret]
  simp only [aptSignature, signature, GrinLib.signSingle, Option.getD_some, Option.getD_none, hsub,
    h.secret, if_false, Outcome.unwrap_some]

end Steps

omit [DecidableEq P] in
/-- Entry 2 of the second party's answer holds the adapted signature. -/
theorem slot2Sig_aptSlate (kernels : List (TxKernel K P)) :
    slot2Sig (aptSlate L rand sigNonce recv value shareA shareB fundValue ff kernels
        (aptSigs L rand sigNonce recv shareA shareB x ff)) =
      .ok (aptSignature L (sharedInpSigners rand sigNonce recv shareA shareB) (.plain ff)
        (recvSigner recv) x) := by
  simp [slot2Sig, aptSlate, Plan.slate, entries, sharedInpSigners, Signer.entry, aptSigs]

omit [DecidableEq P] in
/-- Entry 2 of the final slate holds the signature without the witness. -/
theorem slot2Sig_contractSlate :
    slot2Sig (contractSlate L rand sigNonce recv value shareA shareB fundValue ff) =
      .ok (signature L (sharedInpSigners rand sigNonce recv shareA shareB) (.plain ff)
        (recvSigner recv)) := by
  simp [slot2Sig, contractSlate, entries, sharedInpSigners, Signer.entry, signedBy]

/-- A run of the contract completes: its four slates, and what the parties return. -/
theorem contract_run {σ τ : Type} (s : σ) (s' : τ) (hL : L.Lawful)
    (hcoin : SharedCoin L coinA coinB value shareA shareB) (hval : SpendsAll L value fundValue)
    (h : ContractKeys L rand sigNonce recv value shareA shareB fundValue x ff) :
    talk L (dcontractMwTxAlice L rand coinA fundValue 0 (x • L.G) s)
        (dcontractMwTxBob L sigNonce recv coinB fundValue 0 x s') =
      some (contractMsgs L rand sigNonce recv value shareA shareB fundValue x ff,
        ⟨contractSlate L rand sigNonce recv value shareA shareB fundValue ff, none, x⟩,
        ⟨contractSlate L rand sigNonce recv value shareA shareB fundValue ff,
          some (recvCoin L recv fundValue), x⟩) := by
  obtain ⟨houts, hweight, hamount, hdspend⟩ := sharedInp_facts hL hcoin hval h.toSharedInpKeys
  have hspend := sharedInp_spend hcoin hval h.toSharedInpKeys
  have hwire : ∀ kernels sigs, Slate.deserializeUpgrade L
      ((aptSlate L rand sigNonce recv value shareA shareB fundValue ff kernels sigs).toJson L) =
      .ok (aptSlate L rand sigNonce recv value shareA shareB fundValue ff
        [(sharedPlan L rand value shareA shareB fundValue 0 ff).wireKernel L
          [recvOutput L recv fundValue]
          (entries L (sharedInpSigners rand sigNonce recv shareA shareB) sigs)] sigs) :=
    fun kernels sigs => Plan.deserializeUpgrade_slate hL
  simp only [dcontractMwTxAlice, dcontractMwTxBob, receiveSlate, Proc.bind_apply, Prog.bind_assoc,
    hspend, Proc.lift_ok, Prog.bind_ret, talk_send, Msg.render, Plan.deserializeUpgrade_slate hL,
    Outcome.expect_ok, hdspend, contract_aptRecvCoins h hL, hwire, talk_recv, slot2Sig_aptSlate,
    contract_finTx_apt h houts, contract_finTx_replace h hL hcoin hval, contract_wire h hL,
    slot2Sig_contractSlate, contract_extWitness h, Proc.pure_apply, talk_ret, Option.map_some]
  rfl

end Contract

/-! ### Sample choices

Keys and coins of the instance by exponents for which the calls to the library succeed: a coin of
2 Grin funds a shared coin of 1.0125 Grin, which is spent into 1 Grin. -/

section Sample

def sampleSpend : SpendRand Scalar := ⟨11, 12, 13, 14, 15⟩

def sampleShareA : DRecvRand Scalar := ⟨21, 22, 23, 24⟩

def sampleShareB : DRecvRand Scalar := ⟨31, 32, 33, 34⟩

def sampleRecv : RecvRand Scalar := ⟨41, 42, 43, 44⟩

def sampleCoin : MWCoin :=
  MWCoin.new exponents (exponents.commitOfPoint (exponents.pedersen 2000000000 71)) 71 2000000000

/-- What the sample coin is read as. -/
def sampleOpening : Input × Scalar :=
  (⟨.plain, exponents.commitOfPoint (exponents.pedersen 2000000000 71)⟩, 71)

/-- The sample shared coin, with a party's share. -/
def sampleShared (share : Scalar) : MWCoin :=
  MWCoin.new exponents (exponents.commitOfPoint (exponents.pedersen 1012500000 (21 + 31))) share
    1012500000

theorem sample_funding :
    Funding exponents [sampleCoin] [sampleOpening] 1012500000 23000000 964500000 where
  opens := .cons (opens_new exponents_lawful (by decide)) .nil
  nonempty := by simp
  nodup := by simp
  fund := by decide
  total := by decide
  bound := by decide

theorem sample_sharedOutKeys (timelock : ℕ) :
    SharedOutKeys exponents sampleSpend sampleShareA sampleShareB [sampleOpening] 1 1012500000 timelock
      964500000 ⟨23000000⟩ where
  fee := by decide
  change _ := by decide
  provable := ⟨by decide, by decide, by decide, by decide, by decide, by decide, by decide,
    by decide, by decide⟩
  signable := ⟨by decide, by decide, by decide, by decide⟩
  fresh := by decide +kernel
  body proof := by
    simp only [Plan.tx, exponents_bodyOk, exponents_insertOutput, spendPlan, List.length_singleton]
    decide +kernel

theorem sample_sharedCoin :
    SharedCoin exponents (sampleShared 21) (sampleShared 31) 1012500000 21 31 :=
  sharedCoin_new exponents_lawful (by decide)

theorem sample_spendsAll : SpendsAll exponents 1012500000 1000000000 :=
  ⟨by decide, by decide, by decide⟩

theorem sample_sharedInpKeys (timelock : ℕ) :
    SharedInpKeys exponents sampleSpend 51 sampleRecv 1012500000 21 31 1000000000 timelock
      ⟨12500000⟩ where
  fee := by decide
  output := by decide
  signable := ⟨by decide, by decide, by decide, by decide⟩
  body := by
    simp only [Plan.tx, exponents_bodyOk, sharedPlan, spendPlan, List.length_singleton]
    decide +kernel

theorem sample_contractKeys :
    ContractKeys exponents sampleSpend 51 sampleRecv 1012500000 21 31 1000000000 61
      ⟨12500000⟩ where
  toSharedInpKeys := sample_sharedInpKeys 0
  secret := by decide
  aptScalar := by decide +kernel
  scalar := by decide +kernel
  unlike := by decide +kernel

end Sample

end MwBtcSwap.Grin
