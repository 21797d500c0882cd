import MwBtcSwap.Grin.Runs

/-! What `spend_coins` and `d_spend_coins` accept: the values of the inputs, their commitments, and the
slate of the peer. -/

namespace MwBtcSwap.Grin

open Schnorr Interaction Machine

variable {K P : Type} [CommRing K] [AddCommGroup P] [Module K P] [DecidableEq K] [DecidableEq P]

variable {L : GrinLib K P} {rand : SpendRand K} {inputs : List MWCoin}
  {fundValue timelock numOfOutputs numParticipants : ℕ} {r : SpendCoinsResult K P}

/-! ### Values -/

/-- The inputs pay for the fund value, the fee that the slate names and the change. -/
def Conserves (L : GrinLib K P) (inputs : List MWCoin) (fundValue : ℕ) (r : SpendCoinsResult K P) :
    Prop :=
  ∀ height, (inputs.map MWCoin.value).sum =
    fundValue + L.feeAt height r.slate.feeFields + r.changeCoin.elim 0 MWCoin.value

/-- The outputs of the transaction are that of the change coin, if there is one. -/
def ChangeListed (r : SpendCoinsResult K P) : Prop :=
  ∃ tx, r.slate.tx = some tx ∧
    tx.outputs.map (fun o => serializeCommitment o.commit) =
      (r.changeCoin.map MWCoin.commitment).toList

omit [DecidableEq K] in
/-- The change coin has the value, when that is positive. -/
theorem changeOutput_value {value : ℤ} {change : Option (Output × MWCoin)}
    (h : changeOutput L rand value = .ok change) :
    ((change.map Prod.snd).elim 0 MWCoin.value : ℕ) = value.toNat := by
  unfold changeOutput at h
  split at h
  · simp only [Outcome.bind_eq_ok, Outcome.pure_eq_ok, Except.ok.injEq] at h
    obtain ⟨commitment, -, rfl⟩ := h
    rfl
  · cases h
    show 0 = value.toNat
    omega

omit [DecidableEq K] in
/-- The change coin names the commitment of the only output. -/
theorem changeOutput_listed (hL : L.Lawful) {value : ℤ} {change : Option (Output × MWCoin)}
    (h : changeOutput L rand value = .ok change) :
    (changeOutputs L change).map (fun o => serializeCommitment o.commit) =
      ((change.map Prod.snd).map MWCoin.commitment).toList := by
  unfold changeOutput at h
  split at h
  · simp only [Outcome.bind_eq_ok, Outcome.pure_eq_ok, Except.ok.injEq] at h
    obtain ⟨commitment, -, rfl⟩ := h
    have hperm := hL.insertOutput_perm ⟨.plain, commitment, L.bulletProof value.toNat
      rand.changeCoinKey rand.rewNonce rand.prfNonce⟩ [] (by simp)
    show (L.insertOutput _ []).map _ = _
    rw [List.perm_singleton.mp hperm]
    rfl
  · cases h
    rfl

/-- `spend_coins` conserves value, and lists the change that it returns, exactly when the inputs cover
the fund value and the fee and their sum does not overflow. -/
theorem spendCoins_conserves_iff (hL : L.Lawful)
    (h : spendCoins L rand inputs fundValue timelock numOfOutputs numParticipants = .ok r) :
    Conserves L inputs fundValue r ∧ ChangeListed r ↔
      fundValue + L.txFee inputs.length numOfOutputs 1 ≤ (inputs.map MWCoin.value).sum ∧
        (inputs.map MWCoin.value).sum < 2 ^ 64 := by
  obtain ⟨inpval, coins, feeField, change, data, hsum, -, -, hfield, -, hinp, hfund, hfee, hchange,
    hcoin, hslate⟩ := spendCoins_eq_ok h
  have hlisted : ChangeListed r := by
    refine ⟨_, by rw [hslate], ?_⟩
    rw [hcoin]
    exact changeOutput_listed hL hchange
  have hvalue : r.changeCoin.elim 0 MWCoin.value =
      ((inpval : ℤ) - fundValue - L.txFee inputs.length numOfOutputs 1).toNat := by
    rw [hcoin]
    exact changeOutput_value hchange
  have hread : ∀ height, L.feeAt height r.slate.feeFields = L.txFee inputs.length numOfOutputs 1 := by
    intro height
    rw [hslate]
    exact hL.feeFields_read _ _ hfield height
  have hmod : inpval = (inputs.map MWCoin.value).sum % 2 ^ 64 := by
    rw [sumU64_eq] at hsum
    split at hsum
    · cases hsum
    · exact (Except.ok.inj hsum).symm
  simp only [Conserves, hread, hvalue, forall_const, hlisted, and_true]
  omega

/-- Two outputs, and inputs that leave a change. -/
theorem spendCoins_conserves_sample :
    ∃ r, spendCoins exponents sampleSpend [sampleCoin] 1012500000 0 2 2 = .ok r ∧
      Conserves exponents [sampleCoin] 1012500000 r ∧ ChangeListed r := by
  obtain ⟨r, hr⟩ : ∃ r, spendCoins exponents sampleSpend [sampleCoin] 1012500000 0 2 2 = .ok r :=
    Outcome.exists_ok (by decide +kernel)
  exact ⟨r, hr, (spendCoins_conserves_iff exponents_lawful hr).mpr (by decide)⟩

/-- One output, and inputs that do not pay for the fee: the value that the slate moves is not there. -/
theorem spendCoins_creates_value :
    ∃ r, spendCoins exponents sampleSpend [sampleCoin] 1990000000 0 1 2 = .ok r ∧
      ¬ (Conserves exponents [sampleCoin] 1990000000 r ∧ ChangeListed r) := by
  obtain ⟨r, hr, hvalue⟩ := Outcome.exists_of_returns
    (show (spendCoins exponents sampleSpend [sampleCoin] 1990000000 0 1 2).returns
      (fun r => decide (2000000000 < 1990000000 + exponents.feeAt 0 r.slate.feeFields)) = true by
      decide +kernel)
  refine ⟨r, hr, fun ⟨h, _⟩ => ?_⟩
  have hsum : 2000000000 = 1990000000 + exponents.feeAt 0 r.slate.feeFields +
      r.changeCoin.elim 0 MWCoin.value := h 0
  have hlt := of_decide_eq_true hvalue
  omega

/-! ### Commitments -/

/-- Coins with one commitment name it by one text. -/
def OneText (L : GrinLib K P) (inputs : List MWCoin) : Prop :=
  ∀ c ∈ inputs, ∀ c' ∈ inputs,
    deserializeCommitment L c.commitment = deserializeCommitment L c'.commitment →
      c.commitment = c'.commitment

/-- Every coin list with one text for each commitment is accepted or refused as the transaction would
be: the inputs of a returned transaction are distinct exactly when the coins name each commitment by one
text, and distinct commitments are never reported as duplicates. -/
theorem spendCoins_distinct_iff (hL : L.Lawful) {commitments : List Commitment}
    (hhex : inputs.mapM (fun c => deserializeCommitment L c.commitment) = .ok commitments) :
    (commitments.Nodup →
      spendCoins L rand inputs fundValue timelock numOfOutputs numParticipants ≠
        .error (.err "Spend coins function failed, duplicate input coins provided")) ∧
    ∀ r, spendCoins L rand inputs fundValue timelock numOfOutputs numParticipants = .ok r →
      ∃ tx, r.slate.tx = some tx ∧
        ((tx.inputs.map Input.commit).Nodup ↔ OneText L inputs) := by
  have hdecoded : commitments.map (fun c => (.ok c : Outcome Commitment)) =
      (inputs.map MWCoin.commitment).map (deserializeCommitment L) := by
    rw [List.map_map]
    exact Outcome.mapM_map_eq (fun c b hb => hb.symm) hhex
  have hnodup : (commitments.map id).Nodup ↔
      ((inputs.map MWCoin.commitment).map (deserializeCommitment L)).Nodup := nodup_decoded_iff hdecoded
  rw [List.map_id] at hnodup
  refine ⟨fun hdistinct h => ?_, fun r h => ?_⟩
  · have hdup : duplicateInputs inputs = false :=
      duplicateInputs_eq_false.mpr (List.Nodup.of_map _ (hnodup.mp hdistinct))
    rcases spendCoins_err h with ⟨h, -⟩ | ⟨h, -⟩ | ⟨h, -⟩ | ⟨-, h⟩
    · exact absurd h (by decide)
    · exact absurd h (by decide)
    · exact absurd h (by decide)
    · rw [hdup] at h
      cases h
  · obtain ⟨inpval, coins, feeField, change, data, -, -, hdup, -, hcoins, -, -, -, -, -, hslate⟩ :=
      spendCoins_eq_ok h
    have hperm := ((hL.sortInputs_perm (coins.map Prod.fst)).map Input.commit).nodup_iff
    refine ⟨_, by rw [hslate], ?_⟩
    show ((L.sortInputs (coins.map Prod.fst)).map Input.commit).Nodup ↔ _
    rw [hperm, List.map_map, Function.comp_def, nodup_decoded_iff (decoded_readInput hcoins),
      List.nodup_map_iff_inj_on (duplicateInputs_eq_false.mp hdup)]
    simp only [List.forall_mem_map]
    rfl

/-- A coin with its commitment in upper case digits. -/
def MWCoin.upper (coin : MWCoin) : MWCoin :=
  { coin with commitment := String.ofList (coin.commitment.toList.map Char.toUpper) }

/-- A second coin. -/
def sampleCoin₂ : MWCoin :=
  MWCoin.new exponents (exponents.commitOfPoint (exponents.pedersen 500000000 73)) 73 500000000

/-- Two coins are spent, each once, and are not reported as duplicates. -/
theorem spendCoins_distinct_sample :
    spendCoins exponents sampleSpend [sampleCoin, sampleCoin₂] 2100000000 0 2 2 ≠
        .error (.err "Spend coins function failed, duplicate input coins provided") ∧
      ∃ r tx, spendCoins exponents sampleSpend [sampleCoin, sampleCoin₂] 2100000000 0 2 2 = .ok r ∧
        r.slate.tx = some tx ∧ tx.inputs.length = 2 ∧ (tx.inputs.map Input.commit).Nodup := by
  have hhex : [sampleCoin, sampleCoin₂].mapM (fun c => deserializeCommitment exponents c.commitment) =
      .ok [sampleOpening.1.commit, exponents.commitOfPoint (exponents.pedersen 500000000 73)] := by
    decide +kernel
  obtain ⟨r, hr, htwo⟩ := Outcome.exists_of_returns
    (show (spendCoins exponents sampleSpend [sampleCoin, sampleCoin₂] 2100000000 0 2 2).returns
      (fun r => r.slate.tx.all fun tx => decide (tx.inputs.length = 2)) = true by decide +kernel)
  obtain ⟨hrefused, hreturned⟩ := spendCoins_distinct_iff exponents_lawful hhex
  obtain ⟨tx, htx, hnodup⟩ := hreturned r hr
  rw [htx] at htwo
  refine ⟨hrefused (by decide +kernel), r, tx, hr, htx, of_decide_eq_true htwo, hnodup.mpr ?_⟩
  show OneText exponents [sampleCoin, sampleCoin₂]
  unfold OneText
  decide +kernel

/-- One coin in two writings is spent twice. -/
theorem spendCoins_spends_twice :
    [sampleCoin, sampleCoin.upper].mapM (fun c => deserializeCommitment exponents c.commitment) =
        .ok [sampleOpening.1.commit, sampleOpening.1.commit] ∧
      ∃ r tx, spendCoins exponents sampleSpend [sampleCoin, sampleCoin.upper] 1012500000 0 2 2 = .ok r ∧
        r.slate.tx = some tx ∧ ¬ (tx.inputs.map Input.commit).Nodup := by
  refine ⟨by decide +kernel, ?_⟩
  obtain ⟨r, hr, htwice⟩ := Outcome.exists_of_returns
    (show (spendCoins exponents sampleSpend [sampleCoin, sampleCoin.upper] 1012500000 0 2 2).returns
      (fun r => r.slate.tx.any fun tx => decide (¬ (tx.inputs.map Input.commit).Nodup)) = true by
      decide +kernel)
  cases htx : r.slate.tx with
  | none =>
    rw [htx] at htwice
    cases htwice
  | some tx =>
    rw [htx] at htwice
    exact ⟨r, tx, hr, htx, of_decide_eq_true htwice⟩

/-! ### The slate of the peer -/

section Peer

variable {slate : Slate K P} {sigNonce : K}

/-- The transaction of a slate, or an empty one. -/
def Slate.preTx (slate : Slate K P) : Transaction K P := slate.tx.getD Transaction.empty

/-- The inputs have the commitments of the coins, in some order. -/
def SpendsCoins (L : GrinLib K P) (inputs : List MWCoin) (slate : Slate K P) : Prop :=
  (slate.preTx.inputs.map fun i => (.ok i.commit : Outcome Commitment)).Perm
    (inputs.map fun coin => deserializeCommitment L coin.commitment)

/-- The slate describes a kernel with the agreed lock height, or a plain one without a lock height. -/
def FeaturesAgreed (L : GrinLib K P) (slate : Slate K P) (timelock : ℕ) : Prop :=
  slate.txKernelFeatures L =
    .ok (if timelock = 0 then .plain slate.feeFields else .heightLocked slate.feeFields timelock)

/-- The pre-transaction that the parties agreed on. -/
structure Agreed (L : GrinLib K P) (inputs : List MWCoin) (slate : Slate K P)
    (fundValue timelock : ℕ) : Prop where
  amount : slate.amount = fundValue
  spends : SpendsCoins L inputs slate
  features : FeaturesAgreed L slate timelock

omit [CommRing K] [AddCommGroup P] [Module K P] [DecidableEq K] [DecidableEq P] in
theorem txKernelFeatures_plain {fee : FeeFields} :
    slate.txKernelFeatures L = .ok (.plain fee) ↔ slate.feeFields = fee ∧ slate.kernelFeatures = 0 := by
  unfold Slate.txKernelFeatures
  split <;> simp_all

omit [CommRing K] [AddCommGroup P] [Module K P] [DecidableEq K] [DecidableEq P] in
/-- A slate that needs a lock height and has no arguments panics, any other one is compared. -/
theorem validFeatures_eq :
    (timelock ≠ 0 ∧ slate.kernelFeatures = 2 ∧ slate.kernelFeaturesArgs = none ∧
        validFeatures slate timelock =
          .error (.panic "called `Option::unwrap()` on a `None` value")) ∨
      ¬ (timelock ≠ 0 ∧ slate.kernelFeatures = 2 ∧ slate.kernelFeaturesArgs = none) ∧
        ∃ b, validFeatures slate timelock = .ok b ∧ (b = true ↔ FeaturesAgreed L slate timelock) := by
  by_cases htime : timelock = 0
  · subst htime
    refine .inr ⟨by simp, decide (slate.kernelFeatures = 0), by simp [validFeatures], ?_⟩
    simp [FeaturesAgreed, txKernelFeatures_plain]
  · by_cases hkind : slate.kernelFeatures = 2
    · cases hargs : slate.kernelFeaturesArgs with
      | none =>
        refine .inl ⟨htime, hkind, rfl, ?_⟩
        rw [validFeatures, if_pos htime, if_pos hkind, hargs]
        rfl
      | some args =>
        refine .inr ⟨by simp, decide (args.lockHeight = timelock), ?_, ?_⟩
        · simp [validFeatures, htime, hkind, hargs]
        · cases args
          simp [FeaturesAgreed, htime, Slate.txKernelFeatures_heightLocked, hkind, hargs]
    · refine .inr ⟨by simp [hkind], false, by simp [validFeatures, htime, hkind], ?_⟩
      simp [FeaturesAgreed, htime, Slate.txKernelFeatures_heightLocked, hkind]

/-- The shares of the coins are readable, and together they are a key. -/
def SharesReadable (L : GrinLib K P) (inputs : List MWCoin) : Prop :=
  ∃ keys, inputs.mapM (fun coin => deserializeSecretKey L coin.blindingFactor) = .ok keys ∧
    keys.sum ≠ 0

/-- The end of `d_spend_coins`: the keys of the coins are read, and it takes part in round 1. -/
def shareKeys (L : GrinLib K P) (sigNonce : K) (inputs : List MWCoin) (slate : Slate K P) :
    Outcome (SpendCoinsResult K P) := do
  let keys ← inputs.mapM fun coin => deserializeSecretKey L coin.blindingFactor
  let finalKey ← Outcome.unwrap "Failed to calculate final blinding factor sum" (blindSum (-keys.sum))
  let slate ← Outcome.expect "Failed to complete round 1 on the senders turn"
    (slate.fillRound1 L finalKey sigNonce)
  return ⟨slate, finalKey, sigNonce, none⟩

/-- It returns when the shares are readable, and panics otherwise. -/
theorem shareKeys_returnsOnlyIf (hnonce : sigNonce ≠ 0) (c : Prop) :
    Outcome.ReturnsOnlyIf (shareKeys L sigNonce inputs slate) c ↔ c ∧ SharesReadable L inputs := by
  unfold shareKeys SharesReadable
  cases hkeys : inputs.mapM fun coin => deserializeSecretKey L coin.blindingFactor with
  | error e =>
    have hpanic : e.IsPanic := Outcome.failsOnly_mapM
      (fun coin => failsOnly_deserializeSecretKey trivial _) inputs e hkeys
    cases e with
    | err msg => exact hpanic.elim
    | panic msg => simp
  | ok keys =>
    by_cases hsum : keys.sum = 0
    · simp only [Outcome.ok_bind, blindSum, hsum, neg_zero, if_true, Outcome.unwrap, Outcome.error_bind,
        Outcome.returnsOnlyIf_panic, false_iff]
      rintro ⟨-, keys', hkeys', hne⟩
      cases hkeys'
      exact hne hsum
    · obtain ⟨S, hround⟩ : ∃ S, slate.fillRound1 L (-keys.sum) sigNonce = .ok S := by
        simp [Slate.fillRound1, Slate.addParticipantInfo, GrinLib.fromSecretKey, hsum, hnonce]
      simp [hround, hsum, blindSum]

/-- The tests of `d_spend_coins` and their order. -/
theorem dSpendCoins_tests :
    dSpendCoins L sigNonce inputs slate fundValue timelock = (do
      verifyOutputs L slate.preTx
      if slate.amount ≠ fundValue then .error (.err "Transaction amount found to be invalid")
      else if slate.preTx.inputs.length ≠ inputs.length then
        .error (.err "Inputs don't match with coins given in parameters")
      else do
        let valid ← validFeatures slate timelock
        if !valid then .error (.err "Transaction timelock is not setup correctly!")
        else shareKeys L sigNonce inputs slate) := by
  simp only [dSpendCoins, Outcome.throw_eq_error, Outcome.error_bind]
  rfl

/-- `d_spend_coins` returns only for the agreed pre-transaction, and else with an error, exactly when the
rangeproofs of the slate verify and, if the amount and the number of inputs are right, the slate has the
lock height that its kernel needs, and its inputs are the coins if its kernel is right. -/
theorem dSpendCoins_agreed_iff (hnonce : sigNonce ≠ 0) :
    Outcome.ReturnsOnlyIf (dSpendCoins L sigNonce inputs slate fundValue timelock)
        (Agreed L inputs slate fundValue timelock) ↔
      Proven L slate.preTx.outputs ∧
        (slate.amount = fundValue → slate.preTx.inputs.length = inputs.length →
          ¬ (timelock ≠ 0 ∧ slate.kernelFeatures = 2 ∧ slate.kernelFeaturesArgs = none) ∧
          (FeaturesAgreed L slate timelock →
            SpendsCoins L inputs slate ∧ SharesReadable L inputs)) := by
  rw [dSpendCoins_tests, verifyOutputs]
  by_cases hproven : Proven L slate.preTx.outputs
  · rw [if_pos (by simpa [Proven] using hproven), Outcome.ok_bind]
    by_cases hamount : slate.amount = fundValue
    · rw [if_neg (not_not.mpr hamount)]
      by_cases hlength : slate.preTx.inputs.length = inputs.length
      · rw [if_neg (not_not.mpr hlength)]
        simp only [hproven, hamount, hlength, true_and, forall_const]
        rcases @validFeatures_eq K P L timelock slate with
          ⟨htime, hkind, hargs, hvalid⟩ | ⟨hargs, b, hvalid, hb⟩
        · simp [hvalid, htime, hkind, hargs]
        · rw [hvalid, Outcome.ok_bind]
          cases b with
          | false =>
            have hfeatures : ¬ FeaturesAgreed L slate timelock := fun h => by cases hb.mpr h
            simp [hargs, hfeatures]
          | true =>
            have hfeatures : FeaturesAgreed L slate timelock := hb.mp rfl
            rw [if_neg (by decide), shareKeys_returnsOnlyIf hnonce]
            constructor
            · rintro ⟨hagreed, hshares⟩
              exact ⟨hargs, fun _ => ⟨hagreed.spends, hshares⟩⟩
            · rintro ⟨-, h⟩
              exact ⟨⟨hamount, (h hfeatures).1, hfeatures⟩, (h hfeatures).2⟩
      · simp [hproven, hlength]
    · simp [hproven, hamount]
  · rw [if_neg (by simpa [Proven] using hproven)]
    simp [hproven]

/-- The slate of an honest peer that spends the sample coin of both, locked to height 700000. -/
def samplePreTx (shareA shareB : Scalar) : Slate Scalar Scalar :=
  (sharedPlan exponents sampleSpend 1012500000 shareA shareB 1000000000 700000 ⟨12500000⟩).slate [] []
    (entries exponents [⟨-shareA - sampleSpend.offset, sampleSpend.sigNonce⟩] fun _ => none)

theorem dSpendCoins_agreed_sample :
    Outcome.ReturnsOnlyIf
      (dSpendCoins exponents 51 [sampleShared 31] (samplePreTx 21 31) 1000000000 700000)
      (Agreed exponents [sampleShared 31] (samplePreTx 21 31) 1000000000 700000) := by
  have hnonce : (51 : Scalar) ≠ 0 := by decide
  refine (dSpendCoins_agreed_iff hnonce).mpr ⟨proven_nil, fun _ _ => ⟨by decide, fun _ => ⟨?_, ?_⟩⟩⟩
  · have hcommits : [sampleShared 31].map (fun c => deserializeCommitment exponents c.commitment) =
        (samplePreTx 21 31).preTx.inputs.map fun i => .ok i.commit := by decide +kernel
    rw [SpendsCoins, hcommits]
  · exact ⟨[31], by decide +kernel, by decide⟩

/-- A slate that spends another coin in place of the shared one is accepted. -/
theorem dSpendCoins_other_coin :
    ∃ r, dSpendCoins exponents 51 [sampleShared 31] (samplePreTx 22 32) 1000000000 700000 = .ok r ∧
      ¬ Agreed exponents [sampleShared 31] (samplePreTx 22 32) 1000000000 700000 := by
  obtain ⟨r, hr⟩ : ∃ r,
      dSpendCoins exponents 51 [sampleShared 31] (samplePreTx 22 32) 1000000000 700000 = .ok r :=
    Outcome.exists_ok (by decide +kernel)
  refine ⟨r, hr, fun h => ?_⟩
  have hmem := h.spends.mem_iff.mp (List.mem_singleton_self _)
  revert hmem
  decide +kernel

end Peer

end MwBtcSwap.Grin
