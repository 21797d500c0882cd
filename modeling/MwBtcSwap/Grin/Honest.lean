import MwBtcSwap.Grin.Signers
import MwBtcSwap.Grin.Spend

/-! The functions of the Grin side on the slates of honest parties.  `Plan` is what a run agrees on;
the slates of a run differ in their outputs, their kernels and the entries of the signers, and each
function has an equation that says which of these it changes. -/

namespace MwBtcSwap.Grin

open Schnorr Interaction Machine

variable {K P : Type} [CommRing K] [AddCommGroup P] [Module K P] [DecidableEq K] [DecidableEq P]

variable {L : GrinLib K P}

/-! ### Texts -/

/-- The text of a secret key is read back, also that of 0. -/
theorem deserializeSecretKey_serialize (hL : L.Lawful) (k : K) :
    deserializeSecretKey L (serializeSecretKey L k) = .ok k := by
  have hzero : Hex.encode (List.replicate 32 0) = zeroKeyText := by decide
  by_cases hk : k = 0
  · subst hk
    rw [deserializeSecretKey, serializeSecretKey, hL.secret_zero, if_pos hzero]
  · have hne : serializeSecretKey L k ≠ zeroKeyText := by
      intro h
      have hbytes : some (L.secretToBytes k) = some (List.replicate 32 0) := by
        rw [← Hex.decode_encode, ← Hex.decode_encode, hzero, ← h]
        rfl
      have hread := hL.secret_codec k hk
      rw [Option.some.inj hbytes, hL.secret_zero_slice] at hread
      cases hread
    rw [deserializeSecretKey, if_neg hne]
    simp [serializeSecretKey, hL.secret_codec k hk]

omit [DecidableEq K] in
theorem deserializeCommitment_serialize (hL : L.Lawful) (p : P) :
    deserializeCommitment L (serializeCommitment (L.commitOfPoint p)) = .ok (L.commitOfPoint p) := by
  simp [deserializeCommitment, serializeCommitment, hL.commit_vec p]

omit [DecidableEq K] in
theorem deserializeGrinPubKey_serialize (hL : L.Lawful) {p : P} (hp : p ≠ 0) :
    deserializeGrinPubKey L (serializeGrinPublicKey L p) = .ok p := by
  simp [deserializeGrinPubKey, serializeGrinPublicKey, hL.pubKey_codec p hp]

/-- The text of a rangeproof context is read back, once both sums hold a share. -/
theorem fromText_toText (hL : L.Lawful) {ctx : MPBPContext K P} (ht1 : ctx.t1 ≠ 0) (ht2 : ctx.t2 ≠ 0)
    (hcommit : L.commitFromVec ctx.commit.bytes = ctx.commit) :
    MPBPContext.fromText L (ctx.toText L) = .ok ctx := by
  have hcom : deserializeCommitment L (serializeCommitment ctx.commit) = .ok ctx.commit := by
    simp [deserializeCommitment, serializeCommitment, hcommit]
  simp [MPBPContext.fromText, MPBPContext.toText, hL.ctx_json, deserializeSecretKey_serialize hL,
    deserializeGrinPubKey_serialize hL ht1, deserializeGrinPubKey_serialize hL ht2, hcom]

/-! ### Plans -/

/-- What the parties of a run agree on. -/
structure Plan (K : Type) where
  numParticipants : ℕ
  amount : ℕ
  fee : FeeFields
  timelock : ℕ
  offset : K
  inputs : List Input

namespace Plan

variable {p : Plan K} {outs : List Output} {kernels : List (TxKernel K P)}
  {data : List (ParticipantData K P)} {Z : List (Signer K)} {i : Signer K}
  {sig : Signer K → Option (Signature K P)}

/-- The features of the kernel, and so the signed message. -/
def features (p : Plan K) : KernelFeatures :=
  if p.timelock = 0 then .plain p.fee else .heightLocked p.fee p.timelock

/-- The transaction of a slate. -/
def tx (p : Plan K) (outs : List Output) (kernels : List (TxKernel K P)) : Transaction K P :=
  ⟨p.offset, p.inputs, outs, kernels⟩

/-- A slate of the run. -/
def slate (p : Plan K) (outs : List Output) (kernels : List (TxKernel K P))
    (data : List (ParticipantData K P)) : Slate K P where
  numParticipants := p.numParticipants
  tx := some (p.tx outs kernels)
  amount := p.amount
  feeFields := p.fee
  kernelFeatures := if p.timelock = 0 then 0 else 2
  offset := p.offset
  participantData := data
  kernelFeaturesArgs := if p.timelock = 0 then none else some ⟨p.timelock⟩

/-- The kernel of a slate that was read from the wire. -/
def wireKernel (L : GrinLib K P) (p : Plan K) (outs : List Output)
    (data : List (ParticipantData K P)) : TxKernel K P :=
  match txFromSlateV4 L (p.slate outs [] data).toV4 with
  | some tx => tx.kernels.headD (TxKernel.withFeatures p.features)
  | none => TxKernel.withFeatures p.features

section

omit [CommRing K] [AddCommGroup P] [Module K P] [DecidableEq K] [DecidableEq P]

@[simp] theorem slate_tx : (p.slate outs kernels data).tx = some (p.tx outs kernels) := rfl

@[simp] theorem slate_participantData : (p.slate outs kernels data).participantData = data := rfl

@[simp] theorem tx_outputs : (p.tx outs kernels).outputs = outs := rfl

@[simp] theorem tx_inputs : (p.tx outs kernels).inputs = p.inputs := rfl

@[simp] theorem slate_participants (h : p.numParticipants ≠ 0) :
    (p.slate outs kernels data).participants = p.numParticipants := by
  simp [Slate.participants, slate, h]

@[simp] theorem txKernelFeatures_slate :
    (p.slate outs kernels data).txKernelFeatures L = .ok p.features := by
  by_cases h : p.timelock = 0 <;> simp [Slate.txKernelFeatures, slate, features, h]

@[simp] theorem msgToSign_slate :
    (p.slate outs kernels data).msgToSign L = .ok p.features := txKernelFeatures_slate

end

omit [Module K P] [DecidableEq K] [DecidableEq P] in
@[simp] theorem updateKernel_slate :
    (p.slate outs kernels data).updateKernel L =
      .ok (p.slate outs [TxKernel.withFeatures p.features] data) := by
  simp only [Slate.updateKernel, Slate.txOrErr, slate_tx, Outcome.orErr_some, Outcome.ok_bind,
    txKernelFeatures_slate]
  rfl

omit [DecidableEq K] in
/-- What is read from the wire is the slate that was sent, with another kernel. -/
theorem deserializeUpgrade_slate (hL : L.Lawful) :
    Slate.deserializeUpgrade L ((p.slate outs kernels data).toJson L) =
      .ok (p.slate outs [p.wireKernel L outs data] data) := by
  have hins : ∀ l : List Input, (l.map Input.toV4).filterMap CommitsV4.input? = l ∧
      (l.map Input.toV4).filterMap CommitsV4.output? = [] := by
    intro l
    induction l with
    | nil => simp
    | cons a l ih => simpa [Input.toV4, CommitsV4.input?, CommitsV4.output?] using ih
  have houts : ∀ l : List Output, (l.map Output.toV4).filterMap CommitsV4.input? = [] ∧
      (l.map Output.toV4).filterMap CommitsV4.output? = l := by
    intro l
    induction l with
    | nil => simp
    | cons a l ih => simpa [Output.toV4, CommitsV4.input?, CommitsV4.output?] using ih
  simp only [Slate.deserializeUpgrade, Slate.toJson, hL.slate_json, Outcome.orErr_some,
    Outcome.ok_bind, Outcome.pure_eq_ok]
  simp [Slate.ofV4, Slate.toV4, txFromSlateV4, slate, tx, wireKernel, (hins _).1, (hins _).2,
    (houts _).1, (houts _).2]

omit [DecidableEq K] in
/-- The kernel that is read from the wire has no lock height. -/
theorem wireKernel_features : (p.wireKernel L outs data).features = .plain p.fee := by
  by_cases h : p.timelock = 0 <;>
    simp [wireKernel, txFromSlateV4, Slate.toV4, slate, SlateV4.txFeatures, h]

variable (outs kernels) in
/-- A new signer takes part in round 1. -/
theorem fillRound1_slate (hi : i.Usable) (h : ∀ j ∈ Z, ¬ j.Same L i) :
    (p.slate outs kernels (entries L Z fun _ => none)).fillRound1 L i.key i.nonce =
      .ok (p.slate outs kernels (entries L (Z ++ [i]) fun _ => none)) :=
  addParticipantInfo_entries rfl hi h

/-- The entries of signers of whom `done` have signed the kernel of the plan. -/
def signed (L : GrinLib K P) (p : Plan K) (Z done : List (Signer K)) : List (ParticipantData K P) :=
  entries L Z (signedBy L Z p.features done)

omit [DecidableEq P] in
theorem signed_nil : p.signed L Z [] = entries L Z fun _ => none := by rw [signed, signedBy_nil]

variable (outs kernels) in
/-- A signer takes part in round 2. -/
theorem fillRound2_slate (done : List (Signer K)) (hZ : Signable L Z) (hi : i ∈ Z)
    (hlen : Z.length ≤ p.numParticipants) :
    (p.slate outs kernels (p.signed L Z done)).fillRound2 L i.key i.nonce =
      .ok (p.slate outs kernels (p.signed L Z (i :: done))) := by
  have hpos : 0 < Z.length := List.length_pos_of_mem hi
  refine fillRound2_entries hZ rfl hi ?_ msgToSign_slate
  rwa [slate_participants (by omega)]

variable (outs) in
/-- Without a lock height, the kernel that is read from the wire is the one that all signers signed. -/
theorem wireKernel_signed (done : List (Signer K)) (hZ : Signable L Z) (hall : ∀ i ∈ Z, i ∈ done)
    (htime : p.timelock = 0) :
    p.wireKernel L outs (p.signed L Z done) = fullKernel L Z p.features := by
  have hfeatures : p.features = .plain p.fee := by simp [features, htime]
  have hdata : ((p.slate outs ([] : List (TxKernel K P)) (p.signed L Z done)).toV4.calcSlate).participantData
      = entries L Z (signedBy L Z p.features done) := rfl
  have hexcess : ((p.slate outs [] (p.signed L Z done)).toV4.calcSlate).calcExcess L =
      .ok (L.commitOfPoint (keySum L Z)) := by
    rw [Slate.calcExcess, pubBlindSum_entries hdata hZ.keys]
    rfl
  have hsig : ((p.slate outs [] (p.signed L Z done)).toV4.calcSlate).finalizeSignature L =
      .ok (fullSignature L Z p.features) :=
    finalizeSignature_entries hdata hZ.nonces hZ.keys (by rw [hfeatures]; rfl) hall
  have hcoms : (p.slate outs [] (p.signed L Z done)).toV4.coms =
      some (p.inputs.map Input.toV4 ++ outs.map Output.toV4) := rfl
  have htx : (p.slate outs [] (p.signed L Z done)).toV4.txFeatures = p.features := by
    simp [SlateV4.txFeatures, Slate.toV4, slate, htime, hfeatures]
  simp only [wireKernel, txFromSlateV4, hcoms, Option.map_some, hexcess, hsig, List.headD_cons, htx]
  rfl

omit [DecidableEq K] in
/-- The fee check passes when the fee covers the weight of the transaction. -/
theorem checkFees_slate (hL : L.Lawful) {fee : ℕ} {kernel : TxKernel K P}
    (hfee : L.feeFieldsNew fee = some p.fee) (hk : kernel.features = p.features)
    (hweight : L.txFee p.inputs.length outs.length 1 ≤ fee) (hamount : p.amount + fee < 2 ^ 64) :
    (p.slate outs [kernel] data).checkFees L = .ok () := by
  have hread := hL.feeFields_read fee p.fee hfee (2 * L.yearHeight)
  have hpaid : L.fee (2 * L.yearHeight) (p.tx outs [kernel]) = fee := by
    by_cases h : p.timelock = 0 <;>
      simp [GrinLib.fee, tx, GrinLib.kernelFee, hk, features, h, hread]
  have hpaid' : ¬ L.txFee p.inputs.length outs.length 1 > fee := by omega
  have hrecv : ¬ L.txFee p.inputs.length outs.length 1 > p.amount + fee := by omega
  have hsum : addU64 L.overflowChecks p.amount (L.feeAt (2 * L.yearHeight) p.fee) =
      .ok (p.amount + fee) := by
    rw [hread, addU64_of_lt hamount]
  simp only [Slate.checkFees, Slate.txOrErr, slate_tx, Outcome.orErr_some, Outcome.ok_bind, hpaid,
    tx_inputs, tx_outputs]
  simp only [slate, tx, List.length_singleton, hsum, Outcome.ok_bind, if_neg hpaid',
    Outcome.pure_eq_ok]
  exact if_neg hrecv

/-- A slate with a balanced transaction is finalized when all signers signed. -/
theorem finalize_slate (kernel : TxKernel K P) (done : List (Signer K)) (hL : L.Lawful)
    (hZ : Signable L Z) (hsigs : ∀ i ∈ Z, i ∈ done) {fee : ℕ}
    (hfee : L.feeFieldsNew fee = some p.fee) (hk : kernel.features = p.features)
    (hweight : L.txFee p.inputs.length outs.length 1 ≤ fee) (hamount : p.amount + fee < 2 ^ 64)
    (hvalid : L.validate (p.tx outs [fullKernel L Z p.features]) = true) :
    (p.slate outs [kernel] (p.signed L Z done)).finalize L =
      .ok (p.slate outs [fullKernel L Z p.features] (p.signed L Z done)) :=
  finalize_entries hL hZ rfl msgToSign_slate hsigs rfl rfl hk
    (checkFees_slate hL hfee hk hweight hamount) hvalid

end Plan

/-! ### Sums of commitments -/

/-- The commitments are points, with the given sum. -/
def PointSum (L : GrinLib K P) (coms : List Commitment) (p : P) : Prop :=
  ∃ ps, L.points coms = some ps ∧ ps.sum = p

omit [CommRing K] [Module K P] [DecidableEq K] [DecidableEq P] in
theorem pointSum_nil : PointSum L [] 0 := ⟨[], rfl, rfl⟩

section

omit [DecidableEq K]

theorem pointSum_cons (hL : L.Lawful) {p q : P} (hp : p ≠ 0) {coms : List Commitment}
    (h : PointSum L coms q) : PointSum L (L.commitOfPoint p :: coms) (p + q) := by
  obtain ⟨ps, hps, rfl⟩ := h
  refine ⟨p :: ps, ?_, List.sum_cons⟩
  simp only [GrinLib.points] at hps
  simp [GrinLib.points, hL.commit_codec p hp, hps]

omit [CommRing K] [Module K P] [DecidableEq P] in
/-- The order of the commitments does not matter. -/
theorem PointSum.perm {coms coms' : List Commitment} {p : P} (h : PointSum L coms p)
    (hperm : coms.Perm coms') : PointSum L coms' p := by
  induction hperm generalizing p with
  | nil => exact h
  | cons c _ ih =>
    obtain ⟨ps, hps, rfl⟩ := h
    simp only [GrinLib.points, List.mapM_cons, Option.bind_eq_bind, Option.bind_eq_some_iff] at hps
    obtain ⟨q, hq, qs, hqs, hps⟩ := hps
    cases hps
    obtain ⟨qs', hqs', hsum⟩ := ih ⟨qs, hqs, rfl⟩
    simp only [GrinLib.points] at hqs'
    exact ⟨q :: qs', by simp [GrinLib.points, hq, hqs'], by simp [hsum]⟩
  | swap c d _ =>
    obtain ⟨ps, hps, rfl⟩ := h
    simp only [GrinLib.points, List.mapM_cons, Option.bind_eq_bind, Option.bind_eq_some_iff] at hps
    obtain ⟨q, hq, _, ⟨r, hr, qs, hqs, hps'⟩, hps⟩ := hps
    cases hps'
    cases hps
    exact ⟨r :: q :: qs, by simp [GrinLib.points, hq, hr, hqs], by simp [add_left_comm]⟩
  | trans _ _ ih₁ ih₂ => exact ih₂ (ih₁ h)

/-- The kernel sums of a transaction, from the sums of its commitments. -/
theorem kernelSums_of_pointSum {tx : Transaction K P} {o i x : P}
    (ho : PointSum L (tx.outputs.map Output.commit) o)
    (hi : PointSum L (tx.inputs.map Input.commit) i)
    (hx : PointSum L (tx.kernels.map TxKernel.excess) x)
    (h : o - i + (L.fee 0 tx : K) • L.H = x + tx.offset • L.G) : L.kernelSums tx = true := by
  obtain ⟨os, hos, rfl⟩ := ho
  obtain ⟨is, his, rfl⟩ := hi
  obtain ⟨xs, hxs, rfl⟩ := hx
  simp [GrinLib.kernelSums, hos, his, hxs, h]

/-! ### Spending -/

theorem commit_of_ne {value : ℕ} {blind : K} (h : L.pedersen value blind ≠ 0) :
    L.commit value blind = some (L.commitOfPoint (L.pedersen value blind)) :=
  GrinLib.commit_eq_some.mpr ⟨h, rfl⟩

end

omit [AddCommGroup P] [Module K P] [DecidableEq K] [DecidableEq P] in
/-- Coins with different commitments are not reported as duplicates. -/
theorem duplicateInputs_of_nodup {inputs : List MWCoin} {coins : List (Input × K)}
    (hread : inputs.mapM (readInput L) = .ok coins)
    (hnodup : (coins.map fun c => c.1.commit).Nodup) : duplicateInputs inputs = false := by
  rw [nodup_decoded_iff (decoded_readInput hread)] at hnodup
  exact duplicateInputs_eq_false.mpr (List.Nodup.of_map _ hnodup)

/-- The change of a spending party. -/
def change (L : GrinLib K P) (rand : SpendRand K) (value : ℕ) : Option (Output × MWCoin) :=
  if 0 < value then
    some (⟨.plain, L.commitOfPoint (L.pedersen value rand.changeCoinKey),
        L.bulletProof value rand.changeCoinKey rand.rewNonce rand.prfNonce⟩,
      MWCoin.new L (L.commitOfPoint (L.pedersen value rand.changeCoinKey)) rand.changeCoinKey value)
  else none

/-- The key of a spending party: the change minus its inputs minus the offset. -/
def spendKey (rand : SpendRand K) (value : ℕ) (coins : List (Input × K)) : K :=
  (if 0 < value then rand.changeCoinKey else 0) - (coins.map Prod.snd).sum - rand.offset

/-- The plan that a spending party starts. -/
def spendPlan (L : GrinLib K P) (rand : SpendRand K) (coins : List (Input × K))
    (fee : FeeFields) (fundValue timelock numParticipants : ℕ) : Plan K :=
  ⟨numParticipants, fundValue, fee, timelock, rand.offset, L.sortInputs (coins.map Prod.fst)⟩

omit [AddCommGroup P] [Module K P] [DecidableEq K] [DecidableEq P] in
/-- The slate that `spend_coins` starts with. -/
theorem spendPlan_start {rand : SpendRand K} {coins : List (Input × K)} {ff : FeeFields}
    {fundValue timelock numParticipants : ℕ} {outs : List Output} (hnum : numParticipants ≠ 0) :
    ({ (Slate.blankWithKernelFeatures numParticipants
        (if (if timelock ≠ 0 then some timelock else none : Option ℕ).isSome then 2 else 0)
        (if timelock ≠ 0 then some timelock else none) : Slate K P) with
      feeFields := ff, amount := fundValue, offset := rand.offset,
      tx := some ⟨rand.offset, L.sortInputs (coins.map Prod.fst), outs, []⟩ } : Slate K P) =
      (spendPlan L rand coins ff fundValue timelock numParticipants).slate outs [] [] := by
  by_cases ht : timelock = 0 <;>
    simp [Slate.blankWithKernelFeatures, spendPlan, Plan.slate, Plan.tx, ht, hnum]

/-- `spend_coins` on coins that cover the fund value and the fee. -/
theorem spendCoins_eq (timelock numParticipants : ℕ) {rand : SpendRand K} {inputs : List MWCoin}
    {coins : List (Input × K)} {fundValue numOfOutputs fee value : ℕ} {ff : FeeFields}
    (hread : inputs.mapM (readInput L) = .ok coins) (hne : inputs ≠ [])
    (hnodup : (coins.map fun c => c.1.commit).Nodup) (hfund : 0 < fundValue)
    (hfee : fee = L.txFee inputs.length numOfOutputs 1) (hff : L.feeFieldsNew fee = some ff)
    (htotal : (inputs.map MWCoin.value).sum = fundValue + fee + value)
    (hlt : (inputs.map MWCoin.value).sum < 2 ^ 63) (hnum : numParticipants ≠ 0)
    (hchange : 0 < value → L.pedersen value rand.changeCoinKey ≠ 0)
    (hkey : (Signer.mk (spendKey rand value coins) rand.sigNonce).Usable) :
    spendCoins L rand inputs fundValue timelock numOfOutputs numParticipants =
      .ok ⟨(spendPlan L rand coins ff fundValue timelock numParticipants).slate
          (changeOutputs L (change L rand value)) []
          (entries L [⟨spendKey rand value coins, rand.sigNonce⟩] fun _ => none),
        spendKey rand value coins, rand.sigNonce, (change L rand value).map Prod.snd⟩ := by
  have hsum : sumU64 L.overflowChecks (inputs.map MWCoin.value) =
      .ok (inputs.map MWCoin.value).sum := sumU64_of_lt (by omega)
  have henough : notEnoughValue L numOfOutputs (inputs.map MWCoin.value).sum fundValue fee =
      .ok false := by
    unfold notEnoughValue
    split
    · rw [addU64_of_lt (by omega), Outcome.ok_bind]
      simp
      omega
    · simp
      omega
  have hchangeOut : changeOutput L rand
      (((inputs.map MWCoin.value).sum : ℤ) - fundValue - fee) = .ok (change L rand value) := by
    have hval : ((inputs.map MWCoin.value).sum : ℤ) - fundValue - fee = (value : ℤ) := by omega
    rw [hval]
    by_cases hpos : 0 < value
    · simp [changeOutput, change, hpos, commit_of_ne (hchange hpos)]
    · simp [changeOutput, change, hpos]
  have hisSome : (change L rand value).isSome = decide (0 < value) := by
    by_cases hpos : 0 < value <;> simp [change, hpos]
  have hround := Plan.fillRound1_slate (L := L) (Z := [])
    (p := spendPlan L rand coins ff fundValue timelock numParticipants)
    (changeOutputs L (change L rand value)) [] hkey (by simp)
  simp only [spendCoins, ← hfee, hsum, Outcome.ok_bind, List.isEmpty_iff, hne, if_false, hfund.ne',
    henough, Bool.false_eq_true, duplicateInputs_of_nodup hread hnodup, hff, Outcome.unwrap_some,
    hread, i64OfU64_of_lt hlt, i64OfU64_of_lt (a := fundValue) (by omega),
    i64OfU64_of_lt (a := fee) (by omega), hchangeOut, hisSome, decide_eq_true_eq]
  rw [← spendKey, spendPlan_start hnum]
  exact congrArg (fun x => Outcome.expect _ x >>= _) hround

section Functions

variable {p : Plan K} {outs : List Output} {kernels : List (TxKernel K P)} {Z : List (Signer K)}
  {i : Signer K} {sig : Signer K → Option (Signature K P)}

/-- Every output has a rangeproof that verifies. -/
def Proven (L : GrinLib K P) (outs : List Output) : Prop :=
  ∀ o ∈ outs, L.verifyBulletProof o.commit o.proof = true

omit [CommRing K] [AddCommGroup P] [Module K P] [DecidableEq K] [DecidableEq P] in
theorem proven_nil : Proven L [] := by simp [Proven]

omit [DecidableEq K] in
theorem Proven.insert (hL : L.Lawful) {o : Output} (ho : o.commit ∉ outs.map Output.commit)
    (hproof : L.verifyBulletProof o.commit o.proof = true) (h : Proven L outs) :
    Proven L (L.insertOutput o outs) := by
  intro a ha
  rcases List.mem_cons.mp ((hL.insertOutput_perm o outs ho).mem_iff.mp ha) with rfl | ha
  · exact hproof
  · exact h a ha

omit [DecidableEq K] in
theorem proven_changeOutputs (hL : L.Lawful) {rand : SpendRand K} {value : ℕ} (hlt : value < 2 ^ 64)
    (hchange : 0 < value → L.pedersen value rand.changeCoinKey ≠ 0) :
    Proven L (changeOutputs L (change L rand value)) := by
  by_cases hpos : 0 < value
  · simp only [change, if_pos hpos, changeOutputs]
    exact proven_nil.insert hL (by simp)
      (hL.bulletProof_verifies _ _ _ _ _ hlt (commit_of_ne (hchange hpos)))
  · simp [change, hpos, changeOutputs, proven_nil]

omit [CommRing K] [AddCommGroup P] [Module K P] [DecidableEq K] [DecidableEq P] in
theorem verifyOutputs_of_proven (h : Proven L outs) : verifyOutputs L (p.tx outs kernels) = .ok () := by
  simpa [verifyOutputs, Proven] using h

/-- `d_spend_coins` on the slate that the other party of a shared coin started. -/
theorem dSpendCoins_eq {coin : MWCoin} {blind : K} {fundValue timelock : ℕ} {sigNonce : K}
    (hblind : deserializeSecretKey L coin.blindingFactor = .ok blind) (houts : Proven L outs)
    (hamount : p.amount = fundValue) (hinputs : p.inputs.length = 1) (htime : p.timelock = timelock)
    (hi : (Signer.mk (-blind) sigNonce).Usable)
    (hnew : ∀ j ∈ Z, ¬ j.Same L ⟨-blind, sigNonce⟩) :
    dSpendCoins L sigNonce [coin] (p.slate outs kernels (entries L Z fun _ => none)) fundValue
        timelock =
      .ok ⟨p.slate outs kernels (entries L (Z ++ [⟨-blind, sigNonce⟩]) fun _ => none), -blind,
        sigNonce, none⟩ := by
  have hvalid : validFeatures (p.slate outs kernels (entries L Z fun _ => none)) timelock =
      .ok true := by
    subst htime
    by_cases ht : p.timelock = 0 <;> simp [validFeatures, Plan.slate, ht]
  have hround := Plan.fillRound1_slate (p := p) outs kernels hi hnew
  have hamount' : (p.slate outs kernels (entries L Z fun _ => none)).amount = fundValue := hamount
  have hsum : blindSum (-blind) = some (-blind) := if_neg hi.1
  simp [dSpendCoins, verifyOutputs_of_proven houts, hamount', hinputs, hvalid, hblind, hsum, hround]

/-- The output that a receiving party adds. -/
def recvOutput (L : GrinLib K P) (rand : RecvRand K) (fundValue : ℕ) : Output :=
  ⟨.plain, L.commitOfPoint (L.pedersen fundValue rand.outCoinKey),
    L.bulletProof fundValue rand.outCoinKey rand.rewNonce rand.prfNonce⟩

/-- The receiving party as a signer. -/
def recvSigner (rand : RecvRand K) : Signer K := ⟨rand.outCoinKey, rand.sigNonce⟩

/-- The coin of a receiving party. -/
def recvCoin (L : GrinLib K P) (rand : RecvRand K) (fundValue : ℕ) : MWCoin :=
  MWCoin.new L (L.commitOfPoint (L.pedersen fundValue rand.outCoinKey)) rand.outCoinKey fundValue

theorem addRecvOutput_eq {rand : RecvRand K} {fundValue : ℕ} (houts : Proven L outs)
    (hcommit : L.pedersen fundValue rand.outCoinKey ≠ 0) (hi : (recvSigner rand).Usable)
    (hnew : ∀ j ∈ Z, ¬ j.Same L (recvSigner rand)) :
    addRecvOutput L rand (p.slate outs kernels (entries L Z fun _ => none)) fundValue =
      .ok (p.slate (L.insertOutput (recvOutput L rand fundValue) outs)
          [TxKernel.withFeatures p.features] (entries L (Z ++ [recvSigner rand]) fun _ => none),
        L.commitOfPoint (L.pedersen fundValue rand.outCoinKey)) := by
  have hadd : ({ (p.slate outs kernels (entries L Z fun _ => none)) with
      tx := some ((p.tx outs kernels).withOutput L (recvOutput L rand fundValue)) } : Slate K P) =
      p.slate (L.insertOutput (recvOutput L rand fundValue) outs) kernels
        (entries L Z fun _ => none) := rfl
  have hround := Plan.fillRound1_slate (p := p)
    (L.insertOutput (recvOutput L rand fundValue) outs) [TxKernel.withFeatures p.features] hi hnew
  simp only [recvOutput] at hadd
  simp only [addRecvOutput, Plan.slate_tx, Option.getD_some, verifyOutputs_of_proven houts,
    Outcome.ok_bind, commit_of_ne hcommit, Outcome.unwrap_some, hadd, Plan.updateKernel_slate,
    Outcome.expect_ok]
  exact congrArg (fun x => Outcome.expect _ x >>= _) hround

variable (kernels) in
/-- `recv_coins`: the receiver adds its output and signs. -/
theorem recvCoins_eq {rand : RecvRand K} {fundValue : ℕ} (houts : Proven L outs)
    (hcommit : L.pedersen fundValue rand.outCoinKey ≠ 0)
    (hZ : Signable L (Z ++ [recvSigner rand]))
    (hlen : (Z ++ [recvSigner rand]).length ≤ p.numParticipants) :
    recvCoins L rand (p.slate outs kernels (entries L Z fun _ => none)) fundValue =
      .ok ⟨p.slate (L.insertOutput (recvOutput L rand fundValue) outs)
          [TxKernel.withFeatures p.features]
          (p.signed L (Z ++ [recvSigner rand]) [recvSigner rand]),
        recvCoin L rand fundValue⟩ := by
  have hnew : ∀ j ∈ Z, ¬ j.Same L (recvSigner rand) := fun j hj =>
    (List.pairwise_append.mp hZ.distinct).2.2 j hj _ (by simp)
  have hround := Plan.fillRound2_slate (p := p) (i := recvSigner rand)
    (L.insertOutput (recvOutput L rand fundValue) outs) [TxKernel.withFeatures p.features] [] hZ
    (by simp) hlen
  rw [Plan.signed_nil] at hround
  simp only [recvCoins, addRecvOutput_eq houts hcommit (hZ.usable _ (by simp)) hnew,
    Outcome.ok_bind]
  exact congrArg (fun x => Outcome.expect _ x >>= _) hround

/-- The signature of a signer with an extra secret. -/
def aptSignature (L : GrinLib K P) (Z : List (Signer K)) (msg : KernelFeatures) (i : Signer K)
    (x : K) : Signature K P :=
  L.signSingle msg i.key i.nonce (some x) (nonceSum L Z) (keySum L Z)

omit [DecidableEq K] [DecidableEq P] in
theorem aptSignature_valid {msg : KernelFeatures} {x : K} :
    Valid L.G (L.challenge (nonceSum L Z) (keySum L Z) msg) (i.key • L.G) (x • L.G)
      (aptSignature L Z msg i x) :=
  sign_valid _ _ _ _ _

variable (kernels) in
/-- `apt_recv_coins`: the receiver adds its output and stores the adapted signature. -/
theorem aptRecvCoins_eq {rand : RecvRand K} {fundValue : ℕ} {x : K} (houts : Proven L outs)
    (hcommit : L.pedersen fundValue rand.outCoinKey ≠ 0)
    (hZ : Signable L (Z ++ [recvSigner rand]))
    (hlen : (Z ++ [recvSigner rand]).length ≤ p.numParticipants) :
    aptRecvCoins L rand (p.slate outs kernels (entries L Z fun _ => none)) fundValue x =
      .ok ⟨p.slate (L.insertOutput (recvOutput L rand fundValue) outs)
          [TxKernel.withFeatures p.features]
          (entries L (Z ++ [recvSigner rand]) (Function.update (fun _ => none) (recvSigner rand)
            (some (aptSignature L (Z ++ [recvSigner rand]) p.features (recvSigner rand) x)))),
        recvCoin L rand fundValue,
        (aptSignature L (Z ++ [recvSigner rand]) p.features (recvSigner rand) x,
          signature L (Z ++ [recvSigner rand]) p.features (recvSigner rand))⟩ := by
  have hnew : ∀ j ∈ Z, ¬ j.Same L (recvSigner rand) := fun j hj =>
    (List.pairwise_append.mp hZ.distinct).2.2 j hj _ (by simp)
  have hpos : p.numParticipants ≠ 0 := by
    rw [List.length_append, List.length_singleton] at hlen
    omega
  have hstore := storeSig_entries (i := recvSigner rand) hZ
    (S := p.slate (L.insertOutput (recvOutput L rand fundValue) outs)
      [TxKernel.withFeatures p.features] (entries L (Z ++ [recvSigner rand]) fun _ => none))
    (s := aptSignature L (Z ++ [recvSigner rand]) p.features (recvSigner rand) x) rfl (by simp)
    (by rwa [Plan.slate_participants hpos])
  simp only [aptRecvCoins, addRecvOutput_eq houts hcommit (hZ.usable _ (by simp)) hnew,
    Outcome.ok_bind, pubNonceSum_entries Plan.slate_participantData hZ.nonces,
    pubBlindSum_entries Plan.slate_participantData hZ.keys, Plan.msgToSign_slate, Outcome.expect_ok]
  exact congrArg (fun x => Outcome.expect _ x >>= _) hstore

/-- A party of a shared output as a signer. -/
def drecvSigner (rand : DRecvRand K) : Signer K := ⟨rand.outCoinBlind, rand.sigNonce⟩

/-- The context after the first party's round 1. -/
def prfCtx1 (L : GrinLib K P) (a : DRecvRand K) (fundValue : ℕ) : MPBPContext K P where
  t1 := (L.bulletProofRound1 fundValue a.outCoinBlind a.sharedNonce a.prfNonce).1
  t2 := (L.bulletProofRound1 fundValue a.outCoinBlind a.sharedNonce a.prfNonce).2
  amount := fundValue
  sharedNonce := a.sharedNonce
  tauX := 0
  commit := L.commitOfPoint (L.pedersen fundValue a.outCoinBlind)

variable (kernels) in
/-- `drecv_coins_r1` -/
theorem drecvCoinsR1_eq {a : DRecvRand K} {fundValue : ℕ} (houts : Proven L outs)
    (hcommit : L.pedersen fundValue a.outCoinBlind ≠ 0) (ha : (drecvSigner a).Usable)
    (hnew : ∀ j ∈ Z, ¬ j.Same L (drecvSigner a)) :
    drecvCoinsR1 L a (p.slate outs kernels (entries L Z fun _ => none)) fundValue =
      .ok ⟨p.slate outs kernels (entries L (Z ++ [drecvSigner a]) fun _ => none), a.outCoinBlind,
        a.sigNonce, a.prfNonce, prfCtx1 L a fundValue⟩ := by
  have hround : (p.slate outs kernels (entries L Z fun _ => none)).fillRound1 L a.outCoinBlind
      a.sigNonce = .ok (p.slate outs kernels (entries L (Z ++ [drecvSigner a]) fun _ => none)) :=
    Plan.fillRound1_slate _ _ ha hnew
  simp [drecvCoinsR1, verifyOutputs_of_proven houts, hround, commit_of_ne hcommit,
    mpBulletProofR1, MPBPContext.new, MPBPContext.addShare, prfCtx1]

/-- The commitment of the shared coin, as a point. -/
def sharedPoint (L : GrinLib K P) (a b : DRecvRand K) (fundValue : ℕ) : P :=
  L.pedersen fundValue (a.outCoinBlind + b.outCoinBlind)

/-- The context after the second party's rounds. -/
def prfCtx2 (L : GrinLib K P) (a b : DRecvRand K) (fundValue : ℕ) : MPBPContext K P where
  t1 := L.jointT1 fundValue a.outCoinBlind b.outCoinBlind a.sharedNonce a.prfNonce b.prfNonce
  t2 := L.jointT2 fundValue a.outCoinBlind b.outCoinBlind a.sharedNonce a.prfNonce b.prfNonce
  amount := fundValue
  sharedNonce := a.sharedNonce
  tauX := L.bulletProofRound2 fundValue b.outCoinBlind a.sharedNonce
    (L.jointT1 fundValue a.outCoinBlind b.outCoinBlind a.sharedNonce a.prfNonce b.prfNonce)
    (L.jointT2 fundValue a.outCoinBlind b.outCoinBlind a.sharedNonce a.prfNonce b.prfNonce)
    (L.commitOfPoint (sharedPoint L a b fundValue)) b.prfNonce
  commit := L.commitOfPoint (sharedPoint L a b fundValue)

/-- The keys of a two-party rangeproof for which the library adds up its parts. -/
structure Provable (L : GrinLib K P) (a b : DRecvRand K) (fundValue : ℕ) : Prop where
  fund : L.pedersen fundValue a.outCoinBlind ≠ 0
  blind : L.pedersen 0 b.outCoinBlind ≠ 0
  shared : sharedPoint L a b fundValue ≠ 0
  first1 : (prfCtx1 L a fundValue).t1 ≠ 0
  first2 : (prfCtx1 L a fundValue).t2 ≠ 0
  joint1 : (prfCtx2 L a b fundValue).t1 ≠ 0
  joint2 : (prfCtx2 L a b fundValue).t2 ≠ 0
  tau : (prfCtx2 L a b fundValue).tauX ≠ 0
  jointTau : L.jointTau fundValue a.outCoinBlind b.outCoinBlind a.sharedNonce a.prfNonce b.prfNonce
    (L.commitOfPoint (sharedPoint L a b fundValue)) ≠ 0

omit [DecidableEq K] [DecidableEq P] in
theorem pedersen_add (v w : ℕ) (a b : K) :
    L.pedersen v a + L.pedersen w b = L.pedersen (v + w) (a + b) := by
  simp only [GrinLib.pedersen, Nat.cast_add, add_smul]
  abel

variable (kernels) in
/-- `drecv_coins_r2`: the second party adds its share of the coin and of the proof, and signs. -/
theorem drecvCoinsR2_eq (hL : L.Lawful) {a b : DRecvRand K} {fundValue : ℕ} (houts : Proven L outs)
    (h : Provable L a b fundValue) (hZ : Signable L (Z ++ [drecvSigner b]))
    (hlen : (Z ++ [drecvSigner b]).length ≤ p.numParticipants) :
    drecvCoinsR2 L b (p.slate outs kernels (entries L Z fun _ => none)) fundValue
        (prfCtx1 L a fundValue) =
      .ok (⟨p.slate outs kernels (p.signed L (Z ++ [drecvSigner b]) [drecvSigner b]),
        MWCoin.new L (L.commitOfPoint (sharedPoint L a b fundValue)) b.outCoinBlind fundValue⟩,
        prfCtx2 L a b fundValue) := by
  have hnew : ∀ j ∈ Z, ¬ j.Same L (drecvSigner b) := fun j hj =>
    (List.pairwise_append.mp hZ.distinct).2.2 j hj _ (by simp)
  have hsum : L.pedersen fundValue a.outCoinBlind + L.pedersen 0 b.outCoinBlind =
      sharedPoint L a b fundValue := by
    rw [pedersen_add, Nat.add_zero, sharedPoint]
  have hcommit : (prfCtx1 L a fundValue).addCommit L
      (L.commitOfPoint (L.pedersen 0 b.outCoinBlind)) =
      .ok { prfCtx1 L a fundValue with commit := L.commitOfPoint (sharedPoint L a b fundValue) } :=
    MPBPContext.addCommit_eq hL h.fund rfl (hL.commit_codec _ h.blind) hsum h.shared
  have hR1 : mpBulletProofR1 L
      { prfCtx1 L a fundValue with commit := L.commitOfPoint (sharedPoint L a b fundValue) }
      b.outCoinBlind b.prfNonce = .ok { prfCtx2 L a b fundValue with tauX := 0 } :=
    mpBulletProofR1_eq rfl rfl h.joint1 h.joint2
  have hR2 : mpBulletProofR2 L { prfCtx2 L a b fundValue with tauX := 0 } b.outCoinBlind b.prfNonce =
      .ok (prfCtx2 L a b fundValue) := mpBulletProofR2_eq (zero_add _) h.tau
  have hround1 : (p.slate outs kernels (entries L Z fun _ => none)).fillRound1 L b.outCoinBlind
      b.sigNonce = .ok (p.slate outs kernels (entries L (Z ++ [drecvSigner b]) fun _ => none)) :=
    Plan.fillRound1_slate _ _ (hZ.usable _ (by simp)) hnew
  have hround2 := Plan.fillRound2_slate (p := p) (i := drecvSigner b) outs kernels [] hZ (by simp)
    hlen
  rw [Plan.signed_nil] at hround2
  simp only [drecvCoinsR2, Plan.slate_tx, Option.getD_some, verifyOutputs_of_proven houts,
    Outcome.ok_bind, commit_of_ne h.blind, Outcome.unwrap_some, hcommit, hR1, hR2, hround1,
    Outcome.expect_ok]
  exact congrArg (fun x => Outcome.expect _ x >>= _) hround2

variable (outs kernels) in
/-- `drecv_coins_r3`: the first party completes the proof, adds the shared output and signs. -/
theorem drecvCoinsR3_eq (done : List (Signer K)) {a b : DRecvRand K} {fundValue : ℕ}
    {proof : RangeProof}
    (h : Provable L a b fundValue)
    (hproof : L.bulletProofFinal fundValue a.outCoinBlind a.sharedNonce
      (L.jointTau fundValue a.outCoinBlind b.outCoinBlind a.sharedNonce a.prfNonce b.prfNonce
        (L.commitOfPoint (sharedPoint L a b fundValue)))
      (prfCtx2 L a b fundValue).t1 (prfCtx2 L a b fundValue).t2
      (L.commitOfPoint (sharedPoint L a b fundValue)) a.prfNonce = some proof)
    (hZ : Signable L Z) (ha : drecvSigner a ∈ Z) (hlen : Z.length ≤ p.numParticipants) :
    drecvCoinsR3 L (p.slate outs kernels (p.signed L Z done)) (prfCtx2 L a b fundValue)
        a.outCoinBlind a.prfNonce a.sigNonce =
      .ok ⟨p.slate
          (L.insertOutput ⟨.plain, L.commitOfPoint (sharedPoint L a b fundValue), proof⟩ outs)
          [TxKernel.withFeatures p.features] (p.signed L Z (drecvSigner a :: done)),
        MWCoin.new L (L.commitOfPoint (sharedPoint L a b fundValue)) a.outCoinBlind fundValue⟩ := by
  have hR2 : mpBulletProofR2 L (prfCtx2 L a b fundValue) a.outCoinBlind a.prfNonce =
      .ok { prfCtx2 L a b fundValue with
        tauX := L.jointTau fundValue a.outCoinBlind b.outCoinBlind a.sharedNonce a.prfNonce
          b.prfNonce (L.commitOfPoint (sharedPoint L a b fundValue)) } :=
    mpBulletProofR2_eq rfl h.jointTau
  have hfin : mpBulletProofFin L
      { prfCtx2 L a b fundValue with
        tauX := L.jointTau fundValue a.outCoinBlind b.outCoinBlind a.sharedNonce a.prfNonce
          b.prfNonce (L.commitOfPoint (sharedPoint L a b fundValue)) } a.outCoinBlind a.prfNonce =
      .ok proof := by
    simp only [mpBulletProofFin, Outcome.unwrap_eq_ok]
    exact hproof
  have hadd : ({ (p.slate outs kernels (p.signed L Z done)) with
      tx := some ((p.tx outs kernels).withOutput L
        ⟨.plain, L.commitOfPoint (sharedPoint L a b fundValue), proof⟩) } : Slate K P) =
      p.slate (L.insertOutput ⟨.plain, L.commitOfPoint (sharedPoint L a b fundValue), proof⟩ outs)
        kernels (p.signed L Z done) := rfl
  have hround : (p.slate
      (L.insertOutput ⟨.plain, L.commitOfPoint (sharedPoint L a b fundValue), proof⟩ outs) kernels
      (p.signed L Z done)).fillRound2 L a.outCoinBlind a.sigNonce = _ :=
    Plan.fillRound2_slate _ _ _ hZ ha hlen
  have hcom : (prfCtx2 L a b fundValue).commit =
      L.commitOfPoint (sharedPoint L a b fundValue) := rfl
  simp only [drecvCoinsR3, hR2, Outcome.expect_ok, Outcome.ok_bind, hfin, Plan.slate_tx,
    Outcome.unwrap_some]
  simp only [hcom, hadd, hround, Outcome.expect_ok, Outcome.ok_bind, Plan.updateKernel_slate]
  rfl

variable (kernels) in
/-- `fin_tx` without finalization adds a signature. -/
theorem finTx_sign (done : List (Signer K)) (houts : Proven L outs) (hZ : Signable L Z) (hi : i ∈ Z)
    (hlen : Z.length ≤ p.numParticipants) :
    finTx L (p.slate outs kernels (p.signed L Z done)) i.key i.nonce false none none =
      .ok (p.slate outs kernels (p.signed L Z (i :: done))) := by
  simp [finTx, verifyOutputs_of_proven houts, Plan.fillRound2_slate _ _ _ hZ hi hlen]

/-- `fin_tx` with the last signature finalizes a balanced transaction. -/
theorem finTx_finalize (kernel : TxKernel K P) (done : List (Signer K)) (hL : L.Lawful)
    (houts : Proven L outs)
    (hZ : Signable L Z) (hi : i ∈ Z) (hlen : Z.length ≤ p.numParticipants)
    (hall : ∀ j ∈ Z, j ∈ i :: done) {fee : ℕ}
    (hfee : L.feeFieldsNew fee = some p.fee) (hk : kernel.features = p.features)
    (hweight : L.txFee p.inputs.length outs.length 1 ≤ fee) (hamount : p.amount + fee < 2 ^ 64)
    (hvalid : L.validate (p.tx outs [fullKernel L Z p.features]) = true) :
    finTx L (p.slate outs [kernel] (p.signed L Z done)) i.key i.nonce true none none =
      .ok (p.slate outs [fullKernel L Z p.features] (p.signed L Z (i :: done))) := by
  simp [finTx, verifyOutputs_of_proven houts, Plan.fillRound2_slate _ _ _ hZ hi hlen,
    Plan.finalize_slate _ _ hL hZ hall hfee hk hweight hamount hvalid]

/-- The adapted branch of `fin_tx` verifies the signatures with the extra key and adds one. -/
theorem finTx_apt {pubX : P} (houts : Proven L outs) (hZ : Signable L Z) (hi : i ∈ Z)
    (hlen : Z.length ≤ p.numParticipants)
    (hsigs : ∀ i ∈ Z, ∀ s, sig i = some s →
      Valid L.G (L.challenge (nonceSum L Z) (keySum L Z) p.features) (i.key • L.G) pubX s) :
    finTx L (p.slate outs kernels (entries L Z sig)) i.key i.nonce false (some pubX) none =
      .ok (p.slate outs kernels
        (entries L Z (Function.update sig i (some (signature L Z p.features i))))) := by
  have hpos : 0 < Z.length := List.length_pos_of_mem hi
  have hverify : (entries L Z sig).forM
      (verifyAptSig L p.features (nonceSum L Z) (keySum L Z) pubX) = .ok () := by
    rw [Outcome.forM_eq_ok]
    intro e he
    obtain ⟨j, hj, rfl⟩ := List.mem_map.mp he
    exact verifyAptSig_eq_ok.mpr (hsigs j hj)
  have hstore := storeSig_entries (i := i) hZ
    (S := p.slate outs kernels (entries L Z sig)) (s := signature L Z p.features i) rfl hi
    (by rwa [Plan.slate_participants (by omega)])
  simp only [finTx, Plan.slate_tx, Outcome.unwrap_some, Outcome.ok_bind,
    verifyOutputs_of_proven houts, aptFinTx, pubNonceSum_entries Plan.slate_participantData hZ.nonces,
    pubBlindSum_entries Plan.slate_participantData hZ.keys, Plan.msgToSign_slate, Outcome.expect_ok,
    Plan.slate_participantData, hverify]
  rw [← signature, hstore]
  rfl

/-- The replacement of a signature changes the one entry that holds it. -/
theorem replaceSig_slate {oldSig newSig : Signature K P} (hZ : Z.Nodup) (hi : i ∈ Z)
    (hlen : Z.length ≤ p.numParticipants) (hold : ∀ j ∈ Z, sig j = some oldSig ↔ j = i) :
    replaceSig (p.slate outs kernels (entries L Z sig)) oldSig newSig =
      .ok (p.slate outs kernels (entries L Z (Function.update sig i (some newSig)))) := by
  have hpos : 0 < Z.length := List.length_pos_of_mem hi
  have hset := setPartSig_entries (L := L) (s := newSig)
    (fun e => decide (e.partSig = some oldSig)) hi hZ
    (fun j hj => decide_eq_true_iff.trans (hold j hj)) hlen
  simp only [replaceSig, Plan.slate_participants (p := p) (by omega), Plan.slate_participantData,
    hset]
  rfl

/-- `fin_tx` after a replacement. -/
theorem finTx_replace {oldSig newSig : Signature K P} {data data' : List (ParticipantData K P)}
    {secKey secNonce : K} {finalize : Bool}
    (h : replaceSig (p.slate outs kernels data) oldSig newSig = .ok (p.slate outs kernels data')) :
    finTx L (p.slate outs kernels data) secKey secNonce finalize none (some (oldSig, newSig)) =
      finTx L (p.slate outs kernels data') secKey secNonce finalize none none := by
  simp [finTx, h]

omit [DecidableEq K] in
/-- The transaction that all signers signed is valid when its sums balance. -/
theorem validate_tx (hL : L.Lawful) (hZ : Signable L Z) {fee : ℕ} {o i : P}
    (hbody : L.bodyOk (p.tx outs [fullKernel L Z p.features]) = true) (houts : Proven L outs)
    (hfee : L.feeFieldsNew fee = some p.fee) (ho : PointSum L (outs.map Output.commit) o)
    (hi : PointSum L (p.inputs.map Input.commit) i)
    (heq : o - i + (fee : K) • L.H = keySum L Z + p.offset • L.G) :
    L.validate (p.tx outs [fullKernel L Z p.features]) = true := by
  have hpaid : L.fee 0 (p.tx outs [fullKernel L Z p.features]) = fee := by
    have hread := hL.feeFields_read fee p.fee hfee 0
    by_cases h : p.timelock = 0 <;>
      simp [GrinLib.fee, Plan.tx, GrinLib.kernelFee, fullKernel, Plan.features, h, hread]
  have hexcess : PointSum L [L.commitOfPoint (keySum L Z)] (keySum L Z) := by
    simpa using pointSum_cons hL hZ.keys pointSum_nil
  have hsums : L.kernelSums (p.tx outs [fullKernel L Z p.features]) = true :=
    kernelSums_of_pointSum ho hi hexcess (by rw [hpaid]; exact heq)
  have hproofs : outs.all (fun o => L.verifyBulletProof o.commit o.proof) = true := by
    simpa [Proven] using houts
  simp only [GrinLib.validate, hbody, hsums, Plan.tx_outputs, hproofs, Bool.true_and, Bool.and_true]
  simp [Plan.tx, verifyKernel_fullKernel hL hZ.keys]

end Functions

end MwBtcSwap.Grin
