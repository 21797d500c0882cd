import MwBtcSwap.Grin.Library
import MwBtcSwap.Lib.Machine

/-! The functions of the wallet library on slates (`libwallet/src/slate.rs`): the two rounds of a
signature, the kernel, finalization, and the conversion to and from the wire form. -/

namespace MwBtcSwap.Grin

open Schnorr Interaction Machine

variable {K P : Type} [CommRing K] [AddCommGroup P] [Module K P] [DecidableEq K] [DecidableEq P]

/-- `TxKernel::with_features`: no excess and no signature yet. -/
def TxKernel.withFeatures (features : KernelFeatures) : TxKernel K P :=
  ⟨features, ⟨List.replicate 33 0⟩, ⟨0, 0⟩⟩

namespace Transaction

/-- `Transaction::empty` -/
def empty : Transaction K P := ⟨0, [], [], []⟩

/-- `Transaction::replace_kernel` -/
def replaceKernel (tx : Transaction K P) (k : TxKernel K P) : Transaction K P :=
  { tx with kernels := [k] }

/-- `Transaction::with_output` -/
def withOutput (L : GrinLib K P) (tx : Transaction K P) (o : Output) : Transaction K P :=
  { tx with outputs := L.insertOutput o tx.outputs }

end Transaction

namespace Slate

variable (L : GrinLib K P)

/-- `Slate::num_participants` -/
def participants (S : Slate K P) : ℕ := if S.numParticipants = 0 then 2 else S.numParticipants

/-- `Slate::blank_with_kernel_features` -/
def blankWithKernelFeatures (numParticipants kernelFeatParam : ℕ) (lockHeightParam : Option ℕ) :
    Slate K P :=
  let features := if kernelFeatParam > 3 then 0 else kernelFeatParam
  { numParticipants := if numParticipants = 0 then 2 else numParticipants
    tx := some Transaction.empty
    amount := 0
    feeFields := ⟨0⟩
    kernelFeatures := features
    offset := 0
    participantData := []
    kernelFeaturesArgs :=
      if features = 2 ∨ features = 3 then lockHeightParam.map KernelFeaturesArgs.mk else none }

/-- `Slate::blank` -/
def blank (numParticipants : ℕ) : Slate K P := blankWithKernelFeatures numParticipants 0 none

/-- `Slate::tx_or_err` -/
def txOrErr (S : Slate K P) : Outcome (Transaction K P) :=
  Outcome.orErr "SlateTransactionRequired" S.tx

/-- `Slate::kernel_features`: the features that the slate's flag, fee and arguments describe. -/
def txKernelFeatures (S : Slate K P) : Outcome KernelFeatures :=
  match S.kernelFeatures, S.kernelFeaturesArgs with
  | 0, _ => .ok (.plain S.feeFields)
  | 1, _ => .error (.err "InvalidKernelFeatures(1)")
  | 2, some a => .ok (.heightLocked S.feeFields a.lockHeight)
  | 2, none => .error (.err "KernelFeaturesMissing(lock_height)")
  | 3, some a =>
    if L.nrdRelativeHeight a.lockHeight then .ok (.noRecentDuplicate S.feeFields a.lockHeight)
    else .error (.err "InvalidNRDRelativeHeight")
  | 3, none => .error (.err "KernelFeaturesMissing(lock_height)")
  | _, _ => .error (.err "UnknownKernelFeatures")

/-- `Slate::msg_to_sign`: the signed message is that of the kernel features. -/
def msgToSign (S : Slate K P) : Outcome KernelFeatures := S.txKernelFeatures L

/-- `Slate::update_kernel` -/
def updateKernel (S : Slate K P) : Outcome (Slate K P) := do
  let tx ← S.txOrErr
  let features ← S.txKernelFeatures L
  return { S with tx := some (tx.replaceKernel (TxKernel.withFeatures features)) }

/-- `Slate::pub_nonce_sum` -/
def pubNonceSum (S : Slate K P) : Outcome P :=
  if S.participantData.isEmpty then .error (.err "Participant nonces cannot be empty")
  else Outcome.orErr "Secp" (fromCombination (S.participantData.map (·.publicNonce)))

/-- `Slate::pub_blind_sum` -/
def pubBlindSum (S : Slate K P) : Outcome P :=
  if S.participantData.isEmpty then .error (.err "Participant Blind sums cannot be empty")
  else Outcome.orErr "Secp" (fromCombination (S.participantData.map (·.publicBlindExcess)))

/-- `Slate::part_sigs` -/
def partSigs (S : Slate K P) : List (Signature K P) := S.participantData.filterMap (·.partSig)

/-- The signature that the entries of a list already hold for a key and a nonce, the first one. -/
def heldSig (pubKey pubNonce : P) : List (ParticipantData K P) → Option (Signature K P)
  | [] => none
  | v :: vs =>
    if v.publicNonce = pubNonce ∧ v.publicBlindExcess = pubKey then
      v.partSig.or (heldSig pubKey pubNonce vs)
    else heldSig pubKey pubNonce vs

/-- `Slate::add_participant_info`: an entry with the same key and nonce is moved to the end. -/
def addParticipantInfo (S : Slate K P) (secKey secNonce : K) : Outcome (Slate K P) := do
  let pubKey ← Outcome.orErr "Secp" (L.fromSecretKey secKey)
  let pubNonce ← Outcome.orErr "Secp" (L.fromSecretKey secNonce)
  let others := S.participantData.filter fun v =>
    v.publicNonce ≠ pubNonce ∨ v.publicBlindExcess ≠ pubKey
  return { S with participantData :=
    others ++ [⟨pubKey, pubNonce, heldSig pubKey pubNonce S.participantData⟩] }

/-- `Slate::fill_round_1` -/
def fillRound1 (S : Slate K P) (secKey secNonce : K) : Outcome (Slate K P) :=
  S.addParticipantInfo L secKey secNonce

/-- `Slate::verify_part_sigs` -/
def verifyPartSigs (S : Slate K P) : Outcome Unit :=
  S.participantData.forM fun p =>
    match p.partSig with
    | none => .ok ()
    | some sig => do
      let nonceSum ← S.pubNonceSum
      let blindSum ← S.pubBlindSum
      let msg ← S.msgToSign L
      if L.verifySingle sig msg nonceSum p.publicBlindExcess blindSum none then .ok ()
      else .error (.err "Signature error")

/-- Store a signature in the first of the first `n` entries that `mine` accepts.  An index past the
end of the list panics. -/
def setPartSig (mine : ParticipantData K P → Bool) (sig : Signature K P) :
    ℕ → List (ParticipantData K P) → Outcome (List (ParticipantData K P))
  | 0, ps => .ok ps
  | _ + 1, [] => .error (.panic "index out of bounds")
  | n + 1, p :: ps =>
    if mine p then .ok ({ p with partSig := some sig } :: ps)
    else do
      let rest ← setPartSig mine sig n ps
      return p :: rest

/-- The entry of a key and a nonce. -/
def isEntry (pubExcess pubNonce : P) (p : ParticipantData K P) : Bool :=
  p.publicBlindExcess = pubExcess && p.publicNonce = pubNonce

/-- Store a signature in the entry of a secret key and nonce. -/
def storeSig (S : Slate K P) (secKey secNonce : K) (sig : Signature K P) : Outcome (Slate K P) := do
  let pubExcess ← Outcome.orErr "Secp" (L.fromSecretKey secKey)
  let pubNonce ← Outcome.orErr "Secp" (L.fromSecretKey secNonce)
  let data ← setPartSig (isEntry pubExcess pubNonce) sig S.participants S.participantData
  return { S with participantData := data }

/-- `Slate::fill_round_2` -/
def fillRound2 (S : Slate K P) (secKey secNonce : K) : Outcome (Slate K P) := do
  S.verifyPartSigs L
  let nonceSum ← S.pubNonceSum
  let blindSum ← S.pubBlindSum
  let msg ← S.msgToSign L
  S.storeSig L secKey secNonce (L.signSingle msg secKey secNonce none nonceSum blindSum)

/-- `Slate::check_fees` -/
def checkFees (S : Slate K P) : Outcome Unit := do
  let tx ← S.txOrErr
  let fee := L.txFee tx.inputs.length tx.outputs.length tx.kernels.length
  let height := 2 * L.yearHeight
  let paid := L.fee height tx
  if fee > paid then throw (.err s!"Fee Dispute Error: {paid}, {fee}")
  let received ← addU64 L.overflowChecks S.amount (L.feeAt height S.feeFields)
  if fee > received then
    throw (.err "Rejected the transfer because transaction fee exceeds received amount")

/-- `Slate::finalize_signature` -/
def finalizeSignature (S : Slate K P) : Outcome (Signature K P) := do
  S.verifyPartSigs L
  let nonceSum ← S.pubNonceSum
  let finalPubkey ← S.pubBlindSum
  let finalSig := addSignatures S.partSigs nonceSum
  let msg ← S.msgToSign L
  if L.verifyCompletedSig finalSig finalPubkey msg then return finalSig
  else throw (.err "Signature error")

/-- `Slate::calc_excess` -/
def calcExcess (S : Slate K P) : Outcome Commitment := do
  let sum ← S.pubBlindSum
  return L.commitOfPoint sum

/-- A kernel is the one that a slate describes: it has its features, the sum of its keys as the excess, and
a signature under them with the sum of its nonces. -/
structure Describes (S : Slate K P) (k : TxKernel K P) : Prop where
  features : S.msgToSign L = .ok k.features
  excess : S.calcExcess L = .ok k.excess
  nonce : S.pubNonceSum = .ok k.excessSig.nonce
  verified : L.verifyKernel k = true

/-- `Slate::finalize_transaction` -/
def finalizeTransaction (S : Slate K P) (finalSig : Signature K P) : Outcome (Slate K P) := do
  S.checkFees L
  let finalExcess ← S.calcExcess L
  let tx ← S.txOrErr
  match tx.kernels with
  | [k] =>
    let finalTx := tx.replaceKernel { k with excess := finalExcess, excessSig := finalSig }
    if !L.verifyKernel { k with excess := finalExcess, excessSig := finalSig } then
      throw (.err "IncorrectSignature")
    if L.validate finalTx then return { S with tx := some finalTx }
    else throw (.err "Transaction")
  | _ => throw (.panic "assertion failed: final_tx.kernels().len() == 1")

/-- `Slate::finalize` -/
def finalize (S : Slate K P) : Outcome (Slate K P) := do
  let finalSig ← S.finalizeSignature L
  S.finalizeTransaction L finalSig

/-! ### What the functions leave -/

variable {L} {S S' : Slate K P}

section

omit [DecidableEq K]

/-- Keys have one secret, and so there is one kernel that a slate describes. -/
theorem Describes.unique {k k' : TxKernel K P} (hG : Function.Injective fun s : K => s • L.G)
    (h : S.Describes L k) (h' : S.Describes L k') : k = k' := by
  obtain ⟨features, excess, nonce, s⟩ := k
  obtain ⟨features', excess', nonce', s'⟩ := k'
  obtain rfl : features = features' := Except.ok.inj (h.features.symm.trans h'.features)
  obtain rfl : excess = excess' := Except.ok.inj (h.excess.symm.trans h'.excess)
  obtain rfl : nonce = nonce' := Except.ok.inj (h.nonce.symm.trans h'.nonce)
  have hverified := h.verified
  have hverified' := h'.verified
  unfold GrinLib.verifyKernel at hverified hverified'
  cases hpoint : L.pointOfCommit excess with
  | none => simp [hpoint] at hverified
  | some pubKey =>
    simp only [hpoint] at hverified hverified'
    have hs : s • L.G = s' • L.G := (of_decide_eq_true hverified).trans (of_decide_eq_true hverified').symm
    rw [hG hs]

omit [CommRing K] [AddCommGroup P] [Module K P] [DecidableEq P] in
/-- A slate describes a height locked kernel when its flag is 2 and its arguments give the height. -/
theorem txKernelFeatures_heightLocked {fee : FeeFields} {height : ℕ} :
    S.txKernelFeatures L = .ok (.heightLocked fee height) ↔
      S.feeFields = fee ∧ S.kernelFeatures = 2 ∧ S.kernelFeaturesArgs = some ⟨height⟩ := by
  unfold txKernelFeatures
  split
  · simp_all
  · simp_all
  · rename_i a h2 ha
    cases a
    simp [h2, ha]
  · simp_all
  · split <;> simp_all
  · simp_all
  · simp_all

omit [Module K P] [DecidableEq P] in
/-- `update_kernel` replaces the kernel by a blank one with the features of the slate. -/
theorem updateKernel_eq_ok :
    S.updateKernel L = .ok S' ↔ ∃ tx features, S.tx = some tx ∧ S.txKernelFeatures L = .ok features ∧
      S' = { S with tx := some (tx.replaceKernel (TxKernel.withFeatures features)) } := by
  simp only [updateKernel, txOrErr, Outcome.bind_eq_ok, Outcome.orErr_eq_ok, Outcome.pure_eq_ok,
    Except.ok.injEq]
  constructor
  · rintro ⟨tx, htx, features, hf, h⟩
    exact ⟨tx, features, htx, hf, h.symm⟩
  · rintro ⟨tx, features, htx, hf, h⟩
    exact ⟨tx, htx, features, hf, h.symm⟩

/-- `finalize_transaction` completes the single kernel of the transaction, and the result is a valid
transaction. -/
theorem finalizeTransaction_eq_ok {sig : Signature K P}
    (h : S.finalizeTransaction L sig = .ok S') :
    ∃ tx k excess, S.tx = some tx ∧ tx.kernels = [k] ∧ S.calcExcess L = .ok excess ∧
      S' = { S with tx := some (tx.replaceKernel { k with excess := excess, excessSig := sig }) } ∧
      L.verifyKernel { k with excess := excess, excessSig := sig } = true ∧
      L.validate (tx.replaceKernel { k with excess := excess, excessSig := sig }) = true := by
  simp only [finalizeTransaction, txOrErr, Outcome.bind_eq_ok, Outcome.orErr_eq_ok] at h
  obtain ⟨-, -, excess, he, tx, htx, h⟩ := h
  split at h
  · rename_i k hk
    cases hv : L.verifyKernel { k with excess := excess, excessSig := sig } with
    | false => simp [hv] at h
    | true =>
      simp only [hv, Bool.not_true, Bool.false_eq_true, if_false, Outcome.pure_eq_ok,
        Outcome.throw_eq_error, Outcome.ite_error_eq_ok] at h
      exact ⟨tx, k, excess, htx, hk, he, h.2.symm, hv, h.1⟩
  · cases h

/-- `finalize` returns a valid transaction with the inputs, outputs and kernel features that the slate
had. -/
theorem finalize_eq_ok (h : S.finalize L = .ok S') :
    ∃ tx k k', S.tx = some tx ∧ tx.kernels = [k] ∧ k'.features = k.features ∧
      S' = { S with tx := some (tx.replaceKernel k') } ∧ L.verifyKernel k' = true ∧
      L.validate (tx.replaceKernel k') = true := by
  simp only [finalize, Outcome.bind_eq_ok] at h
  obtain ⟨sig, -, h⟩ := h
  obtain ⟨tx, k, excess, htx, hk, -, hS, hv, hval⟩ := finalizeTransaction_eq_ok h
  exact ⟨tx, k, { k with excess := excess, excessSig := sig }, htx, hk, rfl, hS, hv, hval⟩

end

end Slate

/-! ### The wire form -/

/-- `OutputFeaturesV4` of `OutputFeatures`. -/
def OutputFeatures.toV4 : OutputFeatures → ℕ
  | plain => 0
  | coinbase => 1

/-- `OutputFeatures` of `OutputFeaturesV4`. -/
def OutputFeatures.ofV4 (f : ℕ) : OutputFeatures := if f = 1 then coinbase else plain

@[simp] theorem OutputFeatures.ofV4_toV4 (f : OutputFeatures) : ofV4 f.toV4 = f := by
  cases f <;> rfl

def Input.toV4 (i : Input) : CommitsV4 := ⟨i.features.toV4, i.commit, none⟩

def Output.toV4 (o : Output) : CommitsV4 := ⟨o.features.toV4, o.commit, some o.proof⟩

/-- The inputs among the commitments of a slate. -/
def CommitsV4.input? (c : CommitsV4) : Option Input :=
  match c.p with
  | some _ => none
  | none => some ⟨OutputFeatures.ofV4 c.f, c.c⟩

/-- The outputs among the commitments of a slate. -/
def CommitsV4.output? (c : CommitsV4) : Option Output :=
  c.p.map fun p => ⟨OutputFeatures.ofV4 c.f, c.c, p⟩

/-- `SlateV4::from` -/
def Slate.toV4 (S : Slate K P) : SlateV4 K P where
  numParts := S.numParticipants
  coms := S.tx.map fun tx => tx.inputs.map Input.toV4 ++ tx.outputs.map Output.toV4
  amt := S.amount
  fee := S.feeFields
  feat := S.kernelFeatures
  off := S.offset
  sigs := S.participantData
  featArgs := S.kernelFeaturesArgs

/-- The features that `tx_from_slate_v4` gives the kernel.  The flag of a height lock is 1 here and 2
in `Slate::kernel_features`. -/
def SlateV4.txFeatures (v : SlateV4 K P) : KernelFeatures :=
  if v.feat = 1 then .heightLocked v.fee ((v.featArgs.map (·.lockHeight)).getD 0) else .plain v.fee

/-- The slate of which `tx_from_slate_v4` computes the excess and the signature. -/
def SlateV4.calcSlate (v : SlateV4 K P) : Slate K P :=
  { Slate.blank 2 with feeFields := v.fee, participantData := v.sigs }

/-- `tx_from_slate_v4` -/
def txFromSlateV4 (L : GrinLib K P) (v : SlateV4 K P) : Option (Transaction K P) :=
  v.coms.map fun coms =>
    let excess := match v.calcSlate.calcExcess L with
      | .ok e => e
      | .error _ => L.commitFromVec [0]
    let excessSig := match v.calcSlate.finalizeSignature L with
      | .ok s => s
      | .error _ => ⟨0, 0⟩
    { offset := v.off
      inputs := coms.filterMap CommitsV4.input?
      outputs := coms.filterMap CommitsV4.output?
      kernels := [⟨v.txFeatures, excess, excessSig⟩] }

/-- `Slate::from` a wire slate. -/
def Slate.ofV4 (L : GrinLib K P) (v : SlateV4 K P) : Slate K P where
  numParticipants := v.numParts
  tx := txFromSlateV4 L v
  amount := v.amt
  feeFields := v.fee
  kernelFeatures := v.feat
  offset := v.off
  participantData := v.sigs
  kernelFeaturesArgs := v.featArgs

/-- `serde_json::to_string` of a slate. -/
def Slate.toJson (L : GrinLib K P) (S : Slate K P) : String := L.slateToJson S.toV4

/-- `Slate::deserialize_upgrade` -/
def Slate.deserializeUpgrade (L : GrinLib K P) (text : String) : Outcome (Slate K P) := do
  let v ← Outcome.orErr "SlateVersionParse" (L.slateFromJson text)
  return Slate.ofV4 L v

omit [DecidableEq K] in
/-- The wire keeps a slate but for its kernel, which it makes anew. -/
theorem Slate.deserializeUpgrade_toJson {L : GrinLib K P} (hL : L.Lawful) (S : Slate K P) :
    Slate.deserializeUpgrade L (S.toJson L) = .ok (Slate.ofV4 L S.toV4) := by
  simp [Slate.deserializeUpgrade, Slate.toJson, hL.slate_json]

end MwBtcSwap.Grin
