import MwBtcSwap.Grin.Messages
import MwBtcSwap.Grin.Core

/-! Slates whose message the peer can read: what the functions of the wallet library and of
`grin_core.rs` make of a slate that was read can be written again. -/

namespace MwBtcSwap.Grin

open Schnorr Interaction Machine Json SlateCodecs

variable {K P : Type} [CommRing K] [AddCommGroup P] [Module K P] [DecidableEq K] [DecidableEq P]

variable {U A S : Type} {L : GrinLib K P} {C : SlateCodecs K P U A S}

/-- A slate that is read is in range, one in range is read from the line that is written, and what the
libraries make has a form. -/
structure Encodes (L : GrinLib K P) (C : SlateCodecs K P U A S) : Prop where
  slateFromJson : ∀ text v, L.slateFromJson text = some v → C.SlateInRange v
  slateToJson : ∀ v, C.SlateInRange v → L.slateFromJson (L.slateToJson v) = some v
  line : ∀ v, '\n' ∉ (L.slateToJson v).toList
  blindingFactor : ∀ k, C.blindingFactor.InRange k
  feeFields : ∀ fee fields, L.feeFieldsNew fee = some fields → C.feeFields.InRange fields
  publicKey : ∀ k p, L.fromSecretKey k = some p → C.publicKey.InRange p
  signature : ∀ k p s, L.fromSecretKey k = some p → C.signature.InRange ⟨k • L.G, s⟩
  commit : ∀ value blind com, L.commit value blind = some com → C.commitment.InRange com
  commitFromVec : ∀ bytes, C.commitment.InRange (L.commitFromVec bytes)
  bulletProof : ∀ value blind rew prf, C.rangeProof.InRange (L.bulletProof value blind rew prf)
  bulletProofFinal : ∀ amount blind shared tau t1 t2 com nonce proof,
    L.bulletProofFinal amount blind shared tau t1 t2 com nonce = some proof → C.rangeProof.InRange proof
  sortInputs : ∀ inputs, ∀ i ∈ L.sortInputs inputs, i ∈ inputs
  insertOutput : ∀ o outputs, ∀ o' ∈ L.insertOutput o outputs, o' = o ∨ o' ∈ outputs

/-- The commitments and proofs of a transaction can be written. -/
structure TxWritable (C : SlateCodecs K P U A S) (tx : Transaction K P) : Prop where
  inputs : ∀ i ∈ tx.inputs, C.commitment.InRange i.commit
  outputs : ∀ o ∈ tx.outputs, C.commitment.InRange o.commit ∧ C.rangeProof.InRange o.proof

/-- A slate that can be written and read. -/
structure Slate.Writable (C : SlateCodecs K P U A S) (s : Slate K P) : Prop where
  numParticipants : s.numParticipants < 2 ^ 8
  amount : s.amount < 2 ^ 64
  feeFields : C.feeFields.InRange s.feeFields
  kernelFeatures : s.kernelFeatures < 2 ^ 8
  offset : C.blindingFactor.InRange s.offset
  participantData : ∀ p ∈ s.participantData, C.ParticipantInRange p
  kernelFeaturesArgs : ∀ a ∈ s.kernelFeaturesArgs, a.lockHeight < 2 ^ 64
  tx : ∀ tx ∈ s.tx, TxWritable C tx

variable {s s' : Slate K P} {key nonce : K}

/-! ### The wire -/

theorem OutputFeatures.toV4_lt (f : OutputFeatures) : f.toV4 < 2 ^ 8 := by cases f <;> decide

omit [AddCommGroup P] [Module K P] [DecidableEq K] [DecidableEq P] in
theorem Slate.Writable.toV4 (h : s.Writable C) : C.SlateInRange s.toV4 where
  numParts := h.numParticipants
  coms := by
    intro coms hcoms c hc
    obtain ⟨tx, htx, rfl⟩ := Option.map_eq_some_iff.mp hcoms
    obtain ⟨hinputs, houtputs⟩ := h.tx tx htx
    obtain hc | hc := List.mem_append.mp hc
    · obtain ⟨i, hi, rfl⟩ := List.mem_map.mp hc
      exact ⟨OutputFeatures.toV4_lt _, hinputs i hi, nofun⟩
    · obtain ⟨o, ho, rfl⟩ := List.mem_map.mp hc
      refine ⟨OutputFeatures.toV4_lt _, (houtputs o ho).1, ?_⟩
      rintro _ ⟨⟩
      exact (houtputs o ho).2
  amt := h.amount
  fee := h.feeFields
  feat := h.kernelFeatures
  off := h.offset
  sigs := h.participantData
  featArgs := h.kernelFeaturesArgs

omit [DecidableEq K] in
theorem writable_ofV4 {v : SlateV4 K P} (h : C.SlateInRange v) : (Slate.ofV4 L v).Writable C where
  numParticipants := h.numParts
  amount := h.amt
  feeFields := h.fee
  kernelFeatures := h.feat
  offset := h.off
  participantData := h.sigs
  kernelFeaturesArgs := h.featArgs
  tx := by
    intro tx htx
    obtain ⟨coms, hcoms, rfl⟩ := Option.map_eq_some_iff.mp htx
    refine ⟨fun i hi => ?_, fun o ho => ?_⟩
    · obtain ⟨c, hc, hi⟩ := List.mem_filterMap.mp hi
      unfold CommitsV4.input? at hi
      split at hi
      · cases hi
      · cases hi
        exact (h.coms coms hcoms c hc).commit
    · obtain ⟨c, hc, ho⟩ := List.mem_filterMap.mp ho
      obtain ⟨proof, hproof, rfl⟩ := Option.map_eq_some_iff.mp ho
      exact ⟨(h.coms coms hcoms c hc).commit, (h.coms coms hcoms c hc).proof proof hproof⟩

/-- What was read can be sent. -/
theorem deserializeUpgrade_writable (hL : Encodes L C) {text : String}
    (h : Slate.deserializeUpgrade L text = .ok s) : s.Writable C := by
  simp only [Slate.deserializeUpgrade, Outcome.bind_eq_ok, Outcome.orErr_eq_ok, Outcome.pure_eq_ok,
    Except.ok.injEq] at h
  obtain ⟨v, hread, rfl⟩ := h
  exact writable_ofV4 (hL.slateFromJson text v hread)

/-- The wire keeps all of a slate but the kernels and the offset of its transaction. -/
def Slate.Restored (s s' : Slate K P) : Prop :=
  s' = { s with tx := s'.tx } ∧
    s'.tx.map (fun tx => (tx.inputs, tx.outputs)) = s.tx.map fun tx => (tx.inputs, tx.outputs)

omit [DecidableEq K] in
theorem restored_ofV4 : s.Restored (Slate.ofV4 L s.toV4) := by
  refine ⟨rfl, ?_⟩
  have hinputs (inputs : List Input) (outputs : List Output) :
      (inputs.map Input.toV4 ++ outputs.map Output.toV4).filterMap CommitsV4.input? = inputs := by
    simp [List.filterMap_append, List.filterMap_map, Function.comp_def, CommitsV4.input?, Input.toV4,
      Output.toV4]
  have houtputs (inputs : List Input) (outputs : List Output) :
      (inputs.map Input.toV4 ++ outputs.map Output.toV4).filterMap CommitsV4.output? = outputs := by
    simp [List.filterMap_append, List.filterMap_map, Function.comp_def, CommitsV4.output?, Input.toV4,
      Output.toV4]
  cases htx : s.tx with
  | none => simp [Slate.ofV4, Slate.toV4, txFromSlateV4, htx]
  | some tx => simp [Slate.ofV4, Slate.toV4, txFromSlateV4, htx, hinputs, houtputs]

/-- The message of a slate is one line, from which the peer restores the slate. -/
theorem Slate.Writable.delivered (hL : Encodes L C) (h : s.Writable C) :
    (∃ s', Slate.deserializeUpgrade L (s.toJson L) = .ok s' ∧ s.Restored s') ∧
      ∀ checks rest, readFromStream checks (writeToStream (s.toJson L) ++ rest) = .ok (s.toJson L) := by
  refine ⟨⟨_, ?_, restored_ofV4 (L := L)⟩, fun checks => readFromStream_writeToStream checks (hL.line s.toV4)⟩
  rw [Slate.deserializeUpgrade, Slate.toJson, hL.slateToJson s.toV4 h.toV4]
  rfl

/-! ### The wallet library -/

omit [CommRing K] [AddCommGroup P] [Module K P] [DecidableEq K] in
theorem heldSig_mem {pubKey pubNonce : P} {sig : Signature K P} {data : List (ParticipantData K P)}
    (h : Slate.heldSig pubKey pubNonce data = some sig) : ∃ p ∈ data, p.partSig = some sig := by
  induction data with
  | nil => cases h
  | cons p data ih =>
    rw [Slate.heldSig] at h
    split_ifs at h
    · obtain hp | ⟨-, hrest⟩ := Option.or_eq_some_iff.mp h
      · exact ⟨p, List.mem_cons_self, hp⟩
      · obtain ⟨q, hq, hsig⟩ := ih hrest
        exact ⟨q, List.mem_cons_of_mem p hq, hsig⟩
    · obtain ⟨q, hq, hsig⟩ := ih h
      exact ⟨q, List.mem_cons_of_mem p hq, hsig⟩

theorem fillRound1_writable (hL : Encodes L C) (hs : s.Writable C)
    (h : s.fillRound1 L key nonce = .ok s') : s'.Writable C := by
  simp only [Slate.fillRound1, Slate.addParticipantInfo, Outcome.bind_eq_ok, Outcome.orErr_eq_ok,
    Outcome.pure_eq_ok, Except.ok.injEq] at h
  obtain ⟨pubKey, hkey, pubNonce, hnonce, rfl⟩ := h
  refine { hs with participantData := List.forall_mem_append.mpr ⟨fun p hp => ?_, ?_⟩ }
  · exact hs.participantData p (List.mem_of_mem_filter hp)
  · refine List.forall_mem_singleton.mpr
      ⟨hL.publicKey _ _ hkey, hL.publicKey _ _ hnonce, fun sig hsig => ?_⟩
    obtain ⟨p, hp, hpart⟩ := heldSig_mem hsig
    exact (hs.participantData p hp).partSig sig hpart

omit [AddCommGroup P] [Module K P] [DecidableEq K] [DecidableEq P] in
theorem setPartSig_inRange {mine : ParticipantData K P → Bool} {sig : Signature K P} {n : ℕ}
    {data data' : List (ParticipantData K P)} (hdata : ∀ p ∈ data, C.ParticipantInRange p)
    (hsig : C.signature.InRange sig) (h : Slate.setPartSig mine sig n data = .ok data') :
    ∀ p ∈ data', C.ParticipantInRange p := by
  induction n generalizing data data' with
  | zero =>
    cases h
    exact hdata
  | succ n ih =>
    cases data with
    | nil => cases h
    | cons p data =>
      obtain ⟨hp, hdata⟩ := List.forall_mem_cons.mp hdata
      rw [Slate.setPartSig] at h
      split_ifs at h
      · cases h
        refine List.forall_mem_cons.mpr ⟨{ hp with partSig := ?_ }, hdata⟩
        rintro _ ⟨⟩
        exact hsig
      · obtain ⟨rest, hrest, h⟩ := Outcome.bind_eq_ok.mp h
        cases h
        exact List.forall_mem_cons.mpr ⟨hp, ih hdata hrest⟩

/-- A signature is stored when its nonce is a key. -/
theorem storeSig_writable {sig : Signature K P} (hs : s.Writable C)
    (hsig : ∀ p, L.fromSecretKey nonce = some p → C.signature.InRange sig)
    (h : s.storeSig L key nonce sig = .ok s') : s'.Writable C := by
  simp only [Slate.storeSig, Outcome.bind_eq_ok, Outcome.orErr_eq_ok, Outcome.pure_eq_ok,
    Except.ok.injEq] at h
  obtain ⟨_, -, pubNonce, hnonce, data, hdata, rfl⟩ := h
  exact { hs with participantData := setPartSig_inRange hs.participantData (hsig _ hnonce) hdata }

theorem fillRound2_writable (hL : Encodes L C) (hs : s.Writable C)
    (h : s.fillRound2 L key nonce = .ok s') : s'.Writable C := by
  simp only [Slate.fillRound2, Outcome.bind_eq_ok] at h
  obtain ⟨_, -, _, -, _, -, _, -, h⟩ := h
  exact storeSig_writable hs (fun p hp => hL.signature _ p _ hp) h

omit [Module K P] [DecidableEq K] [DecidableEq P] in
theorem updateKernel_writable (hs : s.Writable C) (h : s.updateKernel L = .ok s') : s'.Writable C := by
  obtain ⟨tx, features, htx, -, rfl⟩ := Slate.updateKernel_eq_ok.mp h
  refine { hs with tx := ?_ }
  rintro _ ⟨⟩
  exact ⟨(hs.tx tx htx).inputs, (hs.tx tx htx).outputs⟩

omit [DecidableEq K] in
theorem finalize_writable (hs : s.Writable C) (h : s.finalize L = .ok s') : s'.Writable C := by
  obtain ⟨tx, k, k', htx, -, -, rfl, -⟩ := Slate.finalize_eq_ok h
  refine { hs with tx := ?_ }
  rintro _ ⟨⟩
  exact ⟨(hs.tx tx htx).inputs, (hs.tx tx htx).outputs⟩

theorem withOutput_writable (hL : Encodes L C) {tx : Transaction K P} {o : Output}
    (htx : TxWritable C tx) (hcommit : C.commitment.InRange o.commit)
    (hproof : C.rangeProof.InRange o.proof) : TxWritable C (tx.withOutput L o) := by
  refine ⟨htx.inputs, fun o' ho' => ?_⟩
  obtain rfl | ho' := hL.insertOutput o tx.outputs o' ho'
  · exact ⟨hcommit, hproof⟩
  · exact htx.outputs o' ho'

omit [AddCommGroup P] [Module K P] [DecidableEq K] [DecidableEq P] in
theorem Slate.Writable.withTx (hs : s.Writable C) {tx : Transaction K P} (htx : TxWritable C tx) :
    ({ s with tx := some tx } : Slate K P).Writable C := by
  refine { hs with tx := ?_ }
  rintro _ ⟨⟩
  exact htx

omit [AddCommGroup P] [Module K P] [DecidableEq K] [DecidableEq P] in
/-- A transaction that is there, or the empty one. -/
theorem getD_writable (hs : s.Writable C) : TxWritable C (s.tx.getD Transaction.empty) := by
  cases htx : s.tx with
  | none => exact ⟨nofun, nofun⟩
  | some tx => exact hs.tx tx htx

/-! ### `grin_core.rs` -/

section Core

variable {inputs : List MWCoin} {fundValue timelock : ℕ}

theorem readInput_commit (hL : Encodes L C) {coin : MWCoin} {input : Input × K}
    (h : readInput L coin = .ok input) : C.commitment.InRange input.1.commit := by
  simp only [readInput, deserializeCommitment, Outcome.bind_eq_ok, Outcome.pure_eq_ok,
    Except.ok.injEq] at h
  obtain ⟨_, ⟨bytes, -, rfl⟩, _, -, rfl⟩ := h
  exact hL.commitFromVec bytes

theorem changeOutputs_writable (hL : Encodes L C) {rand : SpendRand K} {value : ℤ}
    {change : Option (Output × MWCoin)} (h : changeOutput L rand value = .ok change) :
    ∀ o ∈ changeOutputs L change, C.commitment.InRange o.commit ∧ C.rangeProof.InRange o.proof := by
  unfold changeOutput at h
  split at h
  · simp only [Outcome.bind_eq_ok, Outcome.unwrap_eq_ok, Outcome.pure_eq_ok, Except.ok.injEq] at h
    obtain ⟨com, hcom, rfl⟩ := h
    intro o ho
    obtain rfl | ho := hL.insertOutput _ [] o ho
    · exact ⟨hL.commit _ _ _ hcom, hL.bulletProof _ _ _ _⟩
    · cases ho
  · cases h
    nofun

omit [AddCommGroup P] [Module K P] [DecidableEq K] [DecidableEq P] in
/-- The numbers of a new slate fit. -/
theorem blankWithKernelFeatures_sizes {participants : ℕ} {lockHeight : Option ℕ} (kernelFeatParam : ℕ)
    (hnum : participants < 2 ^ 8) (hlock : ∀ height ∈ lockHeight, height < 2 ^ 64) :
    let S : Slate K P := Slate.blankWithKernelFeatures participants kernelFeatParam lockHeight
    S.numParticipants < 2 ^ 8 ∧ S.kernelFeatures < 2 ^ 8 ∧
      ∀ a ∈ S.kernelFeaturesArgs, a.lockHeight < 2 ^ 64 := by
  refine ⟨?_, ?_, fun a ha => ?_⟩
  · dsimp only [Slate.blankWithKernelFeatures]
    split_ifs <;> omega
  · dsimp only [Slate.blankWithKernelFeatures]
    split_ifs <;> omega
  · simp only [Slate.blankWithKernelFeatures, Option.mem_def, Option.ite_none_right_eq_some,
      Option.map_eq_some_iff] at ha
    obtain ⟨-, height, hheight, rfl⟩ := ha
    exact hlock height hheight

/-- The lock height that `spend_coins` gives its slate. -/
theorem timelock_lt (htime : timelock < 2 ^ 64) :
    ∀ height ∈ (if timelock ≠ 0 then some timelock else none), height < 2 ^ 64 := by
  intro height hheight
  obtain ⟨-, hheight⟩ := Option.ite_none_right_eq_some.mp hheight
  cases hheight
  exact htime

theorem spendCoins_writable (hL : Encodes L C) {rand : SpendRand K} {numOfOutputs participants : ℕ}
    {r : SpendCoinsResult K P} (htime : timelock < 2 ^ 64) (hnum : participants < 2 ^ 8)
    (h : spendCoins L rand inputs fundValue timelock numOfOutputs participants = .ok r) :
    r.slate.Writable C := by
  simp only [spendCoins, Outcome.bind_eq_ok, Outcome.unwrap_eq_ok, Outcome.expect_eq_ok,
    Outcome.pure_eq_ok, Outcome.throw_eq_error, Outcome.error_bind, Outcome.error_ite_eq_ok,
    Except.ok.injEq] at h
  obtain ⟨_, -, -, -, _, -, -, -, fields, hfields, coins, hcoins, _, -, _, hfund, _, -, change, hchange,
    S, hround, rfl⟩ := h
  have hblank := blankWithKernelFeatures_sizes (K := K) (P := P)
    (if (if timelock ≠ 0 then some timelock else none).isSome then 2 else 0) hnum (timelock_lt htime)
  refine fillRound1_writable hL ?_ hround
  refine ⟨hblank.1, (i64OfU64_eq_some hfund).1.trans (by norm_num), hL.feeFields _ _ hfields,
    hblank.2.1, hL.blindingFactor _, fun _ hp => (List.not_mem_nil hp).elim, hblank.2.2, ?_⟩
  rintro _ ⟨⟩
  refine ⟨fun i hi => ?_, changeOutputs_writable hL hchange⟩
  obtain ⟨c, hc, rfl⟩ := List.mem_map.mp (hL.sortInputs _ i hi)
  exact Outcome.forall_of_mapM (fun _ _ => readInput_commit hL) hcoins c hc

/-- The spending party of the shared coin only takes part in the slate. -/
theorem dSpendCoins_writable (hL : Encodes L C) {sigNonce : K} {r : SpendCoinsResult K P}
    (hs : s.Writable C) (h : dSpendCoins L sigNonce inputs s fundValue timelock = .ok r) :
    r.slate.Writable C := by
  simp only [dSpendCoins, Outcome.bind_eq_ok, Outcome.expect_eq_ok, Outcome.pure_eq_ok,
    Outcome.throw_eq_error, Outcome.error_bind, Outcome.error_ite_eq_ok, Except.ok.injEq] at h
  obtain ⟨_, -, -, -, _, -, -, _, -, _, -, S, hround, rfl⟩ := h
  exact fillRound1_writable hL hs hround

theorem addRecvOutput_writable (hL : Encodes L C) {rand : RecvRand K} {r : Slate K P × Commitment}
    (hs : s.Writable C) (h : addRecvOutput L rand s fundValue = .ok r) : r.1.Writable C := by
  simp only [addRecvOutput, Outcome.bind_eq_ok, Outcome.unwrap_eq_ok, Outcome.expect_eq_ok,
    Outcome.pure_eq_ok, Except.ok.injEq] at h
  obtain ⟨_, -, com, hcom, S, hkernel, S', hround, rfl⟩ := h
  have htx := withOutput_writable (o := ⟨.plain, com, _⟩) hL (getD_writable hs) (hL.commit _ _ _ hcom)
    (hL.bulletProof fundValue rand.outCoinKey rand.rewNonce rand.prfNonce)
  exact fillRound1_writable hL (updateKernel_writable (hs.withTx htx) hkernel) hround

theorem recvCoins_writable (hL : Encodes L C) {rand : RecvRand K} {r : RecvCoinsResult K P}
    (hs : s.Writable C) (h : recvCoins L rand s fundValue = .ok r) : r.slate.Writable C := by
  simp only [recvCoins, Outcome.bind_eq_ok, Outcome.expect_eq_ok, Outcome.pure_eq_ok,
    Except.ok.injEq] at h
  obtain ⟨recv, hrecv, S, hround, rfl⟩ := h
  exact fillRound2_writable hL (addRecvOutput_writable hL hs hrecv) hround

/-- Both signatures of the receiver can be sent. -/
theorem aptRecvCoins_writable (hL : Encodes L C) {rand : RecvRand K} {x : K}
    {r : AptRecCoinsResult K P} (hs : s.Writable C) (h : aptRecvCoins L rand s fundValue x = .ok r) :
    r.slate.Writable C ∧ C.signature.InRange r.prtSig.2 := by
  simp only [aptRecvCoins, Outcome.bind_eq_ok, Outcome.expect_eq_ok, Outcome.pure_eq_ok,
    Except.ok.injEq] at h
  obtain ⟨recv, hrecv, _, -, _, -, _, -, S, hstore, rfl⟩ := h
  refine ⟨storeSig_writable (addRecvOutput_writable hL hs hrecv) (fun p hp => hL.signature _ p _ hp)
    hstore, ?_⟩
  simp only [Slate.storeSig, Outcome.bind_eq_ok, Outcome.orErr_eq_ok] at hstore
  obtain ⟨_, -, pubNonce, hnonce, -⟩ := hstore
  exact hL.signature _ pubNonce _ hnonce

theorem drecvCoinsR1_writable (hL : Encodes L C) {rand : DRecvRand K} {r : DRecvCoinsResult K P}
    (hs : s.Writable C) (h : drecvCoinsR1 L rand s fundValue = .ok r) : r.slate.Writable C := by
  simp only [drecvCoinsR1, Outcome.bind_eq_ok, Outcome.expect_eq_ok, Outcome.pure_eq_ok,
    Except.ok.injEq] at h
  obtain ⟨_, -, S, hround, _, -, _, -, rfl⟩ := h
  exact fillRound1_writable hL hs hround

theorem drecvCoinsR2_writable (hL : Encodes L C) {rand : DRecvRand K} {ctx : MPBPContext K P}
    {r : RecvCoinsResult K P × MPBPContext K P} (hs : s.Writable C)
    (h : drecvCoinsR2 L rand s fundValue ctx = .ok r) : r.1.slate.Writable C := by
  simp only [drecvCoinsR2, Outcome.bind_eq_ok, Outcome.expect_eq_ok, Outcome.pure_eq_ok,
    Except.ok.injEq] at h
  obtain ⟨_, -, _, -, _, -, _, -, _, -, S, hround₁, S', hround₂, rfl⟩ := h
  exact fillRound2_writable hL (fillRound1_writable hL hs hround₁) hround₂

/-- The joint output has the commitment of the proof context that the peer sent. -/
theorem drecvCoinsR3_writable (hL : Encodes L C) {ctx : MPBPContext K P} {blind prfNonce sigNonce : K}
    {r : RecvCoinsResult K P} {text : String} (hs : s.Writable C)
    (hctx : MPBPContext.fromText L text = .ok ctx)
    (h : drecvCoinsR3 L s ctx blind prfNonce sigNonce = .ok r) : r.slate.Writable C := by
  simp only [MPBPContext.fromText, Outcome.bind_eq_ok, Outcome.pure_eq_ok, Except.ok.injEq] at hctx
  obtain ⟨ser, -, _, -, _, -, _, -, _, -, _, hcommit, rfl⟩ := hctx
  simp only [deserializeCommitment, Outcome.bind_eq_ok, Outcome.pure_eq_ok, Except.ok.injEq] at hcommit
  obtain ⟨bytes, -, rfl⟩ := hcommit
  simp only [drecvCoinsR3, Outcome.bind_eq_ok, Outcome.expect_eq_ok, Outcome.unwrap_eq_ok,
    Outcome.pure_eq_ok, Except.ok.injEq] at h
  obtain ⟨ctx', -, proof, hproof, tx, htx, S, hround, S', hkernel, rfl⟩ := h
  rw [mpBulletProofFin, Outcome.unwrap_eq_ok] at hproof
  have htx := withOutput_writable (o := ⟨.plain, L.commitFromVec bytes, proof⟩) hL (hs.tx tx htx)
    (hL.commitFromVec _) (hL.bulletProofFinal _ _ _ _ _ _ _ _ _ hproof)
  exact updateKernel_writable (fillRound2_writable hL (hs.withTx htx) hround) hkernel

theorem aptFinTx_writable (hL : Encodes L C) {pubX : P} (hs : s.Writable C)
    (h : aptFinTx L s key nonce pubX = .ok s') : s'.Writable C := by
  simp only [aptFinTx, Outcome.bind_eq_ok, Outcome.expect_eq_ok] at h
  obtain ⟨_, -, _, -, _, -, _, -, hstore⟩ := h
  exact storeSig_writable hs (fun p hp => hL.signature _ p _ hp) hstore

/-- A signature that replaces another one has to be one that can be sent. -/
theorem finTx_writable (hL : Encodes L C) {fin : Bool} {pubX : Option P}
    {replace : Option (Signature K P × Signature K P)} (hs : s.Writable C)
    (hreplace : ∀ sigs ∈ replace, C.signature.InRange sigs.2)
    (h : finTx L s key nonce fin pubX replace = .ok s') : s'.Writable C := by
  obtain ⟨S, hS, h⟩ : ∃ S : Slate K P, S.Writable C ∧
      (if fin then Outcome.expect "Failed to finalize transaction" (S.finalize L) else .ok S) = .ok s' := by
    cases pubX with
    | some pubX =>
      simp only [finTx, Outcome.bind_eq_ok] at h
      obtain ⟨_, -, _, -, S, hapt, h⟩ := h
      exact ⟨S, aptFinTx_writable hL hs hapt, h⟩
    | none =>
      cases replace with
      | none =>
        simp only [finTx, Outcome.bind_eq_ok, Outcome.expect_eq_ok] at h
        obtain ⟨_, -, _, -, _, ⟨⟩, S, hround, h⟩ := h
        exact ⟨S, fillRound2_writable hL hs hround, h⟩
      | some sigs =>
        simp only [finTx, replaceSig, Outcome.bind_eq_ok, Outcome.expect_eq_ok, Outcome.pure_eq_ok,
          Except.ok.injEq] at h
        obtain ⟨_, -, _, -, _, ⟨data, hdata, rfl⟩, S, hround, h⟩ := h
        have hS : ({ s with participantData := data } : Slate K P).Writable C :=
          { hs with participantData := setPartSig_inRange hs.participantData (hreplace sigs rfl) hdata }
        exact ⟨S, fillRound2_writable hL hS hround, h⟩
  cases fin with
  | false =>
    cases h
    exact hS
  | true => exact finalize_writable hS (Outcome.expect_eq_ok.mp h)

end Core

end MwBtcSwap.Grin
