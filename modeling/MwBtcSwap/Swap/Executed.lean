import MwBtcSwap.Swap.Handshake
import MwBtcSwap.Swap.Times

/-! Runs of the execution phase with a peer that completes the contract: of the Bitcoin owner up to the
answer of its Grin node, of the Grin owner as far as its contract goes. -/

namespace MwBtcSwap

open Schnorr Interaction Machine Grin Bitcoin

variable {K P : Type} [CommRing K] [AddCommGroup P] [Module K P] [DecidableEq K] [DecidableEq P]

variable {L : GrinLib K P} {B : BtcLib K P} {s : SwapSlate K P} {t : Trace K P (SwapSlate K P)}

/-- A slate whose swap is being executed. -/
def SwapSlate.executing (slate : SwapSlate K P) : SwapSlate K P :=
  { slate with pubSlate.status := .executing }

/-- The execution of the Bitcoin owner, from its contract: what is left when the node answers `ans` to
the transaction. -/
theorem execPhaseSwapBtc_steps {rand : ExecBtcRand K} {limitGrin limitBtc : ℤ}
    {heightGrin heightBtc fundValue : ℕ} {coin : MWCoin} {text : String} {sk : PrivateKey K} {x : K}
    {r : ContractMwResult K P} {tx : Grin.Transaction K P} (ans : Outcome Unit)
    (hgrin : s.pubSlate.mw.lockTime = some limitGrin) (hbtc : s.pubSlate.btc.lockTime = some limitBtc)
    (henough : enoughTime L.overflowChecks heightGrin heightBtc limitGrin limitBtc = .ok true)
    (hcoin : s.prvSlate.mw.sharedCoin = some coin) (hx : s.prvSlate.btc.x = some text)
    (hsk : deserializePrivKey B text = .ok sk) (hgrinSk : grinSkFromBtcSk L B sk = .ok x)
    (hfund : subU64 L.overflowChecks coin.value (estimateFees L 1 1 1) = .ok fundValue)
    (hrun : Steps (dcontractMwTxBob L rand.sigNonce rand.recv coin fundValue 0 x s.executing) t
      (.ret s.executing r)) (htx : r.tx.tx = some tx) :
    (execPhaseSwapBtc L B rand s).Reaches fun u q =>
      u = [⟨s, .getBlockHeight, .ok heightGrin⟩, ⟨s, .getCurrentBlockHeight, .ok heightBtc⟩] ++ (t ++
        [⟨{ s.executing with prvSlate.mw.swappedCoin := r.coin }, .pushTransaction tx, ans⟩]) ∧
      q = (Proc.lift ans >>= fun _ => Proc.modify fun s => { s with pubSlate.status := .finished })
        { s.executing with prvSlate.mw.swappedCoin := r.coin } := by
  have hcheck : Steps (checkIfEnoughTime L s)
      [⟨s, .getBlockHeight, .ok heightGrin⟩, ⟨s, .getCurrentBlockHeight, .ok heightBtc⟩] (.ret s true) :=
    steps_compareTimes.mpr ⟨limitGrin, limitBtc, heightGrin, heightBtc, hgrin, hbtc, rfl, rfl, henough⟩
  refine Prog.reaches_bind hcheck ?_
  rw [if_pos rfl]
  refine Prog.reaches_modify_bind ?_
  refine Prog.reaches_get_bind ?_
  refine Prog.reaches_lift_bind (Outcome.unwrap_eq_ok.mpr hcoin) ?_
  refine Prog.reaches_lift_bind (Outcome.unwrap_eq_ok.mpr hx) ?_
  refine Prog.reaches_lift_bind hsk ?_
  refine Prog.reaches_lift_bind hgrinSk ?_
  refine Prog.reaches_lift_bind hfund ?_
  refine Prog.reaches_bind hrun ?_
  refine Prog.reaches_modify_bind ?_
  refine Prog.reaches_lift_bind (Outcome.unwrap_eq_ok.mpr htx) ?_
  exact ⟨_, _, .step (.refl _), rfl, rfl⟩

omit [DecidableEq K] in
theorem reaches_receiveSlate_bind {σ α : Type} {s : σ} {Q : Trace K P σ → Program K P σ α → Prop}
    {f : Slate K P → Process K P σ α} {msg : String} {S : Slate K P}
    (hmsg : Slate.deserializeUpgrade L msg = .ok S)
    (h : (f S s).Reaches fun t q => Q (⟨s, .recv, .ok msg⟩ :: t) q) :
    ((receiveSlate L >>= f) s).Reaches Q := by
  have hreaches : ((receiveMsg >>= fun msg =>
      Proc.lift (Outcome.expect unwrapErr (Slate.deserializeUpgrade L msg)) >>= f) s).Reaches Q :=
    reaches_receiveMsg_bind msg (Prog.reaches_lift_bind (by rw [hmsg, Outcome.expect_ok]) h)
  simpa only [receiveSlate, Proc.bind_apply, Prog.bind_assoc] using hreaches

omit [DecidableEq K] in
/-- A slate of the contract describes the kernel of all signers, whoever has signed it. -/
theorem describes_aptSlate {spend : SpendRand K} {sigNonce : K} {recv : RecvRand K} {shareA shareB : K}
    {value fundValue : ℕ} {ff : FeeFields} {kernels : List (TxKernel K P)}
    {sigs : Signer K → Option (Signature K P)} (hL : L.Lawful)
    (hZ : Signable L (sharedInpSigners spend sigNonce recv shareA shareB)) :
    (aptSlate L spend sigNonce recv value shareA shareB fundValue ff kernels sigs).Describes L
      (fullKernel L (sharedInpSigners spend sigNonce recv shareA shareB) (.plain ff)) :=
  describes_fullKernel hL hZ Plan.slate_participantData Plan.msgToSign_slate

/-- The contract of the first party, up to its partial signature, for the transaction that pays the second
one. -/
theorem contract_release {σ : Type} {spend : SpendRand K} {sigNonce : K} {recv : RecvRand K}
    {coinA coinB : MWCoin} {shareA shareB x : K} {value fundValue : ℕ} {ff : FeeFields} (s : σ)
    (hL : L.Lawful) (hcoin : SharedCoin L coinA coinB value shareA shareB)
    (hval : SpendsAll L value fundValue)
    (h : ContractKeys L spend sigNonce recv value shareA shareB fundValue x ff) :
    ∃ S₁ m₂ S₃ p,
      S₃.Describes L (fullKernel L (sharedInpSigners spend sigNonce recv shareA shareB) (.plain ff)) ∧
      S₃.tx.map Transaction.outputs = some [recvOutput L recv fundValue] ∧
      Steps (dcontractMwTxAlice L spend coinA fundValue 0 (x • L.G) s)
        [⟨s, .send (.slate .contract .ptx S₁), .ok ()⟩, ⟨s, .recv, .ok m₂⟩,
          ⟨s, .send (.slate .contract .ptx3 S₃), .ok ()⟩] p := by
  obtain ⟨houts, -⟩ := sharedInp_facts hL hcoin hval h.toSharedInpKeys
  -- the answer of the second party
  obtain ⟨m₂, kernels, hread⟩ : ∃ m₂ kernels, Slate.deserializeUpgrade L m₂ = .ok (aptSlate L spend sigNonce
      recv value shareA shareB fundValue ff kernels
      (aptSigs L spend sigNonce recv shareA shareB x ff)) :=
    ⟨(aptSlate L spend sigNonce recv value shareA shareB fundValue ff [] _).toJson L, _,
      Plan.deserializeUpgrade_slate hL⟩
  have hreaches : (dcontractMwTxAlice L spend coinA fundValue 0 (x • L.G) s).Reaches fun t _ =>
      ∃ S₁ m₂, t = [⟨s, .send (.slate .contract .ptx S₁), .ok ()⟩, ⟨s, .recv, .ok m₂⟩,
        ⟨s, .send (.slate .contract .ptx3 (aptSlate L spend sigNonce recv value shareA shareB fundValue ff
          kernels (aptSigs3 L spend sigNonce recv shareA shareB x ff))), .ok ()⟩] := by
    refine Prog.reaches_lift_bind (sharedInp_spend hcoin hval h.toSharedInpKeys) ?_
    refine reaches_sendMsg_bind ?_
    refine reaches_receiveSlate_bind hread ?_
    refine Prog.reaches_lift_bind (slot2Sig_aptSlate _) ?_
    refine Prog.reaches_lift_bind (contract_finTx_apt h houts _) ?_
    refine reaches_sendMsg_bind ?_
    exact Prog.reaches_here ⟨_, _, rfl⟩
  obtain ⟨t, p, hsteps, S₁, m₂, rfl⟩ := hreaches
  exact ⟨S₁, m₂, _, p, describes_aptSlate hL h.signable, rfl, hsteps⟩

/-- The contract of the second party: the peer's answer has the output that it put in the second slate, and
the final slate follows. -/
theorem contract_reveal {σ : Type} {spend : SpendRand K} {sigNonce : K} {recv : RecvRand K}
    {coinA coinB : MWCoin} {shareA shareB x : K} {value fundValue : ℕ} {ff : FeeFields} (s : σ)
    (hL : L.Lawful) (hcoin : SharedCoin L coinA coinB value shareA shareB)
    (hval : SpendsAll L value fundValue)
    (h : ContractKeys L spend sigNonce recv value shareA shareB fundValue x ff) :
    ∃ m₁ S₂ m₃ S₃, Slate.deserializeUpgrade L m₃ = .ok S₃ ∧
      S₃.tx.map Transaction.inputs = some [sharedInput L value shareA shareB] ∧
      S₃.tx.map Transaction.outputs = S₂.tx.map Transaction.outputs ∧
      Steps (dcontractMwTxBob L sigNonce recv coinB fundValue 0 x s)
        [⟨s, .recv, .ok m₁⟩, ⟨s, .send (.slate .contract .ptx2 S₂), .ok ()⟩, ⟨s, .recv, .ok m₃⟩,
          ⟨s, .send (.slate .contract .tx
            (contractSlate L spend sigNonce recv value shareA shareB fundValue ff)), .ok ()⟩]
        (.ret s ⟨contractSlate L spend sigNonce recv value shareA shareB fundValue ff,
          some (recvCoin L recv fundValue), x⟩) := by
  obtain ⟨-, -, -, hdspend⟩ := sharedInp_facts hL hcoin hval h.toSharedInpKeys
  -- the slates of the first party
  obtain ⟨m₁, kernels₁, hread₁⟩ : ∃ m₁ kernels, Slate.deserializeUpgrade L m₁ =
      .ok ((sharedPlan L spend value shareA shareB fundValue 0 ff).slate [] kernels
        (entries L [⟨-shareA - spend.offset, spend.sigNonce⟩] fun _ => none)) :=
    ⟨((sharedPlan L spend value shareA shareB fundValue 0 ff).slate [] [] _).toJson L, _,
      Plan.deserializeUpgrade_slate hL⟩
  obtain ⟨m₃, S₃, hread₃, hS₃⟩ : ∃ m₃ S₃, Slate.deserializeUpgrade L m₃ = .ok S₃ ∧ S₃ =
      aptSlate L spend sigNonce recv value shareA shareB fundValue ff
        [(sharedPlan L spend value shareA shareB fundValue 0 ff).wireKernel L [recvOutput L recv fundValue]
          (entries L (sharedInpSigners spend sigNonce recv shareA shareB)
            (aptSigs3 L spend sigNonce recv shareA shareB x ff))]
        (aptSigs3 L spend sigNonce recv shareA shareB x ff) :=
    ⟨(aptSlate L spend sigNonce recv value shareA shareB fundValue ff [] _).toJson L, _,
      Plan.deserializeUpgrade_slate hL, rfl⟩
  have hreaches : (dcontractMwTxBob L sigNonce recv coinB fundValue 0 x s).Reaches fun t q =>
      t = [⟨s, .recv, .ok m₁⟩, ⟨s, .send (.slate .contract .ptx2 (aptSlate L spend sigNonce recv value
            shareA shareB fundValue ff [TxKernel.withFeatures (.plain ff)]
            (aptSigs L spend sigNonce recv shareA shareB x ff))), .ok ()⟩, ⟨s, .recv, .ok m₃⟩,
          ⟨s, .send (.slate .contract .tx
            (contractSlate L spend sigNonce recv value shareA shareB fundValue ff)), .ok ()⟩] ∧
        q = .ret s ⟨contractSlate L spend sigNonce recv value shareA shareB fundValue ff,
          some (recvCoin L recv fundValue), x⟩ := by
    refine reaches_receiveSlate_bind hread₁ ?_
    refine Prog.reaches_lift_bind (hdspend _) ?_
    refine Prog.reaches_lift_bind (contract_aptRecvCoins h hL _) ?_
    refine reaches_sendMsg_bind ?_
    refine reaches_receiveSlate_bind hread₃ ?_
    rw [hS₃]
    refine Prog.reaches_lift_bind (contract_finTx_replace h hL hcoin hval) ?_
    refine reaches_sendMsg_bind ?_
    exact Prog.reaches_here ⟨rfl, rfl⟩
  obtain ⟨t, q, hsteps, rfl, rfl⟩ := hreaches
  have hinputs : (sharedPlan L spend value shareA shareB fundValue 0 ff).inputs =
      [sharedInput L value shareA shareB] := sharedPlan_inputs hL
  refine ⟨m₁, _, m₃, S₃, hread₃, ?_, ?_, hsteps⟩
  · rw [hS₃]
    exact congrArg some hinputs
  · rw [hS₃]
    rfl

/-- The execution of the Grin owner, as far as its contract goes. -/
theorem execPhaseSwapMw_steps {rand : ExecMwRand K} {limitGrin limitBtc : ℤ}
    {heightGrin heightBtc fundValue : ℕ} {coin : MWCoin} {text : String} {pk : PublicKey P} {pubX : P}
    {p : Program K P (SwapSlate K P) (ContractMwResult K P)}
    (hgrin : s.pubSlate.mw.lockTime = some limitGrin) (hbtc : s.pubSlate.btc.lockTime = some limitBtc)
    (henough : enoughTime L.overflowChecks heightGrin heightBtc limitGrin limitBtc = .ok true)
    (hcoin : s.prvSlate.mw.sharedCoin = some coin) (htext : s.pubSlate.btc.pubX = some text)
    (hpk : deserializePubKey B text = .ok pk) (hpubX : grinPkFromBtcPk L B pk = .ok pubX)
    (hfund : subU64 L.overflowChecks coin.value (estimateFees L 1 1 1) = .ok fundValue)
    (hrun : Steps (dcontractMwTxAlice L rand.spend coin fundValue 0 pubX s.executing) t p) :
    (execPhaseSwapMw L B rand s).Reaches fun u _ =>
      u = [⟨s, .getBlockHeight, .ok heightGrin⟩, ⟨s, .getCurrentBlockHeight, .ok heightBtc⟩] ++ t := by
  have hcheck : Steps (checkIfEnoughTime L s)
      [⟨s, .getBlockHeight, .ok heightGrin⟩, ⟨s, .getCurrentBlockHeight, .ok heightBtc⟩] (.ret s true) :=
    steps_compareTimes.mpr ⟨limitGrin, limitBtc, heightGrin, heightBtc, hgrin, hbtc, rfl, rfl, henough⟩
  refine Prog.reaches_bind hcheck ?_
  rw [if_pos rfl]
  refine Prog.reaches_modify_bind ?_
  refine Prog.reaches_get_bind ?_
  refine Prog.reaches_lift_bind (Outcome.unwrap_eq_ok.mpr hcoin) ?_
  refine Prog.reaches_lift_bind (Outcome.unwrap_eq_ok.mpr htext) ?_
  refine Prog.reaches_lift_bind hpk ?_
  refine Prog.reaches_lift_bind hpubX ?_
  refine Prog.reaches_lift_bind hfund ?_
  exact ⟨t, _, hrun.bind_left, rfl⟩

omit [CommRing K] [AddCommGroup P] [Module K P] [DecidableEq K] [DecidableEq P] in
/-- A command of the taker that names a phase, with a peer that found the same checksum. -/
theorem runExecute_steps {name : String} {phase : Role → Process K P (SwapSlate K P) Unit}
    {q : Program K P (SwapSlate K P) Unit} (checksum : String) (hsetup : s.pubSlate.status = .setup)
    (h : Steps (phase s.taker s) t q) :
    Steps (runExecute name phase s)
      ([⟨s, .connect s.pubSlate.peer.server s.pubSlate.peer.port, .ok ()⟩,
        ⟨s, .getSlateChecksum, .ok checksum⟩, ⟨s, .send (.text checksum), .ok ()⟩,
        ⟨s, .recv, .ok "OK"⟩] ++ ⟨s, .send (.text name), .ok ()⟩ :: t) q := by
  refine connectToPeer_steps.bind ?_
  rw [Proc.bind_apply, Proc.get_apply, Prog.bind_ret, if_neg (by decide), if_neg (not_not.mpr hsetup)]
  exact .step h

/-! ### A sample of the execution -/

/-- The taker of the sample has imported its output and run the lock handshake. -/
theorem session_locked {C : Directory → Command → Prop} (himport : C (sampleDirectory sampleSlate) sampleImport)
    (hlock : C (sampleDirectory sampleTaker) (.lock 1)) :
    ∃ (lock : SignedLock) (sharedA sharedB : DSharedOutMwTxResult Scalar Scalar),
      Session exponents (btcExponents []) fileExponents sampleSettings C (sampleDirectory sampleSlate)
        [(sampleImport, none), (.lock 1, some .locking)]
        (sampleDirectory (sampleTakerSetup lock sharedB)) ∧
      SharedCoin exponents sharedA.sharedCoin sharedB.sharedCoin 1012500000 21 31 ∧
      sharedB.sharedCoin.value = 1012500000 := by
  obtain ⟨-, tT, lock, sharedA, sharedB, -, -, -, hT, htrueT, -, hcoin, hvalue, -⟩ := sample_handshake
  have hload : (Command.lock 1).loadSlate fileExponents sampleSettings (sampleDirectory sampleTaker 1) =
      .ok sampleTaker := by
    simp only [Command.loadSlate, sampleDirectory_read, Outcome.expect_ok]
  rw [← sampleDirectory_self] at htrueT
  have hafter : Function.update (sampleDirectory sampleTaker) 1
      ((sampleDirectory sampleTaker 1).after fileExponents tT) =
      sampleDirectory (sampleTakerSetup lock sharedB) := by
    rw [main_written hT htrueT, sampleDirectory_update]
  have hstep : CommandStep exponents (btcExponents []) fileExponents sampleSettings
      (sampleDirectory sampleTaker) (.lock 1) (some .locking)
      (Function.update (sampleDirectory sampleTaker) 1
        ((sampleDirectory sampleTaker 1).after fileExponents tT)) :=
    CommandStep.ran hload hT htrueT not_writing_ret
  rw [hafter] at hstep
  exact ⟨lock, sharedA, sharedB, .command (session_taker himport) trivial hlock hstep, hcoin, hvalue⟩

/-- The keys of its contract. -/
theorem sample_execKeys :
    ContractKeys exponents sampleRand.execMw.spend sampleRand.execBtc.sigNonce sampleRand.execBtc.recv
      1012500000 21 31 1000000000 5 ⟨12500000⟩ where
  fee := by decide
  output := by decide
  signable := ⟨by decide, by decide, by decide, by decide⟩
  body := by
    simp only [Plan.tx, exponents_bodyOk, sharedPlan, spendPlan, List.length_singleton]
    decide +kernel
  secret := by decide
  aptScalar := by decide +kernel
  scalar := by decide +kernel
  unlike := by decide +kernel

/-- The final slate of the sample. -/
def sampleReveal : Slate Scalar Scalar :=
  contractSlate exponents sampleRand.execMw.spend sampleRand.execBtc.sigNonce sampleRand.execBtc.recv
    1012500000 21 31 1000000000 ⟨12500000⟩

end MwBtcSwap
