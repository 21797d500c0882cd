import MwBtcSwap.Grin.Core
import MwBtcSwap.Net

/-! `grin_tx.rs`: the two-party protocols that build a transaction over the stream.  Alice is the
party that sends the first slate, and Bob the one that answers.  A function takes the random keys
that the calls in it draw. -/

namespace MwBtcSwap.Grin

open Schnorr Interaction

variable {K P : Type} [CommRing K] [AddCommGroup P] [Module K P] [DecidableEq K] [DecidableEq P]

variable {σ : Type} (L : GrinLib K P)

structure DBuildMWTxResult (K P : Type) where
  tx : Slate K P
  coin : Option MWCoin
  deriving DecidableEq

structure DSharedOutMwTxResult (K P : Type) where
  tx : Slate K P
  changeCoin : Option MWCoin
  sharedCoin : MWCoin
  deriving DecidableEq

structure ContractMwResult (K P : Type) where
  tx : Slate K P
  coin : Option MWCoin
  x : K
  deriving DecidableEq

/-- A received slate. -/
def receiveSlate : Process K P σ (Slate K P) := do
  let msg ← receiveMsg
  Proc.lift (Outcome.expect unwrapErr (Slate.deserializeUpgrade L msg))

/-- The signature in the entry with index 2. -/
def slot2Sig (slate : Slate K P) : Outcome (Signature K P) := do
  let entry ← Outcome.unwrap unwrapNone slate.participantData[2]?
  Outcome.unwrap unwrapNone entry.partSig

/-- `GrinTx::dbuildmw_tx_alice` -/
def dbuildmwTxAlice (rand : SpendRand K) (inp : List MWCoin) (fundValue timelock : ℕ) :
    Process K P σ (DBuildMWTxResult K P) := do
  let spend ← Proc.lift (spendCoins L rand inp fundValue timelock 2 2)
  sendMsg (.slate .build .ptx spend.slate)
  let ptx2 ← receiveSlate L
  let fin ← Proc.lift (Outcome.expect unwrapErr
    (finTx L ptx2 spend.sigKey spend.sigNonce true none none))
  sendMsg (.slate .build .tx fin)
  return ⟨fin, spend.changeCoin⟩

/-- `GrinTx::dbuild_mw_tx_bob` -/
def dbuildMwTxBob (rand : RecvRand K) (fundValue : ℕ) : Process K P σ (DBuildMWTxResult K P) := do
  let ptx ← receiveSlate L
  let ptx2 ← Proc.lift (Outcome.expect unwrapErr (recvCoins L rand ptx fundValue))
  sendMsg (.slate .build .ptx2 ptx2.slate)
  let tx ← receiveSlate L
  return ⟨tx, some ptx2.outputCoin⟩

/-- `GrinTx::dshared_out_mw_tx_alice` -/
def dsharedOutMwTxAlice (rand : SpendRand K) (drand : DRecvRand K) (inp : List MWCoin)
    (fundValue timelock : ℕ) : Process K P σ (DSharedOutMwTxResult K P) := do
  let spend ← Proc.lift (Outcome.expect unwrapErr (spendCoins L rand inp fundValue timelock 2 3))
  let recv ← Proc.lift (Outcome.expect unwrapErr (drecvCoinsR1 L drand spend.slate fundValue))
  sendMsg (.slate .sharedOut .ptx recv.slate)
  sendMsg (.prfCtx recv.prfCtx)
  let bobMsg ← receiveMsg
  let bobMsg2 ← receiveMsg
  let ptx2 ← Proc.lift (Outcome.expect unwrapErr (Slate.deserializeUpgrade L bobMsg))
  let prfCtx ← Proc.lift (MPBPContext.fromText L bobMsg2)
  let recv3 ← Proc.lift (Outcome.expect unwrapErr
    (drecvCoinsR3 L ptx2 prfCtx recv.outKeyBlind recv.prfNonce recv.sigNonce))
  let finSlate ← Proc.lift (Outcome.expect unwrapErr
    (finTx L recv3.slate spend.sigKey spend.sigNonce true none none))
  sendMsg (.slate .sharedOut .tx finSlate)
  return ⟨finSlate, spend.changeCoin, recv3.outputCoin⟩

/-- `GrinTx::dshared_out_mw_tx_bob` -/
def dsharedOutMwTxBob (drand : DRecvRand K) (fundValue : ℕ) :
    Process K P σ (DSharedOutMwTxResult K P) := do
  let aliceMsg1 ← receiveMsg
  let aliceMsg2 ← receiveMsg
  let ptx ← Proc.lift (Outcome.expect unwrapErr (Slate.deserializeUpgrade L aliceMsg1))
  let prfCtx ← Proc.lift (MPBPContext.fromText L aliceMsg2)
  let recv2 ← Proc.lift (drecvCoinsR2 L drand ptx fundValue prfCtx)
  sendMsg (.slate .sharedOut .ptx2 recv2.1.slate)
  sendMsg (.prfCtx recv2.2)
  let tx ← receiveSlate L
  return ⟨tx, none, recv2.1.outputCoin⟩

/-- `GrinTx::dshared_inp_mw_tx_alice` -/
def dsharedInpMwTxAlice (rand : SpendRand K) (inp : MWCoin) (fundValue timelock : ℕ) :
    Process K P σ (DBuildMWTxResult K P) := do
  let spend ← Proc.lift (spendCoins L rand [inp] fundValue timelock 1 3)
  sendMsg (.slate .sharedInp .ptx spend.slate)
  let ptx2 ← receiveSlate L
  let ptx2 ← Proc.lift (Outcome.expect unwrapErr (ptx2.updateKernel L))
  let finSlate ← Proc.lift (finTx L ptx2 spend.sigKey spend.sigNonce true none none)
  sendMsg (.slate .sharedInp .tx finSlate)
  return ⟨finSlate, spend.changeCoin⟩

/-- `GrinTx::dshared_inp_mw_tx_bob`, with the nonce that `d_spend_coins` draws. -/
def dsharedInpMwTxBob (sigNonce : K) (rand : RecvRand K) (inp : MWCoin) (fundValue timelock : ℕ) :
    Process K P σ (DBuildMWTxResult K P) := do
  let ptx ← receiveSlate L
  let dspend ← Proc.lift (dSpendCoins L sigNonce [inp] ptx fundValue timelock)
  let recv ← Proc.lift (recvCoins L rand dspend.slate fundValue)
  let fin ← Proc.lift (Outcome.expect unwrapErr
    (finTx L recv.slate dspend.sigKey dspend.sigNonce false none none))
  sendMsg (.slate .sharedInp .ptx2 fin)
  let finSlate ← receiveSlate L
  let finSlate ← Proc.lift (Outcome.expect unwrapErr (finSlate.updateKernel L))
  let finSlate ← Proc.lift (Outcome.expect unwrapErr (finSlate.finalize L))
  return ⟨finSlate, some recv.outputCoin⟩

/-- `GrinTx::dcontract_mw_tx_alice` -/
def dcontractMwTxAlice (rand : SpendRand K) (inp : MWCoin) (fundValue timelock : ℕ) (pubX : P) :
    Process K P σ (ContractMwResult K P) := do
  let spend ← Proc.lift (spendCoins L rand [inp] fundValue timelock 1 3)
  sendMsg (.slate .contract .ptx spend.slate)
  let ptx2 ← receiveSlate L
  let aptSigBob ← Proc.lift (slot2Sig ptx2)
  let ptx3 ← Proc.lift (finTx L ptx2 spend.sigKey spend.sigNonce false (some pubX) none)
  sendMsg (.slate .contract .ptx3 ptx3)
  let finalSlate ← receiveSlate L
  let sigBob ← Proc.lift (slot2Sig finalSlate)
  let x ← Proc.lift (extWitness sigBob aptSigBob)
  return ⟨finalSlate, spend.changeCoin, x⟩

/-- `GrinTx::dcontract_mw_tx_bob`, with the nonce that `d_spend_coins` draws. -/
def dcontractMwTxBob (sigNonce : K) (rand : RecvRand K) (inp : MWCoin) (fundValue timelock : ℕ)
    (x : K) : Process K P σ (ContractMwResult K P) := do
  let ptx ← receiveSlate L
  let dspend ← Proc.lift (dSpendCoins L sigNonce [inp] ptx fundValue timelock)
  let recv ← Proc.lift (aptRecvCoins L rand dspend.slate fundValue x)
  sendMsg (.slate .contract .ptx2 recv.slate)
  let ptx3 ← receiveSlate L
  let fin ← Proc.lift (finTx L ptx3 dspend.sigKey dspend.sigNonce true none (some recv.prtSig))
  sendMsg (.slate .contract .tx fin)
  return ⟨fin, some recv.outputCoin, x⟩

/-! ### Operations

A protocol leaves the memory alone, and only talks to the peer. -/

variable {L}

omit [DecidableEq K] in
theorem receiveSlate_only {ops : Op K P → Prop} (h : ops .recv) :
    (receiveSlate L : Process K P σ _).Only ops := .bind (.request h) fun _ => .lift _

theorem dsharedOutMwTxAlice_only {rand : SpendRand K} {drand : DRecvRand K} {inp : List MWCoin}
    {fundValue timelock : ℕ} :
    (dsharedOutMwTxAlice L rand drand inp fundValue timelock : Process K P σ _).Only
      (Op.OfProtocol .sharedOut) :=
  .bind (.lift _) fun _ => .bind (.lift _) fun _ => .bind (.request rfl) fun _ =>
    .bind (.request rfl) fun _ => .bind (.request trivial) fun _ => .bind (.request trivial) fun _ =>
    .bind (.lift _) fun _ => .bind (.lift _) fun _ => .bind (.lift _) fun _ => .bind (.lift _) fun _ =>
    .bind (.request rfl) fun _ => .pure _

theorem dsharedOutMwTxBob_only {drand : DRecvRand K} {fundValue : ℕ} :
    (dsharedOutMwTxBob L drand fundValue : Process K P σ _).Only (Op.OfProtocol .sharedOut) :=
  .bind (.request trivial) fun _ => .bind (.request trivial) fun _ => .bind (.lift _) fun _ =>
    .bind (.lift _) fun _ => .bind (.lift _) fun _ => .bind (.request rfl) fun _ =>
    .bind (.request rfl) fun _ => .bind (receiveSlate_only trivial) fun _ => .pure _

theorem dsharedInpMwTxAlice_only {rand : SpendRand K} {inp : MWCoin} {fundValue timelock : ℕ} :
    (dsharedInpMwTxAlice L rand inp fundValue timelock : Process K P σ _).Only
      (Op.OfProtocol .sharedInp) :=
  .bind (.lift _) fun _ => .bind (.request rfl) fun _ => .bind (receiveSlate_only trivial) fun _ =>
    .bind (.lift _) fun _ => .bind (.lift _) fun _ => .bind (.request rfl) fun _ => .pure _

theorem dsharedInpMwTxBob_only {sigNonce : K} {rand : RecvRand K} {inp : MWCoin}
    {fundValue timelock : ℕ} :
    (dsharedInpMwTxBob L sigNonce rand inp fundValue timelock : Process K P σ _).Only
      (Op.OfProtocol .sharedInp) :=
  .bind (receiveSlate_only trivial) fun _ => .bind (.lift _) fun _ => .bind (.lift _) fun _ =>
    .bind (.lift _) fun _ => .bind (.request rfl) fun _ => .bind (receiveSlate_only trivial) fun _ =>
    .bind (.lift _) fun _ => .bind (.lift _) fun _ => .pure _

theorem dcontractMwTxAlice_only {rand : SpendRand K} {inp : MWCoin} {fundValue timelock : ℕ}
    {pubX : P} :
    (dcontractMwTxAlice L rand inp fundValue timelock pubX : Process K P σ _).Only
      (Op.OfProtocol .contract) :=
  .bind (.lift _) fun _ => .bind (.request rfl) fun _ => .bind (receiveSlate_only trivial) fun _ =>
    .bind (.lift _) fun _ => .bind (.lift _) fun _ => .bind (.request rfl) fun _ =>
    .bind (receiveSlate_only trivial) fun _ => .bind (.lift _) fun _ => .bind (.lift _) fun _ => .pure _

theorem dcontractMwTxBob_only {sigNonce x : K} {rand : RecvRand K} {inp : MWCoin}
    {fundValue timelock : ℕ} :
    (dcontractMwTxBob L sigNonce rand inp fundValue timelock x : Process K P σ _).Only
      (Op.OfProtocol .contract) :=
  .bind (receiveSlate_only trivial) fun _ => .bind (.lift _) fun _ => .bind (.lift _) fun _ =>
    .bind (.request rfl) fun _ => .bind (receiveSlate_only trivial) fun _ => .bind (.lift _) fun _ =>
    .bind (.request rfl) fun _ => .pure _

/-- The last thing that happened is that the peer answered a sent slate with the slate `S`. -/
def Answered (L : GrinLib K P) (protocol : Protocol) (stage : Stage) (past : Trace K P σ)
    (S : Slate K P) : Prop :=
  ∃ pre s s' ans S₁ msg,
    past = pre ++ [⟨s, .send (.slate protocol stage S₁), ans⟩, ⟨s', .recv, .ok msg⟩] ∧
      Slate.deserializeUpgrade L msg = .ok S

/-- The last thing that happened is that the party put an output of its own in the slate that the peer had
sent, for the amount of that slate. -/
def PutOutput (L : GrinLib K P) (protocol : Protocol) (stage : Stage) (past : Trace K P σ) (o : Output) :
    Prop :=
  ∃ pre s s' ans S₁ S₂ key msg,
    past = pre ++ [⟨s, .recv, .ok msg⟩, ⟨s', .send (.slate protocol stage S₂), ans⟩] ∧
      Slate.deserializeUpgrade L msg = .ok S₁ ∧ L.commit S₁.amount key = some o.commit ∧
      S₂.tx.map Transaction.outputs = some (L.insertOutput o (S₁.tx.getD Transaction.empty).outputs)

/-- The last thing that happened is that the peer answered a slate in which the party had put an output. -/
def OutputAnswered (L : GrinLib K P) (protocol : Protocol) (stage : Stage) (past : Trace K P σ)
    (o : Output) (S : Slate K P) : Prop :=
  ∃ pre s msg, past = pre ++ [⟨s, .recv, .ok msg⟩] ∧ PutOutput L protocol stage pre o ∧
    Slate.deserializeUpgrade L msg = .ok S

omit [DecidableEq K] in
theorem PutOutput.append_left {protocol : Protocol} {stage : Stage} {past : Trace K P σ} {o : Output}
    (h : PutOutput L protocol stage past o) (t₀ : Trace K P σ) :
    PutOutput L protocol stage (t₀ ++ past) o := by
  obtain ⟨pre, s, s', ans, S₁, S₂, key, msg, rfl, h⟩ := h
  exact ⟨t₀ ++ pre, s, s', ans, S₁, S₂, key, msg, (List.append_assoc _ _ _).symm, h⟩

omit [DecidableEq K] in
theorem OutputAnswered.append_left {protocol : Protocol} {stage : Stage} {past : Trace K P σ} {o : Output}
    {S : Slate K P} (h : OutputAnswered L protocol stage past o S) (t₀ : Trace K P σ) :
    OutputAnswered L protocol stage (t₀ ++ past) o S := by
  obtain ⟨pre, s, msg, rfl, hput, hread⟩ := h
  exact ⟨t₀ ++ pre, s, msg, (List.append_assoc _ _ _).symm, hput.append_left t₀, hread⟩

section Exchange

variable {α : Type} {f : Slate K P → Process K P σ α} {R : Trace K P σ → σ → Op K P → Prop}
  {Q : Trace K P σ → σ → α → Prop} {s : σ} {past : Trace K P σ}

omit [DecidableEq K] in
theorem sat_receiveSlate_bind (hrecv : R past s .recv)
    (h : ∀ msg S, Slate.deserializeUpgrade L msg = .ok S →
      (f S s).Sat R Q (past ++ [⟨s, .recv, .ok msg⟩])) :
    ((receiveSlate L >>= f) s).Sat R Q past := by
  have hsat : ((receiveMsg >>= fun msg => Proc.lift (Outcome.expect unwrapErr
      (Slate.deserializeUpgrade L msg)) >>= f) s).Sat R Q past := by
    refine Prog.sat_request_bind hrecv fun ans msg hmsg => Prog.sat_lift_bind fun S hS => ?_
    obtain rfl := Outcome.expect_eq_ok.mp hmsg
    exact h msg S (Outcome.expect_eq_ok.mp hS)
  simpa only [receiveSlate, Proc.bind_apply, Prog.bind_assoc] using hsat

omit [DecidableEq K] in
/-- A process that sends a slate and waits for the answer goes on with that. -/
theorem sat_exchange_bind {protocol : Protocol} {stage : Stage} {S₁ : Slate K P}
    (hsend : R past s (.send (.slate protocol stage S₁)))
    (hrecv : ∀ past', Extends (Op.OfProtocol protocol) s past past' → R past' s .recv)
    (h : ∀ past' S, Answered L protocol stage past' S →
      Extends (Op.OfProtocol protocol) s past past' → (f S s).Sat R Q past') :
    ((sendMsg (.slate protocol stage S₁) >>= fun _ => receiveSlate L >>= f) s).Sat R Q past := by
  refine Prog.sat_request_bind hsend fun ans _ _ =>
    sat_receiveSlate_bind (hrecv _ ⟨[_], rfl, by simp [Op.OfProtocol]⟩) fun msg S hS => ?_
  exact h _ S ⟨past, s, s, ans, S₁, msg, by simp, hS⟩
    ⟨[⟨s, .send (.slate protocol stage S₁), ans⟩, ⟨s, .recv, .ok msg⟩], by simp,
      by simp [Op.OfProtocol]⟩

end Exchange

/-- What `dshared_inp_mw_tx_bob` returns holds a transaction. -/
theorem dsharedInpMwTxBob_returns {sigNonce : K} {rand : RecvRand K} {inp : MWCoin}
    {fundValue timelock : ℕ} :
    (dsharedInpMwTxBob L sigNonce rand inp fundValue timelock : Process K P σ _).Returns
      fun r => r.tx.tx.isSome := by
  intro s past
  refine sat_receiveSlate_bind trivial fun _ _ _ => Prog.sat_lift_bind fun _ _ =>
    Prog.sat_lift_bind fun _ _ => Prog.sat_lift_bind fun _ _ =>
    Prog.sat_request_bind trivial fun _ _ _ => sat_receiveSlate_bind trivial fun _ _ _ =>
    Prog.sat_lift_bind fun _ _ => Prog.sat_lift_bind fun fin hfin => ?_
  obtain ⟨tx, k, k', -, -, -, rfl, -⟩ := Slate.finalize_eq_ok (Outcome.expect_eq_ok.mp hfin)
  rfl

/-- What holds of the operations of `dshared_inp_mw_tx_alice`: the signed slate describes the kernel
that the peer's answer describes. -/
def SharedInpAliceOp (L : GrinLib K P) (past : Trace K P σ) : Op K P → Prop
  | .recv => True
  | .send (.slate .sharedInp .ptx _) => True
  | .send (.slate .sharedInp .tx S) =>
    ∃ S₂, Answered L .sharedInp .ptx past S₂ ∧ S.msgToSign L = S₂.msgToSign L
  | _ => False

theorem dsharedInpMwTxAlice_sat {rand : SpendRand K} {inp : MWCoin} {fundValue timelock : ℕ} (s : σ)
    (past : Trace K P σ) :
    (dsharedInpMwTxAlice L rand inp fundValue timelock s).Sat
      (fun past' s' op => s' = s ∧ SharedInpAliceOp L past' op) (fun _ s' _ => s' = s) past := by
  refine Prog.sat_lift_bind fun _ _ => sat_exchange_bind ⟨rfl, trivial⟩
    (fun _ _ => ⟨rfl, trivial⟩) fun past' S₂ hans _ => Prog.sat_lift_bind fun S₃ hS₃ =>
      Prog.sat_lift_bind fun S hS => ?_
  have hmsg : S.msgToSign L = S₂.msgToSign L := by
    obtain ⟨tx, features, -, -, rfl⟩ := Slate.updateKernel_eq_ok.mp (Outcome.expect_eq_ok.mp hS₃)
    rw [finTx_msgToSign hS]
    rfl
  exact Prog.sat_request_bind ⟨rfl, S₂, hans, hmsg⟩ fun _ _ _ => rfl

/-- What holds of the operations of `dcontract_mw_tx_bob`: the final slate has the inputs and outputs of
the slate with which the peer answered, after the party had put its output in. -/
def ContractBobOp (L : GrinLib K P) (past : Trace K P σ) : Op K P → Prop
  | .recv => True
  | .send (.slate .contract .ptx2 _) => True
  | .send (.slate .contract .tx S) =>
    ∃ o S₃ tx₃ tx, OutputAnswered L .contract .ptx2 past o S₃ ∧ S₃.tx = some tx₃ ∧ S.tx = some tx ∧
      tx.inputs = tx₃.inputs ∧ tx.outputs = tx₃.outputs
  | _ => False

theorem dcontractMwTxBob_sat {sigNonce x : K} {rand : RecvRand K} {inp : MWCoin}
    {fundValue timelock : ℕ} (s : σ) (past : Trace K P σ) :
    (dcontractMwTxBob L sigNonce rand inp fundValue timelock x s).Sat
      (fun past' s' op => s' = s ∧ ContractBobOp L past' op ∧
        Extends (Op.OfProtocol .contract) s past past') (fun _ s' _ => s' = s) past := by
  refine sat_receiveSlate_bind ⟨rfl, trivial, .refl⟩ fun msg₁ S₁ hS₁ => ?_
  have hext₁ : Extends (Op.OfProtocol .contract) s past (past ++ [⟨s, .recv, .ok msg₁⟩]) :=
    ⟨[_], rfl, by simp [Op.OfProtocol]⟩
  refine Prog.sat_lift_bind fun dspend hdspend => Prog.sat_lift_bind fun recv hrecv =>
    Prog.sat_request_bind ⟨rfl, trivial, hext₁⟩ fun ans _ _ => ?_
  -- the output that is in the second slate
  obtain ⟨hamount, data₁, hslate⟩ := dSpendCoins_keeps hdspend
  obtain ⟨o, hcommit, houts⟩ := aptRecvCoins_output hrecv
  rw [hslate] at houts
  have hput : PutOutput L .contract .ptx2
      (past ++ [⟨s, .recv, .ok msg₁⟩] ++ [⟨s, .send (.slate .contract .ptx2 recv.slate), ans⟩]) o :=
    ⟨past, s, s, ans, S₁, recv.slate, rand.outCoinKey, msg₁, by simp, hS₁, by rw [hamount, hcommit], houts⟩
  have hext₂ : Extends (Op.OfProtocol .contract) s past (past ++ [⟨s, .recv, .ok msg₁⟩] ++
      [⟨s, .send (.slate .contract .ptx2 recv.slate), ans⟩]) :=
    hext₁.trans ⟨[_], rfl, by simp [Op.OfProtocol]⟩
  refine sat_receiveSlate_bind ⟨rfl, trivial, hext₂⟩ fun msg₃ S₃ hS₃ => Prog.sat_lift_bind fun S hS => ?_
  obtain ⟨data, tx₃, tx, htx₃, rfl, hinputs, houtputs⟩ := finTx_keeps hS
  refine Prog.sat_request_bind ⟨rfl, ?_, hext₂.trans ⟨[_], rfl, by simp [Op.OfProtocol]⟩⟩ fun _ _ _ => rfl
  exact ⟨o, S₃, tx₃, tx, ⟨_, s, msg₃, rfl, hput, hS₃⟩, htx₃, rfl, hinputs, houtputs⟩

end MwBtcSwap.Grin
