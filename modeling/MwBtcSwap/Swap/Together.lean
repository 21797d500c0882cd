import MwBtcSwap.Swap.Completes
import MwBtcSwap.Swap.Hosted
import MwBtcSwap.Swap.Spend
import MwBtcSwap.Swap.World

/-! Two honest parties lock a swap: `listen` and `lock` at the same time, with nodes that answer and disks
that hold their slates.  However the steps of the two are ordered, both commands return, and the files and
the chains have what an execution or a refund needs. -/

namespace MwBtcSwap

open Interaction Machine Grin Bitcoin Relation Confluence

variable {K P : Type} [CommRing K] [AddCommGroup P] [Module K P] [DecidableEq K] [DecidableEq P]

variable {L : GrinLib K P} {B : BtcLib K P} {F : FileLib K P} {swapid clients : ℕ}
  {mw btc : SwapSlate K P} {ra rb : Rand K} {nodes nodes' : Nodes K P (SwapSlate K P)}

/-! ### A locked swap -/

/-- The secrets of the two parties in a locked swap, the heights of the two locks and the id of the lock
transaction. -/
structure SwapTerms (K : Type) where
  skA : K
  skB : K
  x : K
  shareA : K
  shareB : K
  heightBtc : ℕ
  heightGrin : ℕ
  txid : Txid

/-- The commitment of the shared coin. -/
def SwapTerms.sharedCommit (d : SwapTerms K) (L : GrinLib K P) (value : ℕ) : Commitment :=
  (sharedInput L value d.shareA d.shareB).commit

/-- The output that locks the Bitcoin. -/
def SwapTerms.lockOut (d : SwapTerms K) (B : BtcLib K P) (amount : ℕ) : TxOut :=
  ⟨amount, lockOf B d.skA d.x d.skB d.heightBtc true⟩

/-- A Bitcoin transaction pays what an outpoint has, less the fee, to a key that the party recorded, and a
block can hold it on the chains with `C`. -/
structure PaysBtc (B : BtcLib K P) (o : OutPoint) (out : TxOut) (C : BtcChain → Prop) (key : K)
    (tx : Bitcoin.Transaction) (coin : Option BTCInput) : Prop where
  output : tx.output =
    [⟨out.value - btcFee, getP2pkhPubScript B (B.publicKey (createPrivateKey key))⟩]
  recorded : coin = some (BTCInput.new2 B (B.txid tx).toText 0 (out.value - btcFee)
    (createPrivateKey key) (B.publicKey (createPrivateKey key))
    (getP2pkhPubScript B (B.publicKey (createPrivateKey key))))
  accepts : ∀ chain, C chain → chain.HasOutput B o out → (¬ chain.Spent o fun _ _ => True) →
    chain.Accepts B tx

/-- A Grin transaction pays what a commitment has, less the fee, to a coin that the party recorded, and a
block can hold it on the chains with `C`. -/
structure PaysGrin (L : GrinLib K P) (com : Commitment) (value : ℕ) (C : GrinChain K P → Prop)
    (recv : RecvRand K) (tx : Grin.Transaction K P) (coin : Option MWCoin) : Prop where
  outputs : tx.outputs = [recvOutput L recv (value - L.txFee 1 1 1)]
  recorded : coin = some (recvCoin L recv (value - L.txFee 1 1 1))
  accepts : ∀ chain, C chain → com ∈ chain.unspent →
    (recvOutput L recv (value - L.txFee 1 1 1)).commit ∉ chain.unspent → chain.Accepts L tx

/-- The slates of the Grin owner and of the Bitcoin owner when the coins of both are locked. -/
structure SwapLocked (L : GrinLib K P) (B : BtcLib K P) (d : SwapTerms K) (recv : RecvRand K)
    (mw btc : SwapSlate K P) : Prop where
  pub : btc.pubSlate = mw.pubSlate
  status : mw.pubSlate.status = .setup
  time : mw.pubSlate.mw.lockTime = some (d.heightGrin : ℤ)
  lockMw : LockedMw B mw (createPrivateKey d.skA) (B.publicKey (createPrivateKey d.x))
    (B.publicKey (createPrivateKey d.skB)) d.heightBtc d.txid.toText
  lockBtc : LockedBtc B btc (createPrivateKey d.skB) (createPrivateKey d.x)
    (B.publicKey (createPrivateKey d.skA)) d.heightBtc d.txid.toText
  coins : ∃ coinA coinB, mw.prvSlate.mw.sharedCoin = some coinA ∧
    btc.prvSlate.mw.sharedCoin = some coinB ∧ coinB.value = mw.pubSlate.mw.amount ∧
    SharedCoin L coinA coinB mw.pubSlate.mw.amount d.shareA d.shareB
  refund : ∃ tx, mw.prvSlate.mw.refundTx = some tx ∧
    PaysGrin L (d.sharedCommit L mw.pubSlate.mw.amount) mw.pubSlate.mw.amount
      (fun chain => d.heightGrin ≤ chain.height) recv tx mw.prvSlate.mw.refundCoin
  spends : SpendsAll L mw.pubSlate.mw.amount (mw.pubSlate.mw.amount - L.txFee 1 1 1)
  amount : btcFee ≤ mw.pubSlate.btc.amount
  keyA : d.skA • B.G ≠ 0
  keyX : d.x • B.G ≠ 0
  keyB : d.skB • B.G ≠ 0
  txid : d.txid.bytes.length = 32
  heightGrin : d.heightGrin < 2 ^ 63
  heightBtc : 1 ≤ d.heightBtc ∧ d.heightBtc < lockTimeThreshold

omit [DecidableEq K] in
/-- A transaction that spends the shared coin alone, balanced and with a kernel that is mature. -/
theorem accepts_of_shared {value : ℕ} {shareA shareB : K} {recv : RecvRand K} {fundValue : ℕ}
    {txA txB : Option (Grin.Transaction K P)} {coin : Option MWCoin} {tx : Grin.Transaction K P}
    {chain : GrinChain K P} (h : SharedInpDone L recv value shareA shareB fundValue txA txB coin)
    (htx : txB = some tx) (hmatured : ∀ k ∈ tx.kernels, k.features.Matured chain.height)
    (hunspent : (sharedInput L value shareA shareB).commit ∈ chain.unspent)
    (hfresh : (recvOutput L recv fundValue).commit ∉ chain.unspent) : chain.Accepts L tx := by
  obtain ⟨tx', -, htx', hin, hout, -, hsums, kernel, hkernels, hverify⟩ := h
  obtain rfl : tx = tx' := Option.some.inj (htx.symm.trans htx')
  refine ⟨fun com hcom => ?_, fun o ho => ?_, hsums, fun k hk => ⟨?_, hmatured k hk⟩⟩
  · rw [Grin.Transaction.Spends, hin] at hcom
    obtain rfl : com = (sharedInput L value shareA shareB).commit := by simpa using hcom
    exact hunspent
  · rw [hout, List.mem_singleton] at ho
    rwa [ho]
  · rw [hkernels, List.mem_singleton] at hk
    rwa [hk]

omit [CommRing K] [AddCommGroup P] [Module K P] [DecidableEq K] [DecidableEq P] in
/-- A transaction that spends one outpoint, to whose script its input has the signatures. -/
theorem accepts_of_spend {tx : Bitcoin.Transaction} {i : TxIn} {out : TxOut} {chain : BtcChain}
    (hin : tx.input = [i]) (hfinal : tx.IsFinal chain.height chain.mtp)
    (hsat : B.satisfies tx 0 out.scriptPubkey = true) (hout : chain.HasOutput B i.previousOutput out)
    (hunspent : ¬ chain.Spent i.previousOutput fun _ _ => True) : chain.Accepts B tx := by
  refine ⟨hfinal, by simp [hin], fun j hj => ?_, fun ix j hj => ?_⟩
  · rw [hin, List.mem_singleton] at hj
    rwa [hj]
  · rw [hin] at hj
    obtain ⟨rfl, rfl⟩ : ix = 0 ∧ i = j := by
      cases ix with
      | zero => exact ⟨rfl, Option.some.inj hj⟩
      | succ n => cases hj
    exact ⟨out, hout, hsat⟩

/-! ### Commands of the two parties -/

/-- The commands of the Grin owner and of the Bitcoin owner when the offerer listens. -/
def Role.commands (offerer : Role) (swapid clients : ℕ) (taken : Command) : Command × Command :=
  match offerer with
  | .mw => (.listen swapid (clients + 1), taken)
  | .btc => (taken, .listen swapid (clients + 1))

/-- The Grin owner and the Bitcoin owner at the start of two commands. -/
def commandStart (L : GrinLib K P) (B : BtcLib K P) (mw btc : SwapSlate K P) (ra rb : Rand K)
    (commands : Command × Command) :
    Actors K P (SwapSlate K P) (SwapSlate K P) (Option Phase) (Option Phase) :=
  (⟨[], main L B ra commands.1 mw⟩, ⟨[], main L B rb commands.2 btc⟩)

/-- The slate of the offerer. -/
def offered (mw btc : SwapSlate K P) : SwapSlate K P :=
  match mw.offerer with
  | .mw => mw
  | .btc => btc

/-- The files of both parties hold the slates with which their commands returned, and both completed the
phase. -/
structure Completed (F : FileLib K P) (phase : Phase) (mw btc : SwapSlate K P)
    (t : Trace K P (SwapSlate K P)) (mw' : SwapSlate K P) (phaseMw : Option Phase)
    (u : Trace K P (SwapSlate K P)) (btc' : SwapSlate K P) (phaseBtc : Option Phase) : Prop where
  phaseMw : phaseMw = some phase
  phaseBtc : phaseBtc = some phase
  filesMw : (mw.files F).after F t = mw'.files F
  filesBtc : (btc.files F).after F u = btc'.files F

theorem truthful_of_steps {commands : Command × Command}
    {c : Actors K P (SwapSlate K P) (SwapSlate K P) (Option Phase) (Option Phase)}
    (hmw : Hosted F (mw.files F) nodes) (hbtc : Hosted F (btc.files F) nodes')
    (h : JointSteps L nodes nodes' (commandStart L B mw btc ra rb commands) c) :
    Truthful F (mw.files F) c.1.past ∧ Truthful F (btc.files F) c.2.past :=
  ⟨h.truthful hmw trivial, h.swap.truthful hbtc trivial⟩

/-- What returns from two commands on truthful disks is in the files. -/
theorem completed_of_steps {phase : Phase} {commands : Command × Command}
    {t u : Trace K P (SwapSlate K P)} {mw' btc' : SwapSlate K P} (hmw : Hosted F (mw.files F) nodes)
    (hbtc : Hosted F (btc.files F) nodes')
    (h : JointSteps L nodes nodes' (commandStart L B mw btc ra rb commands)
      (⟨t, .ret mw' (some phase)⟩, ⟨u, .ret btc' (some phase)⟩)) :
    Completed F phase mw btc t mw' (some phase) u btc' (some phase) := by
  obtain ⟨htrue, htrue'⟩ := truthful_of_steps hmw hbtc h
  obtain ⟨t', u', ht, hu, hrun, hrun', -⟩ := h.extends
  obtain rfl : t = t' := ht
  obtain rfl : u = u' := hu
  exact ⟨rfl, rfl, main_written hrun htrue, main_written hrun' htrue'⟩

/-- The parties return with the files that they have then. -/
theorem JointReaches.completed {phase : Phase} {commands : Command × Command}
    {Q : Trace K P (SwapSlate K P) → SwapSlate K P → Trace K P (SwapSlate K P) → SwapSlate K P → Prop}
    (hmw : Hosted F (mw.files F) nodes) (hbtc : Hosted F (btc.files F) nodes')
    (h : JointReaches L nodes nodes' (fun c => ∃ t mw' u btc',
        c = (⟨t, .ret mw' (some phase)⟩, ⟨u, .ret btc' (some phase)⟩) ∧ Q t mw' u btc')
      (commandStart L B mw btc ra rb commands)) :
    Inevitable (JointStep L nodes nodes') (BothReturned fun t mw' a u btc' b =>
        Completed F phase mw btc t mw' a u btc' b ∧ Q t mw' u btc')
      (commandStart L B mw btc ra rb commands) := by
  refine JointReaches.inevitable ?_
  obtain ⟨_, hsteps, t, mw', u, btc', rfl, hQ⟩ := h
  exact ⟨_, hsteps, t, mw', _, u, btc', _, rfl, completed_of_steps hmw hbtc hsteps, hQ⟩

/-! ### The lock handshake -/

section Locking

variable {p : LockPlan K}

/-- The terms of the swap that a locking phase makes. -/
def LockPlan.terms (p : LockPlan K) (B : BtcLib K P) (mw : SwapSlate K P) (ra rb : Rand K) : SwapTerms K where
  skA := ra.lockMw.skA
  skB := rb.lockBtc.skB
  x := rb.lockBtc.x
  shareA := ra.lockMw.drecv.outCoinBlind
  shareB := rb.lockBtc.drecv.outCoinBlind
  heightBtc := p.heightBtc + mw.pubSlate.btc.timelock
  heightGrin := p.heightGrin + mw.pubSlate.mw.timelock
  txid := B.txid p.lock.signedTx

omit [DecidableEq K] [DecidableEq P] in
theorem sharedInput_comm {value : ℕ} {shareA shareB : K} :
    sharedInput L value shareA shareB = sharedInput L value shareB shareA := by
  rw [sharedInput, sharedInput, add_comm]

section

omit [DecidableEq K]

/-- The refund of an honest locking phase pays the shared coin from its lock height on. -/
theorem LockPlan.Shares.pays {ra : LockMwRand K} {rb : LockBtcRand K} {tx : Grin.Transaction K P}
    {sharedA sharedB : DSharedOutMwTxResult K P} {refund : DBuildMWTxResult K P}
    (h : p.Shares L mw ra rb tx sharedA sharedB refund) : ∃ refundTx, refund.tx.tx = some refundTx ∧
      PaysGrin L (sharedInput L mw.pubSlate.mw.amount ra.drecv.outCoinBlind rb.drecv.outCoinBlind).commit
        mw.pubSlate.mw.amount (fun chain => p.heightGrin + mw.pubSlate.mw.timelock ≤ chain.height)
        ra.recv refundTx refund.coin := by
  obtain ⟨txA, hdone⟩ := h.sharedInp
  obtain ⟨refundTx, -, htx, -, hout, hcoin, -⟩ := id hdone
  refine ⟨refundTx, htx, hout, hcoin, fun chain hheight hunspent hfresh => ?_⟩
  rw [sharedInput_comm] at hunspent
  refine accepts_of_shared hdone htx (fun k hk => ?_) hunspent hfresh
  obtain ⟨tx', kernel, fee, htx', hkernels, hfeatures, -⟩ := h.timelocked
  obtain rfl := Option.some.inj (htx.symm.trans htx')
  rw [hkernels, List.mem_singleton] at hk
  rw [hk, hfeatures]
  split_ifs
  · trivial
  · exact hheight

/-- The terms keep the amount and the heights in their bounds. -/
structure LockPlan.Bounded (p : LockPlan K) (mw : SwapSlate K P) : Prop where
  amount : btcFee ≤ mw.pubSlate.btc.amount
  positive : 1 ≤ p.heightBtc + mw.pubSlate.btc.timelock
  height : p.heightBtc + mw.pubSlate.btc.timelock < lockTimeThreshold

/-- The slates that an honest locking phase leaves. -/
theorem Fundable.locked (hB : B.Lawful) (h : Fundable L B mw btc ra.lockMw rb.lockBtc p)
    (hbound : p.Bounded mw) {tx : Grin.Transaction K P} {sharedA sharedB : DSharedOutMwTxResult K P}
    {refund : DBuildMWTxResult K P}
    (hshares : p.Shares L mw ra.lockMw rb.lockBtc tx sharedA sharedB refund) :
    SwapLocked L B (p.terms B mw ra rb) ra.lockMw.recv
      ((p.verified B mw ra.lockMw rb.lockBtc).fundedMw (p.heightGrin + mw.pubSlate.mw.timelock : ℕ) sharedA
        refund)
      ((p.sent B btc ra.lockMw rb.lockBtc).fundedBtc (p.heightGrin + mw.pubSlate.mw.timelock : ℕ)
        sharedB) := by
  have hscript : p.lock.lockOut.scriptPubkey = lockPubScript B _ _ _ _ true :=
    congrArg TxOut.scriptPubkey (signedLockTransaction_lockOut h.lock)
  refine ⟨?_, rfl, rfl, ⟨rfl, rfl, rfl, rfl, rfl, rfl⟩, ⟨rfl, rfl, rfl, ?_, ?_⟩,
    ⟨_, _, rfl, rfl, hshares.value, hshares.coin⟩, hshares.pays, h.spends, hbound.amount, h.keyA, h.keyX,
    h.keyB, hB.txid_length _, h.heightGrin, hbound.positive, hbound.height⟩
  · simp [SwapSlate.fundedMw, SwapSlate.fundedBtc, LockPlan.verified, LockPlan.sent,
      SwapSlate.verifiedMw, SwapSlate.sentBtc, h.pub]
  · simp [SwapSlate.fundedBtc, LockPlan.sent, SwapSlate.sentBtc, LockPlan.terms, h.pub]
  · simp [SwapSlate.fundedBtc, LockPlan.sent, SwapSlate.sentBtc, LockPlan.terms, hscript]

omit [DecidableEq P] in
theorem output_of_signedLockTransaction {pubA pubX pubB pubR : PublicKey P} {inputs : List BTCInput}
    {amount : ℕ} {lockHeight : ℤ} {lock : SignedLock}
    (h : signedLockTransaction B pubA pubX pubB pubR inputs amount lockHeight = .ok lock) :
    lock.signedTx.output[0]? = some ⟨amount, lockPubScript B pubA pubX pubB lockHeight true⟩ := by
  have hout := signedLockTransaction_lockOut h
  simp only [signedLockTransaction, signP2pkhTransaction, Outcome.bind_eq_ok, Outcome.unwrap_eq_ok,
    Outcome.pure_eq_ok, Except.ok.injEq] at h
  obtain ⟨txLock, -, lockOut, hlock, _, -, _, -, _, -, _, -, _, -, _, ⟨_, -, rfl⟩, rfl⟩ := h
  rw [hlock]
  exact congrArg some hout

/-- The transactions that the parties sent to their nodes: one with the locked output, and a balanced one
with the shared coin. -/
structure SentLocks (L : GrinLib K P) (B : BtcLib K P) (d : SwapTerms K) (mw : SwapSlate K P)
    (t u : Trace K P (SwapSlate K P)) : Prop where
  lockTx : ∃ s tx, ⟨s, .sendRawTransaction tx, .ok ()⟩ ∈ u ∧ B.txid tx = d.txid ∧
    tx.output[0]? = some (d.lockOut B mw.pubSlate.btc.amount)
  fundingTx : ∃ s tx, ⟨s, .pushTransaction tx, .ok ()⟩ ∈ t ∧ Balanced L tx ∧
    d.sharedCommit L mw.pubSlate.mw.amount ∈ tx.outputs.map Output.commit

theorem LockPlan.Shares.funding {ra : LockMwRand K} {rb : LockBtcRand K} {tx : Grin.Transaction K P}
    {sharedA sharedB : DSharedOutMwTxResult K P} {refund : DBuildMWTxResult K P}
    (h : p.Shares L mw ra rb tx sharedA sharedB refund) : Balanced L tx ∧
      (sharedInput L mw.pubSlate.mw.amount ra.drecv.outCoinBlind rb.drecv.outCoinBlind).commit ∈
        tx.outputs.map Output.commit := by
  obtain ⟨-, -, tx', _, htx, -, hmem, -, hbalanced, -⟩ := h.sharedOut
  obtain rfl : tx = tx' := Option.some.inj (h.fundingTx.symm.trans htx)
  exact ⟨hbalanced, hmem⟩

end

/-- Where the two commands end. -/
def LockPlan.EndsLocked (p : LockPlan K) (L : GrinLib K P) (B : BtcLib K P) (mw : SwapSlate K P)
    (ra rb : Rand K) (t : Trace K P (SwapSlate K P)) (mw' : SwapSlate K P)
    (u : Trace K P (SwapSlate K P)) (btc' : SwapSlate K P) : Prop :=
  SwapLocked L B (p.terms B mw ra rb) ra.lockMw.recv mw' btc' ∧ SentLocks L B (p.terms B mw ra rb) mw t u

/-- The locking phases of two commands, and what the commands do then. -/
theorem Lockable.finishes (hL : L.Lawful) (hB : B.Lawful)
    (h : Lockable L B mw btc ra.lockMw rb.lockBtc p) (hbound : p.Bounded mw)
    (hmw : Hosted F (mw.files F) nodes) (hbtc : Hosted F (btc.files F) nodes')
    (hnodes : MwNodes nodes p.heightGrin mw.pubSlate.btc.amount)
    (hnodes' : BtcNodes nodes' p.heightBtc) {past past' : Trace K P (SwapSlate K P)}
    (hpast : Opening past) :
    JointReaches L nodes nodes' (fun c => ∃ t mw' u btc',
        c = (⟨t, .ret mw' (some .locking)⟩, ⟨u, .ret btc' (some .locking)⟩) ∧
          p.EndsLocked L B mw ra rb t mw' u btc')
      (⟨past, (lockingPhase L B ra .mw >>= fun _ => finish .locking) mw⟩,
        ⟨past', (lockingPhase L B rb .btc >>= fun _ => finish .locking) btc⟩) := by
  obtain ⟨_, hsteps, t, mw', u, btc', rfl, hlocked, hsent⟩ : JointReaches L nodes nodes' (fun c =>
      ∃ t mw' u btc', c = (⟨t, .ret mw' ()⟩, ⟨u, .ret btc' ()⟩) ∧ p.EndsLocked L B mw ra rb t mw' u btc')
      (⟨past, lockingPhaseSwapMw L B ra.lockMw mw⟩, ⟨past', lockingPhaseSwapBtc L B rb.lockBtc btc⟩) := by
    refine h.toFundable.reaches hL hB hnodes hnodes' (fun _ => ?_)
      (fun hzero => (h.change.ne' hzero).elim) hpast
    rintro past past' m tx sharedA sharedB refund hshares ⟨s, hs⟩
    exact ⟨_, _, _, _, rfl, h.toFundable.locked hB hbound hshares,
      ⟨s, _, hs, rfl, output_of_signedLockTransaction h.lock⟩,
      ⟨m, tx, List.mem_append_right _ (List.mem_singleton_self _), hshares.funding⟩⟩
  refine jointReaches_finish hmw hbtc hsteps ⟨_, _, _, _, rfl, hlocked, ?_⟩
  obtain ⟨⟨s, tx, hs, hlock⟩, ⟨s', tx', hs', hfunding⟩⟩ := hsent
  exact ⟨⟨s, tx, List.mem_append_left _ hs, hlock⟩, ⟨s', tx', List.mem_append_left _ hs', hfunding⟩⟩

/-- `listen` and `lock` of two honest parties with an initialized swap can return together. -/
theorem lock_reaches (hL : L.Lawful) (hB : B.Lawful)
    (h : Lockable L B mw btc ra.lockMw rb.lockBtc p) (hbound : p.Bounded mw)
    (hinit : mw.pubSlate.status = .initialized)
    {value : ℕ} (hvalue : (offeredValue L (offered mw btc)).1 = .ok value)
    (henough : (offeredValue L (offered mw btc)).2 ≤ value) (hmw : Hosted F (mw.files F) nodes)
    (hbtc : Hosted F (btc.files F) nodes') (hnodes : MwNodes nodes p.heightGrin mw.pubSlate.btc.amount)
    (hnodes' : BtcNodes nodes' p.heightBtc) :
    JointReaches L nodes nodes' (fun c => ∃ t mw' u btc',
        c = (⟨t, .ret mw' (some .locking)⟩, ⟨u, .ret btc' (some .locking)⟩) ∧
          p.EndsLocked L B mw ra rb t mw' u btc')
      (commandStart L B mw btc ra rb (mw.offerer.commands swapid clients (.lock swapid))) := by
  have hbtcRole : btc.offerer = mw.offerer := by rw [SwapSlate.offerer, h.pub, SwapSlate.offerer]
  have hsame : SamePublic F mw btc (mw.files F) (btc.files F) :=
    ⟨h.pub, rfl, by rw [SwapSlate.files, h.pub]⟩
  have hsame' : SamePublic F btc mw (btc.files F) (mw.files F) :=
    ⟨h.pub.symm, rfl, by rw [SwapSlate.files, h.pub]⟩
  rw [offered] at hvalue henough
  have hmwTaker := taker_eq mw
  have hbtcTaker := taker_eq btc
  rw [hbtcRole] at hbtcTaker
  cases hrole : mw.offerer with
  | mw =>
    rw [hrole] at hvalue henough hbtcTaker
    refine jointReaches_lock hsame hmw hbtc hinit hvalue henough fun past past' hpast _ => ?_
    rw [hrole, hbtcTaker]
    exact h.finishes hL hB hbound hmw hbtc hnodes hnodes' hpast
  | btc =>
    rw [hrole] at hvalue henough hmwTaker hbtcRole
    refine JointReaches.swap (jointReaches_lock hsame' hbtc hmw (by rw [h.pub, hinit]) hvalue henough
      fun past past' _ hpast => JointReaches.swap ?_)
    rw [hbtcRole, hmwTaker]
    exact h.finishes hL hB hbound hmw hbtc hnodes hnodes' hpast

end Locking

/-! ### A sample of a locked swap -/

theorem sample_bounded (lock : SignedLock) : (samplePlan lock).Bounded sampleFunded :=
  ⟨by decide, show 1 ≤ 700000 + 40 by decide, show 700000 + 40 < lockTimeThreshold by decide⟩

/-- The slates of the sample after the lock handshake. -/
theorem sample_swapLocked : ∃ lock sharedA sharedB refund, SwapLocked exponents (btcExponents [])
    ((samplePlan lock).terms (btcExponents []) sampleFunded sampleRand sampleRand) sampleRand.lockMw.recv
    (sampleOffererSetup lock sharedA refund) (sampleTakerSetup lock sharedB) := by
  obtain ⟨lock, h⟩ := sample_lockable
  obtain ⟨_, -, sharedA, sharedB, refund, hlocked⟩ : JointReaches exponents
      (promptNodes 1500000 700000 100000) (promptNodes 1500000 700000 100000) (fun _ =>
        ∃ sharedA sharedB refund, SwapLocked exponents (btcExponents [])
          ((samplePlan lock).terms (btcExponents []) sampleFunded sampleRand sampleRand)
          sampleRand.lockMw.recv (sampleOffererSetup lock sharedA refund) (sampleTakerSetup lock sharedB))
      (lockingStart exponents (btcExponents []) sampleFunded sampleTaker sampleRand.lockMw
        sampleRand.lockBtc) := by
    refine h.toFundable.reaches exponents_lawful (btcExponents_lawful [])
      (promptNodes_mw 1500000 700000 100000) (promptNodes_btc 1500000 700000 100000) (fun _ => ?_)
      (fun hzero => (h.change.ne' hzero).elim) rfl
    intro past past' m tx sharedA sharedB refund hshares _
    exact ⟨sharedA, sharedB, refund,
      Fundable.locked (btcExponents_lawful []) h.toFundable (sample_bounded lock) hshares⟩
  exact ⟨lock, sharedA, sharedB, refund, hlocked⟩

end MwBtcSwap
