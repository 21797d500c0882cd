import MwBtcSwap.Bitcoin.Core
import MwBtcSwap.Swap.Executed
import MwBtcSwap.Swap.Funded
import MwBtcSwap.Swap.Results
import MwBtcSwap.Swap.Spend

/-! The Grin owner in the world: whether its peer can take both coins once its partial signature for the
contract is out. -/

namespace MwBtcSwap

open Interaction Machine Grin Bitcoin Relation

variable {K P : Type} [CommRing K] [AddCommGroup P] [Module K P] [DecidableEq K] [DecidableEq P]

variable {L : GrinLib K P} {B : BtcLib K P}

/-- `dcontract_mw_tx_alice` has sent its partial signature, with a slate in memory. -/
def Released (past : Trace K P (SwapSlate K P)) (s : SwapSlate K P) (S : Slate K P) : Prop :=
  ∃ ans, ⟨s, .send (.slate .contract .ptx3 S), ans⟩ ∈ past

/-- The keys and the lock time of a lock, and its outpoint. -/
structure LockTerms (P : Type) where
  pubA : PublicKey P
  pubX : PublicKey P
  pubB : PublicKey P
  lockTime : ℤ
  outpoint : OutPoint

/-- The lock of a slate.  The lock time is an `i64`. -/
structure LockTerms.Of (B : BtcLib K P) (s : SwapSlate K P) (lock : LockTerms P) : Prop where
  pubA : ∃ text, s.pubSlate.btc.pubA = some text ∧ deserializePubKey B text = .ok lock.pubA
  pubX : ∃ text, s.pubSlate.btc.pubX = some text ∧ deserializePubKey B text = .ok lock.pubX
  pubB : ∃ text, s.pubSlate.btc.pubB = some text ∧ deserializePubKey B text = .ok lock.pubB
  lockTime : s.pubSlate.btc.lockTime = some lock.lockTime
  range : -2 ^ 63 ≤ lock.lockTime ∧ lock.lockTime < 2 ^ 63
  outpoint : ∃ input, s.prvSlate.btc.lock = some input ∧ input.outpoint = some lock.outpoint

namespace World

variable (L : GrinLib K P) (B : BtcLib K P) (w : World K P)

/-- The lock was spent through the refund branch. -/
def LockRefunded (lock : LockTerms P) : Prop :=
  w.btc.Spent lock.outpoint (RefundSpend B lock.pubA lock.pubX lock.pubB lock.lockTime)

/-- The lock was spent through the branch of the Grin owner. -/
def LockRedeemed (lock : LockTerms P) : Prop :=
  w.btc.Spent lock.outpoint (RedeemSpend B lock.pubA lock.pubX lock.pubB lock.lockTime)

/-- The shared coin of a slate was spent by a contract for which its partial signature was sent. -/
def ContractSpent (s : SwapSlate K P) : Prop :=
  ∃ coin com S, s.prvSlate.mw.sharedCoin = some coin ∧
    deserializeCommitment L coin.commitment = .ok com ∧ Released w.past s S ∧
    ∃ tx ∈ w.grin.mined, tx.Spends com ∧ HasKernelOf L S tx

/-- The Grin owner has lost both coins. -/
def BothTaken : Prop :=
  ∃ s lock, lock.Of B s ∧ w.ContractSpent L s ∧ w.LockRefunded B lock

/-- Once the partial signature is out, the lock is redeemed before a refund is final. -/
def RedeemsInTime : Prop :=
  ∀ s S (lock : LockTerms P), Released w.past s S → lock.Of B s →
    w.LockRedeemed B lock ∨ ¬ RefundTimePassed lock.lockTime w.btc.height w.btc.mtp

end World

/-! ### Spends of the lock -/

variable {peer : World K P → Grin.Transaction K P → Prop} {w w' w₀ : World K P} {lock : LockTerms P}

section

omit [CommRing K] [AddCommGroup P] [Module K P] [DecidableEq K] [DecidableEq P]

/-- An input takes one of the two branches. -/
theorem RefundSpend.not_redeem {recvPk pubX refundPk : PublicKey P} {refundTime : ℤ}
    {tx : Bitcoin.Transaction} {ix : ℕ} (h : RefundSpend B recvPk pubX refundPk refundTime tx ix) :
    ¬ RedeemSpend B recvPk pubX refundPk refundTime tx ix := by
  rintro ⟨stack', ⟨i', hi', -, heval'⟩, c', sigX, sigA, rest', rfl, hfalse, -⟩
  obtain ⟨stack, ⟨i, hi, -, heval⟩, c, sig, rest, rfl, htrue, -⟩ := h
  cases hi.symm.trans hi'
  rw [heval, Option.some.injEq, List.cons.injEq, List.cons.injEq] at heval'
  obtain ⟨-, rfl, -⟩ := heval'
  cases htrue.symm.trans hfalse

/-- An outpoint is in one input of a transaction. -/
theorem BtcChain.Accepts.index_unique {chain : BtcChain} {tx : Bitcoin.Transaction}
    (h : chain.Accepts B tx) {ix ix' : ℕ} {i i' : TxIn} (hi : tx.input[ix]? = some i)
    (hi' : tx.input[ix']? = some i') (hsame : i.previousOutput = i'.previousOutput) : ix = ix' := by
  obtain ⟨hlt, -⟩ := List.getElem?_eq_some_iff.mp hi
  refine (List.getElem?_inj (by simpa using hlt) h.distinct).mp ?_
  simp [hi, hi', hsame]

/-- A refund was final when it came into a block, and the lock was not spent otherwise. -/
def RefundsTimely (B : BtcLib K P) (w : World K P) : Prop :=
  ∀ lock : LockTerms P, -2 ^ 63 ≤ lock.lockTime ∧ lock.lockTime < 2 ^ 63 → w.LockRefunded B lock →
    RefundTimePassed lock.lockTime w.btc.height w.btc.mtp ∧ ¬ w.LockRedeemed B lock

theorem RefundsTimely.mine {tx : Bitcoin.Transaction} (h : RefundsTimely B w)
    (haccepts : w.btc.Accepts B tx) :
    RefundsTimely B ({ w with btc := w.btc.mine tx } : World K P) := by
  intro lock hrange hrefunded
  rcases BtcChain.spent_mine.mp hrefunded with ⟨ix, i, hi, ho, hrefund⟩ | hbefore
  · refine ⟨hrefund.timePassed (by omega) haccepts.final, fun hredeemed => ?_⟩
    rcases BtcChain.spent_mine.mp hredeemed with ⟨ix', i', hi', ho', hredeem⟩ | hspent
    · cases haccepts.index_unique hi hi' (by rw [ho, ho'])
      exact RefundSpend.not_redeem hrefund hredeem
    · rw [← ho] at hspent
      exact haccepts.unspent i (List.mem_of_getElem? hi) (hspent.mono fun _ _ _ => trivial)
  · obtain ⟨hpassed, hnot⟩ := h lock hrange hbefore
    refine ⟨hpassed, fun hredeemed => ?_⟩
    rcases BtcChain.spent_mine.mp hredeemed with ⟨ix', i', hi', ho', -⟩ | hspent
    · rw [← ho'] at hbefore
      exact haccepts.unspent i' (List.mem_of_getElem? hi') (hbefore.mono fun _ _ _ => trivial)
    · exact hnot hspent

end

theorem WorldStep.refundsTimely (hstep : WorldStep L B role peer w w') (h : RefundsTimely B w) :
    RefundsTimely B w' := by
  cases hstep with
  | btcGrows hheight hmtp =>
    intro lock hrange hrefunded
    obtain ⟨hpassed, hnot⟩ := h lock hrange hrefunded
    exact ⟨hpassed.mono hheight hmtp, hnot⟩
  | btcMines haccepts => exact h.mine haccepts
  | _ => exact h

theorem WorldSteps.refundsTimely {role : Role} (h : WorldSteps L B role peer w₀ w) (hstart : w₀.Initial) :
    RefundsTimely B w := by
  induction h with
  | refl =>
    rintro lock - ⟨tx, htx, -⟩
    rw [hstart.btc] at htx
    cases htx
  | tail _ hstep ih => exact hstep.refundsTimely ih

/-! ### The look at the clock -/

/-- A look at the clock that found enough time for the lock time of a slate. -/
def LookedAt (L : GrinLib K P) (past : Trace K P (SwapSlate K P)) (s : SwapSlate K P) (heightBtc : ℕ) :
    Prop :=
  ∃ s₀ heightGrin lockGrin lockBtc, ⟨s₀, .getCurrentBlockHeight, .ok heightBtc⟩ ∈ past ∧
    s.pubSlate.btc.lockTime = some lockBtc ∧
    enoughTime L.overflowChecks heightGrin heightBtc lockGrin lockBtc = .ok true

omit [CommRing K] [AddCommGroup P] [Module K P] [DecidableEq K] [DecidableEq P] in
theorem LookedAt.mono {past past' : Trace K P (SwapSlate K P)} {s : SwapSlate K P} {heightBtc : ℕ}
    (h : LookedAt L past s heightBtc) (hpre : past <+: past') : LookedAt L past' s heightBtc := by
  obtain ⟨s₀, heightGrin, lockGrin, lockBtc, hmem, h⟩ := h
  exact ⟨s₀, heightGrin, lockGrin, lockBtc, hpre.subset hmem, h⟩

/-- What holds of the operations of a phase of the Grin owner: it looks at the clock before it sends its
partial signature. -/
def ReleaseOp (L : GrinLib K P) (past : Trace K P (SwapSlate K P)) (s : SwapSlate K P) (op : Op K P) :
    Prop :=
  ∀ S, op = .send (.slate .contract .ptx3 S) → ∃ heightBtc, LookedAt L past s heightBtc

omit [CommRing K] [AddCommGroup P] [Module K P] [DecidableEq K] [DecidableEq P] in
theorem releaseOp_of_ne {s : SwapSlate K P} {past : Trace K P (SwapSlate K P)} {op : Op K P}
    (h : ∀ S, op ≠ .send (.slate .contract .ptx3 S)) : ReleaseOp L past s op :=
  fun S hS => (h S hS).elim

theorem execPhaseSwapMw_releaseOp (rand : ExecMwRand K) (slate : SwapSlate K P) :
    (execPhaseSwapMw L B rand slate).Sat (ReleaseOp L) (fun _ _ _ => True) [] := by
  refine execPhaseSwapMw_sat (fun _ => releaseOp_of_ne (by simp)) (fun _ => releaseOp_of_ne (by simp)) ?_
    (fun _ _ => releaseOp_of_ne (by simp)) fun _ _ _ _ _ _ _ => trivial
  intro lockGrin lockBtc heightGrin heightBtc past' op hlock htime hread _ S _
  exact ⟨heightBtc, slate, heightGrin, lockGrin, lockBtc, hread, hlock, htime⟩

theorem phase_releaseOp (phase : Phase) (rand : Rand K) (start : SwapSlate K P) :
    (phase.program L B rand .mw start).Sat (ReleaseOp L) (fun _ _ _ => True) [] := by
  cases phase with
  | locking =>
    refine (lockingPhaseSwapMw_sat rand.lockMw start []).mono ?_ fun _ _ _ _ => trivial
    rintro past s op hop
    exact releaseOp_of_ne (by rintro S rfl; exact hop)
  | execution => exact execPhaseSwapMw_releaseOp rand.execMw start
  | refund =>
    exact refundPhaseSwapMw_sat (fun _ => releaseOp_of_ne (by simp)) (fun _ => releaseOp_of_ne (by simp))
      (fun _ _ => releaseOp_of_ne (by simp)) fun _ => trivial

/-- Whenever the partial signature is out, the Grin owner has looked at the clock. -/
theorem WorldSteps.looked (h : WorldSteps L B .mw peer w₀ w) (hstart : w₀.Initial) {s : SwapSlate K P}
    {S : Slate K P} (hreleased : Released w.past s S) : ∃ heightBtc, LookedAt L w.past s heightBtc := by
  induction h with
  | refl =>
    obtain ⟨ans, hmem⟩ := hreleased
    rw [hstart.past] at hmem
    cases hmem
  | @tail w₁ w₂ hsteps hstep ih =>
    cases hstep with
    | @operation phase start s₁ op ans k hrun hans =>
      obtain ⟨ans', hmem⟩ := hreleased
      rcases List.mem_append.mp hmem with hmem | hmem
      · obtain ⟨heightBtc, hlooked⟩ := ih ⟨ans', hmem⟩
        exact ⟨heightBtc, hlooked.mono (List.prefix_append _ _)⟩
      · cases List.mem_singleton.mp hmem
        obtain ⟨t₀, t, hpast, hop⟩ := (WorldSteps.traced hsteps hstart).sat hrun fun rand =>
          phase_releaseOp phase rand start
        obtain ⟨heightBtc, s₀, heightGrin, lockGrin, lockBtc, hmem, h⟩ := hop S rfl
        refine ⟨heightBtc, s₀, heightGrin, lockGrin, lockBtc, ?_, h⟩
        rw [hpast]
        exact List.mem_append_left _ (List.mem_append_right _ hmem)
    | _ => exact ih hreleased

omit [CommRing K] [AddCommGroup P] [Module K P] [DecidableEq K] [DecidableEq P] in
/-- The look leaves six blocks to a lock time that is a height. -/
theorem LookedAt.notPassed {past : Trace K P (SwapSlate K P)} {s : SwapSlate K P}
    {heightBtc height mtp : ℕ} (h : LookedAt L past s heightBtc)
    (htime : s.pubSlate.btc.lockTime = some lock.lockTime) (hkind : lock.lockTime < lockTimeThreshold)
    (hwrap : heightBtc + 6 < 2 ^ 64) (hle : height ≤ heightBtc + 6) :
    ¬ RefundTimePassed lock.lockTime height mtp := by
  obtain ⟨s₀, heightGrin, lockGrin, lockBtc, -, hbtc, henough⟩ := h
  obtain rfl := Option.some.inj (htime.symm.trans hbtc)
  have hleft := (enoughTime_btc henough).2 hwrap
  unfold RefundTimePassed
  rw [if_pos hkind]
  omega

/-- In every run of the Grin owner against any peer and with any chains, in which the lock is redeemed
before a refund is final once the partial signature is out, the Grin owner does not lose both coins.  For
this its look at the clock leaves six blocks. -/
theorem grinOwner_atomic (hstart : w₀.Initial)
    (hrun : GuardedSteps L B .mw peer (fun _ w' => w'.RedeemsInTime B) w₀ w) :
    ¬ w.BothTaken L B ∧
      ∀ s S (lock : LockTerms P), Released w.past s S → lock.Of B s →
        ∃ heightBtc, LookedAt L w.past s heightBtc ∧
        (lock.lockTime < lockTimeThreshold → heightBtc + 6 < 2 ^ 64 → w.btc.height ≤ heightBtc + 6 →
          ¬ RefundTimePassed lock.lockTime w.btc.height w.btc.mtp) := by
  have hsteps : WorldSteps L B .mw peer w₀ w := .of_guarded hrun
  constructor
  · rintro ⟨s, lock, hlock, ⟨coin, com, S, -, -, hreleased, -⟩, hrefunded⟩
    obtain ⟨hpassed, hnot⟩ := WorldSteps.refundsTimely hsteps hstart lock hlock.range hrefunded
    cases hrun with
    | refl =>
      obtain ⟨ans, hmem⟩ := hreleased
      rw [hstart.past] at hmem
      cases hmem
    | tail _ hstep =>
      rcases hstep.2 s S lock hreleased hlock with hredeemed | hopen
      · exact hnot hredeemed
      · exact hopen hpassed
  · intro s S lock hreleased hlock
    obtain ⟨heightBtc, hlooked⟩ := WorldSteps.looked hsteps hstart hreleased
    exact ⟨heightBtc, hlooked, fun hkind hwrap hle => hlooked.notPassed hlock.lockTime hkind hwrap hle⟩

/-! ### A sample of the release -/

/-- What the lock transaction of the sample spends and pays. -/
structure SampleLocked (lock : SignedLock) : Prop where
  lockTime : lock.signedTx.lockTime = 0
  spends : lock.signedTx.input.map TxIn.previousOutput = [⟨sampleTxid, 0⟩]
  satisfied : (btcExponents []).satisfies lock.signedTx 0
    (getP2pkhPubScript (btcExponents []) ((btcExponents []).publicKey (createPrivateKey 4))) = true
  pays : lock.signedTx.output[0]? = some ⟨100000, lockOf (btcExponents []) 3 5 7 700040 true⟩
  txid : (btcExponents []).txid lock.signedTx ≠ sampleTxid

instance (lock : SignedLock) : Decidable (SampleLocked lock) :=
  decidable_of_iff (_ ∧ _ ∧ _ ∧ _ ∧ _) ⟨fun ⟨h₁, h₂, h₃, h₄, h₅⟩ => ⟨h₁, h₂, h₃, h₄, h₅⟩,
    fun h => ⟨h.lockTime, h.spends, h.satisfied, h.pays, h.txid⟩⟩

theorem SampleLock.locked {lock : SignedLock} (h : SampleLock lock) : SampleLocked lock := by
  have hall : ∀ lock ∈ (signedLockTransaction (btcExponents [])
      ((btcExponents []).publicKey (createPrivateKey 3)) ((btcExponents []).publicKey (createPrivateKey 5))
      ((btcExponents []).publicKey (createPrivateKey 7)) ((btcExponents []).publicKey (createPrivateKey 9))
      [sampleBtcInput] 100000 700040).toOption, SampleLocked lock := by
    decide +kernel
  exact hall lock (by rw [h]; rfl)

/-- The lock that the slates of the sample describe. -/
def sampleTerms (lock : SignedLock) : LockTerms Scalar where
  pubA := (btcExponents []).publicKey (createPrivateKey 3)
  pubX := (btcExponents []).publicKey (createPrivateKey 5)
  pubB := (btcExponents []).publicKey (createPrivateKey 7)
  lockTime := 700040
  outpoint := ⟨(btcExponents []).txid lock.signedTx, 0⟩

theorem sampleTerms_of (lock : SignedLock) (shared : DSharedOutMwTxResult Scalar Scalar)
    (refund : DBuildMWTxResult Scalar Scalar) :
    (sampleTerms lock).Of (btcExponents []) (sampleOffererSetup lock shared refund).executing where
  pubA := ⟨_, rfl, deserializePubKey_serialize (btcExponents_lawful []) (by decide)⟩
  pubX := ⟨_, rfl, deserializePubKey_serialize (btcExponents_lawful []) (by decide)⟩
  pubB := ⟨_, rfl, deserializePubKey_serialize (btcExponents_lawful []) (by decide)⟩
  lockTime := rfl
  range := by
    show -2 ^ 63 ≤ (700040 : ℤ) ∧ (700040 : ℤ) < 2 ^ 63
    decide
  outpoint := by
    refine ⟨_, rfl, ?_⟩
    have htxid := Txid.ofText_toText ((btcExponents_lawful []).txid_length lock.signedTx)
    simp [BTCInput.outpoint, OutPoint.ofText, BTCInput.new2, samplePlan, htxid, sampleTerms]

/-- What the offerer of the sample signs: the kernel, and a transaction that pays the taker. -/
structure SampleReleased (S₃ : Slate Scalar Scalar) : Prop where
  kernel : S₃.Describes exponents (fullKernel exponents (sharedInpSigners sampleRand.execMw.spend
    sampleRand.execBtc.sigNonce sampleRand.execBtc.recv 21 31) (.plain ⟨12500000⟩))
  outputs : S₃.tx.map Transaction.outputs =
    some [recvOutput exponents sampleRand.execBtc.recv 1000000000]

/-- The offerer of the sample executes with the slate that it stored, up to its partial signature. -/
def sampleRelease (s : SwapSlate Scalar Scalar) (m₂ : String) (S₁ S₃ : Slate Scalar Scalar) :
    Trace Scalar Scalar (SwapSlate Scalar Scalar) :=
  [⟨s, .getBlockHeight, .ok 1500000⟩, ⟨s, .getCurrentBlockHeight, .ok 700000⟩,
    ⟨s.executing, .send (.slate .contract .ptx S₁), .ok ()⟩, ⟨s.executing, .recv, .ok m₂⟩,
    ⟨s.executing, .send (.slate .contract .ptx3 S₃), .ok ()⟩]

theorem sample_releases {lock : SignedLock} {shared : DSharedOutMwTxResult Scalar Scalar}
    {refund : DBuildMWTxResult Scalar Scalar} {coin : MWCoin}
    (hcoin : SharedCoin exponents shared.sharedCoin coin 1012500000 21 31)
    (hvalue : shared.sharedCoin.value = 1012500000) :
    ∃ m₂ S₁ S₃ q, SampleReleased S₃ ∧
      Steps (execPhaseSwapMw exponents (btcExponents []) sampleRand.execMw
        (sampleOffererSetup lock shared refund))
        (sampleRelease (sampleOffererSetup lock shared refund) m₂ S₁ S₃) q := by
  obtain ⟨S₁, m₂, S₃, p, hkernel, houts, hrun⟩ := contract_release
    (sampleOffererSetup lock shared refund).executing exponents_lawful hcoin sample_spendsAll sample_execKeys
  have henough : enoughTime exponents.overflowChecks 1500000 700000 1500400 700040 = .ok true := by decide
  have hpk := deserializePubKey_serialize (btcExponents_lawful [])
    (show ((btcExponents []).publicKey (createPrivateKey 5)).key ≠ 0 by decide)
  have hpubX := (exponents_sameCurve []).publicKey (show (5 : Scalar) • exponents.G ≠ 0 by decide)
  have hfund : subU64 exponents.overflowChecks shared.sharedCoin.value (estimateFees exponents 1 1 1) =
      .ok 1000000000 := by
    rw [hvalue]
    decide
  obtain ⟨u, q, hexec, rfl⟩ := execPhaseSwapMw_steps rfl rfl henough rfl rfl hpk hpubX hfund hrun
  exact ⟨m₂, S₁, S₃, q, ⟨hkernel, houts⟩, hexec⟩

theorem sampleRelease_answered (s : SwapSlate Scalar Scalar) (m₂ : String) (S₁ S₃ : Slate Scalar Scalar) :
    ∀ e ∈ sampleRelease s m₂ S₁ S₃, e.op.AnsweredAt 1500000 700000 e.ans := by
  simp [sampleRelease, Op.AnsweredAt]

/-- The sample when both coins are locked. -/
def sampleLockedWorld (s : SwapSlate Scalar Scalar) (t : Trace Scalar Scalar (SwapSlate Scalar Scalar))
    (proof : RangeProof) (lock : SignedLock) : World Scalar Scalar :=
  { (sampleWorld sampleFunded).after s t with
    grin := (sampleWorld sampleFunded).grin.mine (sampleFunds proof)
    btc := (sampleWorld sampleFunded).btc.mine lock.signedTx }

/-- No refund is final at the height of the sample. -/
theorem redeemsInTime_of_height {w : World Scalar Scalar} (hheight : w.btc.height = 700000)
    (h : ∀ s S, Released w.past s S → s.pubSlate.btc.lockTime = some 700040) :
    w.RedeemsInTime (btcExponents []) := by
  intro s S lock hreleased hlock
  have htime : lock.lockTime = 700040 := Option.some.inj (hlock.lockTime.symm.trans (h s S hreleased))
  right
  rw [htime, hheight]
  unfold RefundTimePassed
  rw [if_pos (by decide)]
  decide

theorem SampleLocked.input {lock : SignedLock} (h : SampleLocked lock) {ix : ℕ} {i : TxIn}
    (hi : lock.signedTx.input[ix]? = some i) : ix = 0 ∧ i.previousOutput = ⟨sampleTxid, 0⟩ := by
  have hmap : (lock.signedTx.input.map TxIn.previousOutput)[ix]? = some i.previousOutput := by
    rw [List.getElem?_map, hi, Option.map_some]
  rw [h.spends] at hmap
  cases ix with
  | zero => exact ⟨rfl, (Option.some.inj hmap).symm⟩
  | succ ix => cases hmap

/-- It can be in a block. -/
theorem SampleLocked.accepts {lock : SignedLock} (h : SampleLocked lock) (slate : SwapSlate Scalar Scalar) :
    (sampleWorld slate).btc.Accepts (btcExponents []) lock.signedTx where
  final := .inl h.lockTime
  distinct := by
    rw [h.spends]
    exact List.nodup_singleton _
  unspent := by
    rintro i - ⟨tx, htx, -⟩
    cases htx
  satisfied := by
    intro ix i hi
    obtain ⟨rfl, hout⟩ := h.input hi
    have hgenesis : (sampleWorld slate).btc.genesis ⟨sampleTxid, 0⟩ = some ⟨200000, getP2pkhPubScript
        (btcExponents []) ((btcExponents []).publicKey (createPrivateKey 4))⟩ := by
      simp [sampleWorld]
    rw [hout]
    exact ⟨_, .inl hgenesis, h.satisfied⟩

/-- Both coins of the sample are locked, the Grin owner sends its partial signature, and no refund is
final on the way. -/
theorem sample_run_release : ∃ proof lock shared refund coin t m₂ S₁ S₃ q, SampleLock lock ∧
    SharedCoin exponents shared.sharedCoin coin 1012500000 21 31 ∧
    SampleReleased S₃ ∧
    (∀ e ∈ t, LockEvent 1500000 700000 none shared.sharedCoin e) ∧
    GuardedSteps exponents (btcExponents []) .mw (World.Assembled exponents .mw)
      (fun _ w' => w'.RedeemsInTime (btcExponents []))
      (sampleWorld sampleFunded)
      ((sampleLockedWorld (sampleOffererSetup lock shared refund) t proof lock).during .execution
        (sampleOffererSetup lock shared refund)
        (sampleRelease (sampleOffererSetup lock shared refund) m₂ S₁ S₃) q) := by
  obtain ⟨t, proof, lock, shared, refund, coin, hsigned, hlock, hvalid, hvalue, hcoin, hevents⟩ :=
    sample_run_mw
  obtain ⟨m₂, S₁, S₃, q, hreleased, hexec⟩ := @sample_releases lock shared refund coin hcoin hvalue
  refine ⟨proof, lock, shared, refund, coin, t, m₂, S₁, S₃, q, hsigned, hcoin, hreleased,
    fun e he => (hevents e he).1, ?_⟩
  have hopen : ∀ w : World Scalar Scalar, w.btc.height = 700000 →
      w.past <+: t ++ sampleRelease (sampleOffererSetup lock shared refund) m₂ S₁ S₃ →
      w.RedeemsInTime (btcExponents []) := by
    intro w hheight hpre
    refine redeemsInTime_of_height hheight fun s S hreleased => ?_
    obtain ⟨ans, hmem⟩ := hreleased
    rcases List.mem_append.mp (hpre.subset hmem) with hmem | hmem
    · exact ((hevents _ hmem).2 _ S rfl).elim
    · simp only [sampleRelease, List.mem_cons, List.not_mem_nil, or_false, Event.mk.injEq] at hmem
      rcases hmem with ⟨-, hop, -⟩ | ⟨-, hop, -⟩ | ⟨-, hop, -⟩ | ⟨-, hop, -⟩ | ⟨rfl, -⟩
      · cases hop
      · cases hop
      · cases hop
      · cases hop
      · rfl
  have hlocked : GuardedSteps exponents (btcExponents []) .mw (World.Assembled exponents .mw)
      (fun _ w' => w'.RedeemsInTime (btcExponents [])) (sampleWorld sampleFunded)
      ((sampleWorld sampleFunded).after (sampleOffererSetup lock shared refund) t) :=
    guardedSteps_done .locking sampleRand rfl rfl hlock (fun e he => (hevents e he).1.answered)
      (fun _ => hopen _ rfl List.nil_prefix)
      (fun _ _ _ _ hpre => hopen _ rfl (hpre.trans (List.prefix_append _ _)))
      (fun _ => hopen _ rfl (List.prefix_append _ _))
  let w₁ := (sampleWorld sampleFunded).after (sampleOffererSetup lock shared refund) t
  let w₂ : World Scalar Scalar := { w₁ with grin := w₁.grin.mine (sampleFunds proof) }
  have hholds : ∀ coin' com, w₁.Holds coin' →
      deserializeCommitment exponents coin'.commitment = .ok com → com = sampleCommit := by
    intro coin' com h hcom
    obtain rfl := LockEvent.held_eq rfl rfl (fun e he => (hevents e he).1) h
    exact Except.ok.inj (hcom.symm.trans (commitment_of_readInput hcoin.readA))
  have hgrin : WorldStep exponents (btcExponents []) .mw (World.Assembled exponents .mw) w₁ w₂ :=
    .grinMines (sampleFunds_accepts sampleFunded hvalid) (sampleFunds_assembled hholds)
  have hbtc : WorldStep exponents (btcExponents []) .mw (World.Assembled exponents .mw) w₂
      (sampleLockedWorld (sampleOffererSetup lock shared refund) t proof lock) :=
    .btcMines (hsigned.locked.accepts sampleFunded)
  refine ((hlocked.tail ⟨hgrin, hopen _ rfl (List.prefix_append _ _)⟩).tail
    ⟨hbtc, hopen _ rfl (List.prefix_append _ _)⟩).trans ?_
  exact guardedSteps_phase .execution sampleRand rfl rfl hexec (sampleRelease_answered _ _ _ _)
    (fun _ => hopen _ rfl ((List.prefix_append_right_inj t).mpr List.nil_prefix))
    (fun _ _ _ _ hpre => hopen _ rfl ((List.prefix_append_right_inj t).mpr hpre))

/-- The partial signature of the sample is out, and the look at the clock was made. -/
theorem grinOwner_atomic_sample : ∃ (w : World Scalar Scalar) (s : SwapSlate Scalar Scalar)
    (S : Slate Scalar Scalar) (heightBtc : ℕ), Released w.past s S ∧
      ¬ w.BothTaken exponents (btcExponents []) ∧ LookedAt exponents w.past s heightBtc := by
  obtain ⟨proof, lock, shared, refund, coin, t, m₂, S₁, S₃, q, -, -, -, -, hrun⟩ := sample_run_release
  obtain ⟨hnot, hlooks⟩ := grinOwner_atomic ⟨rfl, rfl, rfl, rfl, rfl⟩ hrun
  have hreleased : Released (t ++ sampleRelease (sampleOffererSetup lock shared refund) m₂ S₁ S₃)
      (sampleOffererSetup lock shared refund).executing S₃ :=
    ⟨.ok (), List.mem_append_right _ (by simp [sampleRelease])⟩
  obtain ⟨heightBtc, hlooked, -⟩ := hlooks _ S₃ (sampleTerms lock) hreleased
    (sampleTerms_of lock shared refund)
  exact ⟨_, _, S₃, heightBtc, hreleased, hnot, hlooked⟩

/-- The transaction of the contract. -/
def sampleContractTx : Grin.Transaction Scalar Scalar :=
  (sharedPlan exponents sampleRand.execMw.spend 1012500000 21 31 1000000000 0 ⟨12500000⟩).tx
    [recvOutput exponents sampleRand.execBtc.recv 1000000000]
    [fullKernel exponents (sharedInpSigners sampleRand.execMw.spend sampleRand.execBtc.sigNonce
      sampleRand.execBtc.recv 21 31) (.plain ⟨12500000⟩)]

theorem sampleContractTx_spends {com : Commitment} : sampleContractTx.Spends com ↔ com = sampleCommit := by
  have hinputs : (sharedPlan exponents sampleRand.execMw.spend 1012500000 21 31 1000000000 0
      ⟨12500000⟩).inputs = [sharedInput exponents 1012500000 21 31] :=
    sharedPlan_inputs exponents_lawful
  rw [Transaction.Spends, show sampleContractTx.inputs = _ from hinputs]
  exact List.mem_singleton

/-- It can be in a block when both coins are locked. -/
theorem sampleContractTx_accepts (s : SwapSlate Scalar Scalar)
    (t : Trace Scalar Scalar (SwapSlate Scalar Scalar)) (proof : RangeProof) (lock : SignedLock) :
    (sampleLockedWorld s t proof lock).grin.Accepts exponents sampleContractTx := by
  obtain ⟨houts, -⟩ :=
    sharedInp_facts exponents_lawful sample_sharedCoin sample_spendsAll sample_execKeys.toSharedInpKeys
  have hvalid : exponents.validate sampleContractTx = true :=
    sharedInp_validate exponents_lawful sample_sharedCoin sample_spendsAll
      sample_execKeys.toSharedInpKeys houts
  refine GrinChain.accepts_of_validate hvalid (fun com hcom => ?_) (fun o ho hmem => ?_) fun k hk => ?_
  · obtain rfl := sampleContractTx_spends.mp hcom
    refine .inr ?_
    rw [sampleFunds_outputs]
    exact List.mem_cons_self
  · obtain rfl := List.mem_singleton.mp ho
    rcases hmem with ⟨hmem, -⟩ | hmem
    · exact absurd (Set.mem_singleton_iff.mp hmem) (by decide +kernel)
    · rw [sampleFunds_outputs] at hmem
      exact absurd hmem (by decide +kernel)
  · obtain rfl := List.mem_singleton.mp hk
    trivial

/-- The refund of the peer. -/
def sampleRefund (lock : SignedLock) : Bitcoin.Transaction :=
  signLockTransactionRefund (btcExponents []) (spendOf (btcExponents [])
    ((btcExponents []).publicKey (createPrivateKey 8)) ((btcExponents []).txid lock.signedTx) 100000 700040) 0
    (lockOf (btcExponents []) 3 5 7 700040 false) (createPrivateKey 7)

theorem sampleRefund_spend (lock : SignedLock) :
    RefundSpend (btcExponents []) (sampleTerms lock).pubA (sampleTerms lock).pubX (sampleTerms lock).pubB
      (sampleTerms lock).lockTime (sampleRefund lock) 0 :=
  refundSpend_sign (btcExponents_lawful [])
    (length_scriptInt_of_lt (show (700040 : ℤ).natAbs < 2 ^ 39 by decide)) (by decide) rfl
    (show 0 ≠ finalSequence by decide) rfl (show 700040 < 2 ^ 32 by decide)

/-- It can be in a block above the lock time. -/
theorem sampleRefund_accepts {chain : BtcChain} {lock : SignedLock} (h : SampleLocked lock)
    (hmined : chain.mined = [lock.signedTx]) (hheight : chain.height = 700041) :
    chain.Accepts (btcExponents []) (sampleRefund lock) where
  final := by
    have htime : ((sampleRefund lock).lockTime : ℤ) = 700040 := rfl
    refine isFinal_of_passed htime ?_
    rw [if_pos (by decide), hheight]
    decide
  distinct := List.nodup_singleton _
  unspent := by
    rintro i hi ⟨tx, htx, ix, i', hi', hout, -⟩
    obtain rfl := List.mem_singleton.mp hi
    rw [hmined] at htx
    obtain rfl := List.mem_singleton.mp htx
    obtain ⟨-, hout'⟩ := h.input hi'
    exact h.txid (congrArg OutPoint.txid (hout.symm.trans hout'))
  satisfied := by
    intro ix i hi
    cases ix with
    | zero =>
      cases hi
      refine ⟨_, .inr ⟨lock.signedTx, ?_, rfl, h.pays⟩, ?_⟩
      · rw [hmined]
        exact List.mem_singleton_self _
      · exact satisfies_of_spend (btcExponents_lawful []) (.inl (sampleRefund_spend lock))
    | succ ix => cases hi

/-- The peer keeps the partial signature until the lock time, and takes both coins. -/
theorem grinOwner_robbed : ∃ w, (sampleWorld sampleFunded).Initial ∧
    WorldSteps exponents (btcExponents []) .mw (World.Assembled exponents .mw) (sampleWorld sampleFunded) w ∧
    w.BothTaken exponents (btcExponents []) := by
  obtain ⟨proof, lock, shared, refund, coin, t, m₂, S₁, S₃, q, hsigned, hcoin, hsample, hevents, hrun⟩ :=
    sample_run_release
  let setup := sampleOffererSetup lock shared refund
  let release := sampleRelease setup m₂ S₁ S₃
  let w₁ := (sampleLockedWorld setup t proof lock).during .execution setup release q
  let w₂ : World Scalar Scalar := { w₁ with btc.height := 700041 }
  let w₃ : World Scalar Scalar := { w₂ with grin := w₂.grin.mine sampleContractTx }
  let w₄ : World Scalar Scalar := { w₃ with btc := w₃.btc.mine (sampleRefund lock) }
  have hcom : deserializeCommitment exponents shared.sharedCoin.commitment = .ok sampleCommit :=
    commitment_of_readInput hcoin.readA
  have hsent : ⟨setup.executing, .send (.slate .contract .ptx3 S₃), .ok ()⟩ ∈ t ++ release :=
    List.mem_append_right _ (by simp [release, sampleRelease])
  have hkernel : HasKernel exponents S₃ sampleContractTx :=
    ⟨_, List.mem_singleton_self _, hsample.kernel⟩
  have hpays : ∀ o signed, S₃.tx = some signed → signed.Pays o → sampleContractTx.Pays o := by
    intro o signed hsigned ho
    have houts := hsample.outputs
    rw [hsigned, Option.map_some, Option.some.injEq] at houts
    rwa [Transaction.Pays, houts] at ho
  have hassembled : w₂.Assembled exponents .mw sampleContractTx := by
    intro coin' com hholds hcom' hspends
    obtain rfl : shared.sharedCoin = coin' := by
      rcases hholds with h | ⟨r, hr, h⟩ | ⟨e, he, h⟩
      · exact Option.some.inj h
      · cases hr
        exact Option.some.inj h
      · rcases List.mem_append.mp he with he | he
        · rcases (hevents e he).held with hnone | hsome
          · cases hnone.symm.trans h
          · exact Option.some.inj (hsome.symm.trans h)
        · simp only [release, sampleRelease, List.mem_cons, List.not_mem_nil, or_false] at he
          rcases he with rfl | rfl | rfl | rfl | rfl <;> exact Option.some.inj h
    exact ⟨.contract, .ptx3, S₃, trivial, ⟨_, _, hsent, rfl⟩, hkernel, fun o signed _ => hpays o signed⟩
  have hgrows : WorldStep exponents (btcExponents []) .mw (World.Assembled exponents .mw) w₁ w₂ :=
    .btcGrows (show 700000 ≤ 700041 by decide) le_rfl
  have hcontract : WorldStep exponents (btcExponents []) .mw (World.Assembled exponents .mw) w₂ w₃ :=
    .grinMines (sampleContractTx_accepts setup t proof lock) hassembled
  have hrefund : WorldStep exponents (btcExponents []) .mw (World.Assembled exponents .mw) w₃ w₄ :=
    .btcMines (sampleRefund_accepts hsigned.locked rfl rfl)
  refine ⟨w₄, ⟨rfl, rfl, rfl, rfl, rfl⟩,
    (((WorldSteps.of_guarded hrun).tail hgrows).tail hcontract).tail hrefund,
    setup.executing, sampleTerms lock, sampleTerms_of lock shared refund, ?_, ?_⟩
  · exact ⟨shared.sharedCoin, sampleCommit, S₃, rfl, hcom, ⟨_, hsent⟩, sampleContractTx,
      List.mem_cons_self, sampleContractTx_spends.mpr rfl, hkernel.hasKernelOf⟩
  · exact ⟨sampleRefund lock, List.mem_cons_self, 0, _, rfl, rfl, sampleRefund_spend lock⟩

end MwBtcSwap
