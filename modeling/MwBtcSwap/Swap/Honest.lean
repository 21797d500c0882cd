import MwBtcSwap.Grin.Timelocks
import MwBtcSwap.Joint
import MwBtcSwap.Swap.Locked

/-! Honest runs of the locking phase: two parties that follow it over one connection, with nodes that
answer, both return. -/

namespace MwBtcSwap

open Interaction Machine Grin Bitcoin

/-! ### Steps of a run -/

section Runs

variable {K P σ τ α β : Type}

variable {Q : Trace K P σ → Program K P σ α → Prop} {s : σ}

theorem reaches_receivePubKey_bind {B : BtcLib K P} {f : PublicKey P → Process K P σ α} {msg : String}
    {pk : PublicKey P} (hmsg : deserializePubKey B msg = .ok pk)
    (h : (f pk s).Reaches fun t q => Q (⟨s, .recv, .ok msg⟩ :: t) q) :
    ((receivePubKey B >>= f) s).Reaches Q := by
  have hreaches : ((receiveMsg >>= fun msg => Proc.lift (deserializePubKey B msg) >>= f) s).Reaches Q :=
    reaches_receiveMsg_bind msg (Prog.reaches_lift_bind hmsg h)
  simpa only [receivePubKey, Proc.bind_apply, Prog.bind_assoc] using hreaches

theorem reaches_receiveI64_bind {f : ℤ → Process K P σ α} {msg : String} {n : ℤ}
    (hmsg : parseI64 msg = some n)
    (h : (f n s).Reaches fun t q => Q (⟨s, .recv, .ok msg⟩ :: t) q) :
    ((receiveI64 >>= f) s).Reaches Q := by
  have hreaches : ((receiveMsg >>= fun msg =>
      Proc.lift (Outcome.unwrap unwrapErr (parseI64 msg)) >>= f) s).Reaches Q :=
    reaches_receiveMsg_bind msg (Prog.reaches_lift_bind (Outcome.unwrap_eq_ok.mpr hmsg) h)
  simpa only [receiveI64, Proc.bind_apply, Prog.bind_assoc] using hreaches

/-- The funds are verified at the first look. -/
theorem verifyFunds_steps {address : String} {amount attempts : ℕ} (hamount : 0 < amount)
    (hattempts : 0 < attempts) :
    Steps (verifyFunds address amount attempts s : Program K P σ Bool)
      [⟨s, .getAddressFinalBalance address, .ok amount⟩] (.ret s true) := by
  obtain ⟨attempts, rfl⟩ := Nat.exists_eq_succ_of_ne_zero hattempts.ne'
  refine .step ?_
  show Steps ((if 0 < amount then pure (decide (amount = amount)) else _ : Process K P σ Bool) s) []
    (.ret s true)
  rw [if_pos hamount, decide_eq_true rfl]
  exact .refl _

/-- A conversation of two processes that leave their memory alone. -/
theorem steps_of_talk_only {L : GrinLib K P} {ops ops' : Op K P → Prop} {p : Process K P σ α}
    {q : Process K P τ β}
    {s' : τ} {r : List (Msg K P) × α × β} (hp : p.Only ops) (hq : q.Only ops')
    (h : talk L (p s) (q s') = some r) :
    ∃ t u, Steps (p s) t (.ret s r.2.1) ∧ Steps (q s') u (.ret s' r.2.2) ∧ Connected L t u := by
  obtain ⟨t, u, s₁, s₁', ht, hu, hconn⟩ := steps_of_talk h
  obtain ⟨rfl, -⟩ := ht.sat (hp s [])
  obtain ⟨rfl, -⟩ := hu.sat (hq s' [])
  exact ⟨t, u, ht, hu, hconn⟩

end Runs

variable {K P : Type} [CommRing K] [AddCommGroup P] [Module K P] [DecidableEq K] [DecidableEq P]

variable {L : GrinLib K P} {B : BtcLib K P} {σ τ α β : Type}

/-- The change of the shared output is that of `spend_coins`. -/
theorem dsharedOutMwTxAlice_change {rand : SpendRand K} {drand : DRecvRand K} {inp : List MWCoin}
    {fundValue timelock : ℕ} :
    (dsharedOutMwTxAlice L rand drand inp fundValue timelock : Process K P σ _).Returns fun r =>
      ∃ spend, spendCoins L rand inp fundValue timelock 2 3 = .ok spend ∧
        r.changeCoin = spend.changeCoin := by
  intro s past
  refine Prog.sat_lift_bind fun spend hspend => Prog.sat_lift_bind fun _ _ =>
    Prog.sat_request_bind trivial fun _ _ _ => Prog.sat_request_bind trivial fun _ _ _ =>
    Prog.sat_request_bind trivial fun _ _ _ => Prog.sat_request_bind trivial fun _ _ _ =>
    Prog.sat_lift_bind fun _ _ => Prog.sat_lift_bind fun _ _ => Prog.sat_lift_bind fun _ _ =>
    Prog.sat_lift_bind fun _ _ => Prog.sat_request_bind trivial fun _ _ _ => ?_
  exact ⟨spend, Outcome.expect_eq_ok.mp hspend, rfl⟩

omit [DecidableEq K] [DecidableEq P] in
/-- The lock address that both parties compute. -/
theorem signedLockTransaction_address {pubA pubX pubB pubR : PublicKey P} {inputs : List BTCInput}
    {amount : ℕ} {lockHeight : ℤ} {lock : SignedLock}
    (h : signedLockTransaction B pubA pubX pubB pubR inputs amount lockHeight = .ok lock) :
    scriptToAddress B (lockPubScript B pubA pubX pubB lockHeight true) = .ok lock.address := by
  have hout := signedLockTransaction_lockOut h
  simp only [signedLockTransaction, Outcome.bind_eq_ok, Outcome.unwrap_eq_ok, Outcome.pure_eq_ok,
    Except.ok.injEq] at h
  obtain ⟨_, -, lockOut, -, _, -, address, haddress, _, -, _, -, _, -, _, -, rfl⟩ := h
  rw [← haddress]
  exact congrArg (fun out => scriptToAddress B out.scriptPubkey) hout.symm

/-! ### The locking phase -/

/-- What a run of the locking phase depends on besides the slates and the keys: the heights of the two
chains, the openings of the Grin inputs with the value of the change, the fees, and the lock. -/
structure LockPlan (K : Type) where
  heightBtc : ℕ
  heightGrin : ℕ
  coins : List (Input × K)
  value : ℕ
  fee : FeeFields
  refundFee : FeeFields
  lock : SignedLock

/-- Choices for which the calls to the libraries succeed: the keys are keys, the Bitcoin inputs cover
the lock, and the Grin inputs the shared coin with a change that may be zero. -/
structure Fundable (L : GrinLib K P) (B : BtcLib K P) (mw btc : SwapSlate K P) (ra : LockMwRand K)
    (rb : LockBtcRand K) (p : LockPlan K) : Prop where
  pub : btc.pubSlate = mw.pubSlate
  keyA : (B.publicKey (createPrivateKey ra.skA)).key ≠ 0
  keyB : (B.publicKey (createPrivateKey rb.skB)).key ≠ 0
  keyX : (B.publicKey (createPrivateKey rb.x)).key ≠ 0
  heightBtc : p.heightBtc + mw.pubSlate.btc.timelock < 2 ^ 63
  heightGrin : p.heightGrin + mw.pubSlate.mw.timelock < 2 ^ 63
  lock : signedLockTransaction B (B.publicKey (createPrivateKey ra.skA))
    (B.publicKey (createPrivateKey rb.x)) (B.publicKey (createPrivateKey rb.skB))
    (B.publicKey (createPrivateKey rb.skR)) btc.prvSlate.btc.inputs mw.pubSlate.btc.amount
    ((p.heightBtc + mw.pubSlate.btc.timelock : ℕ) : ℤ) = .ok p.lock
  amount : 0 < mw.pubSlate.btc.amount
  funding : Funding L mw.prvSlate.mw.inputs p.coins mw.pubSlate.mw.amount
    (L.txFee mw.prvSlate.mw.inputs.length 2 1) p.value
  sharedOut : SharedOutKeys L ra.spend ra.drecv rb.drecv p.coins mw.prvSlate.mw.inputs.length
    mw.pubSlate.mw.amount 0 p.value p.fee
  spends : SpendsAll L mw.pubSlate.mw.amount (mw.pubSlate.mw.amount - L.txFee 1 1 1)
  sharedInp : SharedInpKeys L rb.spend ra.sigNonce ra.recv mw.pubSlate.mw.amount
    rb.drecv.outCoinBlind ra.drecv.outCoinBlind (mw.pubSlate.mw.amount - L.txFee 1 1 1)
    (p.heightGrin + mw.pubSlate.mw.timelock) p.refundFee

/-- Such choices with a change. -/
structure Lockable (L : GrinLib K P) (B : BtcLib K P) (mw btc : SwapSlate K P) (ra : LockMwRand K)
    (rb : LockBtcRand K) (p : LockPlan K) : Prop extends Fundable L B mw btc ra rb p where
  change : 0 < p.value

/-- A look at the balance of an address. -/
def isLook (e : Event σ (@Op.Ans K P)) : Bool :=
  match e.op with
  | .getAddressFinalBalance _ => true
  | _ => false

/-- The nodes of the Grin owner: the Grin node is at a height and accepts what is pushed, and the
Bitcoin node has seen the amount from some look on that the loop reaches. -/
structure MwNodes (nodes : Nodes K P σ) (heightGrin amount : ℕ) : Prop where
  height : ∀ past, nodes past .getBlockHeight = .ok heightGrin
  push : ∀ past tx, nodes past (.pushTransaction tx) = .ok ()
  imports : ∀ past address, nodes past (.importBtcAddress address) = .ok ()
  funds : ∃ looks < maxAttemptsVerfFunds, ∀ past address,
    nodes past (.getAddressFinalBalance address) =
      .ok (if past.countP isLook < looks then 0 else amount)

/-- The node of the Bitcoin owner. -/
structure BtcNodes (nodes : Nodes K P σ) (heightBtc : ℕ) : Prop where
  height : ∀ past, nodes past .getCurrentBlockHeight = .ok heightBtc
  broadcast : ∀ past tx, nodes past (.sendRawTransaction tx) = .ok ()

section Locking

variable {mw btc : SwapSlate K P} {ra : LockMwRand K} {rb : LockBtcRand K} {p : LockPlan K}

/-- The shared coin of the two parties over the connection. -/
theorem Fundable.talk_sharedOut (hL : L.Lawful) (h : Fundable L B mw btc ra rb p) (s : σ) (s' : τ) :
    ∃ r, talk L (dsharedOutMwTxAlice L ra.spend ra.drecv mw.prvSlate.mw.inputs
        mw.pubSlate.mw.amount 0 s) (dsharedOutMwTxBob L rb.drecv btc.pubSlate.mw.amount s') = some r ∧
      r.2.1.changeCoin = (Grin.change L ra.spend p.value).map Prod.snd ∧ r.2.1.tx.tx.isSome ∧
      r.2.1.sharedCoin.value = mw.pubSlate.mw.amount ∧
      r.2.2.sharedCoin.value = mw.pubSlate.mw.amount ∧
      SharedCoin L r.2.2.sharedCoin r.2.1.sharedCoin mw.pubSlate.mw.amount rb.drecv.outCoinBlind
        ra.drecv.outCoinBlind ∧
      SharedOutDone L ra.drecv rb.drecv mw.pubSlate.mw.amount 0 r.2.1 r.2.2 := by
  rw [h.pub]
  obtain ⟨r, hr⟩ := sharedOut_completes s s' hL h.funding h.sharedOut
  obtain ⟨hcoinA, hcoinB, tx, tx', htx, -, -⟩ := sharedOut_done hL hr
  have hcoin : SharedCoin L r.2.2.sharedCoin r.2.1.sharedCoin mw.pubSlate.mw.amount
      rb.drecv.outCoinBlind ra.drecv.outCoinBlind := by
    have hpoint : L.pedersen mw.pubSlate.mw.amount (rb.drecv.outCoinBlind + ra.drecv.outCoinBlind) =
        sharedPoint L ra.drecv rb.drecv mw.pubSlate.mw.amount := by
      rw [sharedPoint, add_comm]
    rw [hcoinA, hcoinB, ← hpoint]
    apply sharedCoin_new hL
    rw [hpoint]
    exact h.sharedOut.provable.shared
  have hchange : r.2.1.changeCoin = (Grin.change L ra.spend p.value).map Prod.snd := by
    obtain ⟨tA, -, hA, -, -⟩ := steps_of_talk_only dsharedOutMwTxAlice_only dsharedOutMwTxBob_only hr
    obtain ⟨spend, hspend, hr⟩ := hA.sat (dsharedOutMwTxAlice_change s [])
    have hkey := h.sharedOut.signable.usable _ List.mem_cons_self
    rw [spendCoins_eq 0 3 (mapM_of_opens h.funding.opens) h.funding.nonempty h.funding.nodup
      h.funding.fund rfl h.sharedOut.fee h.funding.total h.funding.bound (by decide) h.sharedOut.change
      hkey, Except.ok.injEq] at hspend
    rw [hr, ← hspend]
  exact ⟨r, hr, hchange, by rw [htx]; rfl, by rw [hcoinA]; rfl, by rw [hcoinB]; rfl, hcoin,
    sharedOut_done hL hr⟩

/-- The refund of the shared coin over the connection. -/
theorem Fundable.talk_sharedInp (hL : L.Lawful) (h : Fundable L B mw btc ra rb p)
    {coinA coinB : MWCoin} (hcoin : SharedCoin L coinB coinA mw.pubSlate.mw.amount
      rb.drecv.outCoinBlind ra.drecv.outCoinBlind) (s : σ) (s' : τ) :
    ∃ r, talk L (dsharedInpMwTxBob L ra.sigNonce ra.recv coinA (mw.pubSlate.mw.amount - L.txFee 1 1 1)
        (p.heightGrin + mw.pubSlate.mw.timelock) s)
      (dsharedInpMwTxAlice L rb.spend coinB (mw.pubSlate.mw.amount - L.txFee 1 1 1)
        (p.heightGrin + mw.pubSlate.mw.timelock) s') = some r ∧
      SharedInpDone L ra.recv mw.pubSlate.mw.amount rb.drecv.outCoinBlind ra.drecv.outCoinBlind
        (mw.pubSlate.mw.amount - L.txFee 1 1 1) r.2.2.tx.tx r.2.1.tx.tx r.2.1.coin ∧
      Timelocked L (p.heightGrin + mw.pubSlate.mw.timelock) r.2.1.tx := by
  obtain ⟨r, hr⟩ := sharedInp_completes s' s hL hcoin h.spends h.sharedInp
  obtain ⟨ff, data, hfin, htx, -⟩ := sharedInp_inv hL hcoin h.spends hr
  have hlocked := timelocked_of_finalize rfl hfin
  rw [← htx] at hlocked
  exact ⟨_, talk_swap hr, sharedInp_done hL hcoin h.spends hr, hlocked⟩

/-- The slate of the Grin owner with the shared coin and its refund. -/
def SwapSlate.fundedMw (slate : SwapSlate K P) (lockTime : ℤ) (shared : DSharedOutMwTxResult K P)
    (refund : DBuildMWTxResult K P) : SwapSlate K P :=
  { slate with
    pubSlate.mw.lockTime := some lockTime
    prvSlate.mw.sharedCoin := some shared.sharedCoin
    prvSlate.mw.changeCoin := shared.changeCoin
    prvSlate.mw.refundCoin := refund.coin
    prvSlate.mw.refundTx := refund.tx.tx }

/-- The slate of the Bitcoin owner with the shared coin. -/
def SwapSlate.fundedBtc (slate : SwapSlate K P) (lockTime : ℤ) (shared : DSharedOutMwTxResult K P) :
    SwapSlate K P :=
  { slate with
    pubSlate.mw.lockTime := some lockTime
    prvSlate.mw.sharedCoin := some shared.sharedCoin }

/-- The slate of the Grin owner when the Bitcoin is locked. -/
def SwapSlate.verifiedMw (B : BtcLib K P) (slate : SwapSlate K P) (skA : PrivateKey K)
    (pubX pubB : PublicKey P) (lockTime : ℤ) (txid : String) : SwapSlate K P :=
  { slate with
    pubSlate.status := .setup
    pubSlate.btc.pubA := some (serializePubKey B (B.publicKey skA))
    pubSlate.btc.pubB := some (serializePubKey B pubB)
    pubSlate.btc.pubX := some (serializePubKey B pubX)
    pubSlate.btc.lockTime := some lockTime
    prvSlate.btc.sk := some (serializePrivKey B skA)
    prvSlate.btc.lock := some (BTCInput.new2 B txid 0 slate.pubSlate.btc.amount skA (B.publicKey skA)
      (lockPubScript B (B.publicKey skA) pubX pubB lockTime true)) }

/-- The slate of the Bitcoin owner when the Bitcoin is locked. -/
def SwapSlate.sentBtc (B : BtcLib K P) (slate : SwapSlate K P) (skB skR x : PrivateKey K)
    (pubA : PublicKey P) (lockTime : ℤ) (lock : SignedLock) : SwapSlate K P :=
  { slate with
    pubSlate.status := .setup
    pubSlate.btc.pubA := some (serializePubKey B pubA)
    pubSlate.btc.pubB := some (serializePubKey B (B.publicKey skB))
    pubSlate.btc.pubX := some (serializePubKey B (B.publicKey x))
    pubSlate.btc.lockTime := some lockTime
    prvSlate.btc.sk := some (serializePrivKey B skB)
    prvSlate.btc.rSk := some (serializePrivKey B skR)
    prvSlate.btc.x := some (serializePrivKey B x)
    prvSlate.btc.change := some (BTCInput.new2 B (B.txid lock.signedTx).toText 1 lock.chOut.value skR
      (B.publicKey skR) lock.chOut.scriptPubkey)
    prvSlate.btc.lock := some (BTCInput.new2 B (B.txid lock.signedTx).toText 0
      slate.pubSlate.btc.amount skB (B.publicKey skB) lock.lockOut.scriptPubkey) }

/-- The locking phase of the Grin owner up to its Grin part, with a peer that sends some id. -/
theorem lockingPhaseSwapMw_steps (hB : B.Lawful) (h : Fundable L B mw btc ra rb p) (txid : String)
    {t : Trace K P (SwapSlate K P)} {q : Program K P (SwapSlate K P) Unit}
    (hgrin : Steps (lockingGrinMw L ra (mw.verifiedMw B (createPrivateKey ra.skA)
      (B.publicKey (createPrivateKey rb.x)) (B.publicKey (createPrivateKey rb.skB))
      ((p.heightBtc + mw.pubSlate.btc.timelock : ℕ) : ℤ) txid)) t q) :
    ∃ past s, Steps (lockingPhaseSwapMw L B ra mw) (past ++ ⟨s, .getAddressFinalBalance p.lock.address,
        .ok mw.pubSlate.btc.amount⟩ :: t) q ∧
      received past = [serializePubKey B (B.publicKey (createPrivateKey rb.skB)),
        serializePubKey B (B.publicKey (createPrivateKey rb.x)),
        toString (p.heightBtc + mw.pubSlate.btc.timelock), p.lock.address, txid] ∧
      sent L past = [serializePubKey B (B.publicKey (createPrivateKey ra.skA))] ∧
      ∀ e ∈ past ++ [⟨s, .getAddressFinalBalance p.lock.address, .ok mw.pubSlate.btc.amount⟩],
        e.mem.prvSlate.mw = mw.prvSlate.mw ∧ e.op ≠ .getBlockHeight ∧ e.op ≠ .getCurrentBlockHeight := by
  have hreaches : (lockingPhaseSwapMw L B ra mw).Reaches fun u q' => q' = q ∧ ∃ past s,
      u = past ++ ⟨s, .getAddressFinalBalance p.lock.address, .ok mw.pubSlate.btc.amount⟩ :: t ∧
      received past = [serializePubKey B (B.publicKey (createPrivateKey rb.skB)),
        serializePubKey B (B.publicKey (createPrivateKey rb.x)),
        toString (p.heightBtc + mw.pubSlate.btc.timelock), p.lock.address, txid] ∧
      sent L past = [serializePubKey B (B.publicKey (createPrivateKey ra.skA))] ∧
      ∀ e ∈ past ++ [⟨s, .getAddressFinalBalance p.lock.address, .ok mw.pubSlate.btc.amount⟩],
        e.mem.prvSlate.mw = mw.prvSlate.mw ∧ e.op ≠ .getBlockHeight ∧
          e.op ≠ .getCurrentBlockHeight := by
    refine Prog.reaches_modify_bind ?_
    refine reaches_sendMsg_bind ?_
    refine reaches_receivePubKey_bind (deserializePubKey_serialize hB h.keyB) ?_
    refine Prog.reaches_modify_bind ?_
    refine reaches_receivePubKey_bind (deserializePubKey_serialize hB h.keyX) ?_
    refine Prog.reaches_modify_bind ?_
    refine reaches_receiveI64_bind (parseI64_toString h.heightBtc) ?_
    refine Prog.reaches_modify_bind ?_
    refine Prog.reaches_lift_bind (getLockPubScript_of_nonneg B (Int.natCast_nonneg _)) ?_
    refine Prog.reaches_lift_bind (signedLockTransaction_address h.lock) ?_
    refine Prog.reaches_request_bind (.ok ()) rfl ?_
    refine reaches_receiveMsg_bind p.lock.address ?_
    refine reaches_receiveMsg_bind txid ?_
    rw [if_neg (not_not.mpr rfl)]
    refine Prog.reaches_get_bind ?_
    refine Prog.reaches_bind (verifyFunds_steps h.amount (by decide)) ?_
    rw [if_pos rfl]
    refine Prog.reaches_modify_bind ?_
    refine ⟨t, _, hgrin, rfl, [_, _, _, _, _, _, _], _, rfl, ?_, ?_, ?_⟩
    · simp [received?]
    · simp [sent?, Msg.render]
    · simp
  obtain ⟨u, _, hsteps, rfl, past, s, rfl, hreceived, hsent, hevents⟩ := hreaches
  exact ⟨past, s, hsteps, hreceived, hsent, hevents⟩

/-- The slate of the Grin owner after the Bitcoin part of a run. -/
def LockPlan.verified (p : LockPlan K) (B : BtcLib K P) (mw : SwapSlate K P) (ra : LockMwRand K)
    (rb : LockBtcRand K) : SwapSlate K P :=
  mw.verifiedMw B (createPrivateKey ra.skA) (B.publicKey (createPrivateKey rb.x))
    (B.publicKey (createPrivateKey rb.skB)) ((p.heightBtc + mw.pubSlate.btc.timelock : ℕ) : ℤ)
    (B.txid p.lock.signedTx).toText

/-- The slate of the Bitcoin owner after it. -/
def LockPlan.sent (p : LockPlan K) (B : BtcLib K P) (btc : SwapSlate K P) (ra : LockMwRand K)
    (rb : LockBtcRand K) : SwapSlate K P :=
  btc.sentBtc B (createPrivateKey rb.skB) (createPrivateKey rb.skR) (createPrivateKey rb.x)
    (B.publicKey (createPrivateKey ra.skA)) ((p.heightBtc + btc.pubSlate.btc.timelock : ℕ) : ℤ) p.lock

/-- Where the two parties end: they return and share the coin, or without a change the Grin owner stops
between the funding transaction and its refund. -/
def LockPlan.Ends (p : LockPlan K) (L : GrinLib K P) (B : BtcLib K P) (mw btc : SwapSlate K P)
    (ra : LockMwRand K) (rb : LockBtcRand K)
    (c : Actors K P (SwapSlate K P) (SwapSlate K P) Unit Unit) : Prop :=
  (0 < p.value ∧ ∃ past past' m tx sharedA sharedB refund,
    c = (⟨past ++ [⟨m, .pushTransaction tx, .ok ()⟩], .ret ((p.verified B mw ra rb).fundedMw
        (p.heightGrin + mw.pubSlate.mw.timelock : ℕ) sharedA refund) ()⟩,
      ⟨past', .ret ((p.sent B btc ra rb).fundedBtc
        (p.heightGrin + mw.pubSlate.mw.timelock : ℕ) sharedB) ()⟩) ∧
    SharedCoin L sharedA.sharedCoin sharedB.sharedCoin mw.pubSlate.mw.amount
      ra.drecv.outCoinBlind rb.drecv.outCoinBlind ∧
    sharedB.sharedCoin.value = mw.pubSlate.mw.amount ∧ refund.tx.tx.isSome) ∨
  (p.value = 0 ∧ ∃ past m b, c = (⟨past, .stop m (.panic unwrapNone)⟩, b) ∧
    (∃ e ∈ past, ∃ S, e.op = .send (.slate .sharedOut .tx S)) ∧
    m.prvSlate.mw.refundTx = mw.prvSlate.mw.refundTx)

/-- What the parties hold on the Grin chain after an honest locking phase: the funding transaction has the
shared coin among its outputs, and the refund pays it to the Grin owner from the lock height on. -/
structure LockPlan.Shares (p : LockPlan K) (L : GrinLib K P) (mw : SwapSlate K P) (ra : LockMwRand K)
    (rb : LockBtcRand K) (tx : Grin.Transaction K P) (sharedA sharedB : DSharedOutMwTxResult K P)
    (refund : DBuildMWTxResult K P) : Prop where
  sharedOut : SharedOutDone L ra.drecv rb.drecv mw.pubSlate.mw.amount 0 sharedA sharedB
  fundingTx : sharedA.tx.tx = some tx
  sharedInp : ∃ txA, SharedInpDone L ra.recv mw.pubSlate.mw.amount rb.drecv.outCoinBlind
    ra.drecv.outCoinBlind (mw.pubSlate.mw.amount - L.txFee 1 1 1) txA refund.tx.tx refund.coin
  timelocked : Timelocked L (p.heightGrin + mw.pubSlate.mw.timelock) refund.tx
  coin : SharedCoin L sharedA.sharedCoin sharedB.sharedCoin mw.pubSlate.mw.amount
    ra.drecv.outCoinBlind rb.drecv.outCoinBlind
  value : sharedB.sharedCoin.value = mw.pubSlate.mw.amount

omit [DecidableEq K] in
theorem LockPlan.Shares.refundTx {tx : Grin.Transaction K P} {sharedA sharedB : DSharedOutMwTxResult K P}
    {refund : DBuildMWTxResult K P} (h : p.Shares L mw ra rb tx sharedA sharedB refund) :
    refund.tx.tx.isSome := by
  obtain ⟨txA, tx', -, htx, -⟩ := h.sharedInp
  rw [htx]
  rfl

section Joint

variable {nodes nodes' : Nodes K P (SwapSlate K P)}
  {Q : Actors K P (SwapSlate K P) (SwapSlate K P) Unit Unit → Prop}

/-- The node of the Bitcoin owner has the lock transaction. -/
def LockPlan.Broadcast (p : LockPlan K) (past' : Trace K P (SwapSlate K P)) : Prop :=
  ∃ s, ⟨s, .sendRawTransaction p.lock.signedTx, .ok ()⟩ ∈ past'

/-- Both parties return with a change, and `Q` holds then. -/
def LockPlan.Returns (p : LockPlan K) (L : GrinLib K P) (B : BtcLib K P) (mw btc : SwapSlate K P)
    (ra : LockMwRand K) (rb : LockBtcRand K)
    (Q : Actors K P (SwapSlate K P) (SwapSlate K P) Unit Unit → Prop) : Prop :=
  ∀ past past' m tx sharedA sharedB refund, p.Shares L mw ra rb tx sharedA sharedB refund →
    p.Broadcast past' → Q (⟨past ++ [⟨m, .pushTransaction tx, .ok ()⟩], .ret ((p.verified B mw ra rb).fundedMw
        (p.heightGrin + mw.pubSlate.mw.timelock : ℕ) sharedA refund) ()⟩,
      ⟨past', .ret ((p.sent B btc ra rb).fundedBtc
        (p.heightGrin + mw.pubSlate.mw.timelock : ℕ) sharedB) ()⟩)

/-- Without a change the Grin owner panics, and `Q` holds then. -/
def LockPlan.Panics (mw : SwapSlate K P)
    (Q : Actors K P (SwapSlate K P) (SwapSlate K P) Unit Unit → Prop) : Prop :=
  ∀ past m b, (∃ e ∈ past, ∃ S, e.op = .send (.slate .sharedOut .tx S)) →
    m.prvSlate.mw.refundTx = mw.prvSlate.mw.refundTx → Q (⟨past, .stop m (.panic unwrapNone)⟩, b)

omit [CommRing K] [AddCommGroup P] [Module K P] [DecidableEq K] [DecidableEq P] in
/-- The funds are seen at a look that is made. -/
theorem jointReaches_verifyFunds_bind {address : String} {amount looks attempts : ℕ}
    {f : Bool → Process K P (SwapSlate K P) α} {past : Trace K P (SwapSlate K P)} {s : SwapSlate K P}
    {q : Actor K P (SwapSlate K P) β} {Q : Actors K P (SwapSlate K P) (SwapSlate K P) α β → Prop}
    (hamount : 0 < amount)
    (hfunds : ∀ past address, nodes past (.getAddressFinalBalance address) =
      .ok (if past.countP isLook < looks then 0 else amount))
    (hpast : past.countP isLook ≤ looks) (hleft : looks < past.countP isLook + attempts)
    (h : ∀ past, JointReaches L nodes nodes' Q (⟨past, f true s⟩, q)) :
    JointReaches L nodes nodes' Q (⟨past, (verifyFunds address amount attempts >>= f) s⟩, q) := by
  induction attempts generalizing past with
  | zero => omega
  | succ attempts ih =>
    refine .head (.left fun h => h) ?_
    rw [hfunds]
    by_cases hseen : past.countP isLook < looks
    · rw [if_pos hseen]
      refine .head (.left fun h => h) ?_
      have hcount : ∀ e e' : Event (SwapSlate K P) (@Op.Ans K P), isLook e = true → isLook e' = false →
          (past ++ [e] ++ [e']).countP isLook = past.countP isLook + 1 := by
        intro e e' he he'
        simp [he, he']
      refine ih ?_ ?_
      · rw [hcount _ _ rfl rfl]
        omega
      · rw [hcount _ _ rfl rfl]
        omega
    · rw [if_neg hseen]
      show JointReaches L nodes nodes' Q (⟨_, ((if 0 < amount then pure (decide (amount = amount)) else _ :
        Process K P (SwapSlate K P) Bool) s).bind f⟩, q)
      rw [if_pos hamount, decide_eq_true rfl]
      exact h _

/-- The Grin parts of the two parties over the connection. -/
theorem Fundable.grin_reaches (hL : L.Lawful) (h : Fundable L B mw btc ra rb p)
    (hnodes : MwNodes nodes p.heightGrin mw.pubSlate.btc.amount)
    (hret : 0 < p.value → p.Returns L B mw btc ra rb Q) (hpanic : p.value = 0 → LockPlan.Panics mw Q)
    (past : Trace K P (SwapSlate K P)) {past' : Trace K P (SwapSlate K P)} (hsent : p.Broadcast past') :
    JointReaches L nodes nodes' Q (⟨past, lockingGrinMw L ra (p.verified B mw ra rb)⟩,
      ⟨past', lockingGrinBtc L rb (p.sent B btc ra rb)⟩) := by
  have hlt := h.heightGrin
  have htotal := h.spends.total
  have hu64 : u64OfI64 ((p.heightGrin + mw.pubSlate.mw.timelock : ℕ) : ℤ) =
      some (p.heightGrin + mw.pubSlate.mw.timelock) := by
    simp only [u64OfI64, Int.natCast_nonneg, if_true, Int.toNat_natCast]
  have hfund : subU64 L.overflowChecks mw.pubSlate.mw.amount (estimateFees L 1 1 1) =
      .ok (mw.pubSlate.mw.amount - L.txFee 1 1 1) := by
    rw [estimateFees, subU64_of_le (by omega)]
  refine jointReaches_left (c := p.heightGrin) (fun h => h) (by rw [hnodes.height]; rfl) ?_
  refine jointReaches_left_get ?_
  refine jointReaches_left_lift (c := p.heightGrin + mw.pubSlate.mw.timelock)
    (addU64_of_lt (by show p.heightGrin + mw.pubSlate.mw.timelock < _; omega)) ?_
  refine jointReaches_left_lift (Outcome.unwrap_eq_ok.mpr (i64OfU64_of_lt hlt)) ?_
  refine jointReaches_left_modify ?_
  refine jointReaches_send_read (Outcome.unwrap_eq_ok.mpr (parseI64_toString hlt)) ?_
  refine jointReaches_right_modify ?_
  refine jointReaches_right_get ?_
  obtain ⟨r, hr, hchange, htx, hvalA, hvalB, hcoin, hdone⟩ := h.talk_sharedOut hL _ _
  refine jointReaches_talk_bind dsharedOutMwTxAlice_only dsharedOutMwTxBob_only hr ?_
  intro t u hsteps
  refine jointReaches_left_modify ?_
  by_cases hpos : 0 < p.value
  · rw [Grin.change, if_pos hpos] at hchange
    refine jointReaches_left_lift (Outcome.unwrap_eq_ok.mpr hchange) ?_
    refine jointReaches_left_lift (by rw [hvalA]; exact hfund) ?_
    refine jointReaches_right_modify ?_
    refine jointReaches_right_lift (by rw [hvalB]; exact hfund) ?_
    refine jointReaches_right_lift (Outcome.unwrap_eq_ok.mpr hu64) ?_
    obtain ⟨r', hr', hinp, hlocked⟩ := h.talk_sharedInp hL hcoin _ _
    refine jointReaches_talk_bind dsharedInpMwTxBob_only dsharedInpMwTxAlice_only hr' ?_
    intro t' u' _
    refine jointReaches_left_modify ?_
    obtain ⟨tx, htx⟩ := Option.isSome_iff_exists.mp htx
    refine jointReaches_left_lift (Outcome.unwrap_eq_ok.mpr htx) ?_
    refine .head (.left fun h => h) ⟨_, .refl, ?_⟩
    rw [hnodes.push]
    refine hret hpos _ _ _ tx _ _ _ ⟨hdone, htx, ⟨_, hinp⟩, hlocked, hcoin.symm hvalA, hvalB⟩ ?_
    obtain ⟨s, hs⟩ := hsent
    exact ⟨s, by simp [hs]⟩
  · -- the change coin that is unwrapped is not there
    rw [Grin.change, if_neg hpos] at hchange
    obtain ⟨-, e, he, hop⟩ := hsteps.sat (dsharedOutMwTxAlice_sent _ [])
    rw [hchange]
    exact ⟨_, .refl, hpanic (by omega) _ _ _ ⟨e, List.mem_append_right _ he, _, hop⟩ rfl⟩

/-- The locking phases of two honest parties over one connection. -/
theorem Fundable.reaches (hL : L.Lawful) (hB : B.Lawful) (h : Fundable L B mw btc ra rb p)
    (hnodes : MwNodes nodes p.heightGrin mw.pubSlate.btc.amount) (hnodes' : BtcNodes nodes' p.heightBtc)
    (hret : 0 < p.value → p.Returns L B mw btc ra rb Q) (hpanic : p.value = 0 → LockPlan.Panics mw Q)
    {past past' : Trace K P (SwapSlate K P)} (hpast : past.countP isLook = 0) :
    JointReaches L nodes nodes' Q (⟨past, lockingPhaseSwapMw L B ra mw⟩,
      ⟨past', lockingPhaseSwapBtc L B rb btc⟩) := by
  have hlt := h.heightBtc
  have hheight : addU64 L.overflowChecks p.heightBtc btc.pubSlate.btc.timelock =
      .ok (p.heightBtc + mw.pubSlate.btc.timelock) := by
    rw [h.pub, addU64_of_lt (by omega)]
  have hlock : signedLockTransaction B (B.publicKey (createPrivateKey ra.skA))
      (B.publicKey (createPrivateKey rb.x)) (B.publicKey (createPrivateKey rb.skB))
      (B.publicKey (createPrivateKey rb.skR)) btc.prvSlate.btc.inputs btc.pubSlate.btc.amount
      ((p.heightBtc + mw.pubSlate.btc.timelock : ℕ) : ℤ) = .ok p.lock := by
    rw [h.pub]
    exact h.lock
  refine jointReaches_left_modify ?_
  refine jointReaches_right_modify ?_
  refine jointReaches_send_read (deserializePubKey_serialize hB h.keyA) ?_
  refine jointReaches_right_modify ?_
  refine jointReaches_recv_read (deserializePubKey_serialize hB h.keyB) ?_
  refine jointReaches_left_modify ?_
  refine jointReaches_recv_read (deserializePubKey_serialize hB h.keyX) ?_
  refine jointReaches_left_modify ?_
  refine jointReaches_right (c := p.heightBtc) (fun h => h) (hnodes'.height _) ?_
  refine jointReaches_right_get ?_
  refine jointReaches_right_lift hheight ?_
  refine jointReaches_right_lift (Outcome.unwrap_eq_ok.mpr (i64OfU64_of_lt hlt)) ?_
  refine jointReaches_recv_read (Outcome.unwrap_eq_ok.mpr (parseI64_toString hlt)) ?_
  refine jointReaches_left_modify ?_
  refine jointReaches_right_modify ?_
  refine jointReaches_right_lift hlock ?_
  refine jointReaches_right (c := ()) (fun h => h) (hnodes'.broadcast _ _) ?_
  refine jointReaches_right_modify ?_
  refine jointReaches_left_lift (getLockPubScript_of_nonneg B (Int.natCast_nonneg _)) ?_
  refine jointReaches_left_lift (signedLockTransaction_address h.lock) ?_
  refine jointReaches_left (c := ()) (fun h => h) (by rw [hnodes.imports]; rfl) ?_
  refine jointReaches_recv ?_
  refine jointReaches_recv ?_
  refine jointReaches_left_else (not_not.mpr rfl) ?_
  refine jointReaches_left_get ?_
  obtain ⟨looks, hlooks, hfunds⟩ := hnodes.funds
  refine jointReaches_verifyFunds_bind h.amount hfunds ?_ ?_ fun past => ?_
  · simp [isLook, hpast]
  · simpa [isLook, hpast] using hlooks
  refine jointReaches_left_then rfl ?_
  refine jointReaches_left_modify ?_
  refine jointReaches_right_modify ?_
  have hsent : (p.sent B btc ra rb) = btc.sentBtc B (createPrivateKey rb.skB) (createPrivateKey rb.skR)
      (createPrivateKey rb.x) (B.publicKey (createPrivateKey ra.skA))
      ((p.heightBtc + mw.pubSlate.btc.timelock : ℕ) : ℤ) p.lock := by
    rw [LockPlan.sent, h.pub]
  have hgrin : ∀ past', p.Broadcast past' → JointReaches L nodes nodes' Q
      (⟨past, lockingGrinMw L ra (p.verified B mw ra rb)⟩,
        ⟨past', lockingGrinBtc L rb (p.sent B btc ra rb)⟩) :=
    fun _ => h.grin_reaches hL hnodes hret hpanic past
  rw [hsent] at hgrin
  refine hgrin _ ?_
  simp [LockPlan.Broadcast, hnodes'.broadcast]

/-- Where the two parties end, from the start. -/
theorem Fundable.ends (hL : L.Lawful) (hB : B.Lawful) (h : Fundable L B mw btc ra rb p)
    (hnodes : MwNodes nodes p.heightGrin mw.pubSlate.btc.amount) (hnodes' : BtcNodes nodes' p.heightBtc) :
    JointReaches L nodes nodes' (p.Ends L B mw btc ra rb)
      (⟨[], lockingPhaseSwapMw L B ra mw⟩, ⟨[], lockingPhaseSwapBtc L B rb btc⟩) := by
  refine h.reaches hL hB hnodes hnodes' (fun hpos => ?_) (fun hzero => ?_) rfl
  · intro past past' m tx sharedA sharedB refund hshares _
    exact .inl ⟨hpos, past, past', m, tx, sharedA, sharedB, refund, rfl, hshares.coin, hshares.value,
      hshares.refundTx⟩
  · intro past m b hsent hrefund
    exact .inr ⟨hzero, past, m, b, rfl, hsent, hrefund⟩

end Joint

/-- Nodes that answer at once, at these heights. -/
def promptNodes (heightGrin heightBtc amount : ℕ) : Nodes K P σ
  | _, .send _ => .ok ()
  | _, .recv => .error (.err "no message")
  | _, .getBlockHeight => .ok heightGrin
  | _, .pushTransaction _ => .ok ()
  | _, .getCurrentBlockHeight => .ok heightBtc
  | _, .importBtcAddress _ => .ok ()
  | _, .getAddressFinalBalance _ => .ok amount
  | _, .sendRawTransaction _ => .ok ()
  | _, .sleep => ()
  | _, .connect _ _ => .ok ()
  | _, .bind => .ok ()
  | _, .accept => .ok ()
  | _, .getSlateChecksum => .error (.err "no disk")
  | _, .createSlateFile _ => .error (.err "no disk")
  | _, .writeSlateFile _ => .error (.err "no disk")

omit [CommRing K] [AddCommGroup P] [Module K P] [DecidableEq K] [DecidableEq P] in
theorem promptNodes_mw (heightGrin heightBtc amount : ℕ) :
    MwNodes (promptNodes heightGrin heightBtc amount : Nodes K P σ) heightGrin amount :=
  ⟨fun _ => rfl, fun _ _ => rfl, fun _ _ => rfl, 0, by decide, fun _ _ => rfl⟩

omit [CommRing K] [AddCommGroup P] [Module K P] [DecidableEq K] [DecidableEq P] in
theorem promptNodes_btc (heightGrin heightBtc amount : ℕ) :
    BtcNodes (promptNodes heightGrin heightBtc amount : Nodes K P σ) heightBtc :=
  ⟨fun _ => rfl, fun _ _ => rfl⟩

/-- The locking phase of two honest parties returns on both sides, and they share the coin. -/
theorem Lockable.runs (hL : L.Lawful) (hB : B.Lawful) (h : Lockable L B mw btc ra rb p) :
    ∃ tA tB sharedA sharedB refund,
      Steps (lockingPhaseSwapMw L B ra mw) tA (.ret ((p.verified B mw ra rb).fundedMw
        (p.heightGrin + mw.pubSlate.mw.timelock : ℕ) sharedA refund) ()) ∧
      Steps (lockingPhaseSwapBtc L B rb btc) tB (.ret ((p.sent B btc ra rb).fundedBtc
        (p.heightGrin + mw.pubSlate.mw.timelock : ℕ) sharedB) ()) ∧
      Connected L tA tB ∧ SharedCoin L sharedA.sharedCoin sharedB.sharedCoin mw.pubSlate.mw.amount
        ra.drecv.outCoinBlind rb.drecv.outCoinBlind ∧
      sharedB.sharedCoin.value = mw.pubSlate.mw.amount ∧ refund.tx.tx.isSome := by
  obtain ⟨c, hsteps, hends⟩ := h.toFundable.ends hL hB
    (promptNodes_mw p.heightGrin p.heightBtc mw.pubSlate.btc.amount)
    (promptNodes_btc p.heightGrin p.heightBtc mw.pubSlate.btc.amount)
  obtain ⟨tA, tB, -, -, hA, hB, hconn⟩ := hsteps.extends
  rcases hends with ⟨-, past, past', m, tx, sharedA, sharedB, refund, rfl, hcoins⟩ | ⟨hzero, -⟩
  · exact ⟨tA, tB, sharedA, sharedB, refund, hA, hB, hconn, hcoins⟩
  · exact (h.change.ne' hzero).elim

end Locking

end MwBtcSwap
