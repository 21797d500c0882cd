import MwBtcSwap.Swap.Protocol

/-! What the slates hold of the Bitcoin lock after the locking phase, in every run that returns: the
keys of the party, the keys and the lock time that it agreed on, and the lock output. -/

namespace MwBtcSwap

open Interaction Machine Grin Bitcoin

variable {K P : Type} [CommRing K] [AddCommGroup P] [Module K P] [DecidableEq K] [DecidableEq P]

variable {L : GrinLib K P} {B : BtcLib K P} {σ α : Type}

/-- The Grin owner's slate holds the lock of its key `skA`, the statement `pubX` and the refund key
`pubB`. -/
structure LockedMw (B : BtcLib K P) (slate : SwapSlate K P) (skA : PrivateKey K)
    (pubX pubB : PublicKey P) (lockTime : ℤ) (txid : String) : Prop where
  sk : slate.prvSlate.btc.sk = some (serializePrivKey B skA)
  recvKey : slate.pubSlate.btc.pubA = some (serializePubKey B (B.publicKey skA))
  refundKey : slate.pubSlate.btc.pubB = some (serializePubKey B pubB)
  statement : slate.pubSlate.btc.pubX = some (serializePubKey B pubX)
  time : slate.pubSlate.btc.lockTime = some lockTime
  lock : slate.prvSlate.btc.lock = some (BTCInput.new2 B txid 0 slate.pubSlate.btc.amount skA
    (B.publicKey skA) (lockPubScript B (B.publicKey skA) pubX pubB lockTime true))

/-- The Bitcoin owner's slate holds the lock of its refund key `skB`, its witness `x` and the
receiver's key `pubA`. -/
structure LockedBtc (B : BtcLib K P) (slate : SwapSlate K P) (skB x : PrivateKey K)
    (pubA : PublicKey P) (lockTime : ℤ) (txid : String) : Prop where
  sk : slate.prvSlate.btc.sk = some (serializePrivKey B skB)
  witness : slate.prvSlate.btc.x = some (serializePrivKey B x)
  recvKey : slate.pubSlate.btc.pubA = some (serializePubKey B pubA)
  time : slate.pubSlate.btc.lockTime = some lockTime
  lock : slate.prvSlate.btc.lock = some (BTCInput.new2 B txid 0 slate.pubSlate.btc.amount skB
    (B.publicKey skB) (lockPubScript B pubA (B.publicKey x) (B.publicKey skB) lockTime true))

/-- The lock script of the keys of the parties. -/
def lockOf (B : BtcLib K P) (skA x skB : K) (lockTime : ℤ) (wrapInP2sh : Bool) : List UInt8 :=
  lockPubScript B (B.publicKey (createPrivateKey skA)) (B.publicKey (createPrivateKey x))
    (B.publicKey (createPrivateKey skB)) lockTime wrapInP2sh

/-- The two slates of a lock of an amount, with nothing on the Grin side. -/
def lockedSlates (B : BtcLib K P) (skA x skB : K) (lockTime : ℤ) (amount : ℕ) (txid : Txid) :
    SwapSlate K P × SwapSlate K P :=
  let pub (k : K) : PublicKey P := B.publicKey (createPrivateKey k)
  let pubSlate : SwapSlatePub := {
    status := .setup
    mw := ⟨1000000000, 240, some 5000, .offered⟩
    btc := ⟨amount, 40, .requested, some lockTime, some (serializePubKey B (pub skA)),
      some (serializePubKey B (pub skB)), some (serializePubKey B (pub x))⟩
    peer := ⟨"127.0.0.1", "8080"⟩ }
  let prvSlate (sk : K) (witness : Option String) : SwapSlatePriv K P := {
    mw := ⟨[], none, none, none, none, none⟩
    btc := ⟨[], some (serializePrivKey B (createPrivateKey sk)), witness, none, none, none,
      some (BTCInput.new2 B txid.toText 0 amount (createPrivateKey sk) (pub sk)
        (lockOf B skA x skB lockTime true)), none⟩ }
  (⟨pubSlate, prvSlate skA none⟩,
    ⟨pubSlate, prvSlate skB (some (serializePrivKey B (createPrivateKey x)))⟩)

/-- A transaction id. -/
def sampleTxid : Txid := ⟨List.replicate 32 9⟩

/-! ### Processes that leave the slate alone -/

section Receive

variable {past : Trace K P σ} {s : σ} {R : Trace K P σ → σ → Op K P → Prop}
  {Q : Trace K P σ → σ → α → Prop}

section

omit [CommRing K] [AddCommGroup P] [Module K P] [DecidableEq K] [DecidableEq P]

theorem sat_receivePubKey_bind {f : PublicKey P → Process K P σ α} (hop : R past s .recv)
    (h : ∀ msg pk, deserializePubKey B msg = .ok pk → (f pk s).Sat R Q (past ++ [⟨s, .recv, .ok msg⟩])) :
    ((receivePubKey B >>= f) s).Sat R Q past := by
  have hsat : ((receiveMsg >>= fun msg => Proc.lift (deserializePubKey B msg) >>= f) s).Sat R Q past := by
    refine Prog.sat_request_bind hop fun ans msg hmsg => Prog.sat_lift_bind fun pk hpk => ?_
    obtain rfl := Outcome.expect_eq_ok.mp hmsg
    exact h msg pk hpk
  simpa only [receivePubKey, Proc.bind_apply, Prog.bind_assoc] using hsat

theorem sat_receiveI64_bind {f : ℤ → Process K P σ α} (hop : R past s .recv)
    (h : ∀ msg n, parseI64 msg = some n → (f n s).Sat R Q (past ++ [⟨s, .recv, .ok msg⟩])) :
    ((receiveI64 >>= f) s).Sat R Q past := by
  have hsat : ((receiveMsg >>= fun msg => Proc.lift (Outcome.unwrap unwrapErr (parseI64 msg)) >>= f)
      s).Sat R Q past := by
    refine Prog.sat_request_bind hop fun ans msg hmsg => Prog.sat_lift_bind fun n hn => ?_
    obtain rfl := Outcome.expect_eq_ok.mp hmsg
    exact h msg n (Outcome.unwrap_eq_ok.mp hn)
  simpa only [receiveI64, Proc.bind_apply, Prog.bind_assoc] using hsat

theorem sat_receiveMsg_bind {f : String → Process K P σ α} (hop : R past s .recv)
    (h : ∀ msg, (f msg s).Sat R Q (past ++ [⟨s, .recv, .ok msg⟩])) :
    ((receiveMsg >>= f) s).Sat R Q past := by
  refine Prog.sat_request_bind hop fun ans msg hmsg => ?_
  obtain rfl := Outcome.expect_eq_ok.mp hmsg
  exact h msg

/-- A message that was acknowledged. -/
theorem sat_sendMsg_bind {msg : Msg K P} {f : Unit → Process K P σ α} (hop : R past s (.send msg))
    (h : (f () s).Sat R Q (past ++ [⟨s, .send msg, .ok ()⟩])) :
    ((sendMsg msg >>= f) s).Sat R Q past := by
  refine Prog.sat_request_bind hop fun ans u hans => ?_
  obtain rfl := Outcome.expect_eq_ok.mp hans
  exact h

end

end Receive

/-- The operations of the verification of the locked funds. -/
def Op.VerifiesFunds : Op K P → Prop
  | .getAddressFinalBalance _ => True
  | .sleep => True
  | _ => False

section

omit [CommRing K] [AddCommGroup P] [Module K P] [DecidableEq K] [DecidableEq P]

theorem verifyFunds_only {address : String} {amount attempts : ℕ} :
    (verifyFunds address amount attempts : Process K P σ Bool).Only Op.VerifiesFunds := by
  induction attempts with
  | zero => exact .pure _
  | succ attempts ih =>
    refine .bind (.request trivial) fun balance => .ite (.pure _) (.bind (.request trivial) fun _ => ih)

theorem sent_of_verifiesFunds {past past' : Trace K P σ} {s : σ}
    (h : Extends Op.VerifiesFunds s past past') : sent L past' = sent L past := by
  obtain ⟨t, rfl, ht⟩ := h
  have hnone : sent L t = [] := by
    rw [sent, List.filterMap_eq_nil_iff]
    rintro ⟨s', op, ans⟩ he
    have hop := (ht _ he).2
    cases op with
    | getAddressFinalBalance address => rfl
    | sleep => rfl
    | _ => exact hop.elim
  rw [sent_append, hnone, List.append_nil]

theorem compareTimes_only {ops : Op K P → Prop} (hg : ops .getBlockHeight)
    (hb : ops .getCurrentBlockHeight) {compare : ℕ → ℕ → ℤ → ℤ → Outcome Bool} :
    (compareTimes compare).Only ops := by
  intro s past
  exact Proc.Only.bind (.lift _) (fun _ => .bind (.lift _) fun _ => .bind (.request hg) fun _ =>
    .bind (.request hb) fun _ => .lift _) s past

end

/-! ### The locking phase of the Grin owner -/

/-- The operations of a phase: messages on the connection that is open, calls to the nodes, waiting. -/
def Op.InPhase : Op K P → Prop
  | .connect _ _ => False
  | .bind => False
  | .accept => False
  | .getSlateChecksum => False
  | .createSlateFile _ => False
  | .writeSlateFile _ => False
  | _ => True

/-- What holds of the operations of `locking_phase_swap_mw` that started from a slate: the funding
transaction is sent to the peer before a refund is stored, and published after it was sent. -/
def LockingMwOp (slate : SwapSlate K P) (past : Trace K P (SwapSlate K P)) (s : SwapSlate K P) :
    Op K P → Prop
  | .send (.slate .sharedOut .tx _) => s.prvSlate.mw.refundTx = slate.prvSlate.mw.refundTx
  | .send (.slate .contract _ _) => False
  | .pushTransaction tx => ∃ S, S.tx = some tx ∧
      ∃ e ∈ past, e.op = .send (.slate .sharedOut .tx S)
  | op => op.InPhase

/-- The funding slate that `dshared_out_mw_tx_alice` returns has been sent. -/
theorem dsharedOutMwTxAlice_sent {rand : SpendRand K} {drand : DRecvRand K} {inp : List MWCoin}
    {fundValue timelock : ℕ} (s : σ) (past : Trace K P σ) :
    (dsharedOutMwTxAlice L rand drand inp fundValue timelock s).Sat
      (fun _ s' op => s' = s ∧ Op.OfProtocol .sharedOut op)
      (fun past' s' r => s' = s ∧ ∃ e ∈ past', e.op = .send (.slate .sharedOut .tx r.tx)) past := by
  refine Prog.sat_lift_bind fun _ _ => Prog.sat_lift_bind fun _ _ =>
    Prog.sat_request_bind ⟨rfl, rfl⟩ fun _ _ _ => Prog.sat_request_bind ⟨rfl, rfl⟩ fun _ _ _ =>
    Prog.sat_request_bind ⟨rfl, trivial⟩ fun _ _ _ => Prog.sat_request_bind ⟨rfl, trivial⟩ fun _ _ _ =>
    Prog.sat_lift_bind fun _ _ => Prog.sat_lift_bind fun _ _ => Prog.sat_lift_bind fun _ _ =>
    Prog.sat_lift_bind fun fin _ => Prog.sat_request_bind ⟨rfl, rfl⟩ fun ans _ _ => ?_
  exact ⟨rfl, _, List.mem_append_right _ (List.mem_singleton_self _), rfl⟩

/-- What the Grin owner learns in the locking phase. -/
structure MwLock (K P : Type) where
  pubB : PublicKey P
  pubX : PublicKey P
  lockTime : ℤ
  txid : String
  grinLockTime : ℤ
  sharedCoin : MWCoin
  changeCoin : Option MWCoin
  refundCoin : Option MWCoin
  refundTx : Grin.Transaction K P

/-- The slate that `locking_phase_swap_mw` leaves. -/
def SwapSlate.lockMw (B : BtcLib K P) (slate : SwapSlate K P) (skA : PrivateKey K) (d : MwLock K P) :
    SwapSlate K P :=
  let pubA := B.publicKey skA
  let lock := BTCInput.new2 B d.txid 0 slate.pubSlate.btc.amount skA pubA
    (lockPubScript B pubA d.pubX d.pubB d.lockTime true)
  { slate with
    pubSlate.status := .setup
    pubSlate.mw.lockTime := some d.grinLockTime
    pubSlate.btc.pubA := some (serializePubKey B pubA)
    pubSlate.btc.pubB := some (serializePubKey B d.pubB)
    pubSlate.btc.pubX := some (serializePubKey B d.pubX)
    pubSlate.btc.lockTime := some d.lockTime
    prvSlate.btc.sk := some (serializePrivKey B skA)
    prvSlate.btc.lock := some lock
    prvSlate.mw.sharedCoin := some d.sharedCoin
    prvSlate.mw.changeCoin := d.changeCoin
    prvSlate.mw.refundCoin := d.refundCoin
    prvSlate.mw.refundTx := some d.refundTx }

theorem lockingGrinMw_sat (rand : LockMwRand K) {slate s : SwapSlate K P}
    {past : Trace K P (SwapSlate K P)} (hrefund : s.prvSlate.mw.refundTx = slate.prvSlate.mw.refundTx) :
    (lockingGrinMw L rand s).Sat (LockingMwOp slate) (fun past' s' _ =>
      ∃ height grinLockTime sharedCoin changeCoin refundCoin refundTx, s' = { s with
        pubSlate.mw.lockTime := some grinLockTime
        prvSlate.mw.sharedCoin := some sharedCoin
        prvSlate.mw.changeCoin := changeCoin
        prvSlate.mw.refundCoin := refundCoin
        prvSlate.mw.refundTx := some refundTx } ∧
      i64OfU64 height = some grinLockTime ∧ sent L past ++ [toString height] <+: sent L past' ∧
      received past <+: received past') past := by
  refine Prog.sat_request_bind trivial fun ans grinHeight _ => Prog.sat_get_bind <|
    Prog.sat_lift_bind fun height _ => Prog.sat_lift_bind fun lockTime hlock => Prog.sat_modify_bind <|
    sat_sendMsg_bind trivial ?_
  refine (((dsharedOutMwTxAlice_sent _ _).and (dsharedOutMwTxAlice_only _ _)).mono ?_
    fun _ _ _ h => h).bind ?_
  · rintro past' s' op ⟨⟨rfl, hop⟩, -⟩
    match op, hop with
    | .recv, _ => trivial
    | .send (.slate .sharedOut .ptx _), _ => trivial
    | .send (.slate .sharedOut .ptx2 _), _ => trivial
    | .send (.slate .sharedOut .ptx3 _), _ => trivial
    | .send (.slate .sharedOut .tx _), _ => exact hrefund
    | .send (.prfCtx _), _ => trivial
  · rintro past' s' r ⟨⟨rfl, e, he, hop⟩, -, hext'⟩
    refine Prog.sat_modify_bind <| Prog.sat_lift_bind fun _ _ => Prog.sat_lift_bind fun _ _ => ?_
    refine dsharedInpMwTxBob_only.sat_bind_returns dsharedInpMwTxBob_returns ?_
      fun past'' refund hext hsome => Prog.sat_modify_bind <| Prog.sat_lift_bind fun tx htx => ?_
    · intro past'' op hop _
      match op, hop with
      | .recv, _ => trivial
      | .send (.slate .sharedInp _ _), _ => trivial
    · obtain ⟨refundTx, hrefundTx⟩ := Option.isSome_iff_exists.mp hsome
      refine ⟨⟨r.tx, ?_, e, hext.mem he, hop⟩, fun ans => ?_⟩
      · simpa using htx
      · cases ans with
        | error e => trivial
        | ok u =>
          have hleads := hext'.isPrefix.trans hext.isPrefix
          refine ⟨height, lockTime, r.sharedCoin, r.changeCoin, refund.coin, refundTx,
            by rw [hrefundTx], Outcome.unwrap_eq_ok.mp hlock, ?_, ?_⟩
          · refine List.IsPrefix.trans ?_ (sent_mono L (List.prefix_append _ _))
            simpa [sent?, Msg.render] using sent_mono L hleads
          · refine List.IsPrefix.trans ?_ (received_mono (List.prefix_append _ _))
            simpa [received?] using received_mono hleads

/-- What the Grin owner tells and hears in the locking phase: its key and the lock height of its refund,
and the keys and the lock height of the peer. -/
structure MwTalk (L : GrinLib K P) (B : BtcLib K P) (skA : PrivateKey K) (d : MwLock K P)
    (past past' : Trace K P (SwapSlate K P)) : Prop where
  tells : ∃ height, i64OfU64 height = some d.grinLockTime ∧
    sent L past ++ [serializePubKey B (B.publicKey skA), toString height] <+: sent L past'
  hears : ∃ pubB pubX lockTime, received past ++ [pubB, pubX, lockTime] <+: received past' ∧
    deserializePubKey B pubB = .ok d.pubB ∧ deserializePubKey B pubX = .ok d.pubX ∧
    parseI64 lockTime = some d.lockTime

/-- `locking_phase_swap_mw` keeps this order, and every run that returns leaves the lock in the
slate. -/
theorem lockingPhaseSwapMw_sat (rand : LockMwRand K) (slate : SwapSlate K P)
    (past : Trace K P (SwapSlate K P)) :
    (lockingPhaseSwapMw L B rand slate).Sat (LockingMwOp slate) (fun past' s _ =>
      ∃ d : MwLock K P, s = slate.lockMw B (createPrivateKey rand.skA) d ∧
        MwTalk L B (createPrivateKey rand.skA) d past past') past := by
  refine Prog.sat_modify_bind <| sat_sendMsg_bind trivial <|
    sat_receivePubKey_bind trivial fun pubBText pubB hpubB => Prog.sat_modify_bind <|
    sat_receivePubKey_bind trivial fun pubXText pubX hpubX => Prog.sat_modify_bind <|
    sat_receiveI64_bind trivial fun lockTimeText lockTime hlockTime => Prog.sat_modify_bind <|
    Prog.sat_lift_bind fun pubScript hscript => Prog.sat_lift_bind fun _ _ =>
    Prog.sat_request_bind trivial fun ans _ _ => sat_receiveMsg_bind trivial fun address =>
    sat_receiveMsg_bind trivial fun txid => ?_
  obtain rfl := getLockPubScript_eq_ok hscript
  split_ifs
  · exact Prog.sat_modify_bind trivial
  · refine Prog.sat_get_bind <| verifyFunds_only.sat_bind ?_ fun past₁ verified hext => ?_
    · intro _ op hop _
      match op, hop with
      | .getAddressFinalBalance _, _ => trivial
      | .sleep, _ => trivial
    · cases verified with
      | false => exact Prog.sat_modify_bind trivial
      | true =>
        refine Prog.sat_modify_bind ((lockingGrinMw_sat rand rfl).mono (fun _ _ _ h => h) ?_)
        rintro past' _ _ ⟨height, grinLockTime, sharedCoin, changeCoin, refundCoin, refundTx, rfl,
          hheight, hsent, hreceived⟩
        refine ⟨⟨pubB, pubX, lockTime, txid, grinLockTime, sharedCoin, changeCoin, refundCoin,
          refundTx⟩, rfl, ⟨height, hheight, ?_⟩, pubBText, pubXText, lockTimeText, ?_, hpubB, hpubX,
          hlockTime⟩
        · rw [sent_of_verifiesFunds hext] at hsent
          simpa [sent?, Msg.render] using hsent
        · have hfirst := (received_mono hext.isPrefix).trans hreceived
          refine (List.prefix_append _ [address, txid]).trans ?_
          simpa [received?] using hfirst

/-! ### The locking phase of the Bitcoin owner -/

/-- What holds of the operations of `locking_phase_swap_btc`: it looks at no height of the Grin chain,
and signs the refund that the peer's answer describes. -/
def LockingBtcOp (L : GrinLib K P) (past : Trace K P (SwapSlate K P)) : Op K P → Prop
  | .send (.slate .sharedInp .tx S) =>
    ∃ S₂, Answered L .sharedInp .ptx past S₂ ∧ S.msgToSign L = S₂.msgToSign L
  | .send (.slate .contract _ _) => False
  | .getBlockHeight => False
  | op => op.InPhase

/-- What the Bitcoin owner learns in the locking phase. -/
structure BtcLock (P : Type) where
  pubA : PublicKey P
  lockTime : ℤ
  txid : String
  change : TxOut
  grinLockTime : ℤ
  sharedCoin : MWCoin

/-- The slate that `locking_phase_swap_btc` leaves. -/
def SwapSlate.lockBtc (B : BtcLib K P) (slate : SwapSlate K P) (skB skR x : PrivateKey K)
    (d : BtcLock P) : SwapSlate K P :=
  let pubB := B.publicKey skB
  let pubR := B.publicKey skR
  let pubX := B.publicKey x
  let lock := BTCInput.new2 B d.txid 0 slate.pubSlate.btc.amount skB pubB
    (lockPubScript B d.pubA pubX pubB d.lockTime true)
  { slate with
    pubSlate.status := .setup
    pubSlate.mw.lockTime := some d.grinLockTime
    pubSlate.btc.pubA := some (serializePubKey B d.pubA)
    pubSlate.btc.pubB := some (serializePubKey B pubB)
    pubSlate.btc.pubX := some (serializePubKey B pubX)
    pubSlate.btc.lockTime := some d.lockTime
    prvSlate.btc.sk := some (serializePrivKey B skB)
    prvSlate.btc.rSk := some (serializePrivKey B skR)
    prvSlate.btc.x := some (serializePrivKey B x)
    prvSlate.btc.change := some
      (BTCInput.new2 B d.txid 1 d.change.value skR pubR d.change.scriptPubkey)
    prvSlate.btc.lock := some lock
    prvSlate.mw.sharedCoin := some d.sharedCoin }

theorem lockingGrinBtc_sat (rand : LockBtcRand K) {s : SwapSlate K P}
    {past : Trace K P (SwapSlate K P)} :
    (lockingGrinBtc L rand s).Sat (fun past _ op => LockingBtcOp L past op) (fun past' s' _ =>
      ∃ text grinLockTime sharedCoin, s' = { s with
        pubSlate.mw.lockTime := some grinLockTime
        prvSlate.mw.sharedCoin := some sharedCoin } ∧
      parseI64 text = some grinLockTime ∧ received past ++ [text] <+: received past' ∧
      sent L past <+: sent L past') past := by
  refine sat_receiveI64_bind trivial fun text lockTime htext => Prog.sat_modify_bind <|
    Prog.sat_get_bind <| dsharedOutMwTxBob_only.sat_bind ?_ fun _ sharedOut hext => Prog.sat_modify_bind <|
    Prog.sat_lift_bind fun _ _ => Prog.sat_lift_bind fun _ _ => ?_
  · intro past' op hop _
    match op, hop with
    | .recv, _ => trivial
    | .send (.slate .sharedOut _ _), _ => trivial
    | .send (.prfCtx _), _ => trivial
  · refine (((dsharedInpMwTxAlice_sat _ _).and (dsharedInpMwTxAlice_only _ _)).mono ?_
      fun _ _ _ h => h).bind ?_
    · rintro past' s' op ⟨⟨rfl, hop⟩, -⟩
      match op, hop with
      | .recv, _ => trivial
      | .send (.slate .sharedInp .ptx _), _ => trivial
      | .send (.slate .sharedInp .tx _), hop => exact hop
    · rintro past' s' r ⟨rfl, -, hext'⟩
      have hleads := hext.isPrefix.trans hext'.isPrefix
      refine ⟨text, lockTime, sharedOut.sharedCoin, rfl, htext, ?_, ?_⟩
      · simpa [received?] using received_mono hleads
      · simpa [sent?] using sent_mono L hleads

omit [DecidableEq K] [DecidableEq P] in
/-- The lock output of the transaction pays to the lock script. -/
theorem signedLockTransaction_lockOut {pubA pubX pubB pubR : PublicKey P} {inputs : List BTCInput}
    {amount : ℕ} {lockHeight : ℤ} {lock : SignedLock}
    (h : signedLockTransaction B pubA pubX pubB pubR inputs amount lockHeight = .ok lock) :
    lock.lockOut = ⟨amount, lockPubScript B pubA pubX pubB lockHeight true⟩ := by
  simp only [signedLockTransaction, Outcome.bind_eq_ok, Outcome.unwrap_eq_ok, Outcome.pure_eq_ok,
    Except.ok.injEq] at h
  obtain ⟨txLock, hcreate, lockOut, hout, _, -, _, -, _, -, _, -, _, -, _, -, rfl⟩ := h
  obtain ⟨change, houts⟩ := createLockTransaction_output hcreate
  rw [houts, List.getElem?_cons_zero] at hout
  exact (Option.some.inj hout).symm

/-- What the Bitcoin owner tells and hears in the locking phase: its keys and the lock height, and the
key of the peer with the lock height of its refund. -/
structure BtcTalk (L : GrinLib K P) (B : BtcLib K P) (skB x : PrivateKey K) (d : BtcLock P)
    (past past' : Trace K P (SwapSlate K P)) : Prop where
  tells : ∃ height, i64OfU64 height = some d.lockTime ∧
    sent L past ++ [serializePubKey B (B.publicKey skB), serializePubKey B (B.publicKey x),
      toString height] <+: sent L past'
  hears : ∃ pubA lockTime, received past ++ [pubA, lockTime] <+: received past' ∧
    deserializePubKey B pubA = .ok d.pubA ∧ parseI64 lockTime = some d.grinLockTime

/-- `locking_phase_swap_btc` does so, and every run that returns leaves the lock in the slate. -/
theorem lockingPhaseSwapBtc_sat (rand : LockBtcRand K) (slate : SwapSlate K P)
    (past : Trace K P (SwapSlate K P)) :
    (lockingPhaseSwapBtc L B rand slate).Sat (fun past _ op => LockingBtcOp L past op)
      (fun past' s _ => ∃ d : BtcLock P, s = slate.lockBtc B (createPrivateKey rand.skB)
          (createPrivateKey rand.skR) (createPrivateKey rand.x) d ∧
        BtcTalk L B (createPrivateKey rand.skB) (createPrivateKey rand.x) d past past') past := by
  refine Prog.sat_modify_bind <| sat_receivePubKey_bind trivial fun pubAText pubA hpubA =>
    Prog.sat_modify_bind <| sat_sendMsg_bind trivial <| sat_sendMsg_bind trivial <|
    Prog.sat_request_bind trivial fun ans₁ _ _ => Prog.sat_get_bind <| Prog.sat_lift_bind fun height _ =>
    Prog.sat_lift_bind fun lockHeight hheight => sat_sendMsg_bind trivial <|
    Prog.sat_modify_bind <| Prog.sat_lift_bind fun lock hlock =>
    Prog.sat_request_bind trivial fun ans₂ _ _ => Prog.sat_modify_bind <|
    sat_sendMsg_bind trivial <| sat_sendMsg_bind trivial <| Prog.sat_modify_bind ?_
  have hscript : lock.lockOut.scriptPubkey = lockPubScript B pubA _ _ lockHeight true :=
    congrArg TxOut.scriptPubkey (signedLockTransaction_lockOut hlock)
  have hi64 : i64OfU64 height = some lockHeight := Outcome.unwrap_eq_ok.mp hheight
  refine (lockingGrinBtc_sat rand).mono (fun _ _ _ h => h) ?_
  rintro past' _ _ ⟨text, grinLockTime, sharedCoin, rfl, htext, hreceived, hsent⟩
  refine ⟨⟨pubA, lockHeight, (B.txid lock.signedTx).toText, lock.chOut, grinLockTime, sharedCoin⟩, ?_,
    ⟨height, hi64, ?_⟩, pubAText, text, ?_, hpubA, htext⟩
  · rw [hscript]
    rfl
  · have htext : toString lockHeight = toString height := by
      rw [(i64OfU64_eq_some hi64).2]
      rfl
    refine List.IsPrefix.trans ?_ hsent
    refine (List.prefix_append _ [lock.address, (B.txid lock.signedTx).toText]).trans ?_
    rw [← htext]
    simp [sent?, Msg.render]
  · simpa [received?] using hreceived

end MwBtcSwap
