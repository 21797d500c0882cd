import MwBtcSwap.Grin.Peer
import MwBtcSwap.Swap.Handshake
import MwBtcSwap.Swap.World

/-! The locking phase of one party with a peer that completes it: the coin that the party has in memory at
each step, the funding transaction, and the refund that is signed. -/

namespace MwBtcSwap

open Interaction Machine Grin Bitcoin

variable {K P : Type} [CommRing K] [AddCommGroup P] [Module K P] [DecidableEq K] [DecidableEq P]

variable {L : GrinLib K P} {B : BtcLib K P} {heightGrin heightBtc : ℕ}

/-! ### Steps -/

section

omit [CommRing K] [AddCommGroup P] [Module K P] [DecidableEq K] [DecidableEq P]

theorem Op.answeredAt_of_ne {op : Op K P} {ans : op.Ans} (hgrin : op ≠ .getBlockHeight)
    (hbtc : op ≠ .getCurrentBlockHeight) : op.AnsweredAt heightGrin heightBtc ans := by
  cases op with
  | getBlockHeight => exact (hgrin rfl).elim
  | getCurrentBlockHeight => exact (hbtc rfl).elim
  | _ => trivial

theorem Op.answeredAt_of_protocol {protocol : Protocol} {op : Op K P} {ans : op.Ans}
    (h : op.OfProtocol protocol) : op.AnsweredAt heightGrin heightBtc ans := by
  match op, h with
  | .recv, _ => trivial
  | .send _, _ => trivial

/-- What a party does in the locking phase: the nodes answer at these heights, and the shared coin in
memory is the one from before or the one that the phase makes. -/
structure LockEvent (heightGrin heightBtc : ℕ) (before : Option MWCoin) (shared : MWCoin)
    (e : Event (SwapSlate K P) (@Op.Ans K P)) : Prop where
  answered : e.op.AnsweredAt heightGrin heightBtc e.ans
  held : e.mem.prvSlate.mw.sharedCoin = before ∨ e.mem.prvSlate.mw.sharedCoin = some shared

/-- After a locking phase the party holds the one coin. -/
theorem LockEvent.held_eq {w : World K P} {coin shared : MWCoin} (hidle : w.running = none)
    (hslate : w.slate.prvSlate.mw.sharedCoin = some shared)
    (hpast : ∀ e ∈ w.past, LockEvent heightGrin heightBtc none shared e) (h : w.Holds coin) :
    coin = shared := by
  rcases h with h | ⟨r, hr, -⟩ | ⟨e, he, h⟩
  · exact Option.some.inj (h.symm.trans hslate)
  · cases hidle.symm.trans hr
  · rcases (hpast e he).held with hnone | hsome
    · cases h.symm.trans hnone
    · exact Option.some.inj (h.symm.trans hsome)

end

section Locking

variable {mw btc : SwapSlate K P} {ra : LockMwRand K} {rb : LockBtcRand K} {p : LockPlan K} {σ τ : Type}

/-- The funding transaction of a locking phase. -/
def LockPlan.fundingTx (p : LockPlan K) (L : GrinLib K P) (mw : SwapSlate K P) (ra : LockMwRand K)
    (rb : LockBtcRand K) (proof : RangeProof) : Grin.Transaction K P :=
  Grin.fundingTx L ra.spend ra.drecv rb.drecv p.coins mw.pubSlate.mw.amount 0 p.value p.fee proof

/-- The shared coin of the two parties over the connection, with its funding transaction. -/
theorem Lockable.talk_funding (hL : L.Lawful) (h : Lockable L B mw btc ra rb p) (s : σ) (s' : τ) :
    ∃ proof r, talk L (dsharedOutMwTxAlice L ra.spend ra.drecv mw.prvSlate.mw.inputs
        mw.pubSlate.mw.amount 0 s) (dsharedOutMwTxBob L rb.drecv btc.pubSlate.mw.amount s') = some r ∧
      r.2.1.changeCoin.isSome ∧ r.2.1.tx.tx = some (p.fundingTx L mw ra rb proof) ∧
      L.validate (p.fundingTx L mw ra rb proof) = true ∧
      r.2.1.sharedCoin.value = mw.pubSlate.mw.amount ∧
      r.2.2.sharedCoin.value = mw.pubSlate.mw.amount ∧
      SharedCoin L r.2.2.sharedCoin r.2.1.sharedCoin mw.pubSlate.mw.amount rb.drecv.outCoinBlind
        ra.drecv.outCoinBlind := by
  obtain ⟨r, hr, hchange, -, hvalA, hvalB, hcoin, -⟩ := h.toFundable.talk_sharedOut hL s s'
  obtain ⟨proof, r', hr', htx, hvalid⟩ := sharedOut_run s s' hL h.funding h.sharedOut
  have hpub := hr
  rw [h.pub] at hpub
  obtain rfl := Option.some.inj (hpub.symm.trans hr')
  refine ⟨proof, r, hr, ?_, htx, hvalid, hvalA, hvalB, hcoin⟩
  rw [hchange, Grin.change, if_pos h.change]
  rfl

omit [DecidableEq K] [DecidableEq P] in
theorem Fundable.subU64_fee (h : Fundable L B mw btc ra rb p) :
    subU64 L.overflowChecks mw.pubSlate.mw.amount (estimateFees L 1 1 1) =
      .ok (mw.pubSlate.mw.amount - L.txFee 1 1 1) := by
  have htotal := h.spends.total
  rw [estimateFees, subU64_of_le (by omega)]

/-- The Grin part of the Grin owner. -/
theorem Lockable.grinMw_run (hL : L.Lawful) (h : Lockable L B mw btc ra rb p) :
    ∃ t proof shared refund coin, Steps (lockingGrinMw L ra (p.verified B mw ra rb)) t
        (.ret ((p.verified B mw ra rb).fundedMw (p.heightGrin + mw.pubSlate.mw.timelock : ℕ) shared
          refund) ()) ∧
      L.validate (p.fundingTx L mw ra rb proof) = true ∧
      shared.sharedCoin.value = mw.pubSlate.mw.amount ∧
      SharedCoin L shared.sharedCoin coin mw.pubSlate.mw.amount ra.drecv.outCoinBlind
        rb.drecv.outCoinBlind ∧
      ∀ e ∈ t, LockEvent p.heightGrin p.heightBtc mw.prvSlate.mw.sharedCoin shared.sharedCoin e := by
  have hlt := h.heightGrin
  let s := { p.verified B mw ra rb with
    pubSlate.mw.lockTime := some ((p.heightGrin + mw.pubSlate.mw.timelock : ℕ) : ℤ) }
  obtain ⟨proof, r, hr, hchange, htx, hvalid, hvalA, hvalB, hcoin⟩ := h.talk_funding hL s ()
  obtain ⟨tA, -, hA, -, -⟩ := steps_of_talk_only dsharedOutMwTxAlice_only dsharedOutMwTxBob_only hr
  obtain ⟨change, hchange⟩ := Option.isSome_iff_exists.mp hchange
  let s' := { s with
    prvSlate.mw.sharedCoin := some r.2.1.sharedCoin
    prvSlate.mw.changeCoin := r.2.1.changeCoin }
  obtain ⟨r', hr', -⟩ := h.toFundable.talk_sharedInp hL hcoin s' ()
  obtain ⟨tB, -, hB, -, -⟩ := steps_of_talk_only dsharedInpMwTxBob_only dsharedInpMwTxAlice_only hr'
  have hheight : addU64 L.overflowChecks p.heightGrin mw.pubSlate.mw.timelock =
      .ok (p.heightGrin + mw.pubSlate.mw.timelock) := addU64_of_lt (by omega)
  have hout : ∀ e ∈ tA, LockEvent p.heightGrin p.heightBtc mw.prvSlate.mw.sharedCoin r.2.1.sharedCoin e := by
    intro e he
    obtain ⟨hmem, hop⟩ := (dsharedOutMwTxAlice_only.events hA).2 e he
    exact ⟨Op.answeredAt_of_protocol hop, .inl (by rw [hmem]; rfl)⟩
  have hinp : ∀ e ∈ tB, LockEvent p.heightGrin p.heightBtc mw.prvSlate.mw.sharedCoin r.2.1.sharedCoin e := by
    intro e he
    obtain ⟨hmem, hop⟩ := (dsharedInpMwTxBob_only.events hB).2 e he
    exact ⟨Op.answeredAt_of_protocol hop, .inr (by rw [hmem])⟩
  have hreaches : (lockingGrinMw L ra (p.verified B mw ra rb)).Reaches fun t q =>
      q = .ret ((p.verified B mw ra rb).fundedMw (p.heightGrin + mw.pubSlate.mw.timelock : ℕ) r.2.1
        r'.2.1) () ∧
      ∀ e ∈ t, LockEvent p.heightGrin p.heightBtc mw.prvSlate.mw.sharedCoin r.2.1.sharedCoin e := by
    refine Prog.reaches_request_bind (.ok p.heightGrin) rfl ?_
    refine Prog.reaches_get_bind ?_
    refine Prog.reaches_lift_bind hheight ?_
    refine Prog.reaches_lift_bind (Outcome.unwrap_eq_ok.mpr (i64OfU64_of_lt hlt)) ?_
    refine Prog.reaches_modify_bind ?_
    refine reaches_sendMsg_bind ?_
    refine Prog.reaches_bind hA ?_
    refine Prog.reaches_modify_bind ?_
    refine Prog.reaches_lift_bind (Outcome.unwrap_eq_ok.mpr hchange) ?_
    refine Prog.reaches_lift_bind (by rw [hvalA]; exact h.toFundable.subU64_fee) ?_
    refine Prog.reaches_bind hB ?_
    refine Prog.reaches_modify_bind ?_
    refine Prog.reaches_lift_bind (Outcome.unwrap_eq_ok.mpr htx) ?_
    refine ⟨[⟨_, .pushTransaction _, .ok ()⟩], _, .step (.refl _), rfl, ?_⟩
    simp only [List.forall_mem_cons, List.forall_mem_append]
    exact ⟨⟨rfl, .inl rfl⟩, ⟨trivial, .inl rfl⟩, hout, hinp, ⟨trivial, .inr rfl⟩, List.forall_mem_nil _⟩
  obtain ⟨t, q, hsteps, rfl, hevents⟩ := hreaches
  exact ⟨t, proof, r.2.1, r'.2.1, r.2.2.sharedCoin, hsteps, hvalid, hvalA, hcoin.symm hvalA, hevents⟩

/-- The locking phase of the Grin owner with a peer that completes it. -/
theorem Lockable.run_mw (hL : L.Lawful) (hB : B.Lawful) (h : Lockable L B mw btc ra rb p) :
    ∃ t proof shared refund coin, Steps (lockingPhaseSwapMw L B ra mw) t
        (.ret ((p.verified B mw ra rb).fundedMw (p.heightGrin + mw.pubSlate.mw.timelock : ℕ) shared
          refund) ()) ∧
      L.validate (p.fundingTx L mw ra rb proof) = true ∧
      shared.sharedCoin.value = mw.pubSlate.mw.amount ∧
      SharedCoin L shared.sharedCoin coin mw.pubSlate.mw.amount ra.drecv.outCoinBlind
        rb.drecv.outCoinBlind ∧
      ∀ e ∈ t, LockEvent p.heightGrin p.heightBtc mw.prvSlate.mw.sharedCoin shared.sharedCoin e := by
  obtain ⟨t, proof, shared, refund, coin, hgrin, hvalid, hvalue, hcoin, hevents⟩ := h.grinMw_run hL
  obtain ⟨past, s, hsteps, -, -, hpast⟩ := lockingPhaseSwapMw_steps hB h.toFundable _ hgrin
  refine ⟨_, proof, shared, refund, coin, hsteps, hvalid, hvalue, hcoin, ?_⟩
  rw [List.append_cons, List.forall_mem_append]
  refine ⟨fun e he => ?_, hevents⟩
  obtain ⟨hmem, hgrin, hbtc⟩ := hpast e he
  exact ⟨Op.answeredAt_of_ne hgrin hbtc, .inl (by rw [hmem])⟩

/-- A complete run of the first party of the shared input sends the slate that it returns. -/
theorem steps_dsharedInpMwTxAlice {rand : SpendRand K} {coin : MWCoin} {fundValue timelock : ℕ} {s s' : σ}
    {t : Trace K P σ} {r : DBuildMWTxResult K P}
    (h : Steps (dsharedInpMwTxAlice L rand coin fundValue timelock s) t (.ret s' r)) :
    ∃ S msg, t = [⟨s, .send (.slate .sharedInp .ptx S), .ok ()⟩, ⟨s, .recv, .ok msg⟩,
      ⟨s, .send (.slate .sharedInp .tx r.tx), .ok ()⟩] := by
  simp only [dsharedInpMwTxAlice, Proc.bind_apply, steps_lift_bind, steps_sendMsg_bind,
    steps_receiveSlate_bind, Proc.pure_apply, steps_ret] at h
  obtain ⟨spend, -, _, rfl, msg, _, _, -, rfl, _, -, _, -, _, rfl, rfl, hr⟩ := h
  cases hr
  exact ⟨_, msg, rfl⟩

/-- The Grin part of the Bitcoin owner. -/
theorem Lockable.grinBtc_run (hL : L.Lawful) (h : Lockable L B mw btc ra rb p)
    (hpos : 0 < p.heightGrin + mw.pubSlate.mw.timelock) :
    ∃ t proof shared coin, Steps (lockingGrinBtc L rb (p.sent B btc ra rb)) t
        (.ret ((p.sent B btc ra rb).fundedBtc (p.heightGrin + mw.pubSlate.mw.timelock : ℕ) shared) ()) ∧
      L.validate (p.fundingTx L mw ra rb proof) = true ∧
      shared.sharedCoin.value = mw.pubSlate.mw.amount ∧
      SharedCoin L coin shared.sharedCoin mw.pubSlate.mw.amount ra.drecv.outCoinBlind
        rb.drecv.outCoinBlind ∧
      ∀ e ∈ t, LockEvent p.heightGrin p.heightBtc btc.prvSlate.mw.sharedCoin shared.sharedCoin e ∧
        ∀ S, e.op = .send (.slate .sharedInp .tx S) → ∃ fee, S.msgToSign L =
          .ok (.heightLocked fee (p.heightGrin + mw.pubSlate.mw.timelock)) := by
  have hlt := h.heightGrin
  let s := { p.sent B btc ra rb with
    pubSlate.mw.lockTime := some ((p.heightGrin + mw.pubSlate.mw.timelock : ℕ) : ℤ) }
  obtain ⟨proof, r, hr, -, -, hvalid, hvalA, hvalB, hcoin⟩ := h.talk_funding hL () s
  obtain ⟨-, tB, -, hB, -⟩ := steps_of_talk_only dsharedOutMwTxAlice_only dsharedOutMwTxBob_only hr
  let s' := { s with prvSlate.mw.sharedCoin := some r.2.2.sharedCoin }
  obtain ⟨r', hr', -⟩ := h.toFundable.talk_sharedInp hL hcoin () s'
  obtain ⟨-, tA, -, hA, -⟩ := steps_of_talk_only dsharedInpMwTxBob_only dsharedInpMwTxAlice_only hr'
  have hread : u64OfI64 ((p.heightGrin + mw.pubSlate.mw.timelock : ℕ) : ℤ) =
      some (p.heightGrin + mw.pubSlate.mw.timelock) := by
    simp only [u64OfI64, Int.natCast_nonneg, if_true, Int.toNat_natCast]
  have hout : ∀ e ∈ tB, LockEvent p.heightGrin p.heightBtc btc.prvSlate.mw.sharedCoin r.2.2.sharedCoin e ∧
      ∀ S, e.op ≠ .send (.slate .sharedInp .tx S) := by
    intro e he
    obtain ⟨hmem, hop⟩ := (dsharedOutMwTxBob_only.events hB).2 e he
    refine ⟨⟨Op.answeredAt_of_protocol hop, .inl (by rw [hmem]; rfl)⟩, fun S hS => ?_⟩
    rw [hS] at hop
    cases hop
  have hinp : ∀ e ∈ tA, LockEvent p.heightGrin p.heightBtc btc.prvSlate.mw.sharedCoin r.2.2.sharedCoin e := by
    intro e he
    obtain ⟨hmem, hop⟩ := (dsharedInpMwTxAlice_only.events hA).2 e he
    exact ⟨Op.answeredAt_of_protocol hop, .inr (by rw [hmem])⟩
  have hsigned : ∀ e ∈ tA, ∀ S, e.op = .send (.slate .sharedInp .tx S) → ∃ fee, S.msgToSign L =
      .ok (.heightLocked fee (p.heightGrin + mw.pubSlate.mw.timelock)) := by
    obtain ⟨S₁, msg, rfl⟩ := steps_dsharedInpMwTxAlice hA
    obtain ⟨ff, data, hfin, -⟩ := sharedInp_inv hL hcoin h.spends (talk_swap hr')
    obtain ⟨_, kernel, -, hslate, -⟩ := Plan.finalize_inv hfin
    intro e he S hS
    simp only [List.mem_cons, List.not_mem_nil, or_false] at he
    rcases he with rfl | rfl | rfl
    · cases hS
    · cases hS
    · cases hS
      refine ⟨ff, ?_⟩
      rw [hslate, Plan.msgToSign_slate, Plan.features]
      exact congrArg Except.ok (if_neg hpos.ne')
  have hreaches : (lockingGrinBtc L rb (p.sent B btc ra rb)).Reaches fun t q =>
      q = .ret ((p.sent B btc ra rb).fundedBtc (p.heightGrin + mw.pubSlate.mw.timelock : ℕ) r.2.2) () ∧
      ∀ e ∈ t, LockEvent p.heightGrin p.heightBtc btc.prvSlate.mw.sharedCoin r.2.2.sharedCoin e ∧
        ∀ S, e.op = .send (.slate .sharedInp .tx S) → ∃ fee, S.msgToSign L =
          .ok (.heightLocked fee (p.heightGrin + mw.pubSlate.mw.timelock)) := by
    refine reaches_receiveI64_bind (parseI64_toString hlt) ?_
    refine Prog.reaches_modify_bind ?_
    refine Prog.reaches_get_bind ?_
    refine Prog.reaches_bind hB ?_
    refine Prog.reaches_modify_bind ?_
    refine Prog.reaches_lift_bind (by rw [hvalB]; exact h.toFundable.subU64_fee) ?_
    refine Prog.reaches_lift_bind (Outcome.unwrap_eq_ok.mpr hread) ?_
    refine Prog.reaches_bind hA ?_
    refine Prog.reaches_here ⟨rfl, ?_⟩
    simp only [List.forall_mem_cons, List.forall_mem_append]
    exact ⟨⟨⟨trivial, .inl rfl⟩, fun S hS => by cases hS⟩,
      fun e he => ⟨(hout e he).1, fun S hS => ((hout e he).2 S hS).elim⟩,
      fun e he => ⟨hinp e he, hsigned e he⟩, List.forall_mem_nil _⟩
  obtain ⟨t, q, hsteps, rfl, hevents⟩ := hreaches
  exact ⟨t, proof, r.2.2, r.2.1.sharedCoin, hsteps, hvalid, hvalB, hcoin.symm hvalA, hevents⟩

/-- The locking phase of the Bitcoin owner up to its Grin part. -/
theorem lockingPhaseSwapBtc_steps (hB : B.Lawful) (h : Fundable L B mw btc ra rb p)
    {t : Trace K P (SwapSlate K P)} {q : Program K P (SwapSlate K P) Unit}
    (hgrin : Steps (lockingGrinBtc L rb (p.sent B btc ra rb)) t q) :
    ∃ past, Steps (lockingPhaseSwapBtc L B rb btc) (past ++ t) q ∧
      ∀ e ∈ past, e.mem.prvSlate.mw = btc.prvSlate.mw ∧
        e.op.AnsweredAt p.heightGrin p.heightBtc e.ans ∧
        ∀ protocol stage S, e.op ≠ .send (.slate protocol stage S) := by
  have hlt := h.heightBtc
  have hheight : addU64 L.overflowChecks p.heightBtc btc.pubSlate.btc.timelock =
      .ok (p.heightBtc + btc.pubSlate.btc.timelock) := by
    rw [h.pub]
    exact addU64_of_lt (by omega)
  have hi64 : i64OfU64 (p.heightBtc + btc.pubSlate.btc.timelock) =
      some ((p.heightBtc + btc.pubSlate.btc.timelock : ℕ) : ℤ) := by
    rw [h.pub]
    exact i64OfU64_of_lt hlt
  have hlock : signedLockTransaction B (B.publicKey (createPrivateKey ra.skA))
      (B.publicKey (createPrivateKey rb.x)) (B.publicKey (createPrivateKey rb.skB))
      (B.publicKey (createPrivateKey rb.skR)) btc.prvSlate.btc.inputs btc.pubSlate.btc.amount
      ((p.heightBtc + btc.pubSlate.btc.timelock : ℕ) : ℤ) = .ok p.lock := by
    rw [h.pub]
    exact h.lock
  have hreaches : (lockingPhaseSwapBtc L B rb btc).Reaches fun u q' => q' = q ∧ ∃ past, u = past ++ t ∧
      ∀ e ∈ past, e.mem.prvSlate.mw = btc.prvSlate.mw ∧
        e.op.AnsweredAt p.heightGrin p.heightBtc e.ans ∧
        ∀ protocol stage S, e.op ≠ .send (.slate protocol stage S) := by
    refine Prog.reaches_modify_bind ?_
    refine reaches_receivePubKey_bind (deserializePubKey_serialize hB h.keyA) ?_
    refine Prog.reaches_modify_bind ?_
    refine reaches_sendMsg_bind ?_
    refine reaches_sendMsg_bind ?_
    refine Prog.reaches_request_bind (.ok p.heightBtc) rfl ?_
    refine Prog.reaches_get_bind ?_
    refine Prog.reaches_lift_bind hheight ?_
    refine Prog.reaches_lift_bind (Outcome.unwrap_eq_ok.mpr hi64) ?_
    refine reaches_sendMsg_bind ?_
    refine Prog.reaches_modify_bind ?_
    refine Prog.reaches_lift_bind hlock ?_
    refine Prog.reaches_request_bind (.ok ()) rfl ?_
    refine Prog.reaches_modify_bind ?_
    refine reaches_sendMsg_bind ?_
    refine reaches_sendMsg_bind ?_
    refine Prog.reaches_modify_bind ?_
    refine ⟨t, _, hgrin, rfl, [_, _, _, _, _, _, _, _], rfl, ?_⟩
    simp [Op.AnsweredAt]
  obtain ⟨u, _, hsteps, rfl, past, rfl, hevents⟩ := hreaches
  exact ⟨past, hsteps, hevents⟩

/-- The locking phase of the Bitcoin owner with a peer that completes it. -/
theorem Lockable.run_btc (hL : L.Lawful) (hB : B.Lawful) (h : Lockable L B mw btc ra rb p)
    (hpos : 0 < p.heightGrin + mw.pubSlate.mw.timelock) :
    ∃ t proof shared coin, Steps (lockingPhaseSwapBtc L B rb btc) t
        (.ret ((p.sent B btc ra rb).fundedBtc (p.heightGrin + mw.pubSlate.mw.timelock : ℕ) shared) ()) ∧
      L.validate (p.fundingTx L mw ra rb proof) = true ∧
      shared.sharedCoin.value = mw.pubSlate.mw.amount ∧
      SharedCoin L coin shared.sharedCoin mw.pubSlate.mw.amount ra.drecv.outCoinBlind
        rb.drecv.outCoinBlind ∧
      ∀ e ∈ t, LockEvent p.heightGrin p.heightBtc btc.prvSlate.mw.sharedCoin shared.sharedCoin e ∧
        ∀ S, e.op = .send (.slate .sharedInp .tx S) → ∃ fee, S.msgToSign L =
          .ok (.heightLocked fee (p.heightGrin + mw.pubSlate.mw.timelock)) := by
  obtain ⟨t, proof, shared, coin, hgrin, hvalid, hvalue, hcoin, hevents⟩ := h.grinBtc_run hL hpos
  obtain ⟨past, hsteps, hpast⟩ := lockingPhaseSwapBtc_steps hB h.toFundable hgrin
  refine ⟨_, proof, shared, coin, hsteps, hvalid, hvalue, hcoin, ?_⟩
  rw [List.forall_mem_append]
  refine ⟨fun e he => ?_, hevents⟩
  obtain ⟨hmem, hans, hnone⟩ := hpast e he
  exact ⟨⟨hans, .inl (by rw [hmem])⟩, fun S hS => (hnone _ _ S hS).elim⟩

end Locking

omit [AddCommGroup P] [Module K P] [DecidableEq K] [DecidableEq P] in
/-- The output of a coin that is read. -/
theorem commitment_of_readInput {coin : MWCoin} {i : Input} {sk : K}
    (h : readInput L coin = .ok (i, sk)) : deserializeCommitment L coin.commitment = .ok i.commit := by
  simp only [readInput, Outcome.bind_eq_ok, Outcome.pure_eq_ok, Except.ok.injEq, Prod.mk.injEq] at h
  obtain ⟨com, hcom, _, -, rfl, -⟩ := h
  exact hcom

/-! ### A sample of the chains -/

/-- The chains before the sample swap, with an input of each party. -/
def sampleWorld (slate : SwapSlate Scalar Scalar) : World Scalar Scalar where
  slate := slate
  running := none
  past := []
  grin := ⟨1500000, {sampleOpening.1.commit}, []⟩
  btc := ⟨700000, 1600000000, fun o => if o = ⟨sampleTxid, 0⟩ then
    some ⟨200000, getP2pkhPubScript (btcExponents []) ((btcExponents []).publicKey (createPrivateKey 4))⟩
    else none, []⟩

/-- The funding transaction of the sample. -/
def sampleFunds (proof : RangeProof) : Grin.Transaction Scalar Scalar :=
  Grin.fundingTx exponents sampleSpend sampleShareA sampleShareB [sampleOpening] 1012500000 0 964500000
    ⟨23000000⟩ proof

/-- The commitment of the shared coin of the sample. -/
def sampleCommit : Commitment := (sharedInput exponents 1012500000 21 31).commit

theorem sampleFunds_spends {proof : RangeProof} {com : Commitment} :
    (sampleFunds proof).Spends com ↔ com = sampleOpening.1.commit :=
  List.mem_singleton

theorem sampleFunds_outputs (proof : RangeProof) : (sampleFunds proof).outputs.map Output.commit =
    [sampleCommit, exponents.commitOfPoint (exponents.pedersen 964500000 sampleSpend.changeCoinKey)] := by
  simp only [sampleFunds, Grin.fundingTx, Plan.tx, fundingOutputs, exponents_insertOutput]
  decide +kernel

/-- It can be in a block. -/
theorem sampleFunds_accepts (slate : SwapSlate Scalar Scalar) {proof : RangeProof}
    (hvalid : exponents.validate (sampleFunds proof) = true) :
    (sampleWorld slate).grin.Accepts exponents (sampleFunds proof) := by
  refine GrinChain.accepts_of_validate hvalid (fun com hcom => sampleFunds_spends.mp hcom) ?_ ?_
  · intro o ho hmem
    have hnot : ∀ com ∈ (sampleFunds proof).outputs.map Output.commit, com ≠ sampleOpening.1.commit := by
      rw [sampleFunds_outputs]
      decide +kernel
    exact hnot _ (List.mem_map_of_mem ho) hmem
  · intro k hk
    obtain rfl := List.mem_singleton.mp hk
    trivial

/-- A party that holds only shares of the sample coin has no part in it. -/
theorem sampleFunds_assembled {w : World Scalar Scalar} {role : Role} {proof : RangeProof}
    (h : ∀ coin com, w.Holds coin → deserializeCommitment exponents coin.commitment = .ok com →
      com = sampleCommit) : w.Assembled exponents role (sampleFunds proof) := by
  intro coin com hholds hcom hspends
  have hsame : sampleCommit = sampleOpening.1.commit :=
    (h coin com hholds hcom).symm.trans (sampleFunds_spends.mp hspends)
  exact absurd hsame (by decide +kernel)

/-- What the taker of the sample does in its locking phase: its refund is locked, and no contract starts. -/
structure TakerLockEvent (shared : MWCoin) (e : Event (SwapSlate Scalar Scalar) (@Op.Ans Scalar Scalar)) :
    Prop extends LockEvent 1500000 700000 none shared e where
  refund : ∀ S, e.op = .send (.slate .sharedInp .tx S) →
    ∃ fee, S.msgToSign exponents = .ok (.heightLocked fee 1500400)
  quiet : ∀ stage S, e.op ≠ .send (.slate .contract stage S)

/-- The taker of the sample locks. -/
theorem sample_run_btc : ∃ t proof lock shared coin,
    Steps (lockingPhaseSwapBtc exponents (btcExponents []) sampleRand.lockBtc sampleTaker) t
      (.ret (sampleTakerSetup lock shared) ()) ∧
    exponents.validate (sampleFunds proof) = true ∧ shared.sharedCoin.value = 1012500000 ∧
    SharedCoin exponents coin shared.sharedCoin 1012500000 21 31 ∧
    ∀ e ∈ t, TakerLockEvent shared.sharedCoin e := by
  obtain ⟨lock, hlockable⟩ := sample_lockable
  obtain ⟨t, proof, shared, coin, hsteps, hvalid, hvalue, hcoin, hevents⟩ :=
    hlockable.run_btc exponents_lawful (btcExponents_lawful []) (show 0 < 1500000 + 400 by decide)
  have hops := hsteps.forall_op (R := fun op => ∀ stage S, op ≠ .send (.slate .contract stage S))
    ((lockingPhaseSwapBtc_sat sampleRand.lockBtc sampleTaker []).mono (by
      rintro past s op hop stage S rfl
      exact hop) fun _ _ _ h => h)
  exact ⟨t, proof, lock, shared, coin, hsteps, hvalid, hvalue, hcoin,
    fun e he => ⟨(hevents e he).1, (hevents e he).2, hops e he⟩⟩

/-- The lock transaction of the sample. -/
def SampleLock (lock : SignedLock) : Prop :=
  signedLockTransaction (btcExponents []) ((btcExponents []).publicKey (createPrivateKey 3))
    ((btcExponents []).publicKey (createPrivateKey 5)) ((btcExponents []).publicKey (createPrivateKey 7))
    ((btcExponents []).publicKey (createPrivateKey 9)) [sampleBtcInput] 100000 700040 = .ok lock

/-- The offerer of the sample locks. -/
theorem sample_run_mw : ∃ t proof lock shared refund coin, SampleLock lock ∧
    Steps (lockingPhaseSwapMw exponents (btcExponents []) sampleRand.lockMw sampleFunded) t
      (.ret (sampleOffererSetup lock shared refund) ()) ∧
    exponents.validate (sampleFunds proof) = true ∧ shared.sharedCoin.value = 1012500000 ∧
    SharedCoin exponents shared.sharedCoin coin 1012500000 21 31 ∧
    ∀ e ∈ t, LockEvent 1500000 700000 none shared.sharedCoin e ∧
      ∀ stage S, e.op ≠ .send (.slate .contract stage S) := by
  obtain ⟨lock, hlockable⟩ := sample_lockable
  obtain ⟨t, proof, shared, refund, coin, hsteps, hvalid, hvalue, hcoin, hevents⟩ :=
    hlockable.run_mw exponents_lawful (btcExponents_lawful [])
  have hops := hsteps.forall_op (R := fun op => ∀ stage S, op ≠ .send (.slate .contract stage S))
    ((lockingPhaseSwapMw_sat sampleRand.lockMw sampleFunded []).mono (by
      rintro past s op hop stage S rfl
      exact hop) fun _ _ _ h => h)
  exact ⟨t, proof, lock, shared, refund, coin, hlockable.lock, hsteps, hvalid, hvalue, hcoin,
    fun e he => ⟨hevents e he, hops e he⟩⟩

end MwBtcSwap
