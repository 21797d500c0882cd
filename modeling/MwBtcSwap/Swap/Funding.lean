import MwBtcSwap.Swap.Handshake

/-! When the funding transaction of the shared coin leaves the Grin owner: it goes to the peer as the
last slate of its protocol, before the protocol of the refund, and to the node after that. -/

namespace MwBtcSwap

open Interaction Machine Grin Bitcoin

variable {K P : Type} [CommRing K] [AddCommGroup P] [Module K P] [DecidableEq K] [DecidableEq P]

variable {L : GrinLib K P} {B : BtcLib K P} {σ : Type}

/-- The finalized slate of `dshared_out_mw_tx_alice` was handed to the stream. -/
def FundingSent (t : Trace K P σ) : Prop :=
  ∃ e ∈ t, ∃ S, e.op = .send (.slate .sharedOut .tx S)

/-- A funding transaction was handed to the stream or to the node. -/
def FundingLeft (t : Trace K P σ) : Prop :=
  FundingSent t ∨ ∃ e ∈ t, ∃ tx, e.op = .pushTransaction tx

/-- The run went through `dshared_inp_mw_tx_bob` with the shared coin and the lock height of the slate,
which holds the refund transaction. -/
def HoldsRefund (L : GrinLib K P) (t : Trace K P (SwapSlate K P)) (slate : SwapSlate K P) : Prop :=
  ∃ t₁ t₂ t₃ sigNonce recv coin fundValue timelock s refund, t = t₁ ++ t₂ ++ t₃ ∧
    Steps (dsharedInpMwTxBob L sigNonce recv coin fundValue timelock s) t₂ (.ret s refund) ∧
    slate.prvSlate.mw.sharedCoin = some coin ∧ slate.pubSlate.mw.lockTime = i64OfU64 timelock ∧
    refund.tx.tx.isSome ∧ slate.prvSlate.mw.refundTx = refund.tx.tx

/-- No slate of the refund was sent. -/
def NoRefund (t : Trace K P σ) : Prop :=
  ∀ e ∈ t, ∀ stage S, e.op ≠ .send (.slate .sharedInp stage S)

omit [CommRing K] [AddCommGroup P] [Module K P] [DecidableEq K] [DecidableEq P] in
theorem NoRefund.concat {t : Trace K P σ} {e : Event σ (@Op.Ans K P)} (h : NoRefund t)
    (he : ∀ stage S, e.op ≠ .send (.slate .sharedInp stage S)) : NoRefund (t ++ [e]) := by
  intro e' he'
  rcases List.mem_append.mp he' with he' | he'
  · exact h e' he'
  · rw [List.mem_singleton.mp he']
    exact he

omit [CommRing K] [AddCommGroup P] [Module K P] [DecidableEq K] [DecidableEq P] in
theorem NoRefund.extend {t t' : Trace K P σ} {ops : Op K P → Prop} {s : σ} (h : NoRefund t)
    (hext : Extends ops s t t') (hops : ∀ stage S, ¬ ops (.send (.slate .sharedInp stage S))) :
    NoRefund t' := by
  obtain ⟨u, rfl, hu⟩ := hext
  intro e he
  rcases List.mem_append.mp he with he | he
  · exact h e he
  · intro stage S hop
    have hop' := (hu e he).2
    rw [hop] at hop'
    exact hops stage S hop'

/-- `dshared_inp_mw_tx_bob` returns only after it has sent a slate. -/
theorem dsharedInpMwTxBob_sends {sigNonce : K} {recv : RecvRand K} {coin : MWCoin}
    {fundValue timelock : ℕ} (s : σ) (past : Trace K P σ) :
    (dsharedInpMwTxBob L sigNonce recv coin fundValue timelock s).Sat (fun _ _ _ => True)
      (fun past' _ _ => ¬ NoRefund past') past := by
  refine sat_receiveSlate_bind trivial fun msg₁ _ _ => Prog.sat_lift_bind fun _ _ =>
    Prog.sat_lift_bind fun _ _ => Prog.sat_lift_bind fun S _ => Prog.sat_request_bind trivial
    fun ans _ _ => sat_receiveSlate_bind trivial fun msg₂ _ _ => Prog.sat_lift_bind fun _ _ =>
    Prog.sat_lift_bind fun _ _ => ?_
  intro hno
  exact hno ⟨s, .send (.slate .sharedInp .ptx2 S), ans⟩ (by simp) .ptx2 S rfl

theorem HoldsRefund.sent {t : Trace K P (SwapSlate K P)} {slate : SwapSlate K P}
    (h : HoldsRefund L t slate) : ¬ NoRefund t := by
  obtain ⟨t₁, t₂, t₃, sigNonce, recv, coin, fundValue, timelock, s, refund, rfl, hsteps, -⟩ := h
  intro hno
  apply hsteps.sat (dsharedInpMwTxBob_sends s [])
  intro e he
  exact hno e (List.mem_append_left _ (List.mem_append_right _ he))

/-- What holds when the funding transaction is handed out: no refund has been started when it goes to
the peer, and it is there when the transaction goes to the node. -/
def FundingOp (L : GrinLib K P) (past : Trace K P (SwapSlate K P)) (s : SwapSlate K P) :
    Op K P → Prop
  | .send (.slate .sharedOut .tx _) => NoRefund past
  | .pushTransaction _ => FundingSent past ∧ HoldsRefund L past s
  | _ => True

theorem lockingGrinMw_funding (rand : LockMwRand K) {s : SwapSlate K P}
    {past : Trace K P (SwapSlate K P)} (hpast : NoRefund past) :
    (lockingGrinMw L rand s).Sat (FundingOp L) (fun past' _ _ => FundingSent past') past := by
  refine Prog.sat_request_bind trivial fun ans₁ grinHeight _ => Prog.sat_get_bind <|
    Prog.sat_lift_bind fun height _ => Prog.sat_lift_bind fun lockTime hlock => Prog.sat_modify_bind <|
    sat_sendMsg_bind trivial ?_
  have hpast₂ : NoRefund (past ++ [⟨s, .getBlockHeight, ans₁⟩] ++
      [⟨{ s with pubSlate.mw.lockTime := some lockTime }, .send (.text (toString height)), .ok ()⟩]) :=
    (hpast.concat fun _ _ h => by cases h).concat fun _ _ h => by cases h
  refine (((dsharedOutMwTxAlice_sent _ _).and (dsharedOutMwTxAlice_only _ _)).mono ?_
    fun _ _ _ h => h).bind ?_
  · rintro past' s' op ⟨⟨rfl, hop⟩, -, -, hext⟩
    match op, hop with
    | .recv, _ => trivial
    | .send (.slate .sharedOut .ptx _), _ => trivial
    | .send (.slate .sharedOut .ptx2 _), _ => trivial
    | .send (.slate .sharedOut .ptx3 _), _ => trivial
    | .send (.slate .sharedOut .tx _), _ => exact hpast₂.extend hext fun _ _ h => by cases h
    | .send (.prfCtx _), _ => trivial
  · rintro past' s' r ⟨⟨rfl, e, he, hop⟩, -, hext'⟩
    have hsent : FundingSent past' := ⟨e, he, _, hop⟩
    refine Prog.sat_modify_bind <| Prog.sat_lift_bind fun _ _ => Prog.sat_lift_bind fun fundValue _ => ?_
    refine (((dsharedInpMwTxBob_only _ _).and (Prog.sat_steps _)).mono ?_ fun _ _ _ h => h).bind ?_
    · rintro past'' s'' op ⟨⟨rfl, hop, -⟩, -⟩
      match op, hop with
      | .recv, _ => trivial
      | .send (.slate .sharedInp _ _), _ => trivial
    · rintro past'' s'' refund ⟨⟨rfl, hext⟩, u, rfl, hsteps⟩
      have hsome := hsteps.sat (dsharedInpMwTxBob_returns _ [])
      refine Prog.sat_modify_bind <| Prog.sat_lift_bind fun tx htx => ?_
      have hsent' : FundingSent (past' ++ u) := ⟨e, List.mem_append_left _ he, _, hop⟩
      refine ⟨⟨hsent', past', u, [], _, _, _, _, _, _, refund, by simp, hsteps, rfl,
        (Outcome.unwrap_eq_ok.mp hlock).symm, hsome, rfl⟩, fun ans => ?_⟩
      cases ans with
      | error e => trivial
      | ok a => exact ⟨e, List.mem_append_left _ (List.mem_append_left _ he), _, hop⟩

/-- `locking_phase_swap_mw` hands its funding transaction to the peer before the protocol of the refund,
and to the node after it. -/
theorem lockingPhaseSwapMw_funding (rand : LockMwRand K) (slate : SwapSlate K P) :
    (lockingPhaseSwapMw L B rand slate).Sat (FundingOp L) (fun past' _ _ => FundingSent past') [] := by
  refine Prog.sat_modify_bind <| sat_sendMsg_bind trivial <|
    sat_receivePubKey_bind trivial fun pubBText pubB hpubB => Prog.sat_modify_bind <|
    sat_receivePubKey_bind trivial fun pubXText pubX hpubX => Prog.sat_modify_bind <|
    sat_receiveI64_bind trivial fun lockTimeText lockTime hlockTime => Prog.sat_modify_bind <|
    Prog.sat_lift_bind fun _ _ => Prog.sat_lift_bind fun _ _ => Prog.sat_request_bind trivial fun ans _ _ =>
    sat_receiveMsg_bind trivial fun address => sat_receiveMsg_bind trivial fun txid => ?_
  split_ifs
  · exact Prog.sat_modify_bind trivial
  · refine Prog.sat_get_bind <| verifyFunds_only.sat_bind ?_ fun past₁ verified hext => ?_
    · intro _ op hop _
      match op, hop with
      | .getAddressFinalBalance _, _ => trivial
      | .sleep, _ => trivial
    · cases verified with
      | false => exact Prog.sat_modify_bind trivial
      | true =>
        refine Prog.sat_modify_bind (lockingGrinMw_funding rand (NoRefund.extend ?_ hext fun _ _ h => h))
        simp [NoRefund]

/-- Up to the funding transaction that goes to the peer, a run has sent no slate of the refund. -/
theorem lockingPhaseSwapMw_cut {rand : LockMwRand K} {slate : SwapSlate K P}
    {t : Trace K P (SwapSlate K P)} {q : Program K P (SwapSlate K P) Unit}
    (h : Steps (lockingPhaseSwapMw L B rand slate) t q) (hsent : FundingSent t) :
    ∃ t' q' u, t = t' ++ u ∧ Steps (lockingPhaseSwapMw L B rand slate) t' q' ∧ Steps q' u q ∧
      FundingSent t' ∧ NoRefund t' := by
  obtain ⟨e, he, S, hop⟩ := hsent
  obtain ⟨t₁, t₂, rfl⟩ := List.append_of_mem he
  have hno : NoRefund ([] ++ t₁) := by
    have hevent := h.sat_event (lockingPhaseSwapMw_funding rand slate)
    rwa [hop] at hevent
  rw [List.append_cons] at h
  obtain ⟨q', hq', hq⟩ := h.append_inv
  exact ⟨t₁ ++ [e], q', t₂, by simp, hq', hq, ⟨e, by simp, S, hop⟩, hno.concat (by simp [hop])⟩

/-- The Grin owner holds its refund at every point at which the funding transaction has left only when
it never hands the transaction to the peer. -/
theorem lockingPhaseSwapMw_refundFirst_iff {rand : LockMwRand K} {slate : SwapSlate K P}
    {t : Trace K P (SwapSlate K P)} {q : Program K P (SwapSlate K P) Unit}
    (h : Steps (lockingPhaseSwapMw L B rand slate) t q) :
    (∀ t' q' u, t = t' ++ u → Steps (lockingPhaseSwapMw L B rand slate) t' q' → Steps q' u q →
      FundingLeft t' → HoldsRefund L t' q'.mem) ↔ ¬ FundingSent t := by
  constructor
  · intro hholds hsent
    obtain ⟨t', q', u, ht, hq', hq, hsent', hno⟩ := lockingPhaseSwapMw_cut h hsent
    exact (hholds t' q' u ht hq' hq (.inl hsent')).sent hno
  · intro hnot t' q' u ht hq' hq hleft
    subst ht
    have hnot' : ¬ FundingSent t' := by
      rintro ⟨e, he, S, hop⟩
      exact hnot ⟨e, List.mem_append_left _ he, S, hop⟩
    rcases hleft with hsent | ⟨e, he, tx, hop⟩
    · exact (hnot' hsent).elim
    · obtain ⟨t₁, t₂, rfl⟩ := List.append_of_mem he
      have hevent := hq'.sat_event (lockingPhaseSwapMw_funding rand slate)
      rw [hop] at hevent
      obtain ⟨⟨e', he', S, hop'⟩, -⟩ := hevent
      exact (hnot' ⟨e', List.mem_append_left _ he', S, hop'⟩).elim

/-- The offerer of the sample hands its funding transaction to the peer. -/
theorem sample_fundingSent : ∃ t q,
    Steps (lockingPhaseSwapMw exponents (btcExponents []) sampleRand.lockMw sampleFunded) t q ∧
      FundingSent t := by
  obtain ⟨lock, hlockable⟩ := sample_lockable
  obtain ⟨t, _, sharedA, _, refund, hsteps, -⟩ :=
    hlockable.runs exponents_lawful (btcExponents_lawful [])
  exact ⟨t, _, hsteps, hsteps.sat (lockingPhaseSwapMw_funding _ _)⟩

theorem lockingPhaseSwapMw_refundFirst_sample : ∃ t q,
    Steps (lockingPhaseSwapMw exponents (btcExponents []) sampleRand.lockMw sampleFunded) t q ∧
    ¬ ∀ t' q' u, t = t' ++ u →
      Steps (lockingPhaseSwapMw exponents (btcExponents []) sampleRand.lockMw sampleFunded) t' q' →
      Steps q' u q → FundingLeft t' → HoldsRefund exponents t' q'.mem := by
  obtain ⟨t, q, hsteps, hsent⟩ := sample_fundingSent
  exact ⟨t, q, hsteps, fun h => (lockingPhaseSwapMw_refundFirst_iff hsteps).mp h hsent⟩

/-- The funding transaction of the sample has left, and there is no refund. -/
theorem lockingPhaseSwapMw_funds_first : ∃ t q,
    Steps (lockingPhaseSwapMw exponents (btcExponents []) sampleRand.lockMw sampleFunded) t q ∧
      FundingLeft t ∧ ¬ HoldsRefund exponents t q.mem := by
  obtain ⟨t, q, hsteps, hsent⟩ := sample_fundingSent
  obtain ⟨t', q', -, -, hq', -, hsent', hno⟩ := lockingPhaseSwapMw_cut hsteps hsent
  exact ⟨t', q', hq', .inl hsent', fun h => h.sent hno⟩

end MwBtcSwap
