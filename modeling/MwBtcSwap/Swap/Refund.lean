import MwBtcSwap.Swap.Executed
import MwBtcSwap.Swap.Spend

/-! Refunds after honest locking phases, with any peer.  The taker's `cancel` and the offerer's `listen`
broadcast the refund of their party in exactly the runs in which the peer opens the session and lets
itself be told of the cancellation. -/

namespace MwBtcSwap

open Interaction Machine Grin Bitcoin

variable {K P : Type} [CommRing K] [AddCommGroup P] [Module K P] [DecidableEq K] [DecidableEq P]

variable {L : GrinLib K P} {B : BtcLib K P} {rand : Rand K} {slate slate' : SwapSlate K P}
  {role : Role} {t t' : Trace K P (SwapSlate K P)}

/-- The operation broadcasts a transaction on the chain of what the role owns. -/
def Op.Broadcasts (role : Role) : Op K P → Prop
  | .pushTransaction _ => role = .mw
  | .sendRawTransaction _ => role = .btc
  | _ => False

/-- The operation broadcasts the refund of the slate. -/
def RefundOp (B : BtcLib K P) (rand : Rand K) (slate : SwapSlate K P) (role : Role) : Op K P → Prop
  | .pushTransaction tx => role = .mw ∧ slate.prvSlate.mw.refundTx = some tx
  | .sendRawTransaction tx => role = .btc ∧ ∃ script, signedRefundTransaction B slate
      (B.publicKey (createPrivateKey rand.refund)) = .ok (tx, script)
  | _ => False

section

omit [DecidableEq K] [DecidableEq P]

theorem RefundOp.broadcasts {op : Op K P} (h : RefundOp B rand slate role op) :
    op.Broadcasts role := by
  cases op with
  | pushTransaction tx => exact h.1
  | sendRawTransaction tx => exact h.1
  | _ => exact h.elim

/-- The refund was broadcast. -/
def Refunded (B : BtcLib K P) (rand : Rand K) (slate : SwapSlate K P) (role : Role)
    (t : Trace K P (SwapSlate K P)) : Prop :=
  ∃ e ∈ t, RefundOp B rand slate role e.op

/-- The nodes and the files of the party answer: the heights are past the lock heights of the slate,
and transactions are taken. -/
def OwnAnswers (slate : SwapSlate K P) : Event (SwapSlate K P) (@Op.Ans K P) → Prop
  | ⟨_, .getBlockHeight, ans⟩ => ∃ height : ℕ, ans = .ok height ∧
      ∀ lockTime, slate.pubSlate.mw.lockTime = some lockTime → lockTime < height
  | ⟨_, .getCurrentBlockHeight, ans⟩ => ∃ height : ℕ, ans = .ok height ∧
      ∀ lockTime, slate.pubSlate.btc.lockTime = some lockTime → lockTime < height
  | ⟨_, .pushTransaction _, ans⟩ => ans = .ok ()
  | ⟨_, .sendRawTransaction _, ans⟩ => ans = .ok ()
  | ⟨_, .getSlateChecksum, ans⟩ => ∃ checksum, ans = .ok checksum
  | ⟨_, .bind, ans⟩ => ans = .ok ()
  | _ => True

/-- The slate is set up, and its refund transaction can be made. -/
structure Refundable (B : BtcLib K P) (slate : SwapSlate K P) (role : Role) : Prop where
  status : slate.pubSlate.status = .setup
  lockTimeMw : ∃ lockTime, slate.pubSlate.mw.lockTime = some lockTime ∧ 0 ≤ lockTime
  lockTimeBtc : ∃ lockTime, slate.pubSlate.btc.lockTime = some lockTime ∧ 0 ≤ lockTime
  refund : match role with
    | .mw => slate.prvSlate.mw.refundTx.isSome
    | .btc => ∀ pk, ∃ r, signedRefundTransaction B slate pk = .ok r

theorem Refunded.mono (h : Refunded B rand slate role t) (hsub : ∀ e ∈ t, e ∈ t') :
    Refunded B rand slate role t' := by
  obtain ⟨e, he, hop⟩ := h
  exact ⟨e, hsub e he, hop⟩

theorem refunded_nil : ¬ Refunded B rand slate role [] := by
  rintro ⟨e, he, -⟩
  cases he

theorem refunded_cons {e : Event (SwapSlate K P) (@Op.Ans K P)} (he : ¬ e.op.Broadcasts role) :
    Refunded B rand slate role (e :: t) ↔ Refunded B rand slate role t := by
  constructor
  · rintro ⟨e', he', hop⟩
    rcases List.mem_cons.mp he' with rfl | he'
    · exact (he hop.broadcasts).elim
    · exact ⟨e', he', hop⟩
  · intro h
    exact h.mono fun e' he' => List.mem_cons_of_mem e he'

end

/-! ### The phases -/

section Phases

variable {α : Type}

omit [DecidableEq K] [DecidableEq P] in
/-- With such answers `can_refund` lets the phase go on. -/
theorem canRefund_ended {f : Bool → Process K P (SwapSlate K P) α}
    {q : Program K P (SwapSlate K P) α} (hslate : Refundable B slate role)
    (h : Steps ((canRefund >>= f) slate) t q) (hq : q.Ended) (hown : ∀ e ∈ t, OwnAnswers slate e) :
    ∃ t₁ t₂, t = t₁ ++ t₂ ∧ Steps (f true slate) t₂ q := by
  obtain ⟨lockGrin, hgrin, hposGrin⟩ := hslate.lockTimeMw
  obtain ⟨lockBtc, hbtc, hposBtc⟩ := hslate.lockTimeBtc
  simp only [canRefund, compareTimes, unwrapField, getBlockHeight, Proc.bind_assoc] at h
  rw [Proc.bind_apply, Proc.get_apply, Prog.bind_ret, hgrin, hbtc] at h
  obtain ⟨ansGrin, t₁, rfl, hgo⟩ := h.request_bind_ended hq
  obtain ⟨heightGrin, rfl, hpastGrin⟩ := hown _ List.mem_cons_self
  rcases hgo with ⟨e, he, -⟩ | ⟨_, hread, h⟩
  · cases he
  cases hread
  obtain ⟨ansBtc, t₂, rfl, hgo⟩ := h.request_bind_ended hq
  obtain ⟨heightBtc, rfl, hpastBtc⟩ := hown _ (List.mem_cons_of_mem _ List.mem_cons_self)
  rcases hgo with ⟨e, he, -⟩ | ⟨_, hread, h⟩
  · cases he
  cases hread
  have hpassed : bothPassed heightGrin heightBtc lockGrin lockBtc = .ok true :=
    bothPassed_iff.mpr ⟨hposGrin, hpastGrin _ hgrin, hposBtc, hpastBtc _ hbtc⟩
  rw [hpassed] at h
  exact ⟨[_, _], t₂, rfl, h⟩

omit [DecidableEq K] [DecidableEq P] in
/-- A refund phase that ended with such answers has broadcast the refund. -/
theorem refundPhase_refunds {f : Unit → Process K P (SwapSlate K P) α}
    {q : Program K P (SwapSlate K P) α} (hslate : Refundable B slate role)
    (h : Steps ((refundPhase B rand role >>= f) slate) t q) (hq : q.Ended)
    (hown : ∀ e ∈ t, OwnAnswers slate e) : Refunded B rand slate role t := by
  have hrefund := hslate.refund
  cases role with
  | mw =>
    simp only [refundPhase, refundPhaseSwapMw, Proc.bind_assoc] at h
    obtain ⟨t₁, t₂, rfl, hrest⟩ := canRefund_ended hslate h hq hown
    obtain ⟨tx, htx⟩ := Option.isSome_iff_exists.mp hrefund
    simp only [if_true, Proc.bind_assoc, unwrapField] at hrest
    rw [Proc.bind_apply, Proc.get_apply, Prog.bind_ret, htx] at hrest
    obtain ⟨ans, t₃, rfl, -⟩ := hrest.request_bind_ended hq
    exact ⟨_, List.mem_append_right _ List.mem_cons_self, rfl, htx⟩
  | btc =>
    simp only [refundPhase, refundPhaseSwapBtc, Proc.bind_assoc] at h
    obtain ⟨t₁, t₂, rfl, hrest⟩ := canRefund_ended hslate h hq hown
    obtain ⟨⟨tx, script⟩, htx⟩ := hrefund (B.publicKey (createPrivateKey rand.refund))
    simp only [if_true, Proc.bind_assoc] at hrest
    rw [Proc.bind_apply, Proc.get_apply, Prog.bind_ret, htx] at hrest
    obtain ⟨ans, t₃, rfl, -⟩ := hrest.request_bind_ended hq
    exact ⟨_, List.mem_append_right _ List.mem_cons_self, rfl, script, htx⟩

/-- The operations of an execution phase: its slates on the open connection, the heights, and the
transaction on the other chain. -/
def Op.OfExecution (role : Role) : Op K P → Prop
  | .recv | .getBlockHeight | .getCurrentBlockHeight | .send (.slate _ _ _) => True
  | .pushTransaction _ => role = .btc
  | .sendRawTransaction _ => role = .mw
  | _ => False

omit [CommRing K] [AddCommGroup P] [Module K P] [DecidableEq K] [DecidableEq P] in
theorem Op.OfExecution.not_broadcasts {op : Op K P} (h : op.OfExecution role) :
    ¬ op.Broadcasts role := by
  intro hop
  cases op with
  | pushTransaction tx => cases h.symm.trans hop
  | sendRawTransaction tx => cases h.symm.trans hop
  | _ => exact hop.elim

theorem execPhase_ops (role : Role) (slate : SwapSlate K P) (past : Trace K P (SwapSlate K P)) :
    (execPhase L B rand role slate).Sat (fun _ _ op => op.OfExecution role) (fun _ _ _ => True)
      past := by
  have hprotocol : ∀ {role} {op : Op K P}, Op.OfProtocol .contract op → op.OfExecution role := by
    intro role op hop
    match op, hop with
    | .recv, _ => trivial
    | .send (.slate _ _ _), _ => trivial
  cases role with
  | mw =>
    exact execPhaseSwapMw_sat (fun _ => trivial) (fun _ => trivial)
      (fun _ _ _ _ _ _ _ _ _ hop => hprotocol hop) (fun _ _ => rfl) fun _ _ _ _ _ _ _ => trivial
  | btc =>
    exact execPhaseSwapBtc_sat (fun _ => trivial) (fun _ => trivial) fun _ _ _ _ _ _ _ =>
      (dcontractMwTxBob_only _ _).mono (fun _ _ _ hop => hprotocol hop.2.1)
        fun _ _ _ _ => ⟨fun _ => rfl, fun _ => trivial⟩

end Phases

/-! ### The taker -/

/-- The peer of the taker accepts the connection, acknowledges the checksum, answers that it is the
same and acknowledges the cancellation. -/
def CancelAgreed (slate : SwapSlate K P) (t : Trace K P (SwapSlate K P)) : Prop :=
  ∃ checksum resp t', t = ⟨slate, .connect slate.pubSlate.peer.server slate.pubSlate.peer.port,
      .ok ()⟩ :: ⟨slate, .getSlateChecksum, .ok checksum⟩ :: ⟨slate, .send (.text checksum), .ok ()⟩ ::
      ⟨slate, .recv, .ok resp⟩ :: ⟨slate, .send (.text "CANCEL"), .ok ()⟩ :: t' ∧
    eqIgnoreAsciiCase resp "OK" = true

/-- A `cancel` that ended has broadcast the taker's refund exactly when the peer agreed. -/
theorem cancel_refunds {swapid : ℕ} {q : Program K P (SwapSlate K P) (Option Phase)}
    (hslate : Refundable B slate slate.taker)
    (h : Steps ((Command.cancel swapid).run L B rand slate) t q) (hq : q.Ended)
    (hown : ∀ e ∈ t, OwnAnswers slate e) :
    Refunded B rand slate slate.taker t ↔ CancelAgreed slate t := by
  simp only [Command.run, cancelExecute, runExecute, connectToPeer, Proc.bind_assoc] at h
  rw [Proc.bind_apply, Proc.get_apply, Prog.bind_ret] at h
  obtain ⟨connected, t₁, rfl, hconnect⟩ := h.request_bind_ended hq
  rw [refunded_cons id]
  rcases hconnect with ⟨e, he, rfl⟩ | ⟨_, hread₁, hrun₁⟩
  · refine iff_of_false refunded_nil ?_
    rintro ⟨checksum, resp, t', ht, -⟩
    cases ht
  obtain rfl := Outcome.expect_eq_ok.mp hread₁
  obtain ⟨summed, t₂, rfl, hsum⟩ := hrun₁.request_bind_ended hq
  rw [refunded_cons id]
  obtain ⟨checksum, rfl⟩ := hown _ (List.mem_cons_of_mem _ List.mem_cons_self)
  rcases hsum with ⟨e, he, -⟩ | ⟨_, hread₂, hrun₂⟩
  · cases he
  cases hread₂
  obtain ⟨acked, t₃, rfl, hack⟩ := hrun₂.request_bind_ended hq
  rw [refunded_cons id]
  rcases hack with ⟨e, he, rfl⟩ | ⟨_, hread₃, hrun₃⟩
  · refine iff_of_false refunded_nil ?_
    rintro ⟨checksum', resp, t', ht, -⟩
    cases ht
  obtain rfl := Outcome.expect_eq_ok.mp hread₃
  obtain ⟨heard, t₄, rfl, hhear⟩ := hrun₃.request_bind_ended hq
  rw [refunded_cons id]
  rcases hhear with ⟨e, he, rfl⟩ | ⟨resp, hread₄, hrun₄⟩
  · refine iff_of_false refunded_nil ?_
    rintro ⟨checksum', resp, t', ht, -⟩
    cases ht
  obtain rfl := Outcome.expect_eq_ok.mp hread₄
  rw [Proc.bind_apply, Proc.get_apply, Prog.bind_ret] at hrun₄
  split_ifs at hrun₄ with hresp hstatus
  · obtain ⟨rfl, -⟩ := steps_stop.mp hrun₄
    refine iff_of_false refunded_nil ?_
    rintro ⟨checksum', resp', t', ht, -⟩
    cases ht
  · exact (hstatus hslate.status).elim
  · rw [Proc.bind_assoc] at hrun₄
    obtain ⟨told, t₅, rfl, htell⟩ := hrun₄.request_bind_ended hq
    rw [refunded_cons id]
    rcases htell with ⟨e, he, rfl⟩ | ⟨_, hread₅, hrun₅⟩
    · refine iff_of_false refunded_nil ?_
      rintro ⟨checksum', resp', t', ht, -⟩
      cases ht
      cases he
    · obtain rfl := Outcome.expect_eq_ok.mp hread₅
      refine iff_of_true ?_ ⟨checksum, resp, t₅, rfl, by simpa using hresp⟩
      exact refundPhase_refunds hslate hrun₅ hq fun e he => hown e (by simp [he])

/-- A `cancel` of the taker with a peer that agrees, from its refund phase. -/
theorem cancel_steps {swapid : ℕ} {q : Program K P (SwapSlate K P) (Option Phase)} (checksum : String)
    (hsetup : slate.pubSlate.status = .setup)
    (h : Steps ((refundPhase B rand slate.taker >>= fun _ => pure (some Phase.refund)) slate) t q) :
    Steps ((Command.cancel swapid).run L B rand slate)
      (⟨slate, .connect slate.pubSlate.peer.server slate.pubSlate.peer.port, .ok ()⟩ ::
        ⟨slate, .getSlateChecksum, .ok checksum⟩ :: ⟨slate, .send (.text checksum), .ok ()⟩ ::
        ⟨slate, .recv, .ok "OK"⟩ :: ⟨slate, .send (.text "CANCEL"), .ok ()⟩ :: t) q := by
  have hsent : Steps ((sendMsg (.text "CANCEL") >>= fun _ => refundPhase B rand slate.taker >>=
      fun _ => pure (some Phase.refund)) slate) (⟨slate, .send (.text "CANCEL"), .ok ()⟩ :: t) q :=
    .step h
  simp only [Command.run, cancelExecute, runExecute, Proc.bind_assoc]
  refine Steps.bind connectToPeer_steps ?_
  rw [Proc.bind_apply, Proc.get_apply, Prog.bind_ret, if_neg (by decide),
    if_neg (not_not.mpr hsetup), Proc.bind_assoc]
  exact hsent

/-! ### The offerer -/

/-- A client of the listener acknowledges that the checksum is the same, and goes on with another
message than `EXECUTE`. -/
def CancelHeard (t : Trace K P (SwapSlate K P)) : Prop :=
  ∃ t₁ s msg t₂, t = t₁ ++ ⟨s, .send (.text "OK"), .ok ()⟩ :: ⟨s, .recv, .ok msg⟩ :: t₂ ∧
    msg ≠ "EXECUTE"

section

omit [CommRing K] [AddCommGroup P] [Module K P] [DecidableEq K] [DecidableEq P]

theorem cancelHeard_nil : ¬ CancelHeard ([] : Trace K P (SwapSlate K P)) := by
  rintro ⟨t₁, s, msg, t₂, ht, -⟩
  simp at ht

/-- A listener is told of a cancellation after its acknowledged `OK`, or later. -/
theorem cancelHeard_cons {e : Event (SwapSlate K P) (@Op.Ans K P)} :
    CancelHeard (e :: t) ↔ (∃ s msg t₂, e = ⟨s, .send (.text "OK"), .ok ()⟩ ∧
      t = ⟨s, .recv, .ok msg⟩ :: t₂ ∧ msg ≠ "EXECUTE") ∨ CancelHeard t := by
  constructor
  · rintro ⟨t₁, s, msg, t₂, ht, hmsg⟩
    rcases t₁ with _ | ⟨e', t₁⟩
    · obtain ⟨rfl, rfl⟩ := List.cons.inj ht
      exact .inl ⟨s, msg, t₂, rfl, rfl, hmsg⟩
    · obtain ⟨rfl, rfl⟩ := List.cons.inj ht
      exact .inr ⟨t₁, s, msg, t₂, rfl, hmsg⟩
  · rintro (⟨s, msg, t₂, rfl, rfl, hmsg⟩ | ⟨t₁, s, msg, t₂, rfl, hmsg⟩)
    · exact ⟨[], s, msg, t₂, rfl, hmsg⟩
    · exact ⟨e :: t₁, s, msg, t₂, rfl, hmsg⟩

theorem cancelHeard_cons_of_ne {s : SwapSlate K P} {op : Op K P} {ans : op.Ans}
    (hop : op ≠ .send (.text "OK")) : CancelHeard (⟨s, op, ans⟩ :: t) ↔ CancelHeard t := by
  rw [cancelHeard_cons]
  refine or_iff_right ?_
  rintro ⟨s', msg, t₂, he, -⟩
  cases he
  exact hop rfl

end

/-- What runs after a client that is served. -/
theorem serveClient_refunds {f : Option Phase → Process K P (SwapSlate K P) Phase}
    {q : Program K P (SwapSlate K P) Phase} (hslate : Refundable B slate slate.offerer)
    (hf : ∀ phase s, f (some phase) s = .ret s phase)
    (h : Steps ((serveClient L B rand slate >>= f) slate) t q) (hq : q.Ended)
    (hown : ∀ e ∈ t, OwnAnswers slate e) :
    Refunded B rand slate slate.offerer (⟨slate, .send (.text "OK"), .ok ()⟩ :: t) ↔
      CancelHeard (⟨slate, .send (.text "OK"), .ok ()⟩ :: t) := by
  have hinit : slate.pubSlate.status ≠ .initialized := by
    rw [hslate.status]
    decide
  rw [serveClient, if_neg hinit, if_pos hslate.status, Proc.bind_assoc] at h
  obtain ⟨heard, t₁, rfl, hhear⟩ := h.request_bind_ended hq
  rw [refunded_cons id, refunded_cons id]
  rcases hhear with ⟨e, he, rfl⟩ | ⟨msg, hread, hrun⟩
  · refine iff_of_false refunded_nil ?_
    rw [cancelHeard_cons, cancelHeard_cons_of_ne (by simp)]
    rintro (⟨s, msg, t₂, -, ht, -⟩ | hnil)
    · cases ht
      cases he
    · exact cancelHeard_nil hnil
  obtain rfl := Outcome.expect_eq_ok.mp hread
  split_ifs at hrun with hmsg
  · -- the execution phase broadcasts on the other chain, and sends slates only
    have hsat : (((execPhase L B rand slate.offerer >>= fun _ => pure (some Phase.execution)) >>= f)
        slate).Sat (fun _ _ op => op.OfExecution slate.offerer) (fun _ _ _ => True) [] := by
      rw [Proc.bind_assoc]
      refine (execPhase_ops slate.offerer slate []).bind fun _ s _ _ => ?_
      rw [Proc.bind_apply, Proc.pure_apply, Prog.bind_ret, hf]
      trivial
    have hops := hrun.forall_op hsat
    refine iff_of_false ?_ ?_
    · rintro ⟨e, he, hop⟩
      exact (hops e he).not_broadcasts hop.broadcasts
    · rw [cancelHeard_cons, cancelHeard_cons_of_ne (by simp)]
      rintro (⟨s, msg', t₂, -, ht, hne⟩ | ⟨t₂, s, msg', t₃, rfl, -⟩)
      · cases ht
        exact hne hmsg
      · exact hops _ (List.mem_append_right _ List.mem_cons_self)
  · rw [Proc.bind_assoc] at hrun
    refine iff_of_true ?_ ⟨[], slate, msg, t₁, rfl, hmsg⟩
    exact refundPhase_refunds hslate hrun hq fun e he => hown e (List.mem_cons_of_mem _ he)

/-- The loop over the clients, by induction on their number: a client with another checksum leaves the
slate alone. -/
theorem serveClients_refunds {clients : ℕ} {q : Program K P (SwapSlate K P) Phase}
    (hslate : Refundable B slate slate.offerer)
    (h : Steps (serveClients L B rand clients slate) t q) (hq : q.Ended)
    (hown : ∀ e ∈ t, OwnAnswers slate e) :
    Refunded B rand slate slate.offerer t ↔ CancelHeard t := by
  induction clients generalizing t with
  | zero =>
    cases h with
    | refl => exact hq.elim
    | step h =>
      obtain ⟨rfl, -⟩ := steps_stop.mp h
      rw [refunded_cons id, cancelHeard_cons_of_ne (by simp)]
      exact iff_of_false refunded_nil cancelHeard_nil
  | succ clients ih =>
    obtain ⟨accepted, t₁, rfl, haccept⟩ := h.request_bind_ended hq
    rw [refunded_cons id, cancelHeard_cons_of_ne (by simp)]
    rcases haccept with ⟨e, he, rfl⟩ | ⟨_, hread₁, hrun₁⟩
    · exact iff_of_false refunded_nil cancelHeard_nil
    obtain ⟨heard, t₂, rfl, hhear⟩ := hrun₁.request_bind_ended hq
    rw [refunded_cons id, cancelHeard_cons_of_ne (by simp)]
    rcases hhear with ⟨e, he, rfl⟩ | ⟨msg, hread₂, hrun₂⟩
    · exact iff_of_false refunded_nil cancelHeard_nil
    obtain ⟨summed, t₃, rfl, hsum⟩ := hrun₂.request_bind_ended hq
    rw [refunded_cons id, cancelHeard_cons_of_ne (by simp)]
    rcases hsum with ⟨e, he, rfl⟩ | ⟨checksum, hread₃, hrun₃⟩
    · exact iff_of_false refunded_nil cancelHeard_nil
    have hown₃ : ∀ e ∈ t₃, OwnAnswers slate e := fun e he => hown e (by simp [he])
    split_ifs at hrun₃ with hsame
    · obtain ⟨acked, t₄, rfl, hack⟩ := hrun₃.request_bind_ended hq
      rcases hack with ⟨e, he, rfl⟩ | ⟨_, hread₄, hrun₄⟩
      · rw [refunded_cons id, cancelHeard_cons]
        refine iff_of_false refunded_nil ?_
        rintro (⟨s, msg', t₅, -, ht, -⟩ | hnil)
        · cases ht
        · exact cancelHeard_nil hnil
      obtain rfl := Outcome.expect_eq_ok.mp hread₄
      rw [Proc.bind_apply, Proc.get_apply, Prog.bind_ret] at hrun₄
      exact serveClient_refunds hslate (fun _ _ => rfl) hrun₄ hq fun e he =>
        hown₃ e (List.mem_cons_of_mem _ he)
    · obtain ⟨acked, t₄, rfl, hack⟩ := hrun₃.request_bind_ended hq
      rw [refunded_cons id, cancelHeard_cons_of_ne (by simp)]
      rcases hack with ⟨e, he, rfl⟩ | ⟨_, hread₄, hrun₄⟩
      · exact iff_of_false refunded_nil cancelHeard_nil
      · exact ih hrun₄ fun e he => hown₃ e (List.mem_cons_of_mem _ he)

/-- A `listen` that ended has broadcast the offerer's refund exactly when a client cancelled. -/
theorem listen_refunds {swapid clients value : ℕ} {q : Program K P (SwapSlate K P) (Option Phase)}
    (hslate : Refundable B slate slate.offerer) (hvalue : (offeredValue L slate).1 = .ok value)
    (h : Steps ((Command.listen swapid clients).run L B rand slate) t q) (hq : q.Ended)
    (hown : ∀ e ∈ t, OwnAnswers slate e) :
    Refunded B rand slate slate.offerer t ↔ CancelHeard t := by
  have hlisten : ∃ q', Steps (listenExecute L B rand clients slate) t q' ∧ q'.Ended := by
    rcases h.bind_ended hq with ⟨s, e, hstop⟩ | ⟨t₁, t₂, s, a, rfl, hret, hpure⟩
    · exact ⟨_, hstop, trivial⟩
    · obtain ⟨rfl, -⟩ := steps_ret.mp hpure
      rw [List.append_nil]
      exact ⟨_, hret, trivial⟩
  obtain ⟨q', hrun, hq'⟩ := hlisten
  rw [listenExecute, Proc.bind_apply, Proc.get_apply, Prog.bind_ret, hvalue] at hrun
  have henough : ¬ (slate.pubSlate.status ≠ .setup ∧ value < (offeredValue L slate).2) :=
    fun hnot => hnot.1 hslate.status
  rw [Proc.bind_apply, Proc.lift_ok, Prog.bind_ret, if_neg henough] at hrun
  obtain ⟨bound, t₁, rfl, hbind⟩ := hrun.request_bind_ended hq'
  rw [refunded_cons id, cancelHeard_cons_of_ne (by simp)]
  rcases hbind with ⟨e, he, rfl⟩ | ⟨_, hread, hserve⟩
  · exact iff_of_false refunded_nil cancelHeard_nil
  · exact serveClients_refunds hslate hserve hq' fun e he => hown e (List.mem_cons_of_mem _ he)

/-! ### Honest locking phases -/

/-- The keys of a locking phase are keys. -/
structure Rand.Usable (B : BtcLib K P) (rand : Rand K) : Prop where
  skA : (B.publicKey (createPrivateKey rand.lockMw.skA)).key ≠ 0
  skB : (B.publicKey (createPrivateKey rand.lockBtc.skB)).key ≠ 0
  x : (B.publicKey (createPrivateKey rand.lockBtc.x)).key ≠ 0

omit [DecidableEq K] [DecidableEq P] in
theorem Rand.Usable.readable (hB : B.Lawful) (h : rand.Usable B) : rand.Readable B :=
  ⟨deserializePubKey_serialize hB h.skA, deserializePubKey_serialize hB h.skB,
    deserializePubKey_serialize hB h.x⟩

/-- The Bitcoin owner stores the id of a transaction as the lock. -/
theorem lockingPhaseSwapBtc_txid (rand : LockBtcRand K) (slate : SwapSlate K P)
    (past : Trace K P (SwapSlate K P)) :
    (lockingPhaseSwapBtc L B rand slate).Sat (fun _ _ _ => True) (fun _ s _ =>
      ∃ lock tx, s.prvSlate.btc.lock = some lock ∧ lock.txid = (B.txid tx).toText) past := by
  refine Prog.sat_modify_bind <| sat_receivePubKey_bind trivial fun _ _ _ =>
    Prog.sat_modify_bind <| sat_sendMsg_bind trivial <| sat_sendMsg_bind trivial <|
    Prog.sat_request_bind trivial fun _ _ _ => Prog.sat_get_bind <| Prog.sat_lift_bind fun _ _ =>
    Prog.sat_lift_bind fun _ _ => sat_sendMsg_bind trivial <|
    Prog.sat_modify_bind <| Prog.sat_lift_bind fun lock _ =>
    Prog.sat_request_bind trivial fun _ _ _ => Prog.sat_modify_bind <|
    sat_sendMsg_bind trivial <| sat_sendMsg_bind trivial <| Prog.sat_modify_bind ?_
  refine (lockingGrinBtc_sat rand).mono (fun _ _ _ _ => trivial) ?_
  rintro past' _ _ ⟨text, grinLockTime, sharedCoin, rfl, -, -, -⟩
  exact ⟨_, lock.signedTx, rfl, rfl⟩

/-- The slates that an honest locking phase leaves can be refunded. -/
theorem lockingPhase_refundable {ra rb : Rand K} {mw btc mw' btc' : SwapSlate K P}
    {u : Trace K P (SwapSlate K P)} (hB : B.Lawful) (hra : ra.Usable B) (hrb : rb.Usable B)
    (hpub : btc.pubSlate = mw.pubSlate) (hamount : btcFee ≤ mw.pubSlate.btc.amount)
    (hmw : Steps (lockingPhaseSwapMw L B ra.lockMw mw) t (.ret mw' ()))
    (hbtc : Steps (lockingPhaseSwapBtc L B rb.lockBtc btc) u (.ret btc' ()))
    (hconn : Connected L t u)
    (htime : ∀ lockTime, mw'.pubSlate.btc.lockTime = some lockTime → lockTime < 2 ^ 32) :
    Refundable B mw' .mw ∧ Refundable B btc' .btc := by
  obtain ⟨hagree, hsetup⟩ :=
    lockingPhase_agree (hra.readable hB) (hrb.readable hB) hpub hmw hbtc hconn
  obtain ⟨lock, tx, hlock, htxid⟩ := hbtc.sat (lockingPhaseSwapBtc_txid rb.lockBtc btc [])
  obtain ⟨d, rfl, ⟨height, hheight, -⟩, -⟩ := hmw.sat (lockingPhaseSwapMw_sat ra.lockMw mw [])
  obtain ⟨d', rfl, ⟨height', hheight', -⟩, -⟩ := hbtc.sat (lockingPhaseSwapBtc_sat rb.lockBtc btc [])
  have hgrin : d.grinLockTime = d'.grinLockTime :=
    Option.some.inj (congrArg (fun pub : SwapSlatePub => pub.mw.lockTime) hagree)
  have htimes : d.lockTime = d'.lockTime :=
    Option.some.inj (congrArg (fun pub : SwapSlatePub => pub.btc.lockTime) hagree)
  have hkeyA : serializePubKey B (B.publicKey (createPrivateKey ra.lockMw.skA)) =
      serializePubKey B d'.pubA :=
    Option.some.inj (congrArg (fun pub : SwapSlatePub => pub.btc.pubA) hagree)
  obtain ⟨-, hposGrin⟩ := i64OfU64_eq_some hheight
  obtain ⟨-, hposBtc⟩ := i64OfU64_eq_some hheight'
  have hlt : d'.lockTime < 2 ^ 32 := htime _ (by rw [← htimes]; rfl)
  have hread : ∀ {k : K}, (B.publicKey (createPrivateKey k)).key ≠ 0 →
      deserializePrivKey B (serializePrivKey B (createPrivateKey k)) = .ok (createPrivateKey k) :=
    fun h => deserializePrivKey_serialize hB (createPrivateKey_ne_zero h)
  obtain rfl := Option.some.inj hlock
  refine ⟨⟨rfl, ⟨_, rfl, by omega⟩, ⟨_, rfl, by omega⟩, rfl⟩,
    ⟨rfl, ⟨_, rfl, by omega⟩, ⟨_, rfl, by omega⟩, fun pk => ?_⟩⟩
  have hu32 : u32OfI64 d'.lockTime = some height' := by
    rw [hposBtc]
    exact u32OfI64_natCast (by omega)
  have hpubA : deserializePubKey B (serializePubKey B d'.pubA) =
      .ok (B.publicKey (createPrivateKey ra.lockMw.skA)) := by
    rw [← hkeyA]
    exact deserializePubKey_serialize hB hra.skA
  have hspend : createSpendLockTransaction B pk (BTCInput.new2 B d'.txid 0 btc.pubSlate.btc.amount
      (createPrivateKey rb.lockBtc.skB) (B.publicKey (createPrivateKey rb.lockBtc.skB))
      (lockPubScript B d'.pubA (B.publicKey (createPrivateKey rb.lockBtc.x))
        (B.publicKey (createPrivateKey rb.lockBtc.skB)) d'.lockTime true)) btc.pubSlate.btc.amount btcFee
      height' = .ok (spendOf B pk (B.txid tx) btc.pubSlate.btc.amount height') := by
    have hid : d'.txid = (B.txid tx).toText := htxid
    rw [hid]
    exact createSpendLockTransaction_new2 (hB.txid_length tx) (hpub ▸ hamount)
  simp only [signedRefundTransaction, Outcome.bind_eq_ok, Outcome.unwrap_eq_ok]
  exact ⟨_, _, rfl, _, hpubA, _, rfl, _, hread hrb.skB, _, rfl, _, hread hrb.x, _, rfl, _, rfl, _, hu32,
    _, hspend, _, getLockPubScript_of_nonneg B (by omega), rfl⟩

omit [DecidableEq K] [DecidableEq P] in
/-- A locking phase keeps the parts of the parties, and the offered value. -/
theorem Locks.keeps_offer (h : Locks B rand slate slate' role) :
    slate'.offerer = slate.offerer ∧ slate'.taker = slate.taker ∧
      offeredValue L slate' = offeredValue L slate := by
  cases role <;>
  · obtain ⟨d, rfl⟩ := h
    exact ⟨rfl, rfl, rfl⟩

theorem lockingPhase_locks (h : Steps (lockingPhase L B rand role slate) t (.ret slate' ())) :
    Locks B rand slate slate' role := h.sat (lockingPhase_phases role slate [])

section Handshake

variable {F : FileLib K P} {swapid clients : ℕ} {randO randT : Rand K} {phaseO phaseT : Option Phase}
  {slateO slateT slateO' slateT' : SwapSlate K P} {tO tT : Trace K P (SwapSlate K P)}
  {filesO filesT : SlateFiles}

/-- A lock handshake of honest parties leaves slates that can be refunded. -/
theorem handshake_refundable (hB : B.Lawful) (hrandO : randO.Usable B) (hrandT : randT.Usable B)
    (hinit : slateO.pubSlate.status = .initialized) (hpub : slateT.pubSlate = slateO.pubSlate)
    (hO : Steps (main L B randO (.listen swapid clients) slateO) tO (.ret slateO' phaseO))
    (htrueO : Truthful F filesO tO)
    (hT : Steps (main L B randT (.lock swapid) slateT) tT (.ret slateT' phaseT))
    (htrueT : Truthful F filesT tT) (hconn : Connected L (lastConnection tO) (lastConnection tT))
    (hamount : btcFee ≤ slateO.pubSlate.btc.amount)
    (htime : ∀ lockTime, slateO'.pubSlate.btc.lockTime = some lockTime → lockTime < 2 ^ 32) :
    Refundable B slateO' slateO'.offerer ∧ Refundable B slateT' slateT'.taker ∧
      offeredValue L slateO' = offeredValue L slateO := by
  obtain ⟨hagree, -⟩ := lock_agree (hrandO.readable hB) (hrandT.readable hB) hinit hpub hO htrueO hT
    htrueT hconn
  obtain ⟨pO, pT, hphaseO, hphaseT, hphases⟩ := lock_phases hinit hO htrueO hT htrueT hconn
  obtain ⟨hofferer, -, hvalue⟩ := (lockingPhase_locks hphaseO).keeps_offer (L := L)
  obtain ⟨-, htaker, -⟩ := (lockingPhase_locks hphaseT).keeps_offer (L := L)
  have hother : slateT.taker = slateO.offerer.other := by
    rw [← taker_eq, SwapSlate.taker, SwapSlate.taker, hpub]
  rw [htaker, hofferer, hother]
  rw [hother] at hphaseT
  cases hrole : slateO.offerer with
  | mw =>
    rw [hrole] at hphaseO hphaseT
    obtain ⟨hmw, hbtc⟩ := lockingPhase_refundable hB hrandO hrandT hpub hamount hphaseO hphaseT hphases
      htime
    exact ⟨hmw, hbtc, hvalue⟩
  | btc =>
    rw [hrole] at hphaseO hphaseT
    obtain ⟨hmw, hbtc⟩ := lockingPhase_refundable hB hrandT hrandO hpub.symm (hpub ▸ hamount) hphaseT
      hphaseO ⟨hphases.2, hphases.1⟩ (hagree ▸ htime)
    exact ⟨hbtc, hmw, hvalue⟩

/-- A listener that returned has read its inputs. -/
theorem listen_value
    (h : Steps (main L B randO (.listen swapid clients) slateO) tO (.ret slateO' phaseO)) :
    ∃ value, (offeredValue L slateO).1 = .ok value := by
  obtain ⟨t₁, t₂, s, a, -, hrun, -⟩ := h.bind_ret_inv
  obtain ⟨t₃, t₄, s', a', -, hlisten, -⟩ := hrun.bind_ret_inv
  rw [listenExecute, Proc.bind_apply, Proc.get_apply, Prog.bind_ret] at hlisten
  obtain ⟨value, hvalue, -⟩ := steps_lift_bind.mp hlisten
  exact ⟨value, hvalue⟩

/-- A refund depends on the peer for the start of a session only.  After a lock handshake of honest
parties, with heights past both lock heights and nodes that take the refund: a `cancel` of the taker
broadcasts its refund if and only if the peer accepts the connection, acknowledges the checksum, answers
`OK` and acknowledges the cancellation; a `listen` of the offerer does if and only if a client
acknowledges its `OK` and goes on with another message than `EXECUTE`. -/
theorem refund_broadcast_iff (hB : B.Lawful) (hrandO : randO.Usable B) (hrandT : randT.Usable B)
    (hinit : slateO.pubSlate.status = .initialized) (hpub : slateT.pubSlate = slateO.pubSlate)
    (hO : Steps (main L B randO (.listen swapid clients) slateO) tO (.ret slateO' phaseO))
    (htrueO : Truthful F filesO tO)
    (hT : Steps (main L B randT (.lock swapid) slateT) tT (.ret slateT' phaseT))
    (htrueT : Truthful F filesT tT) (hconn : Connected L (lastConnection tO) (lastConnection tT))
    (hamount : btcFee ≤ slateO.pubSlate.btc.amount)
    (htime : ∀ lockTime, slateO'.pubSlate.btc.lockTime = some lockTime → lockTime < 2 ^ 32) :
    (∀ rand t q, Steps ((Command.cancel swapid).run L B rand slateT') t q → q.Ended →
      (∀ e ∈ t, OwnAnswers slateT' e) →
      (Refunded B rand slateT' slateT'.taker t ↔ CancelAgreed slateT' t)) ∧
    ∀ rand clients t q, Steps ((Command.listen swapid clients).run L B rand slateO') t q → q.Ended →
      (∀ e ∈ t, OwnAnswers slateO' e) →
      (Refunded B rand slateO' slateO'.offerer t ↔ CancelHeard t) := by
  obtain ⟨hofferer, htaker, hsame⟩ := handshake_refundable hB hrandO hrandT hinit hpub hO htrueO hT
    htrueT hconn hamount htime
  obtain ⟨value, hvalue⟩ := listen_value hO
  constructor
  · intro rand t q h hq hown
    exact cancel_refunds htaker h hq hown
  · intro rand clients t q h hq hown
    exact listen_refunds hofferer (by rw [hsame, hvalue]) h hq hown

end Handshake

/-! ### A sample of the refund -/

/-- An environment without a peer, whose nodes know these heights and take every transaction. -/
def noPeer (heightGrin heightBtc : ℕ) : (op : Op K P) → op.Ans
  | .send _ => .error (.err "no peer")
  | .recv => .error (.err "no peer")
  | .getBlockHeight => .ok heightGrin
  | .pushTransaction _ => .ok ()
  | .getCurrentBlockHeight => .ok heightBtc
  | .importBtcAddress _ => .ok ()
  | .getAddressFinalBalance _ => .ok 0
  | .sendRawTransaction _ => .ok ()
  | .sleep => ()
  | .connect _ _ => .error (.err "no peer")
  | .bind => .ok ()
  | .accept => .error (.err "no peer")
  | .getSlateChecksum => .ok "4a5e"
  | .createSlateFile _ => .ok ()
  | .writeSlateFile _ => .ok ()

omit [CommRing K] [AddCommGroup P] [Module K P] [DecidableEq K] [DecidableEq P] in
theorem ownAnswers_noPeer {heightGrin heightBtc : ℕ} {lockGrin lockBtc : ℤ}
    (hgrin : slate.pubSlate.mw.lockTime = some lockGrin)
    (hbtc : slate.pubSlate.btc.lockTime = some lockBtc) (hpastGrin : lockGrin < heightGrin)
    (hpastBtc : lockBtc < heightBtc) {e : Event (SwapSlate K P) (@Op.Ans K P)}
    (he : e.ans = noPeer heightGrin heightBtc e.op) : OwnAnswers slate e := by
  obtain ⟨s, op, ans⟩ := e
  obtain rfl : ans = noPeer heightGrin heightBtc op := he
  cases op with
  | getBlockHeight =>
    refine ⟨heightGrin, rfl, fun lockTime h => ?_⟩
    obtain rfl := Option.some.inj (hgrin.symm.trans h)
    exact hpastGrin
  | getCurrentBlockHeight =>
    refine ⟨heightBtc, rfl, fun lockTime h => ?_⟩
    obtain rfl := Option.some.inj (hbtc.symm.trans h)
    exact hpastBtc
  | pushTransaction tx => rfl
  | sendRawTransaction tx => rfl
  | getSlateChecksum => exact ⟨_, rfl⟩
  | bind => rfl
  | _ => trivial

theorem sample_usable : sampleRand.Usable (btcExponents []) :=
  ⟨by decide +kernel, by decide +kernel, by decide +kernel⟩

theorem ownAnswers_sample {lock : SignedLock} {shared : DSharedOutMwTxResult Scalar Scalar}
    {e : Event (SwapSlate Scalar Scalar) (@Op.Ans Scalar Scalar)}
    (he : e.ans = noPeer 1500401 700041 e.op) : OwnAnswers (sampleTakerSetup lock shared) e := by
  have hgrin : (sampleTakerSetup lock shared).pubSlate.mw.lockTime = some 1500400 := rfl
  have hbtc : (sampleTakerSetup lock shared).pubSlate.btc.lockTime = some 700040 := rfl
  exact ownAnswers_noPeer hgrin hbtc (by norm_num) (by norm_num) he

/-- The taker of the sample gets its refund with a peer that agrees. -/
theorem refund_broadcast_sample : ∃ slate t q,
    Steps ((Command.cancel 1).run exponents (btcExponents []) sampleRand slate) t q ∧
      CancelAgreed slate t ∧ Refunded (btcExponents []) sampleRand slate slate.taker t := by
  obtain ⟨tO, tT, lock, sharedA, sharedB, refund, hO, htrueO, hT, htrueT, hconn, -⟩ := sample_handshake
  have hpub : sampleTaker.pubSlate = sampleFunded.pubSlate := rfl
  have htime : ∀ lockTime, (sampleOffererSetup lock sharedA refund).pubSlate.btc.lockTime =
      some lockTime → lockTime < 2 ^ 32 := by
    intro lockTime h
    obtain rfl : lockTime = 700040 := (Option.some.inj h).symm
    norm_num
  obtain ⟨hcancel, -⟩ := refund_broadcast_iff (btcExponents_lawful []) sample_usable sample_usable
    rfl hpub hO htrueO hT htrueT hconn (by decide) htime
  obtain ⟨t, q, hrefund, hq, henv⟩ := Prog.exists_ended (noPeer 1500401 700041)
    ((refundPhase (btcExponents []) sampleRand .btc >>= fun _ => pure (some Phase.refund))
      (sampleTakerSetup lock sharedB))
  have hphase : Steps ((refundPhase (btcExponents []) sampleRand (sampleTakerSetup lock sharedB).taker
      >>= fun _ => pure (some Phase.refund)) (sampleTakerSetup lock sharedB)) t q := hrefund
  have hrun : Steps ((Command.cancel 1).run exponents (btcExponents []) sampleRand
      (sampleTakerSetup lock sharedB)) _ q := cancel_steps "4a5e" rfl hphase
  have hagreed : CancelAgreed (sampleTakerSetup lock sharedB) _ := ⟨"4a5e", "OK", t, rfl, by decide⟩
  refine ⟨_, _, q, hrun, hagreed, (hcancel _ _ _ hrun hq ?_).mpr hagreed⟩
  intro e he
  simp only [List.mem_cons] at he
  rcases he with rfl | rfl | rfl | rfl | rfl | he
  · trivial
  · exact ⟨_, rfl⟩
  · trivial
  · trivial
  · trivial
  · exact ownAnswers_sample (henv e he)

/-- The taker of the sample without a listener of its peer: no `cancel` broadcasts its refund. -/
theorem cancel_without_listener : ∃ tO tT slateO slateT,
    Steps (main exponents (btcExponents []) sampleRand (.listen 1 1) sampleFunded) tO
      (.ret slateO (some .locking)) ∧
    Steps (main exponents (btcExponents []) sampleRand (.lock 1) sampleTaker) tT
      (.ret slateT (some .locking)) ∧
    Connected exponents (lastConnection tO) (lastConnection tT) ∧ slateT.pubSlate.status = .setup ∧
    ∀ rand t q, Steps ((Command.cancel 1).run exponents (btcExponents []) rand slateT) t q →
      (∀ e ∈ t, e.ans = noPeer 1500401 700041 e.op) →
      (∀ e ∈ t, OwnAnswers slateT e) ∧ ¬ Refunded (btcExponents []) rand slateT slateT.taker t := by
  obtain ⟨tO, tT, lock, sharedA, sharedB, refund, hO, -, hT, -, hconn, -⟩ := sample_handshake
  refine ⟨tO, tT, _, _, hO, hT, hconn, rfl, ?_⟩
  intro rand t q h henv
  refine ⟨fun e he => ownAnswers_sample (henv e he), ?_⟩
  simp only [Command.run, cancelExecute, runExecute, connectToPeer, Proc.bind_assoc] at h
  rw [Proc.bind_apply, Proc.get_apply, Prog.bind_ret] at h
  rcases h.request_bind_inv with ⟨rfl, -⟩ | ⟨ans, t', rfl, hconnect⟩
  · exact refunded_nil
  have hrefused : ans = .error (.err "no peer") := henv _ List.mem_cons_self
  rcases hconnect with ⟨e, -, rfl, -⟩ | ⟨a, hread, -⟩
  · rw [refunded_cons id]
    exact refunded_nil
  · rw [hrefused] at hread
    cases hread

end MwBtcSwap
