import MwBtcSwap.Swap.Amounts
import MwBtcSwap.Swap.Saved

/-! All that a party does in a session, with any peers and nodes.  Every Grin transaction that it hands
out as final is valid, and every Bitcoin output that its files record for it is one that it sent to its
node and whose key the record holds. -/

namespace MwBtcSwap

open Schnorr Interaction Machine Grin Bitcoin

variable {K P : Type} [CommRing K] [AddCommGroup P] [Module K P] [DecidableEq K] [DecidableEq P]

variable {L : GrinLib K P} {B : BtcLib K P} {F : FileLib K P} {settings : Settings} {rand : Rand K}
  {dir dir₁ : Directory} {σ : Type}

/-! ### Transactions that are handed out -/

/-- A transaction that goes to the node, and a final slate that goes to the peer, are valid. -/
def Op.Valid (L : GrinLib K P) : Op K P → Prop
  | .pushTransaction tx => L.validate tx = true
  | .send (.slate _ .tx S) => ∃ tx, S.tx = some tx ∧ L.validate tx = true
  | _ => True

omit [DecidableEq K] in
/-- What is finalized is valid. -/
theorem valid_of_finalize {S S' : Slate K P} (h : S.finalize L = .ok S') :
    ∃ tx, S'.tx = some tx ∧ L.validate tx = true := by
  obtain ⟨tx, k, k', -, -, -, rfl, -, hvalid⟩ := Slate.finalize_eq_ok h
  exact ⟨_, rfl, hvalid⟩

/-- What `fin_tx` finalizes is valid. -/
theorem valid_of_finTx {S S' : Slate K P} {secKey secNonce : K} {pubX : Option P}
    {replace : Option (Signature K P × Signature K P)}
    (h : finTx L S secKey secNonce true pubX replace = .ok S') :
    ∃ tx, S'.tx = some tx ∧ L.validate tx = true := by
  obtain ⟨S₁, hfin⟩ : ∃ S₁ : Slate K P, S₁.finalize L = .ok S' := by
    cases pubX with
    | some pubX =>
      simp only [finTx, if_true, Outcome.bind_eq_ok, Outcome.expect_eq_ok] at h
      obtain ⟨_, -, _, -, S₁, -, h⟩ := h
      exact ⟨S₁, h⟩
    | none =>
      cases replace <;>
      · simp only [finTx, if_true, Outcome.bind_eq_ok, Outcome.expect_eq_ok] at h
        obtain ⟨_, -, _, -, _, -, S₁, -, h⟩ := h
        exact ⟨S₁, h⟩
  exact valid_of_finalize hfin

section Protocols

variable {spend : SpendRand K} {drand : DRecvRand K} {recv : RecvRand K} {sigNonce x : K} {inp : MWCoin}
  {inputs : List MWCoin} {fundValue timelock : ℕ}

/-- A result with a valid transaction, from operations that are valid. -/
def Finalizes {α : Type} (L : GrinLib K P) (p : Process K P σ α) (tx : α → Option (Grin.Transaction K P)) :
    Prop :=
  ∀ s past, (p s).Sat (fun _ _ op => op.Valid L)
    (fun past' s' r => s' = s ∧ past <+: past' ∧ ∃ t, tx r = some t ∧ L.validate t = true) past

omit [DecidableEq K] in
theorem finalizes_of_sat {α : Type} {p : Process K P σ α} {ops : Op K P → Prop}
    {tx : α → Option (Grin.Transaction K P)} (honly : p.Only ops)
    (h : ∀ s past, (p s).Sat (fun _ _ op => op.Valid L)
      (fun _ _ r => ∃ t, tx r = some t ∧ L.validate t = true) past) : Finalizes L p tx := by
  intro s past
  refine ((honly s past).and (h s past)).mono (fun _ _ _ hop => hop.2) ?_
  rintro past' s' r ⟨⟨rfl, hext⟩, hvalid⟩
  exact ⟨rfl, hext.isPrefix, hvalid⟩

theorem dsharedOutMwTxAlice_finalizes :
    Finalizes L (dsharedOutMwTxAlice L spend drand inputs fundValue timelock : Process K P σ _)
      (·.tx.tx) := by
  refine finalizes_of_sat dsharedOutMwTxAlice_only fun s past => ?_
  refine Prog.sat_lift_bind fun _ _ => Prog.sat_lift_bind fun _ _ => Prog.sat_request_bind trivial
    fun _ _ _ => Prog.sat_request_bind trivial fun _ _ _ => Prog.sat_request_bind trivial
    fun _ _ _ => Prog.sat_request_bind trivial fun _ _ _ => Prog.sat_lift_bind fun _ _ =>
    Prog.sat_lift_bind fun _ _ => Prog.sat_lift_bind fun _ _ => Prog.sat_lift_bind fun fin hfin => ?_
  have hvalid := valid_of_finTx (Outcome.expect_eq_ok.mp hfin)
  exact Prog.sat_request_bind hvalid fun _ _ _ => hvalid

theorem dsharedInpMwTxAlice_finalizes :
    Finalizes L (dsharedInpMwTxAlice L spend inp fundValue timelock : Process K P σ _) (·.tx.tx) := by
  refine finalizes_of_sat dsharedInpMwTxAlice_only fun s past => ?_
  refine Prog.sat_lift_bind fun _ _ => Prog.sat_request_bind trivial fun _ _ _ =>
    sat_receiveSlate_bind trivial fun _ _ _ => Prog.sat_lift_bind fun _ _ =>
    Prog.sat_lift_bind fun fin hfin => ?_
  have hvalid := valid_of_finTx hfin
  exact Prog.sat_request_bind hvalid fun _ _ _ => hvalid

theorem dsharedInpMwTxBob_finalizes :
    Finalizes L (dsharedInpMwTxBob L sigNonce recv inp fundValue timelock : Process K P σ _)
      (·.tx.tx) := by
  refine finalizes_of_sat dsharedInpMwTxBob_only fun s past => ?_
  refine sat_receiveSlate_bind trivial fun _ _ _ => Prog.sat_lift_bind fun _ _ =>
    Prog.sat_lift_bind fun _ _ => Prog.sat_lift_bind fun _ _ => Prog.sat_request_bind trivial
    fun _ _ _ => sat_receiveSlate_bind trivial fun _ _ _ => Prog.sat_lift_bind fun _ _ =>
    Prog.sat_lift_bind fun fin hfin => ?_
  exact valid_of_finalize (Outcome.expect_eq_ok.mp hfin)

theorem dcontractMwTxBob_finalizes :
    Finalizes L (dcontractMwTxBob L sigNonce recv inp fundValue timelock x : Process K P σ _)
      (·.tx.tx) := by
  refine finalizes_of_sat dcontractMwTxBob_only fun s past => ?_
  refine sat_receiveSlate_bind trivial fun _ _ _ => Prog.sat_lift_bind fun _ _ =>
    Prog.sat_lift_bind fun _ _ => Prog.sat_request_bind trivial fun _ _ _ =>
    sat_receiveSlate_bind trivial fun _ _ _ => Prog.sat_lift_bind fun fin hfin => ?_
  have hvalid := valid_of_finTx hfin
  exact Prog.sat_request_bind hvalid fun _ _ _ => hvalid

end Protocols

/-! ### What the phases keep -/

/-- A recorded coin is an output of a transaction that the node took, and its key is recorded. -/
def PaidOut (B : BtcLib K P) (past : Trace K P σ) (vout : ℕ) (input : BTCInput) : Prop :=
  ∃ s tx key value, ⟨s, .sendRawTransaction tx, .ok ()⟩ ∈ past ∧
    tx.output[vout]? = some ⟨value, getP2pkhPubScript B (B.publicKey (createPrivateKey key))⟩ ∧
    input = BTCInput.new2 B (B.txid tx).toText vout value (createPrivateKey key)
      (B.publicKey (createPrivateKey key)) (getP2pkhPubScript B (B.publicKey (createPrivateKey key)))

/-- What a private part records of its swap has happened. -/
structure Backed (L : GrinLib K P) (B : BtcLib K P) (past : Trace K P σ) (prv : SwapSlatePriv K P) :
    Prop where
  change : ∀ input ∈ prv.btc.change, PaidOut B past 1 input
  swapped : ∀ input ∈ prv.btc.swapped, PaidOut B past 0 input
  refunded : ∀ input ∈ prv.btc.refunded, PaidOut B past 0 input
  refundTx : ∀ tx ∈ prv.mw.refundTx, L.validate tx = true

omit [DecidableEq K] [DecidableEq P] in
theorem PaidOut.mono {past past' : Trace K P σ} {vout : ℕ} {input : BTCInput}
    (h : PaidOut B past vout input) (hpast : past <+: past') : PaidOut B past' vout input := by
  obtain ⟨s, tx, key, value, hsent, hout, rfl⟩ := h
  exact ⟨s, tx, key, value, hpast.subset hsent, hout, rfl⟩

section

omit [DecidableEq K]

theorem Backed.mono {past past' : Trace K P σ} {prv : SwapSlatePriv K P} (h : Backed L B past prv)
    (hpast : past <+: past') : Backed L B past' prv :=
  ⟨fun input hinput => (h.change input hinput).mono hpast,
    fun input hinput => (h.swapped input hinput).mono hpast,
    fun input hinput => (h.refunded input hinput).mono hpast, h.refundTx⟩

/-- Another private part with the same record. -/
theorem Backed.congr {past past' : Trace K P σ} {prv prv' : SwapSlatePriv K P} (h : Backed L B past prv)
    (hchange : prv'.btc.change = prv.btc.change) (hswapped : prv'.btc.swapped = prv.btc.swapped)
    (hrefunded : prv'.btc.refunded = prv.btc.refunded) (hrefundTx : prv'.mw.refundTx = prv.mw.refundTx)
    (hpast : past <+: past') : Backed L B past' prv' := by
  have h' := h.mono hpast
  exact ⟨hchange ▸ h'.change, hswapped ▸ h'.swapped, hrefunded ▸ h'.refunded, hrefundTx ▸ h'.refundTx⟩

theorem backed_blank (past : Trace K P σ) : Backed L B past .blank := ⟨nofun, nofun, nofun, nofun⟩

end

omit [DecidableEq K] [DecidableEq P] in
/-- An output of the transaction that the node has just taken. -/
theorem paidOut_last {past : Trace K P σ} {s : σ} {tx : Bitcoin.Transaction} {vout value : ℕ} {key : K}
    (hout : tx.output[vout]? =
      some ⟨value, getP2pkhPubScript B (B.publicKey (createPrivateKey key))⟩) :
    PaidOut B (past ++ [⟨s, .sendRawTransaction tx, .ok ()⟩]) vout
      (BTCInput.new2 B (B.txid tx).toText vout value (createPrivateKey key)
        (B.publicKey (createPrivateKey key))
        (getP2pkhPubScript B (B.publicKey (createPrivateKey key)))) :=
  ⟨s, tx, key, value, List.mem_append_right _ (List.mem_singleton_self _), hout, rfl⟩

/-- A process that hands out only valid transactions and records only what has happened. -/
def Honors {α : Type} (L : GrinLib K P) (B : BtcLib K P) (p : Process K P (SwapSlate K P) α) : Prop :=
  p.Maintains (fun _ _ op => op.Valid L) fun past s => Backed L B past s.prvSlate

section Phases

variable {s : SwapSlate K P} {past : Trace K P (SwapSlate K P)}

theorem dsharedOutMwTxBob_valid {drand : DRecvRand K} {fundValue : ℕ} :
    (dsharedOutMwTxBob L drand fundValue : Process K P σ _).Only (Op.Valid L) :=
  .bind (.request trivial) fun _ => .bind (.request trivial) fun _ => .bind (.lift _) fun _ =>
    .bind (.lift _) fun _ => .bind (.lift _) fun _ => .bind (.request trivial) fun _ =>
    .bind (.request trivial) fun _ => .bind (receiveSlate_only trivial) fun _ => .pure _

theorem dcontractMwTxAlice_valid {spend : SpendRand K} {inp : MWCoin} {fundValue timelock : ℕ} {pubX : P} :
    (dcontractMwTxAlice L spend inp fundValue timelock pubX : Process K P σ _).Only (Op.Valid L) :=
  .bind (.lift _) fun _ => .bind (.request trivial) fun _ => .bind (receiveSlate_only trivial) fun _ =>
    .bind (.lift _) fun _ => .bind (.lift _) fun _ => .bind (.request trivial) fun _ =>
    .bind (receiveSlate_only trivial) fun _ => .bind (.lift _) fun _ => .bind (.lift _) fun _ => .pure _

theorem lockingGrinMw_honors (rand : LockMwRand K) : Honors L B (lockingGrinMw L rand) := by
  intro s past hs
  refine Prog.sat_request_bind trivial fun _ _ _ => Prog.sat_get_bind <| Prog.sat_lift_bind fun _ _ =>
    Prog.sat_lift_bind fun _ _ => Prog.sat_modify_bind <| sat_sendMsg_bind trivial ?_
  refine (dsharedOutMwTxAlice_finalizes _ _).bind ?_
  rintro past₁ _ shared ⟨rfl, hpast, tx, htx, hvalid⟩
  refine Prog.sat_modify_bind <| Prog.sat_lift_bind fun _ _ => Prog.sat_lift_bind fun _ _ => ?_
  refine (dsharedInpMwTxBob_finalizes _ _).bind ?_
  rintro past₂ _ refund ⟨rfl, hpast', tx', htx', hvalid'⟩
  refine Prog.sat_modify_bind <| Prog.sat_lift_bind fun fundingTx hfunding => ?_
  obtain rfl : tx = fundingTx := by simpa [htx] using hfunding
  have hleads : past <+: past₂ := by
    refine List.IsPrefix.trans ?_ (hpast.trans hpast')
    simp
  have hs' := hs.mono hleads
  refine ⟨hvalid, fun ans => ?_⟩
  cases ans with
  | error e => trivial
  | ok u =>
    refine Backed.mono ⟨hs'.change, hs'.swapped, hs'.refunded, ?_⟩ (List.prefix_append _ _)
    rintro tx'' htx''
    obtain rfl : tx' = tx'' := by simpa [htx'] using htx''
    exact hvalid'

theorem lockingPhaseSwapMw_honors (rand : LockMwRand K) : Honors L B (lockingPhaseSwapMw L B rand) := by
  intro s past hs
  refine Prog.sat_modify_bind <| sat_sendMsg_bind trivial <|
    sat_receivePubKey_bind trivial fun _ _ _ => Prog.sat_modify_bind <|
    sat_receivePubKey_bind trivial fun _ _ _ => Prog.sat_modify_bind <|
    sat_receiveI64_bind trivial fun _ _ _ => Prog.sat_modify_bind <|
    Prog.sat_lift_bind fun _ _ => Prog.sat_lift_bind fun _ _ => Prog.sat_request_bind trivial fun _ _ _ =>
    sat_receiveMsg_bind trivial fun _ => sat_receiveMsg_bind trivial fun _ => ?_
  split_ifs
  · exact Prog.sat_modify_bind trivial
  · refine Prog.sat_get_bind <| verifyFunds_only.sat_bind ?_ fun past₁ verified hext => ?_
    · intro _ op hop _
      match op, hop with
      | .getAddressFinalBalance _, _ => trivial
      | .sleep, _ => trivial
    · cases verified with
      | false => exact Prog.sat_modify_bind trivial
      | true =>
        have hleads : past <+: past₁ := by
          refine List.IsPrefix.trans ?_ hext.isPrefix
          simp
        exact Prog.sat_modify_bind <| lockingGrinMw_honors rand _ _ <| hs.congr rfl rfl rfl rfl hleads

omit [DecidableEq K] [DecidableEq P] in
/-- The change of the lock transaction. -/
theorem signedLockTransaction_change {pubA pubX pubB pubR : PublicKey P} {inputs : List BTCInput}
    {amount : ℕ} {lockHeight : ℤ} {lock : SignedLock}
    (h : signedLockTransaction B pubA pubX pubB pubR inputs amount lockHeight = .ok lock) :
    lock.signedTx.output[1]? = some lock.chOut ∧
      lock.chOut.scriptPubkey = getP2pkhPubScript B pubR := by
  simp only [signedLockTransaction, signP2pkhTransaction, Outcome.bind_eq_ok, Outcome.unwrap_eq_ok,
    Outcome.pure_eq_ok, Except.ok.injEq] at h
  obtain ⟨txLock, hcreate, _, -, chOut, hchOut, _, -, _, -, _, -, _, -, _, ⟨_, -, rfl⟩, rfl⟩ := h
  refine ⟨hchOut, ?_⟩
  obtain ⟨change, hout⟩ := createLockTransaction_output hcreate
  rw [hout] at hchOut
  cases hchOut
  rfl

theorem lockingGrinBtc_honors (rand : LockBtcRand K) : Honors L B (lockingGrinBtc L rand) := by
  intro s past hs
  refine sat_receiveI64_bind trivial fun _ _ _ => Prog.sat_modify_bind <| Prog.sat_get_bind <|
    dsharedOutMwTxBob_valid.sat_bind (fun _ _ hop _ => hop) fun past₁ _ hext => Prog.sat_modify_bind <|
    Prog.sat_lift_bind fun _ _ => Prog.sat_lift_bind fun _ _ => ?_
  refine (dsharedInpMwTxAlice_finalizes _ _).bind ?_
  rintro past₂ _ _ ⟨rfl, hpast, -⟩
  have hleads : past <+: past₂ := by
    refine List.IsPrefix.trans ?_ (hext.isPrefix.trans hpast)
    simp
  exact hs.congr rfl rfl rfl rfl hleads

theorem lockingPhaseSwapBtc_honors (rand : LockBtcRand K) :
    Honors L B (lockingPhaseSwapBtc L B rand) := by
  intro s past hs
  refine Prog.sat_modify_bind <| sat_receivePubKey_bind trivial fun _ _ _ => Prog.sat_modify_bind <|
    sat_sendMsg_bind trivial <| sat_sendMsg_bind trivial <| Prog.sat_request_bind trivial fun _ _ _ =>
    Prog.sat_get_bind <| Prog.sat_lift_bind fun _ _ => Prog.sat_lift_bind fun _ _ =>
    sat_sendMsg_bind trivial <| Prog.sat_modify_bind <| Prog.sat_lift_bind fun lock hlock =>
    Prog.sat_request_bind trivial fun ans _ hans => Prog.sat_modify_bind <|
    sat_sendMsg_bind trivial <| sat_sendMsg_bind trivial <| Prog.sat_modify_bind <|
    lockingGrinBtc_honors rand _ _ ?_
  obtain rfl : ans = .ok () := hans
  obtain ⟨hout, hscript⟩ := signedLockTransaction_change hlock
  refine ⟨?_, fun input hinput => (hs.swapped input hinput).mono (by simp),
    fun input hinput => (hs.refunded input hinput).mono (by simp), hs.refundTx⟩
  rintro input hinput
  cases hinput
  rw [hscript]
  refine PaidOut.mono (paidOut_last ?_) ((List.prefix_append _ _).trans (List.prefix_append _ _))
  rw [hout, ← hscript]

theorem execPhaseSwapMw_honors (rand : ExecMwRand K) : Honors L B (execPhaseSwapMw L B rand) := by
  intro s past hs
  refine sat_compareTimes_bind (fun _ => trivial) (fun _ => trivial) fun _ _ _ _ enough _ _ => ?_
  cases enough with
  | false => trivial
  | true =>
    refine Prog.sat_modify_bind <| Prog.sat_get_bind <| Prog.sat_lift_bind fun _ _ =>
      Prog.sat_lift_bind fun _ _ => Prog.sat_lift_bind fun _ _ => Prog.sat_lift_bind fun _ _ =>
      Prog.sat_lift_bind fun _ _ => dcontractMwTxAlice_valid.sat_bind (fun _ _ hop _ => hop)
      fun past₁ _ hext => Prog.sat_lift_bind fun redeem hredeem => Prog.sat_lift_bind fun o ho =>
      Prog.sat_request_bind trivial fun ans _ hans => ?_
    obtain rfl : ans = .ok () := hans
    obtain ⟨value, -, hout⟩ := signedRedeemTransaction_output hredeem
    rw [Outcome.unwrap_eq_ok, hout] at ho
    cases ho
    have hleads : past <+: past₁ := by
      refine List.IsPrefix.trans ?_ hext.isPrefix
      simp
    have hs' := hs.mono hleads
    refine ⟨fun input hinput => (hs'.change input hinput).mono (List.prefix_append _ _), ?_,
      fun input hinput => (hs'.refunded input hinput).mono (List.prefix_append _ _), hs'.refundTx⟩
    rintro input hinput
    cases hinput
    exact paidOut_last (by rw [hout]; rfl)

theorem execPhaseSwapBtc_honors (rand : ExecBtcRand K) : Honors L B (execPhaseSwapBtc L B rand) := by
  intro s past hs
  refine sat_compareTimes_bind (fun _ => trivial) (fun _ => trivial) fun _ _ _ _ enough _ _ => ?_
  cases enough with
  | false => trivial
  | true =>
    refine Prog.sat_modify_bind <| Prog.sat_get_bind <| Prog.sat_lift_bind fun _ _ =>
      Prog.sat_lift_bind fun _ _ => Prog.sat_lift_bind fun _ _ => Prog.sat_lift_bind fun _ _ =>
      Prog.sat_lift_bind fun _ _ => (dcontractMwTxBob_finalizes _ _).bind ?_
    rintro past₁ _ result ⟨rfl, hpast, tx, htx, hvalid⟩
    refine Prog.sat_modify_bind <| Prog.sat_lift_bind fun tx' htx' => ?_
    obtain rfl : tx = tx' := by simpa [htx] using htx'
    refine Prog.sat_request_bind hvalid fun _ _ _ => ?_
    have hleads : past <+: past₁ := by
      refine List.IsPrefix.trans ?_ hpast
      simp
    exact (hs.mono hleads).congr rfl rfl rfl rfl (List.prefix_append _ _)

omit [DecidableEq K] in
theorem refundPhaseSwapMw_honors :
    Honors L B (refundPhaseSwapMw : Process K P (SwapSlate K P) Unit) := by
  intro s past hs
  refine sat_compareTimes_bind (fun _ => trivial) (fun _ => trivial) fun _ _ _ _ passed _ _ => ?_
  cases passed with
  | false => trivial
  | true =>
    refine Prog.sat_get_bind <| Prog.sat_lift_bind fun tx htx => Prog.sat_request_bind
      (hs.refundTx tx (Outcome.unwrap_eq_ok.mp htx)) fun _ _ _ => ?_
    refine hs.mono ?_
    rw [List.append_assoc]
    exact List.prefix_append past _

omit [DecidableEq K] in
theorem refundPhaseSwapBtc_honors (key : K) : Honors L B (refundPhaseSwapBtc B key) := by
  intro s past hs
  refine sat_compareTimes_bind (fun _ => trivial) (fun _ => trivial) fun _ _ _ _ passed _ _ => ?_
  cases passed with
  | false => trivial
  | true =>
    refine Prog.sat_get_bind <| Prog.sat_lift_bind fun refund hrefund =>
      Prog.sat_request_bind trivial fun ans _ hans => Prog.sat_lift_bind fun o ho => ?_
    obtain rfl : ans = .ok () := hans
    obtain ⟨value, -, hout⟩ := signedRefundTransaction_output hrefund
    rw [Outcome.unwrap_eq_ok, hout] at ho
    cases ho
    refine ⟨fun input hinput => (hs.change input hinput).mono (by simp),
      fun input hinput => (hs.swapped input hinput).mono (by simp), ?_, hs.refundTx⟩
    rintro input hinput
    cases hinput
    exact paidOut_last (by rw [hout]; rfl)

end Phases

/-! ### What the commands keep -/

section Commands

variable {Q : Trace K P (SwapSlate K P) → SwapSlate K P → Op K P → Prop}
  {I : Trace K P (SwapSlate K P) → SwapSlate K P → Prop}

/-- The operations of a command outside of the phases, but for the writing of the files. -/
def Op.OfCommand : Op K P → Prop
  | .connect _ _ | .getSlateChecksum | .send (.text _) | .recv | .bind | .accept => True
  | _ => False

/-- An invariant that the phases maintain and that more of the past does not break, where the commands
may perform their own operations. -/
structure PhasesKeep (L : GrinLib K P) (B : BtcLib K P) (rand : Rand K)
    (Q : Trace K P (SwapSlate K P) → SwapSlate K P → Op K P → Prop)
    (I : Trace K P (SwapSlate K P) → SwapSlate K P → Prop) : Prop where
  mono : ∀ past past' s, past <+: past' → I past s → I past' s
  ops : ∀ past s op, Op.OfCommand op → Q past s op
  creates : ∀ past s isPublic, I past s → Q past s (.createSlateFile isPublic)
  writes : ∀ past s isPublic, I past s → Q past s (.writeSlateFile isPublic)
  locking : ∀ role, (lockingPhase L B rand role).Maintains Q I
  execution : ∀ role, (execPhase L B rand role).Maintains Q I
  refund : ∀ role, (refundPhase B rand role).Maintains Q I

/-- The imports of a command keep the invariant. -/
def Command.ImportsKeep (I : Trace K P (SwapSlate K P) → SwapSlate K P → Prop) : Command → Prop
  | .importBtc _ txid vout value _ pubScript => ∀ past s secret pubKey, I past s →
      I past { s with prvSlate.btc.inputs :=
        s.prvSlate.btc.inputs ++ [⟨txid, vout, value, secret, pubKey, pubScript⟩] }
  | .importGrin _ coin => ∀ past s, I past s →
      I past { s with prvSlate.mw.inputs := s.prvSlate.mw.inputs ++ [coin] }
  | _ => True

theorem PhasesKeep.request (h : PhasesKeep L B rand Q I) {α : Type} {op : Op K P}
    {read : op.Ans → Outcome α} (hop : Op.OfCommand op) :
    (Proc.request op read : Process K P (SwapSlate K P) α).Maintains Q I :=
  .request (fun past s _ => h.ops past s op hop) fun past s _ hs =>
    h.mono _ _ s (List.prefix_append past _) hs

theorem PhasesKeep.writeSlateToDisk (h : PhasesKeep L B rand Q I) {wrtPriv wrtPub : Bool} :
    (writeSlateToDisk wrtPriv wrtPub : Process K P (SwapSlate K P) Unit).Maintains Q I := by
  have hcreate : ∀ isPublic message,
      (Proc.request (.createSlateFile isPublic) (Outcome.expect message) :
        Process K P (SwapSlate K P) Unit).Maintains Q I := fun isPublic message =>
    .request (fun past s => h.creates past s isPublic) fun past s _ hs =>
      h.mono _ _ s (List.prefix_append past _) hs
  have hwrite : ∀ isPublic message,
      (Proc.request (.writeSlateFile isPublic) (Outcome.expect message) :
        Process K P (SwapSlate K P) Unit).Maintains Q I := fun isPublic message =>
    .request (fun past s => h.writes past s isPublic) fun past s _ hs =>
      h.mono _ _ s (List.prefix_append past _) hs
  refine .bind (hcreate _ _) fun _ => .bind (hcreate _ _) fun _ => ?_
  cases wrtPriv <;> cases wrtPub
  · exact .pure _
  · exact hwrite _ _
  · exact .bind (hwrite _ _) fun _ => .pure _
  · exact .bind (hwrite _ _) fun _ => hwrite _ _

theorem PhasesKeep.connectToPeer (h : PhasesKeep L B rand Q I) :
    (connectToPeer : Process K P (SwapSlate K P) String).Maintains Q I :=
  .bind .get fun _ => .bind (h.request trivial) fun _ => .bind (h.request trivial) fun _ =>
    .bind (h.request trivial) fun _ => h.request trivial

theorem PhasesKeep.lockExecute (h : PhasesKeep L B rand Q I) : (lockExecute L B rand).Maintains Q I :=
  .bind h.connectToPeer fun _ => .bind .get fun slate =>
    .ite (.lift _) (.ite (.lift _) (h.locking slate.taker))

theorem PhasesKeep.runExecute (h : PhasesKeep L B rand Q I) {name : String}
    {phase : Role → Process K P (SwapSlate K P) Unit} (hphase : ∀ role, (phase role).Maintains Q I) :
    (runExecute name phase).Maintains Q I :=
  .bind h.connectToPeer fun _ => .bind .get fun slate =>
    .ite (.lift _) (.ite (.lift _) (.bind (h.request trivial) fun _ => hphase slate.taker))

theorem PhasesKeep.serveClient (h : PhasesKeep L B rand Q I) (slate : SwapSlate K P) :
    (serveClient L B rand slate).Maintains Q I := by
  refine .ite (.bind (h.locking _) fun _ => .pure _) (.ite ?_ (.pure _))
  refine .bind (h.request trivial) fun _ => .ite ?_ ?_
  · exact .bind (h.execution _) fun _ => .pure _
  · exact .bind (h.refund _) fun _ => .pure _

theorem PhasesKeep.serveClients (h : PhasesKeep L B rand Q I) (clients : ℕ) :
    (serveClients L B rand clients).Maintains Q I := by
  induction clients with
  | zero => exact h.request trivial
  | succ clients ih =>
    refine .bind (h.request trivial) fun _ => .bind (h.request trivial) fun _ =>
      .bind (h.request trivial) fun _ => .ite ?_ (.bind (h.request trivial) fun _ => ih)
    refine .bind (h.request trivial) fun _ => .bind .get fun slate =>
      .bind (h.serveClient slate) fun served => ?_
    cases served with
    | none => exact ih
    | some phase => exact .pure _

theorem PhasesKeep.listenExecute (h : PhasesKeep L B rand Q I) (clients : ℕ) :
    (listenExecute L B rand clients).Maintains Q I :=
  .bind .get fun _ => .bind (.lift _) fun _ => .ite (.lift _)
    (.bind (h.request trivial) fun _ => h.serveClients clients)

theorem PhasesKeep.run (h : PhasesKeep L B rand Q I) {command : Command} (himport : command.ImportsKeep I) :
    (command.run L B rand).Maintains Q I := by
  cases command with
  | init swapid args => exact .pure _
  | accept swapid => exact .bind h.writeSlateToDisk fun _ => .pure _
  | importBtc swapid txid vout value sk pubScript =>
    exact .bind (.bind (.lift _) fun key s past hs => himport past s _ _ hs) fun _ => .pure _
  | importGrin swapid coin => exact .bind (fun s past hs => himport past s hs) fun _ => .pure _
  | listen swapid clients => exact .bind (h.listenExecute clients) fun _ => .pure _
  | lock swapid => exact .bind h.lockExecute fun _ => .pure _
  | execute swapid => exact .bind (h.runExecute h.execution) fun _ => .pure _
  | cancel swapid => exact .bind (h.runExecute h.refund) fun _ => .pure _

theorem PhasesKeep.main (h : PhasesKeep L B rand Q I) {command : Command} (himport : command.ImportsKeep I) :
    (main L B rand command).Maintains Q I :=
  .bind (h.run himport) fun _ => .bind h.writeSlateToDisk fun _ => .pure _

end Commands

theorem keeps_backed :
    PhasesKeep L B rand (fun _ _ op => op.Valid L) fun past s => Backed L B past s.prvSlate where
  mono _ _ _ hpast h := h.mono hpast
  ops past s op hop := by
    match op, hop with
    | .connect _ _, _ | .getSlateChecksum, _ | .send (.text _), _ | .recv, _ | .bind, _ | .accept, _ => trivial
  creates _ _ _ _ := trivial
  writes _ _ _ _ := trivial
  locking role := by
    cases role with
    | mw => exact lockingPhaseSwapMw_honors _
    | btc => exact lockingPhaseSwapBtc_honors _
  execution role := by
    cases role with
    | mw => exact execPhaseSwapMw_honors _
    | btc => exact execPhaseSwapBtc_honors _
  refund role := by
    cases role with
    | mw => exact refundPhaseSwapMw_honors
    | btc => exact refundPhaseSwapBtc_honors _

theorem main_honors (command : Command) : Honors L B (main L B rand command) := by
  refine keeps_backed.main ?_
  cases command with
  | importBtc swapid txid vout value sk pubScript =>
    intro past s secret pubKey hs
    exact hs.congr rfl rfl rfl rfl (List.prefix_refl past)
  | importGrin swapid coin =>
    intro past s hs
    exact hs.congr rfl rfl rfl rfl (List.prefix_refl past)
  | _ => trivial

/-! ### Histories -/

/-- The operations of all commands that a party has run so far, and the directory that they left.  A
command may stop at any point but in the middle of writing the files. -/
inductive History (L : GrinLib K P) (B : BtcLib K P) (F : FileLib K P) (settings : Settings)
    (dir : Directory) : Trace K P (SwapSlate K P) → Directory → Prop
  | start : History L B F settings dir [] dir
  | command {log t : Trace K P (SwapSlate K P)} {dir₁ : Directory} {command : Command} {rand : Rand K}
      {slate : SwapSlate K P} {q : Program K P (SwapSlate K P) (Option Phase)}
      (hlog : History L B F settings dir log dir₁)
      (hload : command.loadSlate F settings (dir₁ command.swapid) = .ok slate)
      (hsteps : Steps (main L B rand command slate) t q)
      (htrue : Truthful F (dir₁ command.swapid) t) (hq : ¬ Writing q) :
    History L B F settings dir (log ++ t)
      (Function.update dir₁ command.swapid ((dir₁ command.swapid).after F t))

omit [CommRing K] [AddCommGroup P] [Module K P] [DecidableEq K] [DecidableEq P] in
/-- The private part that a command starts from is the stored one, or a blank one. -/
theorem storedPrv_or_blank {command : Command} {files : SlateFiles} {slate : SwapSlate K P}
    (h : command.loadSlate F settings files = .ok slate) :
    storedPrv F files = some slate.prvSlate ∨ slate.prvSlate = .blank := by
  cases command with
  | init swapid args =>
    right
    simp only [Command.loadSlate, Init.execute] at h
    split at h
    · cases h
      rfl
    · cases h
  | accept swapid =>
    simp only [Command.loadSlate, Outcome.expect_eq_ok, createPrivFromPub_eq_ok] at h
    exact .inr h.2
  | _ =>
    simp only [Command.loadSlate, Outcome.expect_eq_ok, readSlateFromDisk_eq_ok] at h
    exact .inl h.2

/-- Whatever the peers and the nodes answer, all that a party hands out is valid, and all that its files
record of a swap has happened. -/
theorem history_backed (hF : F.Lawful) {log : Trace K P (SwapSlate K P)}
    (h : History L B F settings dir log dir₁)
    (hstart : ∀ swapid prv, storedPrv F (dir swapid) = some prv → prv = .blank) :
    (∀ e ∈ log, e.op.Valid L) ∧
      ∀ swapid prv, storedPrv F (dir₁ swapid) = some prv → Backed L B log prv := by
  induction h with
  | start =>
    refine ⟨fun e he => (List.not_mem_nil he).elim, fun swapid prv hprv => ?_⟩
    rw [hstart swapid prv hprv]
    exact backed_blank []
  | @command log t dir₁ command rand slate q hlog hload hsteps htrue hq ih =>
    obtain ⟨hvalid, hbacked⟩ := ih
    have hslate : Backed L B log slate.prvSlate := by
      obtain hstored | hblank := storedPrv_or_blank hload
      · exact hbacked _ _ hstored
      · rw [hblank]
        exact backed_blank log
    have hmain : Prog.Sat _ _ log (main L B rand command slate) := main_honors command slate log hslate
    refine ⟨fun e he => (List.mem_append.mp he).elim (hvalid e) (hsteps.forall_op hmain e), ?_⟩
    intro swapid prv hprv
    by_cases hid : swapid = command.swapid
    · subst hid
      rw [Function.update_self] at hprv
      obtain ⟨hfiles, -⟩ | ⟨slate', phase, rfl, -, hfiles⟩ := main_files hsteps htrue hq
      · rw [hfiles] at hprv
        exact (hbacked _ _ hprv).mono (List.prefix_append log t)
      · rw [hfiles, storedPrv_files hF, Option.some.injEq] at hprv
        subst hprv
        exact hsteps.sat hmain
    · rw [Function.update_of_ne hid] at hprv
      exact (hbacked _ _ hprv).mono (List.prefix_append log t)

/-- The import of the sample output. -/
theorem history_taker : ∃ log, History exponents (btcExponents []) fileExponents sampleSettings
    (sampleDirectory sampleSlate) log (sampleDirectory sampleTaker) := by
  have hload : sampleImport.loadSlate fileExponents sampleSettings (sampleDirectory sampleSlate 1) =
      .ok sampleSlate := by
    simp only [sampleImport, Command.loadSlate, sampleDirectory_read, Outcome.expect_ok]
  have hrun : Steps (main exponents (btcExponents []) sampleRand sampleImport sampleSlate)
      sampleTaker.writes (.ret sampleTaker none) := by
    simp only [sampleImport, main, Command.run, importBtcExecute]
    exact steps_writes sampleTaker
  have hlog := History.command .start hload hrun truthful_writes not_writing_ret
  rw [show sampleImport.swapid = 1 from rfl, sampleDirectory_self] at hlog
  exact ⟨_, sampleDirectory_update sampleSlate sampleTaker ▸ hlog⟩

theorem history_backed_sample : ∃ log dir₁ prv input,
    History exponents (btcExponents []) fileExponents sampleSettings (sampleDirectory sampleSlate) log
      dir₁ ∧
    storedPrv fileExponents (dir₁ 1) = some prv ∧ prv.btc.change = some input ∧
    PaidOut (btcExponents []) log 1 input := by
  obtain ⟨-, tT, lock, -, shared, -, -, -, hT, htrueT, -⟩ := sample_handshake
  obtain ⟨log, hlog⟩ := history_taker
  have hload : (Command.lock 1).loadSlate fileExponents sampleSettings
      (sampleDirectory sampleTaker (Command.lock 1).swapid) = .ok sampleTaker := lock_load
  rw [← sampleDirectory_self] at htrueT
  have hlock := History.command hlog hload hT htrueT not_writing_ret
  have hblank : ∀ swapid prv, storedPrv fileExponents (sampleDirectory sampleSlate swapid) = some prv →
      prv = .blank := by
    intro swapid prv hprv
    by_cases hid : swapid = 1
    · subst hid
      rw [sampleDirectory_self, storedPrv_files fileExponents_lawful] at hprv
      cases hprv
      rfl
    · rw [sampleDirectory, Function.update_of_ne hid] at hprv
      cases hprv
  have hstored : storedPrv fileExponents (Function.update (sampleDirectory sampleTaker) 1
      ((sampleDirectory sampleTaker 1).after fileExponents tT) 1) =
      some (sampleTakerSetup lock shared).prvSlate := by
    rw [Function.update_self]
    obtain ⟨-, hnot⟩ | ⟨slate', phase, heq, -, hfiles⟩ := main_files hT htrueT not_writing_ret
    · exact (hnot _ _ rfl).elim
    · cases heq
      rw [hfiles, storedPrv_files fileExponents_lawful]
  obtain ⟨-, hbacked⟩ := history_backed fileExponents_lawful hlock hblank
  exact ⟨_, _, _, _, hlock, hstored, rfl, (hbacked 1 _ hstored).change _ rfl⟩

end MwBtcSwap
