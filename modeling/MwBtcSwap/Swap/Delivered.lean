import MwBtcSwap.Grin.Writable
import MwBtcSwap.Swap.Executed
import MwBtcSwap.Swap.Readable

/-! Every slate that a party sends is one that its peer reads, in all commands and with any peer: what
the party makes of a slate that it read can be written again. -/

namespace MwBtcSwap

open Schnorr Interaction Machine Grin Bitcoin Json

variable {K P : Type} [CommRing K] [AddCommGroup P] [Module K P] [DecidableEq K] [DecidableEq P]

variable {U A S : Type} {L : GrinLib K P} {B : BtcLib K P} {C : SlateCodecs K P U A S} {σ : Type}

/-! ### The protocols -/

section Protocols

variable {σ : Type} {spend : SpendRand K} {drand : DRecvRand K} {recv : RecvRand K} {sigNonce x : K}
  {inp : MWCoin} {inputs : List MWCoin} {fundValue timelock : ℕ} {pubX : P}

/-- A slate that is sent is one that can be. -/
def Op.Writable (C : SlateCodecs K P U A S) : Op K P → Prop
  | .send (.slate _ _ slate) => slate.Writable C
  | _ => True

/-- A process that sends only slates that can be read. -/
def Delivers {α : Type} (C : SlateCodecs K P U A S) (p : Process K P σ α) : Prop :=
  p.Maintains (fun _ _ op => op.Writable C) fun _ _ => True

omit [AddCommGroup P] [Module K P] [DecidableEq K] [DecidableEq P] in
theorem Delivers.request {α : Type} {op : Op K P} {read : op.Ans → Outcome α} (h : op.Writable C) :
    Delivers C (Proc.request op read : Process K P σ α) :=
  Proc.Maintains.request (fun _ _ _ => h) fun _ _ _ _ => trivial

theorem Delivers.receiveSlate_bind {α : Type} (hL : Encodes L C) {f : Slate K P → Process K P σ α}
    (h : ∀ slate : Slate K P, slate.Writable C → Delivers C (f slate)) :
    Delivers C (receiveSlate L >>= f) := by
  intro s past hs
  exact sat_receiveSlate_bind trivial fun msg slate hslate =>
    h slate (deserializeUpgrade_writable hL hslate) s _ hs

theorem dsharedOutMwTxAlice_delivers (hL : Encodes L C) (htime : timelock < 2 ^ 64) :
    Delivers C (dsharedOutMwTxAlice L spend drand inputs fundValue timelock : Process K P σ _) := by
  refine .lift_bind fun spend hspend => .lift_bind fun recv hrecv => ?_
  have hspend := spendCoins_writable hL htime (by norm_num) (Outcome.expect_eq_ok.mp hspend)
  have hptx := drecvCoinsR1_writable hL hspend (Outcome.expect_eq_ok.mp hrecv)
  refine .bind (Delivers.request hptx) fun _ => .bind (Delivers.request trivial) fun _ =>
    .bind (Delivers.request trivial) fun _ => .bind (Delivers.request trivial) fun _ =>
    .lift_bind fun ptx2 hptx2 => .lift_bind fun ctx hctx => .lift_bind fun recv3 hrecv3 =>
    .lift_bind fun fin hfin => ?_
  have hrecv3 := drecvCoinsR3_writable hL (deserializeUpgrade_writable hL (Outcome.expect_eq_ok.mp hptx2)) hctx
    (Outcome.expect_eq_ok.mp hrecv3)
  have hfin := finTx_writable hL hrecv3 (by simp) (Outcome.expect_eq_ok.mp hfin)
  exact .bind (Delivers.request hfin) fun _ => .pure _

theorem dsharedOutMwTxBob_delivers (hL : Encodes L C) :
    Delivers C (dsharedOutMwTxBob L drand fundValue : Process K P σ _) := by
  refine .bind (Delivers.request trivial) fun _ => .bind (Delivers.request trivial) fun _ =>
    .lift_bind fun ptx hptx => .lift_bind fun ctx _ => .lift_bind fun recv2 hrecv2 => ?_
  have hptx2 := drecvCoinsR2_writable hL (deserializeUpgrade_writable hL (Outcome.expect_eq_ok.mp hptx)) hrecv2
  exact .bind (Delivers.request hptx2) fun _ => .bind (Delivers.request trivial) fun _ =>
    Delivers.receiveSlate_bind hL fun _ _ => .pure _

theorem dsharedInpMwTxAlice_delivers (hL : Encodes L C) (htime : timelock < 2 ^ 64) :
    Delivers C (dsharedInpMwTxAlice L spend inp fundValue timelock : Process K P σ _) := by
  refine .lift_bind fun spend hspend => ?_
  refine .bind (Delivers.request (spendCoins_writable hL htime (by norm_num) hspend)) fun _ =>
    Delivers.receiveSlate_bind hL fun ptx2 hptx2 => .lift_bind fun ptx3 hptx3 => .lift_bind fun fin hfin => ?_
  have hptx3 := updateKernel_writable hptx2 (Outcome.expect_eq_ok.mp hptx3)
  exact .bind (Delivers.request (finTx_writable hL hptx3 (by simp) hfin)) fun _ => .pure _

theorem dsharedInpMwTxBob_delivers (hL : Encodes L C) :
    Delivers C (dsharedInpMwTxBob L sigNonce recv inp fundValue timelock : Process K P σ _) := by
  refine Delivers.receiveSlate_bind hL fun ptx hptx => .lift_bind fun dspend hdspend =>
    .lift_bind fun recv hrecv => .lift_bind fun fin hfin => ?_
  have hrecv := recvCoins_writable hL (dSpendCoins_writable hL hptx hdspend) hrecv
  have hfin := finTx_writable hL hrecv (by simp) (Outcome.expect_eq_ok.mp hfin)
  exact .bind (Delivers.request hfin) fun _ => Delivers.receiveSlate_bind hL fun _ _ =>
    .bind (.lift _) fun _ => .bind (.lift _) fun _ => .pure _

theorem dcontractMwTxAlice_delivers (hL : Encodes L C) (htime : timelock < 2 ^ 64) :
    Delivers C (dcontractMwTxAlice L spend inp fundValue timelock pubX : Process K P σ _) := by
  refine .lift_bind fun spend hspend => ?_
  refine .bind (Delivers.request (spendCoins_writable hL htime (by norm_num) hspend)) fun _ =>
    Delivers.receiveSlate_bind hL fun ptx2 hptx2 => .bind (.lift _) fun _ => .lift_bind fun ptx3 hptx3 => ?_
  exact .bind (Delivers.request (finTx_writable hL hptx2 (by simp) hptx3)) fun _ =>
    Delivers.receiveSlate_bind hL fun _ _ => .bind (.lift _) fun _ => .bind (.lift _) fun _ => .pure _

theorem dcontractMwTxBob_delivers (hL : Encodes L C) :
    Delivers C (dcontractMwTxBob L sigNonce recv inp fundValue timelock x : Process K P σ _) := by
  refine Delivers.receiveSlate_bind hL fun ptx hptx => .lift_bind fun dspend hdspend =>
    .lift_bind fun recv hrecv => ?_
  obtain ⟨hptx2, hsig⟩ := aptRecvCoins_writable hL (dSpendCoins_writable hL hptx hdspend) hrecv
  refine .bind (Delivers.request hptx2) fun _ => Delivers.receiveSlate_bind hL fun ptx3 hptx3 =>
    .lift_bind fun fin hfin => ?_
  have hfin := finTx_writable hL hptx3 (by rintro _ ⟨⟩; exact hsig) hfin
  exact .bind (Delivers.request hfin) fun _ => .pure _

end Protocols

/-! ### The phases -/

section

omit [AddCommGroup P] [Module K P] [DecidableEq K] [DecidableEq P]

theorem modify_delivers {f : SwapSlate K P → SwapSlate K P} :
    Delivers C (Proc.modify f : Process K P (SwapSlate K P) Unit) := fun _ _ _ => trivial

theorem verifyFunds_delivers {address : String} {amount attempts : ℕ} :
    Delivers C (verifyFunds address amount attempts : Process K P σ Bool) := by
  induction attempts with
  | zero => exact .pure _
  | succ attempts ih =>
    exact .bind (Delivers.request trivial) fun _ => .ite (.pure _)
      (.bind (Delivers.request trivial) fun _ => ih)

theorem receivePubKey_delivers : Delivers C (receivePubKey B : Process K P σ _) :=
  .bind (Delivers.request trivial) fun _ => .lift _

theorem receiveI64_bind_delivers {α : Type} {f : ℤ → Process K P σ α}
    (h : ∀ n, n < 2 ^ 63 → Delivers C (f n)) : Delivers C (receiveI64 >>= f) := fun s _ hs =>
  sat_receiveI64_bind trivial fun _ n hn => h n (parseI64_range hn).2 s _ hs

theorem compareTimes_delivers {compare : ℕ → ℕ → ℤ → ℤ → Outcome Bool} :
    Delivers C (compareTimes compare : Process K P (SwapSlate K P) Bool) :=
  .bind .get fun _ => .bind (.lift _) fun _ => .bind (.lift _) fun _ =>
    .bind (Delivers.request trivial) fun _ => .bind (Delivers.request trivial) fun _ => .lift _

end

theorem lockingGrinMw_delivers (hL : Encodes L C) (rand : LockMwRand K) :
    Delivers C (lockingGrinMw L rand) :=
  .bind (Delivers.request trivial) fun _ => .bind .get fun _ => .bind (.lift _) fun _ =>
    .bind (.lift _) fun _ => .bind modify_delivers fun _ => .bind (Delivers.request trivial) fun _ =>
    .bind (dsharedOutMwTxAlice_delivers hL (Nat.two_pow_pos 64)) fun _ => .bind modify_delivers fun _ =>
    .bind (.lift _) fun _ => .bind (.lift _) fun _ => .bind (dsharedInpMwTxBob_delivers hL) fun _ =>
    .bind modify_delivers fun _ => .bind (.lift _) fun _ => Delivers.request trivial

theorem lockingPhaseSwapMw_delivers (hL : Encodes L C) (rand : LockMwRand K) :
    Delivers C (lockingPhaseSwapMw L B rand) :=
  .bind modify_delivers fun _ => .bind (Delivers.request trivial) fun _ => .bind receivePubKey_delivers fun _ =>
    .bind modify_delivers fun _ => .bind receivePubKey_delivers fun _ => .bind modify_delivers fun _ =>
    receiveI64_bind_delivers fun _ _ => .bind modify_delivers fun _ => .bind (.lift _) fun _ =>
    .bind (.lift _) fun _ => .bind (Delivers.request trivial) fun _ =>
    .bind (Delivers.request trivial) fun _ => .bind (Delivers.request trivial) fun _ =>
    .ite (.bind modify_delivers fun _ => .lift _) <|
    .bind .get fun _ => .bind verifyFunds_delivers fun _ =>
    .ite (.bind modify_delivers fun _ => lockingGrinMw_delivers hL rand)
      (.bind modify_delivers fun _ => .lift _)

/-- The lock height that the peer names is a `u64` when the shared coin is spent. -/
theorem lockingGrinBtc_delivers (hL : Encodes L C) (rand : LockBtcRand K) :
    Delivers C (lockingGrinBtc L rand) := by
  refine receiveI64_bind_delivers fun lockHeight hlt => .bind modify_delivers fun _ => .bind .get fun _ =>
    .bind (dsharedOutMwTxBob_delivers hL) fun _ => .bind modify_delivers fun _ => .bind (.lift _) fun _ =>
    .lift_bind fun timelock htime => ?_
  have hheight : lockHeight = timelock := u64OfI64_eq_some.mp (Outcome.unwrap_eq_ok.mp htime)
  exact .bind (dsharedInpMwTxAlice_delivers hL (by omega)) fun _ => .pure _

theorem lockingPhaseSwapBtc_delivers (hL : Encodes L C) (rand : LockBtcRand K) :
    Delivers C (lockingPhaseSwapBtc L B rand) :=
  .bind modify_delivers fun _ => .bind receivePubKey_delivers fun _ => .bind modify_delivers fun _ =>
    .bind (Delivers.request trivial) fun _ => .bind (Delivers.request trivial) fun _ =>
    .bind (Delivers.request trivial) fun _ => .bind .get fun _ => .bind (.lift _) fun _ =>
    .bind (.lift _) fun _ => .bind (Delivers.request trivial) fun _ => .bind modify_delivers fun _ =>
    .bind (.lift _) fun _ => .bind (Delivers.request trivial) fun _ => .bind modify_delivers fun _ =>
    .bind (Delivers.request trivial) fun _ => .bind (Delivers.request trivial) fun _ =>
    .bind modify_delivers fun _ => lockingGrinBtc_delivers hL rand

theorem execPhaseSwapMw_delivers (hL : Encodes L C) (rand : ExecMwRand K) :
    Delivers C (execPhaseSwapMw L B rand) :=
  .bind compareTimes_delivers fun _ => .ite
    (.bind modify_delivers fun _ => .bind .get fun _ => .bind (.lift _) fun _ => .bind (.lift _) fun _ =>
      .bind (.lift _) fun _ => .bind (.lift _) fun _ => .bind (.lift _) fun _ =>
      .bind (dcontractMwTxAlice_delivers hL (Nat.two_pow_pos 64)) fun _ => .bind (.lift _) fun _ =>
      .bind (.lift _) fun _ => .bind (Delivers.request trivial) fun _ => modify_delivers)
    (.lift _)

theorem execPhaseSwapBtc_delivers (hL : Encodes L C) (rand : ExecBtcRand K) :
    Delivers C (execPhaseSwapBtc L B rand) :=
  .bind compareTimes_delivers fun _ => .ite
    (.bind modify_delivers fun _ => .bind .get fun _ => .bind (.lift _) fun _ => .bind (.lift _) fun _ =>
      .bind (.lift _) fun _ => .bind (.lift _) fun _ => .bind (.lift _) fun _ =>
      .bind (dcontractMwTxBob_delivers hL) fun _ => .bind modify_delivers fun _ => .bind (.lift _) fun _ =>
      .bind (Delivers.request trivial) fun _ => modify_delivers)
    (.lift _)

omit [AddCommGroup P] [Module K P] [DecidableEq K] [DecidableEq P] in
theorem refundPhaseSwapMw_delivers :
    Delivers C (refundPhaseSwapMw : Process K P (SwapSlate K P) Unit) :=
  .bind compareTimes_delivers fun _ => .ite
    (.bind .get fun _ => .bind (.lift _) fun _ => .bind (Delivers.request trivial) fun _ => modify_delivers)
    (.lift _)

omit [DecidableEq K] [DecidableEq P] in
theorem refundPhaseSwapBtc_delivers (key : K) : Delivers C (refundPhaseSwapBtc B key) :=
  .bind compareTimes_delivers fun _ => .ite
    (.bind .get fun _ => .bind (.lift _) fun _ => .bind (Delivers.request trivial) fun _ =>
      .bind (.lift _) fun _ => modify_delivers)
    (.lift _)

/-! ### The commands -/

theorem phasesKeep_delivers (hL : Encodes L C) {rand : Rand K} :
    PhasesKeep L B rand (fun _ _ op => op.Writable C) fun _ _ => True where
  mono _ _ _ _ _ := trivial
  ops _ _ op hop := by
    match op, hop with
    | .connect _ _, _ | .getSlateChecksum, _ | .send (.text _), _ | .recv, _ | .bind, _ | .accept, _ => trivial
  creates _ _ _ _ := trivial
  writes _ _ _ _ := trivial
  locking role := by
    cases role with
    | mw => exact lockingPhaseSwapMw_delivers hL _
    | btc => exact lockingPhaseSwapBtc_delivers hL _
  execution role := by
    cases role with
    | mw => exact execPhaseSwapMw_delivers hL _
    | btc => exact execPhaseSwapBtc_delivers hL _
  refund role := by
    cases role with
    | mw => exact refundPhaseSwapMw_delivers
    | btc => exact refundPhaseSwapBtc_delivers _

/-- Whatever the peer and the nodes answer to a command, and wherever it stops: of every slate that it
sent, `read_from_stream` takes its message and `deserialize_upgrade` restores it. -/
theorem sent_slates_read (hL : Encodes L C) {rand : Rand K} {command : Command} {slate : SwapSlate K P}
    {t : Trace K P (SwapSlate K P)} {q : Program K P (SwapSlate K P) (Option Phase)}
    (h : Steps (main L B rand command slate) t q) {e : Event (SwapSlate K P) (@Op.Ans K P)} (he : e ∈ t)
    {protocol : Protocol} {stage : Stage} {S : Slate K P} (hop : e.op = .send (.slate protocol stage S)) :
    (∃ S', Slate.deserializeUpgrade L (S.toJson L) = .ok S' ∧ S.Restored S') ∧
      ∀ checks rest, readFromStream checks (writeToStream (S.toJson L) ++ rest) = .ok (S.toJson L) := by
  have himport : command.ImportsKeep fun (_ : Trace K P (SwapSlate K P)) (_ : SwapSlate K P) => True := by
    cases command <;> simp [Command.ImportsKeep]
  have hwritable := h.forall_op ((phasesKeep_delivers hL).main himport slate [] trivial) e he
  rw [hop] at hwritable
  exact Slate.Writable.delivered hL hwritable

/-! ### A sample -/

/-- The libraries by exponents, with slates in JSON. -/
def wireExponents : GrinLib Scalar Scalar := { exponents with
  slateToJson v := slateExponents.slate.toCompactText sampleLib (headerExponents, v)
  slateFromJson text := (slateExponents.slate.ofText sampleLib text).map Prod.snd }

theorem wireExponents_encodes : Encodes wireExponents slateExponents where
  slateFromJson text v h := by
    obtain ⟨⟨header, _⟩, hread, rfl⟩ := Option.map_eq_some_iff.mp h
    exact (SlateCodecs.inRange_slate.mp (Codec.inRange_of_ofText hread)).2
  slateToJson v h := by
    have hread := Codec.ofText_toCompactText sampleLib_lawful slateExponents_depth
      (SlateCodecs.inRange_slate.mpr ⟨headerExponents_inRange, h⟩)
    dsimp only [wireExponents]
    rw [hread]
    rfl
  line v := sampleLib_lawful.line _
  blindingFactor _ := trivial
  feeFields _ _ _ := trivial
  publicKey _ _ _ := trivial
  signature _ _ _ _ := trivial
  commit _ _ _ _ := trivial
  commitFromVec _ := trivial
  bulletProof _ _ _ _ := trivial
  bulletProofFinal _ _ _ _ _ _ _ _ _ _ := trivial
  sortInputs _ _ h := h
  insertOutput o outputs o' h := by
    simp only [wireExponents, exponents] at h
    split at h
    · exact .inr h
    · exact List.mem_cons.mp h

/-- A swap that is locked, for a taker that holds a share of the Grin. -/
def sampleGrinTaker : SwapSlate Scalar Scalar :=
  let slate := timedSlate 100040
  { slate with
    pubSlate.btc.swapType := .offered
    prvSlate.mw.sharedCoin := some (sampleShared 21) }

theorem sent_slates_read_sample : ∃ t q S,
    Steps (main wireExponents (btcExponents []) sampleRand (.execute 1) sampleGrinTaker) t q ∧
    (∃ e ∈ t, e.op = .send (.slate .contract .ptx S)) ∧
    ∃ S', Slate.deserializeUpgrade wireExponents (S.toJson wireExponents) = .ok S' ∧ S.Restored S' := by
  obtain ⟨r, hr⟩ : ∃ r, spendCoins wireExponents sampleRand.execMw.spend [sampleShared 21] 1000000000
      0 1 3 = .ok r := Outcome.exists_ok (by decide +kernel)
  have hcontract : ∃ q, Steps (dcontractMwTxAlice wireExponents sampleRand.execMw.spend (sampleShared 21)
      1000000000 0 5 sampleGrinTaker.executing)
      [⟨sampleGrinTaker.executing, .send (.slate .contract .ptx r.slate), .ok ()⟩] q := by
    rw [dcontractMwTxAlice, hr]
    exact ⟨_, .step (.refl _)⟩
  obtain ⟨p, hcontract⟩ := hcontract
  have hpk := deserializePubKey_serialize (btcExponents_lawful [])
    (show ((btcExponents []).publicKey (createPrivateKey 5)).key ≠ 0 by decide)
  have hpubX := (exponents_sameCurve []).publicKey (show (5 : Scalar) • exponents.G ≠ 0 by decide)
  have hfund : subU64 wireExponents.overflowChecks (sampleShared 21).value (estimateFees wireExponents 1 1 1) =
      .ok 1000000000 := by decide
  have henough : enoughTime wireExponents.overflowChecks 1000 100000 5000 100040 = .ok true := by decide
  obtain ⟨u, q, hexec, hu⟩ := execPhaseSwapMw_steps (s := sampleGrinTaker) (L := wireExponents)
    rfl rfl henough rfl rfl hpk hpubX hfund hcontract
  subst hu
  have hphase : Steps (execPhase wireExponents (btcExponents []) sampleRand sampleGrinTaker.taker
      sampleGrinTaker) _ q := hexec
  have hrun : Steps (executeExecute wireExponents (btcExponents []) sampleRand sampleGrinTaker) _ q :=
    runExecute_steps "" rfl hphase
  have hmain : Steps (main wireExponents (btcExponents []) sampleRand (.execute 1) sampleGrinTaker) _ _ :=
    hrun.bind_left.bind_left
  let sent : Event (SwapSlate Scalar Scalar) (@Op.Ans Scalar Scalar) :=
    ⟨sampleGrinTaker.executing, .send (.slate .contract .ptx r.slate), .ok ()⟩
  have hmem (t u : Trace Scalar Scalar (SwapSlate Scalar Scalar)) {e : Event _ _} :
      sent ∈ t ++ e :: (u ++ [sent]) := by simp
  exact ⟨_, _, r.slate, hmain, ⟨sent, hmem _ _, rfl⟩,
    (sent_slates_read wireExponents_encodes hmain (hmem _ _) rfl).1⟩

end MwBtcSwap
