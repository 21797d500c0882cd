import MwBtcSwap.Swap.Executed
import MwBtcSwap.Swap.Together

/-! How a locked swap of two honest parties ends: with `execute` both coins change hands, with `cancel` past
both lock heights both go back, in every order of the steps of the two. -/

namespace MwBtcSwap

open Interaction Machine Grin Bitcoin Script Relation Confluence

variable {K P : Type} [CommRing K] [AddCommGroup P] [Module K P] [DecidableEq K] [DecidableEq P]

variable {L : GrinLib K P} {B : BtcLib K P} {F : FileLib K P} {swapid clients : ℕ}
  {mw btc : SwapSlate K P} {ra rb : Rand K} {nodes nodes' : Nodes K P (SwapSlate K P)} {d : SwapTerms K}
  {recv : RecvRand K}

/-! ### Looks at the clock -/

/-- Every look at the heights of the two chains finds what the comparison asks for. -/
def Looks (nodes : Nodes K P (SwapSlate K P)) (compare : ℕ → ℕ → ℤ → ℤ → Outcome Bool)
    (lockGrin lockBtc : ℕ) : Prop :=
  ∀ past past', ∃ heightGrin heightBtc, nodes past .getBlockHeight = .ok heightGrin ∧
    nodes past' .getCurrentBlockHeight = .ok heightBtc ∧
    compare heightGrin heightBtc lockGrin lockBtc = .ok true

section Looks

variable {α β : Type} {compare : ℕ → ℕ → ℤ → ℤ → Outcome Bool} {lockGrin lockBtc : ℕ}
  {f : Bool → Process K P (SwapSlate K P) α} {past : Trace K P (SwapSlate K P)} {s : SwapSlate K P}
  {q : Actor K P (SwapSlate K P) β} {Q : Actors K P (SwapSlate K P) (SwapSlate K P) α β → Prop}
  {Q' : Actors K P (SwapSlate K P) (SwapSlate K P) β α → Prop}

omit [CommRing K] [AddCommGroup P] [Module K P] [DecidableEq K] [DecidableEq P] in
theorem jointReaches_left_look (hlook : Looks nodes compare lockGrin lockBtc)
    (hgrin : s.pubSlate.mw.lockTime = some (lockGrin : ℤ))
    (hbtc : s.pubSlate.btc.lockTime = some (lockBtc : ℤ))
    (h : ∀ past, JointReaches L nodes nodes' Q (⟨past, f true s⟩, q)) :
    JointReaches L nodes nodes' Q (⟨past, (compareTimes compare >>= f) s⟩, q) := by
  obtain ⟨heightGrin, heightBtc, hheight, hheight', hcompare⟩ := hlook past
    (past ++ [⟨s, .getBlockHeight, nodes past .getBlockHeight⟩])
  simp only [compareTimes, unwrapField, getBlockHeight, Proc.bind_assoc]
  refine jointReaches_left_get ?_
  refine jointReaches_left_lift (Outcome.unwrap_eq_ok.mpr hgrin) ?_
  refine jointReaches_left_lift (Outcome.unwrap_eq_ok.mpr hbtc) ?_
  refine jointReaches_left (c := heightGrin) (fun h => h) (by rw [hheight]; rfl) ?_
  refine jointReaches_left (c := heightBtc) (fun h => h) (by rw [hheight']; rfl) ?_
  exact jointReaches_left_lift hcompare (h _)

omit [CommRing K] [AddCommGroup P] [Module K P] [DecidableEq K] [DecidableEq P] in
theorem jointReaches_right_look (hlook : Looks nodes compare lockGrin lockBtc)
    (hgrin : s.pubSlate.mw.lockTime = some (lockGrin : ℤ))
    (hbtc : s.pubSlate.btc.lockTime = some (lockBtc : ℤ))
    (h : ∀ past, JointReaches L nodes' nodes Q' (q, ⟨past, f true s⟩)) :
    JointReaches L nodes' nodes Q' (q, ⟨past, (compareTimes compare >>= f) s⟩) :=
  JointReaches.swap (jointReaches_left_look hlook hgrin hbtc fun past => JointReaches.swap (h past))

end Looks

/-! ### The spends of the lock -/

section Spends

omit [DecidableEq K] in
/-- The redeem transaction of the Grin owner. -/
theorem SwapLocked.redeems (hB : B.Lawful) (hC : SameCurve L B) (h : SwapLocked L B d recv mw btc) (key : K) :
    ∃ tx script, signedRedeemTransaction L B mw (B.publicKey (createPrivateKey key)) d.x = .ok (tx, script) ∧
      PaysBtc B ⟨d.txid, 0⟩ (d.lockOut B mw.pubSlate.btc.amount) (fun _ => True) key tx
        (some (BTCInput.new2 B (B.txid tx).toText 0 (mw.pubSlate.btc.amount - btcFee) (createPrivateKey key)
          (B.publicKey (createPrivateKey key))
          (getP2pkhPubScript B (B.publicKey (createPrivateKey key))))) := by
  have hheight := h.heightBtc.2
  have hshort : (scriptInt (d.heightBtc : ℤ)).length < 9 := by
    refine length_scriptInt_of_lt ?_
    rw [lockTimeThreshold] at hheight
    omega
  refine ⟨_, _, signedRedeemTransaction_eq hB hC h.keyA h.keyX h.keyB h.amount h.lockMw h.txid _, rfl, rfl,
    fun chain _ hout hunspent => ?_⟩
  refine accepts_of_spend rfl (.inl rfl) ?_ hout hunspent
  exact satisfies_of_spend hB (.inr (redeemSpend_sign hB hshort (createPrivateKey_ne_zero h.keyA)
    (createPrivateKey_ne_zero h.keyX) rfl))

omit [DecidableEq K] in
/-- The refund transaction of the Bitcoin owner. -/
theorem SwapLocked.refunds (hB : B.Lawful) (h : SwapLocked L B d recv mw btc) (key : K) :
    ∃ tx script, signedRefundTransaction B btc (B.publicKey (createPrivateKey key)) = .ok (tx, script) ∧
      PaysBtc B ⟨d.txid, 0⟩ (d.lockOut B mw.pubSlate.btc.amount) (fun chain => d.heightBtc < chain.height) key
        tx (some (BTCInput.new2 B (B.txid tx).toText 0 (mw.pubSlate.btc.amount - btcFee)
          (createPrivateKey key) (B.publicKey (createPrivateKey key))
          (getP2pkhPubScript B (B.publicKey (createPrivateKey key))))) := by
  obtain ⟨hpos, hheight⟩ := h.heightBtc
  rw [lockTimeThreshold] at hheight
  have hshort : (scriptInt (d.heightBtc : ℤ)).length < 9 := length_scriptInt_of_lt (by omega)
  have htime : d.heightBtc < 2 ^ 32 := by omega
  have hne : d.heightBtc ≠ 0 := by omega
  refine ⟨_, _, signedRefundTransaction_eq hB h.keyA h.keyX h.keyB htime (h.pub ▸ h.amount) h.lockBtc h.txid
    _, by rw [h.pub]; rfl, rfl, fun chain hpassed hout hunspent => ?_⟩
  refine accepts_of_spend rfl ?_ ?_ hout hunspent
  · refine isFinal_of_passed rfl ?_
    rw [if_pos (by exact_mod_cast hheight)]
    exact_mod_cast hpassed
  · refine satisfies_of_spend hB (.inl (refundSpend_sign hB hshort (createPrivateKey_ne_zero h.keyB) rfl ?_
      rfl htime))
    simp [hne, finalSequence]

end Spends

/-! ### Execution -/

/-- Both coins have changed hands: the Grin owner sent a transaction that pays the lock to it, the Bitcoin
owner one that pays the shared coin to it. -/
structure EndsSwapped (L : GrinLib K P) (B : BtcLib K P) (d : SwapTerms K) (mw : SwapSlate K P)
    (ra rb : Rand K) (t : Trace K P (SwapSlate K P)) (mw' : SwapSlate K P)
    (u : Trace K P (SwapSlate K P)) (btc' : SwapSlate K P) : Prop where
  statusMw : mw'.pubSlate.status = .finished
  statusBtc : btc'.pubSlate.status = .finished
  bitcoin : ∃ s tx, ⟨s, .sendRawTransaction tx, .ok ()⟩ ∈ t ∧
    PaysBtc B ⟨d.txid, 0⟩ (d.lockOut B mw.pubSlate.btc.amount) (fun _ => True) ra.execMw.skA2 tx
      mw'.prvSlate.btc.swapped
  grin : ∃ s tx, ⟨s, .pushTransaction tx, .ok ()⟩ ∈ u ∧
    PaysGrin L (d.sharedCommit L mw.pubSlate.mw.amount) mw.pubSlate.mw.amount (fun _ => True)
      rb.execBtc.recv tx btc'.prvSlate.mw.swappedCoin

omit [DecidableEq K] in
theorem EndsSwapped.append {mw' btc' : SwapSlate K P} {t u t' u' : Trace K P (SwapSlate K P)}
    (h : EndsSwapped L B d mw ra rb t mw' u btc') :
    EndsSwapped L B d mw ra rb (t ++ t') mw' (u ++ u') btc' := by
  obtain ⟨hstatus, hstatus', ⟨s, tx, hs, hpays⟩, s', tx', hs', hpays'⟩ := h
  exact ⟨hstatus, hstatus', ⟨s, tx, List.mem_append_left _ hs, hpays⟩,
    s', tx', List.mem_append_left _ hs', hpays'⟩

/-- The nodes accept what the parties send. -/
structure Accepting (nodes : Nodes K P (SwapSlate K P)) : Prop where
  push : ∀ past tx, nodes past (.pushTransaction tx) = .ok ()
  broadcast : ∀ past tx, nodes past (.sendRawTransaction tx) = .ok ()

/-- The contract over the connection, and the transaction that both parties have then. -/
theorem SwapLocked.contract {σ τ : Type} (hL : L.Lawful) (h : SwapLocked L B d recv mw btc)
    {coinA coinB : MWCoin} (hcoin : SharedCoin L coinA coinB mw.pubSlate.mw.amount d.shareA d.shareB)
    {spend : SpendRand K} {sigNonce : K} {recvB : RecvRand K} {ff : FeeFields}
    (hkeys : ContractKeys L spend sigNonce recvB mw.pubSlate.mw.amount d.shareA d.shareB
      (mw.pubSlate.mw.amount - L.txFee 1 1 1) d.x ff) (s : σ) (s' : τ) :
    ∃ r tx, talk L (dcontractMwTxAlice L spend coinA (mw.pubSlate.mw.amount - L.txFee 1 1 1) 0 (d.x • L.G) s)
        (dcontractMwTxBob L sigNonce recvB coinB (mw.pubSlate.mw.amount - L.txFee 1 1 1) 0 d.x s') =
          some r ∧
      r.2.1.x = d.x ∧ r.2.2.tx.tx = some tx ∧
      PaysGrin L (d.sharedCommit L mw.pubSlate.mw.amount) mw.pubSlate.mw.amount (fun _ => True) recvB tx
        r.2.2.coin := by
  have hrun := contract_run s s' hL hcoin h.spends hkeys
  refine ⟨_, _, hrun, rfl, rfl, rfl, rfl, fun chain _ hunspent hfresh => ?_⟩
  refine accepts_of_shared (contract_done hL hcoin h.spends hrun) rfl (fun k hk => ?_) hunspent hfresh
  rw [List.mem_singleton.mp hk]
  trivial

/-- The execution phases of the two parties. -/
theorem SwapLocked.executes (hL : L.Lawful) (hB : B.Lawful) (hC : SameCurve L B)
    (h : SwapLocked L B d recv mw btc) {ff : FeeFields}
    (hkeys : ContractKeys L ra.execMw.spend rb.execBtc.sigNonce rb.execBtc.recv mw.pubSlate.mw.amount
      d.shareA d.shareB (mw.pubSlate.mw.amount - L.txFee 1 1 1) d.x ff)
    (hlook : Looks nodes (enoughTime L.overflowChecks) d.heightGrin d.heightBtc)
    (hlook' : Looks nodes' (enoughTime L.overflowChecks) d.heightGrin d.heightBtc)
    (hnodes : Accepting nodes) (hnodes' : Accepting nodes') (past past' : Trace K P (SwapSlate K P)) :
    JointReaches L nodes nodes' (fun c => ∃ t mw' u btc', c = (⟨t, .ret mw' ()⟩, ⟨u, .ret btc' ()⟩) ∧
        EndsSwapped L B d mw ra rb t mw' u btc')
      (⟨past, execPhaseSwapMw L B ra.execMw mw⟩, ⟨past', execPhaseSwapBtc L B rb.execBtc btc⟩) := by
  obtain ⟨coinA, coinB, hcoinA, hcoinB, hvalueB, hcoin⟩ := h.coins
  have hvalueA := hcoin.valueA
  have htotal := h.spends.total
  have hfund : subU64 L.overflowChecks mw.pubSlate.mw.amount (estimateFees L 1 1 1) =
      .ok (mw.pubSlate.mw.amount - L.txFee 1 1 1) := by
    rw [estimateFees, subU64_of_le (by omega)]
  have htimeBtc : btc.pubSlate.mw.lockTime = some (d.heightGrin : ℤ) := by rw [h.pub, h.time]
  have hG : B.G = L.G := hC.generator
  obtain ⟨redeem, script, hredeem, hpays⟩ := h.redeems hB hC ra.execMw.skA2
  refine jointReaches_left_look hlook h.time h.lockMw.time fun past => ?_
  refine jointReaches_right_look hlook' htimeBtc h.lockBtc.time fun past' => ?_
  refine jointReaches_left_modify ?_
  refine jointReaches_left_get ?_
  refine jointReaches_left_lift (Outcome.unwrap_eq_ok.mpr hcoinA) ?_
  refine jointReaches_left_lift (Outcome.unwrap_eq_ok.mpr h.lockMw.statement) ?_
  refine jointReaches_left_lift (deserializePubKey_serialize hB h.keyX) ?_
  refine jointReaches_left_lift (hC.publicKey (hG ▸ h.keyX)) ?_
  refine jointReaches_left_lift (by rw [hvalueA]; exact hfund) ?_
  refine jointReaches_right_modify ?_
  refine jointReaches_right_get ?_
  refine jointReaches_right_lift (Outcome.unwrap_eq_ok.mpr hcoinB) ?_
  refine jointReaches_right_lift (Outcome.unwrap_eq_ok.mpr h.lockBtc.witness) ?_
  refine jointReaches_right_lift
    (deserializePrivKey_serialize hB (createPrivateKey_ne_zero h.keyX)) ?_
  refine jointReaches_right_lift (hC.privateKey (createPrivateKey_ne_zero h.keyX)).1 ?_
  refine jointReaches_right_lift (by rw [hvalueB]; exact hfund) ?_
  obtain ⟨r, tx, hr, hx, htx, hpaysGrin⟩ := h.contract hL hcoin hkeys _ _
  refine jointReaches_talk_bind dcontractMwTxAlice_only dcontractMwTxBob_only hr fun t u _ => ?_
  rw [hx]
  refine jointReaches_left_lift hredeem ?_
  refine jointReaches_left_lift (Outcome.unwrap_eq_ok.mpr (by rw [hpays.output]; rfl)) ?_
  refine jointReaches_left (c := ()) (fun h => h) (hnodes.broadcast _ _) ?_
  refine jointReaches_right_modify ?_
  refine jointReaches_right_lift (Outcome.unwrap_eq_ok.mpr htx) ?_
  refine jointReaches_right (c := ()) (fun h => h) (hnodes'.push _ _) ?_
  rw [hnodes.broadcast, hnodes'.push]
  exact ⟨_, .refl, _, _, _, _, rfl, rfl, rfl,
    ⟨_, redeem, List.mem_append_right _ (List.mem_singleton_self _), hpays⟩,
    ⟨_, tx, List.mem_append_right _ (List.mem_singleton_self _), hpaysGrin⟩⟩

/-! ### Refund -/

/-- Both coins have gone back: the Grin owner sent its refund, which a block can hold from its lock height
on, and the Bitcoin owner one that a block can hold past its lock height. -/
structure EndsRefunded (L : GrinLib K P) (B : BtcLib K P) (d : SwapTerms K) (recv : RecvRand K)
    (mw : SwapSlate K P) (rb : Rand K) (t : Trace K P (SwapSlate K P)) (mw' : SwapSlate K P)
    (u : Trace K P (SwapSlate K P)) (btc' : SwapSlate K P) : Prop where
  statusMw : mw'.pubSlate.status = .failed
  statusBtc : btc'.pubSlate.status = .failed
  grin : ∃ s tx, ⟨s, .pushTransaction tx, .ok ()⟩ ∈ t ∧
    PaysGrin L (d.sharedCommit L mw.pubSlate.mw.amount) mw.pubSlate.mw.amount
      (fun chain => d.heightGrin ≤ chain.height) recv tx mw'.prvSlate.mw.refundCoin
  bitcoin : ∃ s tx, ⟨s, .sendRawTransaction tx, .ok ()⟩ ∈ u ∧
    PaysBtc B ⟨d.txid, 0⟩ (d.lockOut B mw.pubSlate.btc.amount)
      (fun chain => d.heightBtc < chain.height) rb.refund tx btc'.prvSlate.btc.refunded

omit [DecidableEq K] in
theorem EndsRefunded.append {mw' btc' : SwapSlate K P} {t u t' u' : Trace K P (SwapSlate K P)}
    (h : EndsRefunded L B d recv mw rb t mw' u btc') :
    EndsRefunded L B d recv mw rb (t ++ t') mw' (u ++ u') btc' := by
  obtain ⟨hstatus, hstatus', ⟨s, tx, hs, hpays⟩, s', tx', hs', hpays'⟩ := h
  exact ⟨hstatus, hstatus', ⟨s, tx, List.mem_append_left _ hs, hpays⟩,
    s', tx', List.mem_append_left _ hs', hpays'⟩

omit [DecidableEq K] in
/-- The refund phases of the two parties. -/
theorem SwapLocked.cancels (hB : B.Lawful) (h : SwapLocked L B d recv mw btc)
    (hlook : Looks nodes bothPassed d.heightGrin d.heightBtc)
    (hlook' : Looks nodes' bothPassed d.heightGrin d.heightBtc) (hnodes : Accepting nodes)
    (hnodes' : Accepting nodes') (past past' : Trace K P (SwapSlate K P)) :
    JointReaches L nodes nodes' (fun c => ∃ t mw' u btc', c = (⟨t, .ret mw' ()⟩, ⟨u, .ret btc' ()⟩) ∧
        EndsRefunded L B d recv mw rb t mw' u btc')
      (⟨past, refundPhaseSwapMw mw⟩, ⟨past', refundPhaseSwapBtc B rb.refund btc⟩) := by
  have htimeBtc : btc.pubSlate.mw.lockTime = some (d.heightGrin : ℤ) := by rw [h.pub, h.time]
  obtain ⟨refundTx, hrefundTx, hpaysGrin⟩ := h.refund
  obtain ⟨refund, script, hrefund, hpays⟩ := h.refunds hB rb.refund
  refine jointReaches_left_look hlook h.time h.lockMw.time fun past => ?_
  refine jointReaches_right_look hlook' htimeBtc h.lockBtc.time fun past' => ?_
  refine jointReaches_left_get ?_
  refine jointReaches_left_lift (Outcome.unwrap_eq_ok.mpr hrefundTx) ?_
  refine jointReaches_left (c := ()) (fun h => h) (hnodes.push _ _) ?_
  refine jointReaches_right_get ?_
  refine jointReaches_right_lift hrefund ?_
  refine jointReaches_right (c := ()) (fun h => h) (hnodes'.broadcast _ _) ?_
  refine jointReaches_right_lift (Outcome.unwrap_eq_ok.mpr (by rw [hpays.output]; rfl)) ?_
  rw [hnodes.push, hnodes'.broadcast]
  exact ⟨_, .refl, _, _, _, _, rfl, rfl, rfl,
    ⟨_, refundTx, List.mem_append_right _ (List.mem_singleton_self _), hpaysGrin⟩,
    ⟨_, refund, List.mem_append_right _ (List.mem_singleton_self _), hpays⟩⟩

/-! ### The commands -/

section Commands

variable {name : String} {phase : Rand K → Role → Process K P (SwapSlate K P) Unit} {completed : Phase}
  {taken : Command}

/-- What a listener does when the taker names the phase is that phase. -/
def Served (L : GrinLib K P) (B : BtcLib K P) (name : String)
    (phase : Rand K → Role → Process K P (SwapSlate K P) Unit) (completed : Phase) : Prop :=
  ∀ rand role slate, (if name = "EXECUTE" then (execPhase L B rand role >>= fun _ => finish .execution) slate
    else (refundPhase B rand role >>= fun _ => finish .refund) slate) =
      (phase rand role >>= fun _ => finish completed) slate

/-- The taker connects, names the phase and runs it. -/
def Taken (L : GrinLib K P) (B : BtcLib K P) (name : String)
    (phase : Rand K → Role → Process K P (SwapSlate K P) Unit) (completed : Phase) (taken : Command) : Prop :=
  ∀ rand, main L B rand taken = ((runExecute name (phase rand) >>= fun _ => pure (some completed)) >>=
    fun phase => do
      writeSlateToDisk true true
      return phase)

/-- The phases of two commands on a locked swap, and what the commands do then. -/
theorem SwapLocked.reaches {Q : Trace K P (SwapSlate K P) → SwapSlate K P → Trace K P (SwapSlate K P) →
      SwapSlate K P → Prop}
    (h : SwapLocked L B d recv mw btc) (hserved : Served L B name phase completed)
    (htaken : Taken L B name phase completed taken) {value : ℕ}
    (hvalue : (offeredValue L (offered mw btc)).1 = .ok value) (hmw : Hosted F (mw.files F) nodes)
    (hbtc : Hosted F (btc.files F) nodes')
    (hQ : ∀ t mw' u btc' t' u', Q t mw' u btc' → Q (t ++ t') mw' (u ++ u') btc')
    (hphases : ∀ past past', JointReaches L nodes nodes' (fun c => ∃ t mw' u btc',
        c = (⟨t, .ret mw' ()⟩, ⟨u, .ret btc' ()⟩) ∧ Q t mw' u btc')
      (⟨past, phase ra .mw mw⟩, ⟨past', phase rb .btc btc⟩)) :
    Inevitable (JointStep L nodes nodes') (BothReturned fun t mw' a u btc' b =>
        Completed F completed mw btc t mw' a u btc' b ∧ Q t mw' u btc')
      (commandStart L B mw btc ra rb (mw.offerer.commands swapid clients taken)) := by
  refine JointReaches.completed hmw hbtc ?_
  have hbtcRole : btc.offerer = mw.offerer := by rw [SwapSlate.offerer, h.pub, SwapSlate.offerer]
  have hsetup : btc.pubSlate.status = .setup := by rw [h.pub, h.status]
  have hsame : SamePublic F mw btc (mw.files F) (btc.files F) :=
    ⟨h.pub, rfl, by rw [SwapSlate.files, h.pub]⟩
  have hsame' : SamePublic F btc mw (btc.files F) (mw.files F) :=
    ⟨h.pub.symm, rfl, by rw [SwapSlate.files, h.pub]⟩
  have hfinish : ∀ past past', JointReaches L nodes nodes' (fun c => ∃ t mw' u btc',
        c = (⟨t, .ret mw' (some completed)⟩, ⟨u, .ret btc' (some completed)⟩) ∧ Q t mw' u btc')
      (⟨past, (phase ra .mw >>= fun _ => finish completed) mw⟩,
        ⟨past', (phase rb .btc >>= fun _ => finish completed) btc⟩) := by
    intro past past'
    obtain ⟨_, hsteps, t, mw', u, btc', rfl, hends⟩ := hphases past past'
    exact jointReaches_finish hmw hbtc hsteps ⟨_, _, _, _, rfl, hQ _ _ _ _ _ _ hends⟩
  rw [offered] at hvalue
  have hmwTaker := taker_eq mw
  have hbtcTaker := taker_eq btc
  rw [hbtcRole] at hbtcTaker
  cases hrole : mw.offerer with
  | mw =>
    rw [hrole] at hvalue hbtcTaker
    rw [commandStart, Role.commands, htaken]
    refine jointReaches_run hsame hmw hbtc h.status hvalue fun past past' _ _ => ?_
    rw [hserved, hrole, hbtcTaker]
    exact hfinish past past'
  | btc =>
    rw [hrole] at hvalue hmwTaker hbtcRole
    rw [commandStart, Role.commands, htaken]
    refine JointReaches.swap (jointReaches_run hsame' hbtc hmw hsetup hvalue fun past past' _ _ =>
      JointReaches.swap ?_)
    rw [hserved, hbtcRole, hmwTaker]
    exact hfinish past' past

end Commands

/-- Two honest parties execute a locked swap: in every order of the steps of `listen` and `execute`, while
an hour is left on both chains, both commands return and both coins have changed hands. -/
theorem execute_inevitable (hL : L.Lawful) (hB : B.Lawful) (hC : SameCurve L B)
    (h : SwapLocked L B d recv mw btc) {ff : FeeFields}
    (hkeys : ContractKeys L ra.execMw.spend rb.execBtc.sigNonce rb.execBtc.recv mw.pubSlate.mw.amount
      d.shareA d.shareB (mw.pubSlate.mw.amount - L.txFee 1 1 1) d.x ff)
    {value : ℕ} (hvalue : (offeredValue L (offered mw btc)).1 = .ok value)
    (hmw : Hosted F (mw.files F) nodes) (hbtc : Hosted F (btc.files F) nodes')
    (hlook : Looks nodes (enoughTime L.overflowChecks) d.heightGrin d.heightBtc)
    (hlook' : Looks nodes' (enoughTime L.overflowChecks) d.heightGrin d.heightBtc)
    (hnodes : Accepting nodes) (hnodes' : Accepting nodes') :
    Inevitable (JointStep L nodes nodes') (BothReturned fun t mw' a u btc' b =>
        Completed F .execution mw btc t mw' a u btc' b ∧ EndsSwapped L B d mw ra rb t mw' u btc')
      (commandStart L B mw btc ra rb (mw.offerer.commands swapid clients (.execute swapid))) := by
  have hserved : Served L B "EXECUTE" (execPhase L B) .execution := fun _ _ _ => rfl
  exact h.reaches hserved (fun _ => rfl) hvalue hmw hbtc (fun _ _ _ _ _ _ hends => hends.append)
    (h.executes hL hB hC hkeys hlook hlook' hnodes hnodes')

/-- Two honest parties cancel a locked swap: in every order of the steps of `listen` and `cancel`, past both
lock heights, both commands return and both coins have gone back. -/
theorem cancel_inevitable (hB : B.Lawful) (h : SwapLocked L B d recv mw btc) {value : ℕ}
    (hvalue : (offeredValue L (offered mw btc)).1 = .ok value) (hmw : Hosted F (mw.files F) nodes)
    (hbtc : Hosted F (btc.files F) nodes') (hlook : Looks nodes bothPassed d.heightGrin d.heightBtc)
    (hlook' : Looks nodes' bothPassed d.heightGrin d.heightBtc) (hnodes : Accepting nodes)
    (hnodes' : Accepting nodes') :
    Inevitable (JointStep L nodes nodes') (BothReturned fun t mw' a u btc' b =>
        Completed F .refund mw btc t mw' a u btc' b ∧ EndsRefunded L B d recv mw rb t mw' u btc')
      (commandStart L B mw btc ra rb (mw.offerer.commands swapid clients (.cancel swapid))) := by
  have hserved : Served L B "CANCEL" (refundPhase B) .refund := fun _ _ _ => rfl
  exact h.reaches hserved (fun _ => rfl) hvalue hmw hbtc (fun _ _ _ _ _ _ hends => hends.append)
    (h.cancels hB hlook hlook' hnodes hnodes')

/-! ### A sample of both ends -/

theorem sample_execKeysLocked :
    ContractKeys exponents sampleRand.execMw.spend sampleRand.execBtc.sigNonce sampleRand.execBtc.recv
      sampleFunded.pubSlate.mw.amount 21 31
      (sampleFunded.pubSlate.mw.amount - exponents.txFee 1 1 1) 5 ⟨12500000⟩ := by
  have hvalue : sampleFunded.pubSlate.mw.amount = 1012500000 := rfl
  have hfund : 1012500000 - exponents.txFee 1 1 1 = 1000000000 := by decide
  rw [hvalue, hfund]
  exact sample_execKeys

theorem execute_inevitable_sample : ∃ mw btc d, mw.pubSlate.status = .setup ∧ Inevitable
    (JointStep exponents (diskNodes fileExponents (mw.files fileExponents) 1500000 700000 100000)
      (diskNodes fileExponents (btc.files fileExponents) 1500000 700000 100000))
    (BothReturned fun t mw' a u btc' b =>
      Completed fileExponents .execution mw btc t mw' a u btc' b ∧
        EndsSwapped exponents (btcExponents []) d mw sampleRand sampleRand t mw' u btc')
    (commandStart exponents (btcExponents []) mw btc sampleRand sampleRand (.listen 1 1, .execute 1)) := by
  obtain ⟨lock, sharedA, sharedB, refund, h⟩ := sample_swapLocked
  have hvalue : (offeredValue exponents (offered (sampleOffererSetup lock sharedA refund)
      (sampleTakerSetup lock sharedB))).1 = .ok 2000000000 := by
    show (offeredValue exponents sampleFunded).1 = .ok 2000000000
    decide +kernel
  have hlook : ∀ nodes : Nodes Scalar Scalar (SwapSlate Scalar Scalar),
      (∀ past, nodes past .getBlockHeight = .ok 1500000) →
      (∀ past, nodes past .getCurrentBlockHeight = .ok 700000) →
      Looks nodes (enoughTime exponents.overflowChecks) 1500400 700040 :=
    fun nodes hgrin hbtc past past' => ⟨1500000, 700000, hgrin past, hbtc past', by decide +kernel⟩
  exact ⟨_, _, _, h.status, execute_inevitable exponents_lawful (btcExponents_lawful [])
    (exponents_sameCurve []) h sample_execKeysLocked hvalue (diskNodes_hosted _ _ _ _)
    (diskNodes_hosted _ _ _ _) (hlook _ (fun _ => rfl) fun _ => rfl) (hlook _ (fun _ => rfl) fun _ => rfl)
    ⟨fun _ _ => rfl, fun _ _ => rfl⟩ ⟨fun _ _ => rfl, fun _ _ => rfl⟩⟩

theorem cancel_inevitable_sample : ∃ mw btc d recv, mw.pubSlate.status = .setup ∧ Inevitable
    (JointStep exponents (diskNodes fileExponents (mw.files fileExponents) 1500500 700100 100000)
      (diskNodes fileExponents (btc.files fileExponents) 1500500 700100 100000))
    (BothReturned fun t mw' a u btc' b =>
      Completed fileExponents .refund mw btc t mw' a u btc' b ∧
        EndsRefunded exponents (btcExponents []) d recv mw sampleRand t mw' u btc')
    (commandStart exponents (btcExponents []) mw btc sampleRand sampleRand (.listen 1 1, .cancel 1)) := by
  obtain ⟨lock, sharedA, sharedB, refund, h⟩ := sample_swapLocked
  have hvalue : (offeredValue exponents (offered (sampleOffererSetup lock sharedA refund)
      (sampleTakerSetup lock sharedB))).1 = .ok 2000000000 := by
    show (offeredValue exponents sampleFunded).1 = .ok 2000000000
    decide +kernel
  have hlook : ∀ nodes : Nodes Scalar Scalar (SwapSlate Scalar Scalar),
      (∀ past, nodes past .getBlockHeight = .ok 1500500) →
      (∀ past, nodes past .getCurrentBlockHeight = .ok 700100) → Looks nodes bothPassed 1500400 700040 :=
    fun nodes hgrin hbtc past past' => ⟨1500500, 700100, hgrin past, hbtc past', by decide +kernel⟩
  exact ⟨_, _, _, _, h.status, cancel_inevitable (btcExponents_lawful []) h hvalue
    (diskNodes_hosted _ _ _ _) (diskNodes_hosted _ _ _ _) (hlook _ (fun _ => rfl) fun _ => rfl)
    (hlook _ (fun _ => rfl) fun _ => rfl) ⟨fun _ _ => rfl, fun _ _ => rfl⟩
    ⟨fun _ _ => rfl, fun _ _ => rfl⟩⟩

end MwBtcSwap
