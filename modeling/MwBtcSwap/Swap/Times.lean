import MwBtcSwap.Bitcoin.Lock
import MwBtcSwap.Swap.Locked

/-! The two looks at the clock: `check_if_enough_time` before the execution and `can_refund` before a
refund, what holds of the phases that start with one, and what they say about the finality of a Bitcoin
refund. -/

namespace MwBtcSwap

open Interaction Machine Grin Bitcoin Script

variable {K P : Type} [CommRing K] [AddCommGroup P] [Module K P] [DecidableEq K] [DecidableEq P]

variable {L : GrinLib K P} {B : BtcLib K P}

omit [CommRing K] [AddCommGroup P] [Module K P] [DecidableEq K] [DecidableEq P] in
/-- A complete look at the clock reads the two heights once. -/
theorem steps_compareTimes {compare : ℕ → ℕ → ℤ → ℤ → Outcome Bool} {s s' : SwapSlate K P}
    {t : Trace K P (SwapSlate K P)} {b : Bool} :
    Steps (compareTimes compare s) t (.ret s' b) ↔
      ∃ lockGrin lockBtc heightGrin heightBtc, s.pubSlate.mw.lockTime = some lockGrin ∧
        s.pubSlate.btc.lockTime = some lockBtc ∧
        t = [⟨s, .getBlockHeight, .ok heightGrin⟩, ⟨s, .getCurrentBlockHeight, .ok heightBtc⟩] ∧
        s' = s ∧ compare heightGrin heightBtc lockGrin lockBtc = .ok b := by
  have hend : ∀ x : Outcome Bool, ∀ t, Steps (Proc.lift x s : Program K P (SwapSlate K P) Bool) t
      (.ret s' b) ↔ t = [] ∧ s' = s ∧ x = .ok b := by
    intro x t
    cases x with
    | error e => simp [steps_stop]
    | ok c => simp [steps_ret, eq_comm]
  simp only [compareTimes, unwrapField, getBlockHeight, Proc.bind_apply, Proc.get_apply,
    Prog.bind_ret, steps_lift_bind, steps_request_bind, Outcome.unwrap_eq_ok, Outcome.expect_eq_ok,
    hend]
  constructor
  · rintro ⟨lg, hlg, lb, hlb, _, hg, _, rfl, rfl, _, hb, _, rfl, rfl, rfl, rfl, hcmp⟩
    exact ⟨lg, lb, hg, hb, hlg, hlb, rfl, rfl, hcmp⟩
  · rintro ⟨lg, lb, hg, hb, hlg, hlb, rfl, rfl, hcmp⟩
    exact ⟨lg, hlg, lb, hlb, _, hg, _, rfl, rfl, _, hb, _, rfl, rfl, rfl, rfl, hcmp⟩

/-! ### The phases that start with a look -/

section Phases

variable {slate : SwapSlate K P} {past : Trace K P (SwapSlate K P)}
  {R : Trace K P (SwapSlate K P) → SwapSlate K P → Op K P → Prop}

omit [CommRing K] [AddCommGroup P] [Module K P] [DecidableEq K] [DecidableEq P] in
/-- What follows a look at the clock starts with the two heights as the last events. -/
theorem sat_compareTimes_bind {α : Type} {compare : ℕ → ℕ → ℤ → ℤ → Outcome Bool}
    {f : Bool → Process K P (SwapSlate K P) α}
    {Q : Trace K P (SwapSlate K P) → SwapSlate K P → α → Prop}
    (hgrin : ∀ past', R past' slate .getBlockHeight)
    (hbtc : ∀ past', R past' slate .getCurrentBlockHeight)
    (h : ∀ lockGrin lockBtc heightGrin heightBtc b, slate.pubSlate.btc.lockTime = some lockBtc →
      compare heightGrin heightBtc lockGrin lockBtc = .ok b →
      (f b slate).Sat R Q (past ++ [⟨slate, .getBlockHeight, .ok heightGrin⟩,
        ⟨slate, .getCurrentBlockHeight, .ok heightBtc⟩])) :
    ((compareTimes compare >>= f) slate).Sat R Q past := by
  have honly : (compareTimes compare : Process K P (SwapSlate K P) Bool).Only
      fun op => op = .getBlockHeight ∨ op = .getCurrentBlockHeight :=
    compareTimes_only (.inl rfl) (.inr rfl)
  have hlook := (honly slate past).and (Prog.sat_steps (compareTimes compare slate))
  refine Prog.Sat.bind (hlook.mono ?_ fun _ _ _ h => h) ?_
  · rintro past' s op ⟨⟨rfl, rfl | rfl, -⟩, -⟩
    · exact hgrin past'
    · exact hbtc past'
  · rintro past' s b ⟨⟨rfl, -⟩, t, rfl, hsteps⟩
    obtain ⟨lockGrin, lockBtc, heightGrin, heightBtc, -, hlock, rfl, -, hcompare⟩ :=
      steps_compareTimes.mp hsteps
    exact h lockGrin lockBtc heightGrin heightBtc b hlock hcompare

variable {Q : Trace K P (SwapSlate K P) → SwapSlate K P → Unit → Prop}

/-- The execution of the Grin owner: when time is left, the contract and then the redeem transaction. -/
theorem execPhaseSwapMw_sat {rand : ExecMwRand K} (hgrin : ∀ past', R past' slate .getBlockHeight)
    (hbtc : ∀ past', R past' slate .getCurrentBlockHeight)
    (hcontract : ∀ lockGrin lockBtc heightGrin heightBtc past' op,
      slate.pubSlate.btc.lockTime = some lockBtc →
      enoughTime L.overflowChecks heightGrin heightBtc lockGrin lockBtc = .ok true →
      ⟨slate, .getCurrentBlockHeight, .ok heightBtc⟩ ∈ past' → Op.OfProtocol .contract op →
      R past' { slate with pubSlate.status := .executing } op)
    (hsend : ∀ past' tx, R past' { slate with pubSlate.status := .executing } (.sendRawTransaction tx))
    (hret : ∀ past' x tx lockScript o, signedRedeemTransaction L B
        { slate with pubSlate.status := .executing } (B.publicKey (createPrivateKey rand.skA2)) x =
          .ok (tx, lockScript) → tx.output[0]? = some o →
      Q past' { slate with
        prvSlate.btc.swapped := some (BTCInput.new2 B (B.txid tx).toText 0 o.value
          (createPrivateKey rand.skA2) (B.publicKey (createPrivateKey rand.skA2)) o.scriptPubkey)
        pubSlate.status := .finished } ()) :
    (execPhaseSwapMw L B rand slate).Sat R Q past := by
  refine sat_compareTimes_bind hgrin hbtc fun lockGrin lockBtc heightGrin heightBtc enough hlock htime => ?_
  cases enough with
  | false => trivial
  | true =>
    refine Prog.sat_modify_bind <| Prog.sat_get_bind <| Prog.sat_lift_bind fun _ _ =>
      Prog.sat_lift_bind fun _ _ => Prog.sat_lift_bind fun _ _ => Prog.sat_lift_bind fun _ _ =>
      Prog.sat_lift_bind fun _ _ => dcontractMwTxAlice_only.sat_bind ?_ fun _ _ _ =>
      Prog.sat_lift_bind fun tx htx => Prog.sat_lift_bind fun o ho =>
      Prog.sat_request_bind (hsend _ _) fun _ _ _ => ?_
    · intro past' op hop hext
      exact hcontract _ _ _ _ past' op hlock htime (hext.mem (by simp)) hop
    · exact hret _ _ _ _ o htx (Outcome.unwrap_eq_ok.mp ho)

/-- The execution of the Bitcoin owner: when time is left, the contract and then its transaction. -/
theorem execPhaseSwapBtc_sat {rand : ExecBtcRand K} (hgrin : ∀ past', R past' slate .getBlockHeight)
    (hbtc : ∀ past', R past' slate .getCurrentBlockHeight)
    (hcontract : ∀ heightGrin heightBtc c x fundValue, slate.prvSlate.mw.sharedCoin = some c →
      subU64 L.overflowChecks c.value (estimateFees L 1 1 1) = .ok fundValue →
      (dcontractMwTxBob L rand.sigNonce rand.recv c fundValue 0 x
          { slate with pubSlate.status := .executing }).Sat R
        (fun past' s result =>
          (∀ tx, R past' { s with prvSlate.mw.swappedCoin := result.coin } (.pushTransaction tx)) ∧
          ∀ past', Q past' { s with
            prvSlate.mw.swappedCoin := result.coin
            pubSlate.status := .finished } ())
        (past ++ [⟨slate, .getBlockHeight, .ok heightGrin⟩,
          ⟨slate, .getCurrentBlockHeight, .ok heightBtc⟩])) :
    (execPhaseSwapBtc L B rand slate).Sat R Q past := by
  refine sat_compareTimes_bind hgrin hbtc fun _ _ heightGrin heightBtc enough _ _ => ?_
  cases enough with
  | false => trivial
  | true =>
    refine Prog.sat_modify_bind <| Prog.sat_get_bind <| Prog.sat_lift_bind fun c hc =>
      Prog.sat_lift_bind fun _ _ => Prog.sat_lift_bind fun x _ => Prog.sat_lift_bind fun _ _ =>
      Prog.sat_lift_bind fun fundValue hfund => Prog.Sat.bind
        (hcontract heightGrin heightBtc c _ fundValue (Outcome.unwrap_eq_ok.mp hc) hfund) ?_
    rintro past' s result ⟨hpush, hret⟩
    exact Prog.sat_modify_bind <| Prog.sat_lift_bind fun tx _ =>
      Prog.sat_request_bind (hpush tx) fun _ _ _ => hret _

omit [CommRing K] [AddCommGroup P] [Module K P] [DecidableEq K] [DecidableEq P] in
/-- The refund of the Grin owner: when both lock times are past, its refund transaction. -/
theorem refundPhaseSwapMw_sat (hgrin : ∀ past', R past' slate .getBlockHeight)
    (hbtc : ∀ past', R past' slate .getCurrentBlockHeight)
    (hpush : ∀ past' tx, R past' slate (.pushTransaction tx))
    (hret : ∀ past', Q past' { slate with pubSlate.status := .failed } ()) :
    (refundPhaseSwapMw slate).Sat R Q past := by
  refine sat_compareTimes_bind hgrin hbtc fun _ _ _ _ passed _ _ => ?_
  cases passed with
  | false => trivial
  | true =>
    exact Prog.sat_get_bind <| Prog.sat_lift_bind fun tx _ =>
      Prog.sat_request_bind (hpush _ tx) fun _ _ _ => hret _

omit [CommRing K] [AddCommGroup P] [Module K P] [DecidableEq K] [DecidableEq P] in
/-- The refund of the Grin owner with a node that takes its transaction. -/
theorem refundPhaseSwapMw_steps {limitGrin limitBtc : ℤ} {heightGrin heightBtc : ℕ}
    {tx : Grin.Transaction K P} (hgrin : slate.pubSlate.mw.lockTime = some limitGrin)
    (hbtc : slate.pubSlate.btc.lockTime = some limitBtc)
    (hpassed : bothPassed heightGrin heightBtc limitGrin limitBtc = .ok true)
    (htx : slate.prvSlate.mw.refundTx = some tx) :
    Steps (refundPhaseSwapMw slate) [⟨slate, .getBlockHeight, .ok heightGrin⟩,
      ⟨slate, .getCurrentBlockHeight, .ok heightBtc⟩, ⟨slate, .pushTransaction tx, .ok ()⟩]
      (.ret { slate with pubSlate.status := .failed } ()) := by
  have hcheck : Steps (canRefund slate)
      [⟨slate, .getBlockHeight, .ok heightGrin⟩, ⟨slate, .getCurrentBlockHeight, .ok heightBtc⟩]
      (.ret slate true) :=
    steps_compareTimes.mpr ⟨limitGrin, limitBtc, heightGrin, heightBtc, hgrin, hbtc, rfl, rfl, hpassed⟩
  refine hcheck.bind (u := [⟨slate, .pushTransaction tx, .ok ()⟩]) ?_
  rw [if_pos rfl, Proc.bind_apply, Proc.get_apply, Prog.bind_ret, unwrapField, htx]
  exact .step (.refl _)

omit [DecidableEq K] [DecidableEq P] in
/-- The refund of the Bitcoin owner: when both lock times are past, its refund transaction. -/
theorem refundPhaseSwapBtc_sat {key : K} (hgrin : ∀ past', R past' slate .getBlockHeight)
    (hbtc : ∀ past', R past' slate .getCurrentBlockHeight)
    (hsend : ∀ past' tx, R past' slate (.sendRawTransaction tx))
    (hret : ∀ past' tx lockScript o, signedRefundTransaction B slate (B.publicKey (createPrivateKey key)) =
        .ok (tx, lockScript) → tx.output[0]? = some o →
      Q past' { slate with
        prvSlate.btc.refunded := some (BTCInput.new2 B (B.txid tx).toText 0 o.value
          (createPrivateKey key) (B.publicKey (createPrivateKey key)) o.scriptPubkey)
        pubSlate.status := .failed } ()) :
    (refundPhaseSwapBtc B key slate).Sat R Q past := by
  refine sat_compareTimes_bind hgrin hbtc fun _ _ _ _ passed _ _ => ?_
  cases passed with
  | false => trivial
  | true =>
    refine Prog.sat_get_bind <| Prog.sat_lift_bind fun tx htx =>
      Prog.sat_request_bind (hsend _ _) fun _ _ _ => Prog.sat_lift_bind fun o ho => ?_
    exact hret _ _ _ o htx (Outcome.unwrap_eq_ok.mp ho)

end Phases

/-! ### What a look finds -/

theorem u64OfI64_eq_some {a : ℤ} {n : ℕ} : u64OfI64 a = some n ↔ a = n := by
  unfold u64OfI64
  split <;> simp <;> omega

/-- `can_refund`: both heights are past the lock times. -/
theorem bothPassed_iff {heightGrin heightBtc : ℕ} {lockGrin lockBtc : ℤ} :
    bothPassed heightGrin heightBtc lockGrin lockBtc = .ok true ↔
      0 ≤ lockGrin ∧ lockGrin < heightGrin ∧ 0 ≤ lockBtc ∧ lockBtc < heightBtc := by
  simp only [bothPassed, Outcome.bind_eq_ok, Outcome.unwrap_eq_ok, u64OfI64_eq_some]
  constructor
  · rintro ⟨n, rfl, h⟩
    split_ifs at h with hn
    · simp only [Outcome.bind_eq_ok, Outcome.unwrap_eq_ok, u64OfI64_eq_some, Outcome.pure_eq_ok,
        Except.ok.injEq, decide_eq_true_eq] at h
      obtain ⟨m, rfl, hm⟩ := h
      omega
    · cases h
  · rintro ⟨hg, hlg, hb, hlb⟩
    refine ⟨lockGrin.toNat, by omega, ?_⟩
    rw [if_pos (by omega)]
    simp only [Outcome.bind_eq_ok, Outcome.unwrap_eq_ok, u64OfI64_eq_some, Outcome.pure_eq_ok,
      Except.ok.injEq, decide_eq_true_eq]
    exact ⟨lockBtc.toNat, by omega, by omega⟩

/-- `check_if_enough_time`: an hour of blocks is left on the Bitcoin chain, unless the sum of heights
wraps around. -/
theorem enoughTime_btc {checks : Bool} {heightGrin heightBtc : ℕ} {lockGrin lockBtc : ℤ}
    (h : enoughTime checks heightGrin heightBtc lockGrin lockBtc = .ok true) :
    0 ≤ lockBtc ∧ (heightBtc + 6 < 2 ^ 64 → (heightBtc : ℤ) + 6 ≤ lockBtc) := by
  simp only [enoughTime, Outcome.bind_eq_ok, Outcome.unwrap_eq_ok] at h
  obtain ⟨_, -, _, -, h⟩ := h
  split_ifs at h
  · simp only [Outcome.bind_eq_ok, Outcome.unwrap_eq_ok, u64OfI64_eq_some, Outcome.pure_eq_ok,
      Except.ok.injEq, decide_eq_true_eq] at h
    obtain ⟨endBtc, hend, limit, rfl, hle⟩ := h
    refine ⟨by omega, fun hlt => ?_⟩
    have hsum : addU64 checks heightBtc (60 / btcBlockTime) = .ok (heightBtc + 6) := addU64_of_lt hlt
    rw [hsum] at hend
    cases hend
    omega
  · cases h

/-! ### The guard of the execution and the refund -/

variable {recvPk pubX : PublicKey P} {skB : PrivateKey K} {lockTime : ℤ}

omit [DecidableEq K] [DecidableEq P] in
/-- A refund of a lock time that a transaction can have, with just this lock time. -/
theorem exists_refundSpend (hB : B.Lawful) (hk : skB.key ≠ 0) (hpos : 0 ≤ lockTime)
    (hlt : lockTime < 2 ^ 32) :
    ∃ tx, (tx.lockTime : ℤ) = lockTime ∧ tx.lockTime < 2 ^ 32 ∧
      RefundSpend B recvPk pubX (B.publicKey skB) lockTime tx 0 := by
  let i : TxIn := ⟨⟨⟨[]⟩, 0⟩, [], 0, []⟩
  let tx : Bitcoin.Transaction := ⟨1, lockTime.toNat, [i], []⟩
  have htime : (lockTime.toNat : ℤ) = lockTime := Int.toNat_of_nonneg hpos
  refine ⟨signLockTransactionRefund B tx 0
    (lockPubScript B recvPk pubX (B.publicKey skB) lockTime false) skB, htime, ?_, ?_⟩
  · have hsame : (signLockTransactionRefund B tx 0
        (lockPubScript B recvPk pubX (B.publicKey skB) lockTime false) skB).lockTime =
        lockTime.toNat := rfl
    omega
  · exact refundSpend_sign hB (length_scriptInt_of_lt (by omega)) hk rfl (by decide) htime.symm
      (show lockTime.toNat < 2 ^ 32 by omega)

/-- A transaction is final in a block when its lock time is in the past of that block. -/
theorem isFinal_of_passed {tx : Bitcoin.Transaction} {height mtp : ℕ}
    (htime : (tx.lockTime : ℤ) = lockTime)
    (h : lockTime < if lockTime < lockTimeThreshold then (height : ℤ) else mtp) :
    tx.IsFinal height mtp := by
  subst htime
  refine .inr (.inl ?_)
  have hkind : (tx.lockTime : ℤ) < lockTimeThreshold ↔ tx.lockTime < lockTimeThreshold := by omega
  simp only [hkind] at h
  split at h <;> rename_i hlt
  · rw [if_pos hlt]
    omega
  · rw [if_neg hlt]
    omega

omit [DecidableEq K] [DecidableEq P] in
/-- After a look at the clock that found enough time at a height, no refund is final in a block from
that height to the sixth after it, exactly when the lock time is a height, or is past all lock times of
transactions, or is a time that these blocks do not reach. -/
theorem refund_not_final_iff (hB : B.Lawful) {slate : SwapSlate K P}
    (htime : slate.pubSlate.btc.lockTime = some lockTime)
    (hrange : -2 ^ 63 ≤ lockTime ∧ lockTime < 2 ^ 63) {t : Trace K P (SwapSlate K P)}
    {heightBtc : ℕ} (hcheck : Steps (checkIfEnoughTime L slate) t (.ret slate true))
    (hheight : ⟨slate, .getCurrentBlockHeight, .ok heightBtc⟩ ∈ t) (hk : skB.key ≠ 0)
    (mtp : ℕ → ℕ) :
    (∀ tx ix, tx.lockTime < 2 ^ 32 → RefundSpend B recvPk pubX (B.publicKey skB) lockTime tx ix →
        ∀ n ≤ 6, ¬ tx.IsFinal (heightBtc + n) (mtp (heightBtc + n))) ↔
      2 ^ 32 ≤ lockTime ∨ if lockTime < lockTimeThreshold then heightBtc + 6 < 2 ^ 64
        else ∀ n ≤ 6, (mtp (heightBtc + n) : ℤ) ≤ lockTime := by
  obtain ⟨lockGrin, lockBtc, heightGrin, height', -, hbtc, rfl, -, hcmp⟩ :=
    steps_compareTimes.mp hcheck
  obtain rfl : heightBtc = height' := by simpa using hheight
  obtain rfl : lockTime = lockBtc := Option.some.inj (htime.symm.trans hbtc)
  obtain ⟨hpos, hleft⟩ := enoughTime_btc hcmp
  constructor
  · intro hnot
    by_contra hcond
    obtain ⟨hlt, hcond⟩ := not_or.mp hcond
    obtain ⟨tx, htx, hu32, hspend⟩ : ∃ tx, (tx.lockTime : ℤ) = lockTime ∧ tx.lockTime < 2 ^ 32 ∧
        RefundSpend B recvPk pubX (B.publicKey skB) lockTime tx 0 :=
      exists_refundSpend hB hk hpos (not_le.mp hlt)
    split_ifs at hcond with hkind
    · refine hnot tx 0 hu32 hspend 0 (by omega) (isFinal_of_passed htx ?_)
      rw [if_pos hkind]
      omega
    · obtain ⟨n, hn, hmtp⟩ : ∃ n ≤ 6, lockTime < mtp (heightBtc + n) := by
        simpa using hcond
      refine hnot tx 0 hu32 hspend n hn (isFinal_of_passed htx ?_)
      rwa [if_neg hkind]
  · intro hcond tx ix hu32 hspend n hn hfinal
    obtain ⟨-, hle, -⟩ := hspend.lockTime (by omega)
    have hpassed := hspend.timePassed (by omega) hfinal
    obtain hbig | hcond := hcond
    · omega
    · unfold RefundTimePassed at hpassed
      by_cases hkind : lockTime < lockTimeThreshold
      · rw [if_pos hkind] at hcond hpassed
        have := hleft hcond
        omega
      · rw [if_neg hkind] at hcond hpassed
        have := hcond n hn
        have : lockTimeThreshold = 500000000 := rfl
        omega

/-- The slate of a Grin owner that agreed on a Bitcoin lock time. -/
def timedSlate (lockTime : ℤ) : SwapSlate Scalar Scalar :=
  (lockedSlates (btcExponents []) 3 5 7 lockTime 100000 sampleTxid).1

/-- The heights 1000 and 100000, as this slate's owner reads them. -/
def timedReads (lockTime : ℤ) : Trace Scalar Scalar (SwapSlate Scalar Scalar) :=
  [⟨timedSlate lockTime, .getBlockHeight, .ok 1000⟩,
    ⟨timedSlate lockTime, .getCurrentBlockHeight, .ok 100000⟩]

/-- At these heights there is enough time when the Bitcoin lock time is six blocks away. -/
theorem steps_checkIfEnoughTime_timedSlate {lockTime : ℤ} (htime : 100006 ≤ lockTime) :
    Steps (checkIfEnoughTime exponents (timedSlate lockTime)) (timedReads lockTime)
      (.ret (timedSlate lockTime) true) := by
  refine steps_compareTimes.mpr ⟨5000, lockTime, 1000, 100000, rfl, rfl, rfl, rfl, ?_⟩
  have hgrin : u64OfI64 5000 = some 5000 := rfl
  have hlimit : u64OfI64 lockTime = some lockTime.toNat := u64OfI64_eq_some.mpr (by omega)
  have hle : 100006 ≤ lockTime.toNat := by omega
  simp [enoughTime, addU64, grinBlockTime, btcBlockTime, hgrin, hlimit, hle]

/-- A lock time that is a height, with enough time left: no refund is final for six blocks. -/
theorem refund_not_final_sample :
    Steps (checkIfEnoughTime exponents (timedSlate 100040)) (timedReads 100040)
        (.ret (timedSlate 100040) true) ∧
      ∀ tx ix, tx.lockTime < 2 ^ 32 →
        RefundSpend (btcExponents []) ((btcExponents []).publicKey (createPrivateKey 3))
          ((btcExponents []).publicKey (createPrivateKey 5))
          ((btcExponents []).publicKey (createPrivateKey 7)) 100040 tx ix →
        ∀ n ≤ 6, ¬ tx.IsFinal (100000 + n) (1600000000 + (100000 + n)) := by
  have hkey : (createPrivateKey (7 : Scalar)).key ≠ 0 := by decide
  have hcheck := steps_checkIfEnoughTime_timedSlate (show (100006 : ℤ) ≤ 100040 by decide)
  have hheight : ⟨timedSlate 100040, .getCurrentBlockHeight, .ok 100000⟩ ∈ timedReads 100040 := by
    simp [timedReads]
  refine ⟨hcheck, (refund_not_final_iff (btcExponents_lawful []) rfl (by decide) hcheck hheight hkey
    fun n => 1600000000 + n).mpr (.inr ?_)⟩
  decide

/-- With the lock time 500000000, which the Grin owner takes for a height, a refund is final at once. -/
theorem refund_final_threshold :
    parseI64 "500000000" = some 500000000 ∧
    ∃ t, Steps (checkIfEnoughTime exponents (timedSlate 500000000)) t
        (.ret (timedSlate 500000000) true) ∧
      ⟨timedSlate 500000000, .getCurrentBlockHeight, .ok 100000⟩ ∈ t ∧
      ∃ tx, tx.lockTime < 2 ^ 32 ∧
        RefundSpend (btcExponents []) ((btcExponents []).publicKey (createPrivateKey 3))
          ((btcExponents []).publicKey (createPrivateKey 5))
          ((btcExponents []).publicKey (createPrivateKey 7)) 500000000 tx 0 ∧
        tx.IsFinal 100000 1600000000 := by
  refine ⟨by decide, _, steps_checkIfEnoughTime_timedSlate (by decide), by simp [timedReads], ?_⟩
  obtain ⟨tx, htime, hu32, hspend⟩ := exists_refundSpend (btcExponents_lawful [])
    (show (createPrivateKey (7 : Scalar)).key ≠ 0 by decide) (show (0 : ℤ) ≤ 500000000 by decide)
    (by decide)
  refine ⟨tx, hu32, hspend, isFinal_of_passed htime ?_⟩
  decide

end MwBtcSwap
