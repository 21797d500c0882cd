import MwBtcSwap.Bitcoin.Core
import MwBtcSwap.Swap.Handshake

/-! The verification of the Bitcoin lock: what the Grin owner has seen of the lock address when it
records the lock. -/

namespace MwBtcSwap

open Interaction Machine Grin Bitcoin

variable {K P : Type} [CommRing K] [AddCommGroup P] [Module K P] [DecidableEq K] [DecidableEq P]

variable {L : GrinLib K P} {B : BtcLib K P} {σ : Type}

omit [CommRing K] [AddCommGroup P] [Module K P] [DecidableEq K] [DecidableEq P] in
theorem received_of_verifiesFunds {past past' : Trace K P σ} {s : σ}
    (h : Extends Op.VerifiesFunds s past past') : received past' = received past := by
  obtain ⟨t, rfl, ht⟩ := h
  have hnone : received t = [] := by
    rw [received, List.filterMap_eq_nil_iff]
    rintro ⟨s', op, ans⟩ he
    have hop := (ht _ he).2
    cases op with
    | getAddressFinalBalance address => rfl
    | sleep => rfl
    | _ => exact hop.elim
  rw [received_append, hnone, List.append_nil]

omit [CommRing K] [AddCommGroup P] [Module K P] [DecidableEq K] [DecidableEq P] in
/-- The loop ends with a look at the balance that found the amount, or it does not verify the funds. -/
theorem verifyFunds_sat {address : String} {amount attempts : ℕ} (s : σ) (past : Trace K P σ) :
    (verifyFunds address amount attempts s : Program K P σ Bool).Sat
      (fun _ _ op => op.VerifiesFunds)
      (fun past' s' r => s' = s ∧ (r = true → 0 < amount ∧ ∃ past₀,
        Extends Op.VerifiesFunds s past past₀ ∧
        past' = past₀ ++ [⟨s, .getAddressFinalBalance address, .ok amount⟩])) past := by
  induction attempts generalizing past with
  | zero => exact ⟨rfl, nofun⟩
  | succ attempts ih =>
    refine Prog.sat_request_bind trivial fun ans balance hans => ?_
    split_ifs with hpos
    · refine ⟨rfl, fun hverified => ?_⟩
      obtain rfl : balance = amount := of_decide_eq_true hverified
      refine ⟨hpos, past, .refl, ?_⟩
      match ans, hans with
      | .ok found, hans =>
        cases hans
        rfl
      | .error (.err e), hans =>
        cases hans
        exact (Nat.lt_irrefl 0 hpos).elim
    · refine Prog.sat_request_bind trivial fun ans' u _ => (ih _).mono (fun _ _ _ h => h) ?_
      rintro past' s' r ⟨rfl, hr⟩
      refine ⟨rfl, fun hverified => ?_⟩
      obtain ⟨hamount, past₀, hext, rfl⟩ := hr hverified
      have hlook : Extends Op.VerifiesFunds s' past
          (past ++ [⟨s', .getAddressFinalBalance address, ans⟩] ++ [⟨s', .sleep, ans'⟩]) :=
        ⟨[⟨s', .getAddressFinalBalance address, ans⟩, ⟨s', .sleep, ans'⟩], by simp,
          by simp [Op.VerifiesFunds]⟩
      exact ⟨hamount, past₀, hlook.trans hext, rfl⟩

/-- The funds of the lock address have just been verified, and the lock is recorded with the id that
the peer sent last. -/
def FundsVerified (B : BtcLib K P) (skA : PrivateKey K) (past : Trace K P (SwapSlate K P))
    (s : SwapSlate K P) : Prop :=
  ∃ past₀ s₀ address txid pubX pubB lockTime,
    past = past₀ ++ [⟨s₀, .getAddressFinalBalance address, .ok s.pubSlate.btc.amount⟩] ∧
    0 < s.pubSlate.btc.amount ∧ (received past₀).getLast? = some txid ∧
    scriptToAddress B (lockPubScript B (B.publicKey skA) pubX pubB lockTime true) = .ok address ∧
    LockedMw B s skA pubX pubB lockTime txid

/-- The Grin part looks at the height of its chain only at its start. -/
theorem lockingGrinMw_height (rand : LockMwRand K) {s : SwapSlate K P}
    {past : Trace K P (SwapSlate K P)}
    {R : Trace K P (SwapSlate K P) → SwapSlate K P → Prop} (h : R past s) :
    (lockingGrinMw L rand s).Sat (fun past' s' op => op = .getBlockHeight → R past' s')
      (fun _ _ _ => True) past := by
  refine Prog.sat_request_bind (fun _ => h) fun ans grinHeight _ => Prog.sat_get_bind <|
    Prog.sat_lift_bind fun height _ => Prog.sat_lift_bind fun lockTime _ => Prog.sat_modify_bind <|
    sat_sendMsg_bind nofun <| dsharedOutMwTxAlice_only.sat_bind ?_ fun _ _ _ => Prog.sat_modify_bind <|
    Prog.sat_lift_bind fun _ _ => Prog.sat_lift_bind fun _ _ => dsharedInpMwTxBob_only.sat_bind ?_
    fun _ _ _ => Prog.sat_modify_bind <| Prog.sat_lift_bind fun tx _ => ⟨nofun, fun ans => ?_⟩
  · rintro _ op hop - rfl
    exact hop.elim
  · rintro _ op hop - rfl
    exact hop.elim
  · cases ans <;> trivial

theorem lockingPhaseSwapMw_verified (rand : LockMwRand K) (slate : SwapSlate K P)
    (past : Trace K P (SwapSlate K P)) :
    (lockingPhaseSwapMw L B rand slate).Sat
      (fun past' s op => op = .getBlockHeight → FundsVerified B (createPrivateKey rand.skA) past' s)
      (fun _ _ _ => True) past := by
  refine Prog.sat_modify_bind <| sat_sendMsg_bind nofun <|
    sat_receivePubKey_bind nofun fun _ pubB _ => Prog.sat_modify_bind <|
    sat_receivePubKey_bind nofun fun _ pubX _ => Prog.sat_modify_bind <|
    sat_receiveI64_bind nofun fun _ lockTime _ => Prog.sat_modify_bind <|
    Prog.sat_lift_bind fun pubScript hscript => Prog.sat_lift_bind fun addr haddr =>
    Prog.sat_request_bind nofun fun ans _ _ => sat_receiveMsg_bind nofun fun address =>
    sat_receiveMsg_bind nofun fun txid => ?_
  obtain rfl := getLockPubScript_eq_ok hscript
  split_ifs
  · exact Prog.sat_modify_bind trivial
  · refine Prog.sat_get_bind <| ((verifyFunds_sat _ _).mono ?_ fun _ _ _ h => h).bind ?_
    · rintro _ _ op hop rfl
      exact hop.elim
    · rintro past' s' verified ⟨rfl, hverified⟩
      cases verified with
      | false => exact Prog.sat_modify_bind trivial
      | true =>
        obtain ⟨hpos, past₀, hext, rfl⟩ := hverified rfl
        refine Prog.sat_modify_bind (lockingGrinMw_height rand ?_)
        refine ⟨past₀, _, addr, txid, pubX, pubB, lockTime, rfl, hpos, ?_, haddr,
          ⟨rfl, rfl, rfl, rfl, rfl, rfl⟩⟩
        rw [received_of_verifiesFunds hext, received_append]
        exact List.getLast?_concat

/-- The recorded lock is one of the outputs: it pays the amount of the swap to the recorded script. -/
def LockFunded (s : SwapSlate K P) (outputs : List UTXO) : Prop :=
  ∃ lock ∈ s.prvSlate.btc.lock, ∃ u ∈ outputs, u.outpoint = lock.outpoint ∧
    u.amount = s.pubSlate.btc.amount ∧ u.scriptPubKey = lock.pubScript

/-- When the funds are verified, the recorded lock is unspent and pays the amount exactly when no output
of the address but output 0 of the peer's id has a value. -/
theorem lockingPhaseSwapMw_funded_iff {rand : LockMwRand K} {slate s s₀ : SwapSlate K P}
    {past : Trace K P (SwapSlate K P)} {address id : String}
    {k : Outcome ℕ → Program K P (SwapSlate K P) Unit} (unspent : Unspent B address)
    (h : Steps (lockingPhaseSwapMw L B rand slate) (past ++ [⟨s₀, .getAddressFinalBalance address,
      getAddressFinalBalance L.overflowChecks id (unspent.response id)⟩]) (.call s .getBlockHeight k)) :
    ∃ txid pubX pubB lockTime, (received past).getLast? = some txid ∧
      LockedMw B s (createPrivateKey rand.skA) pubX pubB lockTime txid ∧
      (LockFunded s unspent.outputs ↔
        ∀ u ∈ unspent.outputs, 0 < u.amount → u.outpoint = OutPoint.ofText txid 0) := by
  obtain ⟨hverified, -⟩ := h.sat (lockingPhaseSwapMw_verified rand slate [])
  obtain ⟨past₀, s₀', address', txid, pubX, pubB, lockTime, hpast, hpos, htxid, haddress, hlocked⟩ :=
    hverified rfl
  rw [List.nil_append] at hpast
  obtain ⟨rfl, hlook⟩ := List.append_inj' hpast rfl
  rw [unspent.balance] at hlook
  simp only [List.cons.injEq, Event.mk.injEq, Op.getAddressFinalBalance.injEq, and_true] at hlook
  obtain ⟨-, rfl, hans⟩ := hlook
  have hsum : (unspent.outputs.map UTXO.amount).sum = s.pubSlate.btc.amount := by
    simpa using hans
  refine ⟨txid, pubX, pubB, lockTime, htxid, hlocked, ?_⟩
  rw [← unspent.holds_balance_iff (by omega) (OutPoint.ofText txid 0), hsum]
  constructor
  · rintro ⟨lock, hlock, u, hu, houtpoint, hamount, -⟩
    obtain rfl := Option.some.inj (hlocked.lock.symm.trans hlock)
    exact ⟨u, hu, houtpoint, hamount⟩
  · rintro ⟨u, hu, houtpoint, hamount⟩
    exact ⟨_, hlocked.lock, u, hu, houtpoint, hamount, unspent.pays u hu _ haddress⟩

/-- One output of the amount of the sample, with an index of the transaction `sampleTxid`. -/
def sampleUnspent (address : String) (vout : ℕ) : Unspent (btcExponents []) address where
  outputs := [⟨sampleTxid.toText, vout, address, address, 100000⟩]
  readable := by
    rw [List.forall_mem_singleton, UTXO.outpoint, OutPoint.ofText, Txid.ofText_toText (by decide)]
    rfl
  nodup := List.nodup_singleton _
  pays := by
    rw [List.forall_mem_singleton]
    intro script hscript
    exact (Except.ok.inj hscript).symm
  money := by
    show 100000 ≤ maxMoney
    decide

/-- The offerer of the sample verifies the funds with a peer that sends the id `sampleTxid`. -/
theorem sample_verified (vout : ℕ) : ∃ past s₀ address id s k,
    Steps (lockingPhaseSwapMw exponents (btcExponents []) sampleRand.lockMw sampleFunded)
      (past ++ [⟨s₀, .getAddressFinalBalance address, getAddressFinalBalance exponents.overflowChecks id
        ((sampleUnspent address vout).response id)⟩]) (.call s .getBlockHeight k) ∧
      (received past).getLast? = some sampleTxid.toText := by
  obtain ⟨lock, h⟩ := sample_lockable
  obtain ⟨past, s₀, hsteps, hreceived, -⟩ :=
    lockingPhaseSwapMw_steps (btcExponents_lawful []) h.toFundable sampleTxid.toText (.refl _)
  obtain ⟨s, k, hcall⟩ : ∃ s k, lockingGrinMw exponents sampleRand.lockMw _ = .call s .getBlockHeight k :=
    ⟨_, _, rfl⟩
  rw [hcall] at hsteps
  refine ⟨past, s₀, lock.address, "1", s, k, ?_, ?_⟩
  · rw [Unspent.balance]
    exact hsteps
  · rw [hreceived]
    rfl

theorem lockingPhaseSwapMw_funded_sample : ∃ t s k address,
    Steps (lockingPhaseSwapMw exponents (btcExponents []) sampleRand.lockMw sampleFunded) t
      (.call s .getBlockHeight k) ∧ LockFunded s (sampleUnspent address 0).outputs := by
  obtain ⟨past, s₀, address, id, s, k, hsteps, hlast⟩ := sample_verified 0
  obtain ⟨txid, pubX, pubB, lockTime, htxid, -, hiff⟩ := lockingPhaseSwapMw_funded_iff _ hsteps
  obtain rfl := Option.some.inj (hlast.symm.trans htxid)
  refine ⟨_, s, k, address, hsteps, hiff.mpr ?_⟩
  simp [sampleUnspent, UTXO.outpoint]

/-- The funds are at output 1 of the peer's transaction, and output 0 is recorded. -/
theorem lockingPhaseSwapMw_unfunded : ∃ past s₀ address id s k,
    Steps (lockingPhaseSwapMw exponents (btcExponents []) sampleRand.lockMw sampleFunded)
      (past ++ [⟨s₀, .getAddressFinalBalance address, getAddressFinalBalance exponents.overflowChecks id
        ((sampleUnspent address 1).response id)⟩]) (.call s .getBlockHeight k) ∧
      ¬ LockFunded s (sampleUnspent address 1).outputs := by
  obtain ⟨past, s₀, address, id, s, k, hsteps, -⟩ := sample_verified 1
  refine ⟨past, s₀, address, id, s, k, hsteps, ?_⟩
  obtain ⟨hverified, -⟩ := hsteps.sat (lockingPhaseSwapMw_verified _ _ [])
  obtain ⟨_, _, _, txid, _, _, _, -, -, -, -, hlocked⟩ := hverified rfl
  rintro ⟨lock, hlock, u, hu, houtpoint, -⟩
  obtain rfl := Option.some.inj (hlocked.lock.symm.trans hlock)
  obtain rfl := List.mem_singleton.mp hu
  rw [UTXO.outpoint, OutPoint.ofText, Txid.ofText_toText (by decide)] at houtpoint
  simp [BTCInput.outpoint, OutPoint.ofText, BTCInput.new2] at houtpoint

end MwBtcSwap
