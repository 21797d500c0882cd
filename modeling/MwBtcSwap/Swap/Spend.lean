import MwBtcSwap.Swap.Locked
import MwBtcSwap.Swap.Times

/-! The Bitcoin lock from its creation to its two spends.  Both parties rebuild the script that the
lock output hashes, the receiver's transaction and the refund spend the output, and nothing else
does. -/

namespace MwBtcSwap

open Interaction Machine Grin Bitcoin Script

variable {K P : Type} [CommRing K] [AddCommGroup P] [Module K P]

variable {L : GrinLib K P} {B : BtcLib K P}

/-- The transaction that spends an output of a value to a key, before it is signed. -/
def spendOf (B : BtcLib K P) (recvPk : PublicKey P) (txid : Txid) (amount time : ℕ) :
    Bitcoin.Transaction :=
  ⟨1, time, [⟨⟨txid, 0⟩, [], if time = 0 then finalSequence else 0, []⟩],
    [⟨amount - btcFee, getP2pkhPubScript B recvPk⟩]⟩

omit [CommRing K] [AddCommGroup P] [Module K P] in
/-- `create_spend_lock_transaction` on an output that a party stored. -/
theorem createSpendLockTransaction_new2 {recvPk pk : PublicKey P} {sk : PrivateKey K} {txid : Txid}
    {amount time : ℕ} {script : List UInt8} (htxid : txid.bytes.length = 32)
    (hamount : btcFee ≤ amount) :
    createSpendLockTransaction B recvPk (BTCInput.new2 B txid.toText 0 amount sk pk script) amount
      btcFee time = .ok (spendOf B recvPk txid amount time) := by
  simp [createSpendLockTransaction, unsignedInput, BTCInput.new2, Txid.ofText_toText htxid,
    subU64_of_le hamount, spendOf]

section Keys

variable {skA skB x : K} {lockTime : ℕ} {mw btc : SwapSlate K P} {txid : Txid}

/-- The key of a nonzero point is not zero. -/
theorem createPrivateKey_ne_zero {k : K} {G : P} (h : k • G ≠ 0) : (createPrivateKey k).key ≠ 0 := by
  intro hk
  have hzero : k = 0 := hk
  rw [hzero, zero_smul] at h
  exact h rfl

/-- What `exec_phase_swap_mw` builds from its slate and the witness. -/
theorem signedRedeemTransaction_eq (hB : B.Lawful) (hC : SameCurve L B) (hA : skA • B.G ≠ 0)
    (hX : x • B.G ≠ 0) (hR : skB • B.G ≠ 0) (hamount : btcFee ≤ mw.pubSlate.btc.amount)
    (hmw : LockedMw B mw (createPrivateKey skA) (B.publicKey (createPrivateKey x))
      (B.publicKey (createPrivateKey skB)) lockTime txid.toText)
    (htxid : txid.bytes.length = 32) (pk : PublicKey P) :
    signedRedeemTransaction L B mw pk x =
      .ok (signLockTransactionRedeemer B (spendOf B pk txid mw.pubSlate.btc.amount 0) 0
        (lockOf B skA x skB lockTime false) (createPrivateKey skA) (createPrivateKey x),
        lockOf B skA x skB lockTime false) := by
  have hpub : ∀ {k : K}, k • B.G ≠ 0 →
      deserializePubKey B (serializePubKey B (B.publicKey (createPrivateKey k))) =
        .ok (B.publicKey (createPrivateKey k)) := fun h => deserializePubKey_serialize hB h
  have hx : privateKeyFromGrinSk B (L.secretToBytes x) = .ok (createPrivateKey x) :=
    (hC.privateKey (createPrivateKey_ne_zero hX)).2
  have hsk : deserializePrivKey B (serializePrivKey B (createPrivateKey skA)) =
      .ok (createPrivateKey skA) := deserializePrivKey_serialize hB (createPrivateKey_ne_zero hA)
  simp only [signedRedeemTransaction, hmw.recvKey, hmw.refundKey, hmw.statement, hmw.sk, hmw.lock,
    hmw.time, Outcome.unwrap_some, hpub hA, hpub hX, hpub hR, hx, hsk,
    createSpendLockTransaction_new2 htxid hamount, getLockPubScript_of_nonneg B (Int.natCast_nonneg _),
    Outcome.ok_bind, Outcome.pure_eq_ok, lockOf]

/-- What `refund_phase_swap_btc` builds from its slate. -/
theorem signedRefundTransaction_eq (hB : B.Lawful) (hA : skA • B.G ≠ 0) (hX : x • B.G ≠ 0)
    (hR : skB • B.G ≠ 0) (htime : lockTime < 2 ^ 32) (hamount : btcFee ≤ btc.pubSlate.btc.amount)
    (hbtc : LockedBtc B btc (createPrivateKey skB) (createPrivateKey x)
      (B.publicKey (createPrivateKey skA)) lockTime txid.toText)
    (htxid : txid.bytes.length = 32) (pk : PublicKey P) :
    signedRefundTransaction B btc pk =
      .ok (signLockTransactionRefund B (spendOf B pk txid btc.pubSlate.btc.amount lockTime) 0
        (lockOf B skA x skB lockTime false) (createPrivateKey skB),
        lockOf B skA x skB lockTime false) := by
  have hpub : deserializePubKey B (serializePubKey B (B.publicKey (createPrivateKey skA))) =
      .ok (B.publicKey (createPrivateKey skA)) := deserializePubKey_serialize hB hA
  have hsk : ∀ {k : K}, k • B.G ≠ 0 →
      deserializePrivKey B (serializePrivKey B (createPrivateKey k)) = .ok (createPrivateKey k) :=
    fun h => deserializePrivKey_serialize hB (createPrivateKey_ne_zero h)
  have hu32 : u32OfI64 lockTime = some lockTime := u32OfI64_natCast htime
  simp only [signedRefundTransaction, Outcome.bind_eq_ok, Outcome.unwrap_eq_ok]
  exact ⟨_, hbtc.recvKey, _, hpub, _, hbtc.sk, _, hsk hR, _, hbtc.witness, _, hsk hX, _, hbtc.time, _,
    hbtc.lock, _, hu32, _, createSpendLockTransaction_new2 htxid hamount, _,
    getLockPubScript_of_nonneg B (Int.natCast_nonneg _), rfl⟩

/-- The lock of two slates, from its output to its spends: the output of the lock transaction pays to
the hash of the script that both parties rebuild, the receiver's transaction satisfies it, the refund
satisfies it and is final once `can_refund` says so, and whatever satisfies it carries the signatures
of a branch. -/
theorem lock_spent_as_intended (hB : B.Lawful) (hC : SameCurve L B)
    (hA : skA • B.G ≠ 0) (hX : x • B.G ≠ 0) (hR : skB • B.G ≠ 0) (hpos : 1 ≤ lockTime)
    (htime : lockTime < 2 ^ 32) {amount : ℕ} (hamount : btcFee ≤ amount)
    (hmwAmount : mw.pubSlate.btc.amount = amount) (hbtcAmount : btc.pubSlate.btc.amount = amount)
    (htxid : txid.bytes.length = 32)
    (hmw : LockedMw B mw (createPrivateKey skA) (B.publicKey (createPrivateKey x))
      (B.publicKey (createPrivateKey skB)) lockTime txid.toText)
    (hbtc : LockedBtc B btc (createPrivateKey skB) (createPrivateKey x)
      (B.publicKey (createPrivateKey skA)) lockTime txid.toText)
    (hbind : B.Binds (lockOf B skA x skB lockTime false)) :
    (∀ pubR inputs tx, createLockTransaction B (B.publicKey (createPrivateKey skA))
        (B.publicKey (createPrivateKey x)) (B.publicKey (createPrivateKey skB)) pubR inputs amount
        btcFee lockTime = .ok tx →
      tx.output[0]? = some ⟨amount, p2sh B (lockOf B skA x skB lockTime false)⟩) ∧
    (∀ pk, ∃ tx, signedRedeemTransaction L B mw pk x = .ok (tx, lockOf B skA x skB lockTime false) ∧
      B.satisfies tx 0 (p2sh B (lockOf B skA x skB lockTime false)) = true) ∧
    (∀ pk, ∃ tx, signedRefundTransaction B btc pk = .ok (tx, lockOf B skA x skB lockTime false) ∧
      B.satisfies tx 0 (p2sh B (lockOf B skA x skB lockTime false)) = true ∧
      ∀ t heightBtc mtp, Steps (canRefund btc) t (.ret btc true) →
        ⟨btc, .getCurrentBlockHeight, .ok heightBtc⟩ ∈ t → lockTime < lockTimeThreshold →
        tx.IsFinal heightBtc mtp) ∧
    ∀ tx ix, B.satisfies tx ix (p2sh B (lockOf B skA x skB lockTime false)) = true →
      Authorized B (B.publicKey (createPrivateKey skA)) (B.publicKey (createPrivateKey x))
        (B.publicKey (createPrivateKey skB)) lockTime tx ix := by
  have hshort : (scriptInt (lockTime : ℤ)).length < 9 := length_scriptInt_of_lt (by omega)
  have hp2sh : p2sh B (lockOf B skA x skB lockTime false) = lockOf B skA x skB lockTime true := rfl
  rw [hp2sh]
  refine ⟨fun pubR inputs tx hcreate => ?_, fun pk => ?_, fun pk => ?_, fun tx ix hsat => ?_⟩
  · obtain ⟨change, hout⟩ := createLockTransaction_output hcreate
    rw [hout]
    rfl
  · refine ⟨_, signedRedeemTransaction_eq hB hC hA hX hR (hmwAmount ▸ hamount) hmw htxid pk, ?_⟩
    exact satisfies_of_spend hB (.inr (redeemSpend_sign hB hshort (createPrivateKey_ne_zero hA)
      (createPrivateKey_ne_zero hX) rfl))
  · refine ⟨_, signedRefundTransaction_eq hB hA hX hR htime (hbtcAmount ▸ hamount) hbtc htxid pk,
      ?_, ?_⟩
    · refine satisfies_of_spend hB (.inl (refundSpend_sign hB hshort (createPrivateKey_ne_zero hR)
        rfl ?_ rfl htime))
      simp [show lockTime ≠ 0 by omega, finalSequence]
    · intro t heightBtc mtp hcan hheight hkind
      obtain ⟨lockGrin, lockBtc, heightGrin, height', -, hlock, rfl, -, hpassed⟩ :=
        steps_compareTimes.mp hcan
      obtain rfl : heightBtc = height' := by simpa using hheight
      obtain rfl : (lockTime : ℤ) = lockBtc := Option.some.inj (hbtc.time.symm.trans hlock)
      have hlt : (lockTime : ℤ) < heightBtc := (bothPassed_iff.mp hpassed).2.2.2
      refine isFinal_of_passed rfl ?_
      rw [if_pos (by exact_mod_cast hkind)]
      exact hlt
  · exact authorized_of_satisfies hB hbind (by omega) hsat

end Keys

/-- The hash that tells the lock script of the keys 3, 5 and 7 until height 700000 apart. -/
def sampleBtc : BtcLib Scalar Scalar := btcExponents (lockOf (btcExponents []) 3 5 7 700000 false)

/-- The lock of these keys is redeemed and refunded. -/
theorem lock_spent_sample :
    let mw := (lockedSlates sampleBtc 3 5 7 700000 100000 sampleTxid).1
    let btc := (lockedSlates sampleBtc 3 5 7 700000 100000 sampleTxid).2
    let lock := lockOf sampleBtc 3 5 7 700000 false
    (∀ pk, ∃ tx, signedRedeemTransaction exponents sampleBtc mw pk 5 = .ok (tx, lock) ∧
      sampleBtc.satisfies tx 0 (p2sh sampleBtc lock) = true) ∧
    ∀ pk, ∃ tx, signedRefundTransaction sampleBtc btc pk = .ok (tx, lock) ∧
      sampleBtc.satisfies tx 0 (p2sh sampleBtc lock) = true := by
  intro mw btc lock
  have hbind : sampleBtc.Binds lock := btcExponents_binds _
  have hG : ∀ k : Scalar, k ≠ 0 → k • sampleBtc.G ≠ 0 := by
    intro k hk
    simpa [sampleBtc, btcExponents] using hk
  obtain ⟨-, hredeem, hrefund, -⟩ := @lock_spent_as_intended Scalar Scalar _ _ _ exponents
    sampleBtc 3 7 5 700000 mw btc sampleTxid (btcExponents_lawful _) (exponents_sameCurve _)
    (hG 3 (by decide)) (hG 5 (by decide)) (hG 7 (by decide)) (by decide) (by decide) 100000
    (by decide) rfl rfl (by decide) ⟨rfl, rfl, rfl, rfl, rfl, rfl⟩ ⟨rfl, rfl, rfl, rfl, rfl⟩ hbind
  exact ⟨hredeem, fun pk => (hrefund pk).imp fun _ h => ⟨h.1, h.2.1⟩⟩

end MwBtcSwap
