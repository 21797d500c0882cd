import MwBtcSwap.Bitcoin.Signed
import MwBtcSwap.Bitcoin.Values
import MwBtcSwap.Swap.Refund

/-! The broadcast of the lock transaction: when all of its inputs are signed. -/

namespace MwBtcSwap

open Interaction Machine Script Grin Bitcoin

variable {K P : Type} [CommRing K] [AddCommGroup P] [Module K P] [DecidableEq K] [DecidableEq P]

variable {L : GrinLib K P} {B : BtcLib K P} {rand : LockBtcRand K} {slate : SwapSlate K P}
  {t : Trace K P (SwapSlate K P)} {q : Program K P (SwapSlate K P) Unit}

/-- An output that pays to a key, with the key. -/
structure ImportedP2pkh (B : BtcLib K P) (inp : BTCInput) : Prop where
  outpoint : inp.outpoint.isSome
  value : inp.value < 2 ^ 64
  key : ∃ sk : PrivateKey K, sk.key ≠ 0 ∧ B.fromWif inp.secret = some sk ∧
    Hex.decode inp.pubScript = some (getP2pkhPubScript B (B.publicKey sk))

/-- Every script hash has an address. -/
def P2shAddresses (B : BtcLib K P) : Prop :=
  ∀ script, (B.addressFromScript (p2sh B script) .testnet).isSome

/-- A transaction spends the inputs, and the script of each satisfies the one of its output. -/
def SpendsInputs (B : BtcLib K P) (inputs : List BTCInput) (tx : Bitcoin.Transaction) : Prop :=
  tx.input.map (fun i => some i.previousOutput) = inputs.map BTCInput.outpoint ∧
    ∀ (i : ℕ) (inp : BTCInput), inputs[i]? = some inp →
      ∃ script, Hex.decode inp.pubScript = some script ∧ B.satisfies tx i script = true

/-- Such a transaction was broadcast. -/
def BroadcastSigned (B : BtcLib K P) (inputs : List BTCInput) (t : Trace K P (SwapSlate K P)) : Prop :=
  ∃ e ∈ t, ∃ tx, e.op = .sendRawTransaction tx ∧ SpendsInputs B inputs tx

/-- The lock height is a number that the program can hold. -/
def LockHeightFits (checks : Bool) (height timelock : ℕ) : Prop :=
  ∃ lockHeight n, addU64 checks height timelock = .ok lockHeight ∧ i64OfU64 lockHeight = some n

/-- The peer acknowledges what is sent, and the node knows its height. -/
def Cooperates (height : ℕ) : Event (SwapSlate K P) (@Op.Ans K P) → Prop
  | ⟨_, .send _, ans⟩ => ans = .ok ()
  | ⟨_, .getCurrentBlockHeight, ans⟩ => ans = .ok height
  | _ => True

/-! ### The signed lock transaction -/

section Lock

variable {pubA pubX pubB pubR : PublicKey P} {inputs : List BTCInput} {amount : ℕ} {lockHeight : ℤ}
  {lock : SignedLock}

omit [CommRing K] [AddCommGroup P] [Module K P] [DecidableEq K] [DecidableEq P] in
/-- Signing takes a script for every input. -/
theorem length_le_of_signP2pkhTransaction {tx signed : Bitcoin.Transaction}
    {scripts : List (List UInt8)} {skeys : List (PrivateKey K)} {pkeys : List (PublicKey P)}
    (h : signP2pkhTransaction B tx scripts skeys pkeys = .ok signed) :
    tx.input.length ≤ scripts.length := by
  obtain ⟨inputs, hinputs, -⟩ := Outcome.bind_eq_ok.mp h
  by_contra hlt
  rw [Nat.not_le] at hlt
  have hmem : (tx.input[scripts.length], scripts.length) ∈ tx.input.zipIdx :=
    List.mk_mem_zipIdx_iff_getElem?.mpr (List.getElem?_eq_getElem hlt)
  obtain ⟨s, hs⟩ := Outcome.ok_of_mapM hinputs _ hmem
  simp only [Outcome.bind_eq_ok, Outcome.unwrap_eq_ok] at hs
  obtain ⟨script, hscript, -⟩ := hs
  simp at hscript

omit [CommRing K] [AddCommGroup P] [Module K P] [DecidableEq K] [DecidableEq P] in
theorem length_createLockTransaction {recvPk refundPk changePk : PublicKey P} {fee : ℕ}
    {tx : Bitcoin.Transaction}
    (h : createLockTransaction B recvPk pubX refundPk changePk inputs amount fee lockHeight = .ok tx) :
    tx.input.length = inputs.length := by
  obtain ⟨_, _, _, _, hinputs, -, -, rfl⟩ := createLockTransaction_ok h
  exact (lockInputs_ok hinputs).1

omit [DecidableEq K] [DecidableEq P] in
/-- Only a single input can be signed. -/
theorem length_of_signedLockTransaction
    (h : signedLockTransaction B pubA pubX pubB pubR inputs amount lockHeight = .ok lock) :
    inputs.length = 1 := by
  simp only [signedLockTransaction, Outcome.bind_eq_ok, Outcome.unwrap_eq_ok, Outcome.pure_eq_ok] at h
  obtain ⟨tx, htx, _, -, _, -, _, -, inp, hinp, script, -, sk, -, signed, hsigned, -⟩ := h
  have hle := length_le_of_signP2pkhTransaction hsigned
  rw [length_createLockTransaction htx, List.length_singleton] at hle
  obtain ⟨hpos, -⟩ := List.getElem?_eq_some_iff.mp hinp
  omega

omit [DecidableEq K] [DecidableEq P] in
/-- A single input that pays is signed with its key. -/
theorem signedLockTransaction_single (hB : B.Lawful) (hlong : LongSignatures B)
    (haddr : P2shAddresses B) {inp : BTCInput} (hinp : ImportedP2pkh B inp)
    (hfunds : amount + btcFee ≤ inp.value) (htime : 0 ≤ lockHeight) :
    ∃ lock, signedLockTransaction B pubA pubX pubB pubR [inp] amount lockHeight = .ok lock ∧
      SpendsInputs B [inp] lock.signedTx := by
  obtain ⟨sk, hkey, hwif, hscript⟩ := hinp.key
  obtain ⟨outpoint, houtpoint⟩ := Option.isSome_iff_exists.mp hinp.outpoint
  have hvalue := hinp.value
  have hsum : ([inp].map BTCInput.value).sum = inp.value := by simp
  have hcreate := createLockTransaction_of_le B pubA pubX pubB pubR htime
    (show [inp].map BTCInput.outpoint = [outpoint].map some by simp [houtpoint])
    (by rw [hsum]; exact hvalue) (by rw [hsum]; exact hfunds)
  generalize htx : (⟨1, 0, _, _⟩ : Bitcoin.Transaction) = tx at hcreate
  have hparallel : Parallel B tx.input.length [getP2pkhPubScript B (B.publicKey sk)] [sk]
      [B.publicKey sk] := by
    intro i hi
    obtain rfl : i = 0 := by simpa [← htx] using hi
    exact ⟨_, sk, rfl, rfl, rfl, hkey⟩
  obtain ⟨signed, hsigned, hsame, hinputs⟩ := signP2pkhTransaction_inputs hparallel
  -- the lock output and the change
  have hlockOut : tx.output[0]? = some ⟨amount, lockPubScript B pubA pubX pubB lockHeight true⟩ := by
    rw [← htx]
    rfl
  obtain ⟨chOut, hchOut⟩ : ∃ chOut, tx.output[1]? = some chOut := by
    rw [← htx]
    exact ⟨_, rfl⟩
  obtain ⟨address, haddress⟩ := Option.isSome_iff_exists.mp
    (haddr (assemble (lockScript B pubA pubX pubB lockHeight)))
  have hto : scriptToAddress B (lockPubScript B pubA pubX pubB lockHeight true) = .ok address :=
    Outcome.unwrap_eq_ok.mpr haddress
  refine ⟨⟨signed, ⟨amount, lockPubScript B pubA pubX pubB lockHeight true⟩, chOut, address⟩, ?_, ?_⟩
  · simp only [signedLockTransaction, hcreate, hlockOut, hchOut, hto, hscript, hwif, hsigned,
      deserializeScript, deserializePrivKey, List.getElem?_cons_zero, Outcome.unwrap_some,
      Outcome.ok_bind, Outcome.pure_eq_ok]
  · obtain ⟨s, hs⟩ : ∃ s, signed.input = [s] := by
      rw [← List.length_eq_one_iff, hsame.length, ← htx]
      rfl
    obtain ⟨u, script, key, hu, hown, hown', -, rfl⟩ := hinputs 0 s (by rw [hs]; rfl)
    cases hown
    cases hown'
    have hout : u.previousOutput = outpoint := by
      rw [← htx] at hu
      cases hu
      rfl
    refine ⟨?_, fun i inp' hi => ?_⟩
    · simp [hs, houtpoint, signedP2pkhInput, hout]
    · obtain ⟨rfl, rfl⟩ : i = 0 ∧ inp = inp' := by
        cases i with
        | zero => exact ⟨rfl, Option.some.inj hi⟩
        | succ i => cases hi
      refine ⟨_, hscript, ?_⟩
      apply satisfies_signedP2pkhInput hB hlong hkey hsame.blank (u := u)
      show signed.input[0]? = _
      rw [hs]
      rfl

end Lock

/-! ### Runs of the locking phase -/

section Runs

variable {α : Type} {s : SwapSlate K P} {p : Program K P (SwapSlate K P) α} {height : ℕ}

omit [CommRing K] [AddCommGroup P] [Module K P] [DecidableEq K] [DecidableEq P] in
/-- A run that ended goes on after a message that is acknowledged. -/
theorem sendMsg_ended {msg : Msg K P} {f : Unit → Process K P (SwapSlate K P) α}
    (h : Steps ((sendMsg msg s).bind f) t p) (hp : p.Ended) (hcoop : ∀ e ∈ t, Cooperates height e) :
    ∃ t', t = ⟨s, .send msg, .ok ()⟩ :: t' ∧ Steps (f () s) t' p := by
  obtain ⟨ans, t', rfl, hgo⟩ := h.request_bind_ended hp
  obtain rfl : ans = .ok () := hcoop _ List.mem_cons_self
  rcases hgo with ⟨e, he, -⟩ | ⟨_, -, h⟩
  · cases he
  · exact ⟨t', rfl, h⟩

omit [CommRing K] [AddCommGroup P] [Module K P] [DecidableEq K] [DecidableEq P] in
/-- A run that ended goes on after a key that can be read. -/
theorem receivePubKey_ended {f : PublicKey P → Process K P (SwapSlate K P) α} {msg : String}
    {pk : PublicKey P} (h : Steps ((receivePubKey B s).bind f) t p) (hp : p.Ended)
    (hmsg : (received t).head? = some msg) (hpk : deserializePubKey B msg = .ok pk) :
    ∃ t', t = ⟨s, .recv, .ok msg⟩ :: t' ∧ Steps (f pk s) t' p := by
  simp only [receivePubKey, Proc.bind_apply, Prog.bind_assoc] at h
  obtain ⟨ans, t', rfl, hgo⟩ := h.request_bind_ended hp
  rcases hgo with ⟨e, he, rfl⟩ | ⟨msg', hread, hrest⟩
  · -- nothing was received
    cases ans with
    | ok text => cases he
    | error e' => cases hmsg
  · obtain rfl := Outcome.expect_eq_ok.mp hread
    obtain rfl : msg' = msg := by simpa [received?] using hmsg
    rw [hpk] at hrest
    exact ⟨t', rfl, hrest⟩

end Runs

/-- A run of the locking phase goes to the signed lock transaction, or stops at a lock height that
does not fit. -/
theorem lockingPhaseSwapBtc_toLock {height : ℕ} {msg : String} {pubA : PublicKey P}
    (h : Steps (lockingPhaseSwapBtc L B rand slate) t q) (hq : q.Ended)
    (hmsg : (received t).head? = some msg) (hpk : deserializePubKey B msg = .ok pubA)
    (hcoop : ∀ e ∈ t, Cooperates height e) :
    ∃ t₁ t₂, t = t₁ ++ t₂ ∧ (∀ e ∈ t₁, ∀ tx, e.op ≠ .sendRawTransaction tx) ∧
      (¬ LockHeightFits L.overflowChecks height slate.pubSlate.btc.timelock ∧ t₂ = [] ∨
        ∃ (lockHeight : ℤ) (s : SwapSlate K P)
          (f : SignedLock → Unit → Process K P (SwapSlate K P) Unit),
          LockHeightFits L.overflowChecks height slate.pubSlate.btc.timelock ∧ 0 ≤ lockHeight ∧
          Steps ((Proc.lift (signedLockTransaction B pubA (B.publicKey (createPrivateKey rand.x))
            (B.publicKey (createPrivateKey rand.skB)) (B.publicKey (createPrivateKey rand.skR))
            slate.prvSlate.btc.inputs slate.pubSlate.btc.amount lockHeight) s).bind
              fun lock => sendRawTransaction lock.signedTx >>= f lock) t₂ q) := by
  obtain ⟨t₁, rfl, h₁⟩ := receivePubKey_ended h hq hmsg hpk
  have hcoop₁ := fun e he => hcoop e (List.mem_cons_of_mem _ he)
  obtain ⟨t₂, rfl, h₂⟩ := sendMsg_ended h₁ hq hcoop₁
  have hcoop₂ := fun e he => hcoop₁ e (List.mem_cons_of_mem _ he)
  obtain ⟨t₃, rfl, h₃⟩ := sendMsg_ended h₂ hq hcoop₂
  have hcoop₃ := fun e he => hcoop₂ e (List.mem_cons_of_mem _ he)
  obtain ⟨ans, t₄, rfl, hheight⟩ := h₃.request_bind_ended hq
  obtain rfl : ans = .ok height := hcoop₃ _ List.mem_cons_self
  have hcoop₄ := fun e he => hcoop₃ e (List.mem_cons_of_mem _ he)
  rcases hheight with ⟨e, he, -⟩ | ⟨_, hread, h₄⟩
  · cases he
  cases hread
  rcases h₄.lift_bind_inv with ⟨e, he, rfl, -⟩ | ⟨lockHeight, hlock, h₅⟩
  · refine ⟨_, [], (List.append_nil _).symm, ?_, .inl ⟨?_, rfl⟩⟩
    · simp
    · rintro ⟨lockHeight, n, hlock, -⟩
      rw [hlock] at he
      cases he
  rcases h₅.lift_bind_inv with ⟨e, he, rfl, -⟩ | ⟨btcLockHeight, hfits, h₆⟩
  · refine ⟨_, [], (List.append_nil _).symm, ?_, .inl ⟨?_, rfl⟩⟩
    · simp
    · rintro ⟨lockHeight', n, hlock', hn⟩
      obtain rfl := Except.ok.inj (hlock.symm.trans hlock')
      rw [hn] at he
      cases he
  obtain ⟨t₅, rfl, h₇⟩ := sendMsg_ended h₆ hq hcoop₄
  have hfits := Outcome.unwrap_eq_ok.mp hfits
  obtain ⟨-, rfl⟩ := i64OfU64_eq_some hfits
  refine ⟨[_, _, _, _, _], t₅, rfl, ?_, .inr ⟨lockHeight, _, _, ⟨lockHeight, _, hlock, hfits⟩,
    Int.natCast_nonneg _, h₇⟩⟩
  simp

/-- Nothing is broadcast for more than one input. -/
theorem length_of_broadcast {height : ℕ} {msg : String} {pubA : PublicKey P}
    (h : Steps (lockingPhaseSwapBtc L B rand slate) t q) (hq : q.Ended)
    (hmsg : (received t).head? = some msg) (hpk : deserializePubKey B msg = .ok pubA)
    (hcoop : ∀ e ∈ t, Cooperates height e) {inputs : List BTCInput} (hsent : BroadcastSigned B inputs t) :
    slate.prvSlate.btc.inputs.length = 1 ∧
      LockHeightFits L.overflowChecks height slate.pubSlate.btc.timelock := by
  obtain ⟨e, he, tx, hop, -⟩ := hsent
  obtain ⟨t₁, t₂, rfl, hno, hrest⟩ := lockingPhaseSwapBtc_toLock h hq hmsg hpk hcoop
  have he : e ∈ t₂ := (List.mem_append.mp he).resolve_left fun he => hno e he tx hop
  rcases hrest with ⟨-, rfl⟩ | ⟨lockHeight, s, f, hfits, -, hrun⟩
  · cases he
  rcases hrun.lift_bind_inv with ⟨_, -, rfl, -⟩ | ⟨lock, hlock, -⟩
  · cases he
  · exact ⟨length_of_signedLockTransaction hlock, hfits⟩

/-- The lock transaction of imported P2PKH outputs that pay for it is broadcast, with a script for each
of them, exactly when it is a single one and the lock height fits. -/
theorem lockingPhaseSwapBtc_signs_all_iff (hB : B.Lawful) (hlong : LongSignatures B)
    (haddr : P2shAddresses B) {height : ℕ} {msg : String} {pubA : PublicKey P}
    (hinputs : ∀ inp ∈ slate.prvSlate.btc.inputs, ImportedP2pkh B inp)
    (hfunds : slate.pubSlate.btc.amount + btcFee ≤ (slate.prvSlate.btc.inputs.map BTCInput.value).sum)
    (h : Steps (lockingPhaseSwapBtc L B rand slate) t q) (hq : q.Ended)
    (hmsg : (received t).head? = some msg) (hpk : deserializePubKey B msg = .ok pubA)
    (hcoop : ∀ e ∈ t, Cooperates height e) :
    BroadcastSigned B slate.prvSlate.btc.inputs t ↔
      slate.prvSlate.btc.inputs.length = 1 ∧
        LockHeightFits L.overflowChecks height slate.pubSlate.btc.timelock := by
  constructor
  · exact length_of_broadcast h hq hmsg hpk hcoop
  · rintro ⟨hlength, hfits⟩
    obtain ⟨t₁, t₂, rfl, -, hrest⟩ := lockingPhaseSwapBtc_toLock h hq hmsg hpk hcoop
    rcases hrest with ⟨hnot, -⟩ | ⟨lockHeight, s, f, -, htime, hrun⟩
    · exact (hnot hfits).elim
    obtain ⟨inp, hinp⟩ := List.length_eq_one_iff.mp hlength
    rw [hinp] at hinputs hfunds hrun ⊢
    obtain ⟨lock, hlock, hspends⟩ := signedLockTransaction_single hB hlong haddr
      (hinputs inp List.mem_cons_self) (show _ ≤ inp.value by simpa using hfunds) htime
    rw [hlock] at hrun
    obtain ⟨ans, t', rfl, -⟩ := hrun.request_bind_ended hq
    exact ⟨_, List.mem_append_right _ List.mem_cons_self, lock.signedTx, rfl, hspends⟩

/-! ### Samples -/

/-- A peer that sends one key, and nodes that know a height. -/
def keySender (msg : String) (height : ℕ) : (op : Op K P) → op.Ans
  | .send _ => .ok ()
  | .recv => .ok msg
  | .getCurrentBlockHeight => .ok height
  | op => noPeer 0 height op

theorem exists_ended_keySender (L : GrinLib K P) (B : BtcLib K P) (rand : LockBtcRand K)
    (slate : SwapSlate K P) (msg : String) (height : ℕ) :
    ∃ t q, Steps (lockingPhaseSwapBtc L B rand slate) t q ∧ q.Ended ∧
      (received t).head? = some msg ∧ ∀ e ∈ t, Cooperates height e := by
  obtain ⟨t, q, hsteps, hq, henv⟩ := Prog.exists_ended (keySender msg height)
    (lockingPhaseSwapBtc L B rand slate)
  refine ⟨t, q, hsteps, hq, ?_, ?_⟩
  · cases hsteps with
    | refl => exact hq.elim
    | @step _ _ _ ans =>
      obtain rfl : ans = .ok msg := henv _ List.mem_cons_self
      rfl
  · rintro ⟨s, op, ans⟩ he
    have hans := henv _ he
    cases op with
    | send msg => exact hans
    | getCurrentBlockHeight => exact hans
    | _ => trivial

/-- An output to a key, at a place of the transaction of the sample. -/
def sampleP2pkhInput (vout : ℕ) (key : Scalar) : BTCInput :=
  BTCInput.new2 (btcExponents []) sampleTxid.toText vout 60000 (createPrivateKey key)
    ((btcExponents []).publicKey (createPrivateKey key))
    (getP2pkhPubScript (btcExponents []) ((btcExponents []).publicKey (createPrivateKey key)))

/-- The taker of the sample with two outputs to two keys. -/
def sampleTwoInputs : SwapSlate Scalar Scalar :=
  { sampleSlate with prvSlate.btc.inputs := [sampleP2pkhInput 0 4, sampleP2pkhInput 1 6] }

omit [DecidableEq K] [DecidableEq P] in
theorem imported_new2 (hB : B.Lawful) {txid : String} {vout value : ℕ} {sk : PrivateKey K}
    (hout : (OutPoint.ofText txid vout).isSome) (hvalue : value < 2 ^ 64) (hkey : sk.key ≠ 0) :
    ImportedP2pkh B (BTCInput.new2 B txid vout value sk (B.publicKey sk)
      (getP2pkhPubScript B (B.publicKey sk))) where
  outpoint := hout
  value := hvalue
  key := ⟨sk, hkey, hB.wif_codec sk hkey, Hex.decode_encode _⟩

theorem sample_imported : ImportedP2pkh (btcExponents []) sampleBtcInput :=
  imported_new2 (btcExponents_lawful []) (by decide +kernel) (by norm_num) (by decide)

theorem btcExponents_longSignatures (marked : List UInt8) : LongSignatures (btcExponents marked) := by
  intro msg k
  simp [btcExponents, Bitcoin.Exponents.signature, Grin.Exponents.scalarBytes]

theorem btcExponents_p2shAddresses (marked : List UInt8) : P2shAddresses (btcExponents marked) :=
  fun _ => rfl

theorem lockingPhaseSwapBtc_signs_all_sample : ∃ t q,
    Steps (lockingPhaseSwapBtc exponents (btcExponents []) sampleRand.lockBtc sampleTaker) t q ∧
      BroadcastSigned (btcExponents []) sampleTaker.prvSlate.btc.inputs t := by
  obtain ⟨t, q, hsteps, hq, hmsg, hcoop⟩ := exists_ended_keySender exponents (btcExponents [])
    sampleRand.lockBtc sampleTaker (serializePubKey (btcExponents []) ⟨true, 3⟩) 700000
  refine ⟨t, q, hsteps, (lockingPhaseSwapBtc_signs_all_iff (btcExponents_lawful [])
    (btcExponents_longSignatures []) (btcExponents_p2shAddresses []) ?_ ?_ hsteps hq hmsg
    (deserializePubKey_serialize (btcExponents_lawful []) (by decide)) hcoop).mpr ⟨rfl, ?_⟩⟩
  · intro inp hinp
    obtain rfl := List.mem_singleton.mp hinp
    exact sample_imported
  · decide
  · exact ⟨700040, 700040, rfl, rfl⟩

/-- With two outputs nothing is broadcast. -/
theorem lockingPhaseSwapBtc_second_input : ∃ t q,
    Steps (lockingPhaseSwapBtc exponents (btcExponents []) sampleRand.lockBtc sampleTwoInputs) t q ∧
      q.Ended ∧ (∀ e ∈ t, Cooperates 700000 e) ∧
      (∀ inp ∈ sampleTwoInputs.prvSlate.btc.inputs, ImportedP2pkh (btcExponents []) inp) ∧
      sampleTwoInputs.pubSlate.btc.amount + btcFee ≤
        (sampleTwoInputs.prvSlate.btc.inputs.map BTCInput.value).sum ∧
      ¬ BroadcastSigned (btcExponents []) sampleTwoInputs.prvSlate.btc.inputs t := by
  obtain ⟨t, q, hsteps, hq, hmsg, hcoop⟩ := exists_ended_keySender exponents (btcExponents [])
    sampleRand.lockBtc sampleTwoInputs (serializePubKey (btcExponents []) ⟨true, 3⟩) 700000
  refine ⟨t, q, hsteps, hq, hcoop, ?_, by decide, fun hsent => ?_⟩
  · intro inp hinp
    simp only [sampleTwoInputs, List.mem_cons, List.not_mem_nil, or_false] at hinp
    rcases hinp with rfl | rfl
    · exact imported_new2 (btcExponents_lawful []) (by decide +kernel) (by norm_num) (by decide)
    · exact imported_new2 (btcExponents_lawful []) (by decide +kernel) (by norm_num) (by decide)
  · obtain ⟨hlength, -⟩ := length_of_broadcast hsteps hq hmsg
      (deserializePubKey_serialize (btcExponents_lawful []) (by decide)) hcoop hsent
    cases hlength

end MwBtcSwap
