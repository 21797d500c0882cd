import MwBtcSwap.Grin.Accepted
import MwBtcSwap.Swap.Arguments
import MwBtcSwap.Swap.Files
import MwBtcSwap.Swap.History
import MwBtcSwap.Swap.Refund

/-! The slate files along a session are never such that reading them panics: every number that a command
puts into its slate fits the type in which it is written.  The exception is a command that stops while it
makes the files of a swap, which are created empty. -/

namespace MwBtcSwap

open Schnorr Interaction Machine Grin Bitcoin Json

variable {K P : Type} [CommRing K] [AddCommGroup P] [Module K P] [DecidableEq K] [DecidableEq P]

variable {L : GrinLib K P} {B : BtcLib K P} {J : JsonLib} {tx : Codec (Grin.Transaction K P)}
  {sha256 : String → String} {settings : Settings} {rand : Rand K} {dir dir₁ : Directory} {σ : Type}

/-- What the crates of the Grin side read is in range: the amount of a proof context is a `u64`, and a
valid transaction can be written. -/
structure Sized (L : GrinLib K P) (tx : Codec (Grin.Transaction K P)) : Prop where
  ctx : ∀ text ctx, L.ctxFromJson text = some ctx → ctx.amount < 2 ^ 64
  tx : ∀ t, L.validate t = true → tx.InRange t

/-! ### The coins of the protocols -/

section Protocols

variable {spend : SpendRand K} {drand : DRecvRand K} {recv : RecvRand K} {sigNonce x : K} {inp : MWCoin}
  {inputs : List MWCoin} {fundValue timelock participants : ℕ}

omit [DecidableEq K] in
theorem Finalizes.returns {α : Type} {p : Process K P σ α} {f : α → Option (Grin.Transaction K P)}
    (h : Finalizes L p f) : p.Returns fun r => ∃ t, f r = some t ∧ L.validate t = true := fun s past =>
  (h s past).mono (fun _ _ _ _ => trivial) fun _ _ _ hr => hr.2.2

/-- The change is what is left of an `i64`. -/
theorem spendCoins_change {numOfOutputs : ℕ} {r : SpendCoinsResult K P}
    (h : spendCoins L spend inputs fundValue timelock numOfOutputs participants = .ok r) :
    ∀ coin ∈ r.changeCoin, MWCoin.InRange coin := by
  obtain ⟨inpval, -, -, change, -, -, -, -, -, -, hinp, -, -, hchange, hcoin, -⟩ := spendCoins_eq_ok h
  have hvalue := changeOutput_value hchange
  rintro coin hmem
  rw [← hcoin, Option.mem_def.mp hmem, Option.elim_some] at hvalue
  rw [MWCoin.InRange, hvalue]
  omega

theorem dsharedOutMwTxAlice_inRange (hL : Sized L tx) :
    (dsharedOutMwTxAlice L spend drand inputs fundValue timelock : Process K P σ _).Returns fun r =>
      MWCoin.InRange r.sharedCoin ∧ ∀ coin ∈ r.changeCoin, MWCoin.InRange coin := by
  intro s past
  refine Prog.sat_lift_bind fun _ hspend => Prog.sat_lift_bind fun _ _ =>
    Prog.sat_request_bind trivial fun _ _ _ => Prog.sat_request_bind trivial fun _ _ _ =>
    Prog.sat_request_bind trivial fun _ _ _ => Prog.sat_request_bind trivial fun _ _ _ =>
    Prog.sat_lift_bind fun _ _ => Prog.sat_lift_bind fun ctx hctx => Prog.sat_lift_bind fun recv hrecv =>
    Prog.sat_lift_bind fun _ _ => Prog.sat_request_bind trivial fun _ _ _ => ?_
  refine ⟨?_, spendCoins_change (Outcome.expect_eq_ok.mp hspend)⟩
  -- the shared coin has the amount that the peer's proof context names
  simp only [MPBPContext.fromText, Outcome.bind_eq_ok, Outcome.unwrap_eq_ok, Outcome.pure_eq_ok,
    Except.ok.injEq] at hctx
  obtain ⟨ser, hser, _, -, _, -, _, -, _, -, _, -, rfl⟩ := hctx
  simp only [Outcome.expect_eq_ok, drecvCoinsR3, Outcome.bind_eq_ok, Outcome.pure_eq_ok,
    Except.ok.injEq] at hrecv
  obtain ⟨_, -, _, -, _, -, _, -, _, -, rfl⟩ := hrecv
  exact hL.ctx _ ser hser

end Protocols

omit [DecidableEq K] [DecidableEq P] in
/-- The change of the lock transaction is a `u64`. -/
theorem signedLockTransaction_chOut {pubA pubX pubB pubR : PublicKey P} {inputs : List BTCInput}
    {amount : ℕ} {lockHeight : ℤ} {lock : SignedLock}
    (h : signedLockTransaction B pubA pubX pubB pubR inputs amount lockHeight = .ok lock) :
    lock.chOut.value < 2 ^ 64 := by
  simp only [signedLockTransaction, Outcome.bind_eq_ok, Outcome.unwrap_eq_ok, Outcome.pure_eq_ok,
    Except.ok.injEq] at h
  obtain ⟨txLock, hcreate, _, -, chOut, hchOut, _, -, _, -, _, -, _, -, _, -, rfl⟩ := h
  obtain ⟨_, _, _, change, hinputs, hrest, hchange, rfl⟩ := createLockTransaction_ok hcreate
  rw [List.getElem?_cons_succ, List.getElem?_cons_zero] at hchOut
  cases hchOut
  exact subU64_lt (subU64_lt (sumU64_lt (lockInputs_ok hinputs).2) hrest) hchange

/-! ### The phases -/

/-- A process that keeps the numbers of its slate in range, and writes no other slate. -/
def Fits {α : Type} (tx : Codec (Grin.Transaction K P)) (p : Process K P (SwapSlate K P) α) : Prop :=
  p.Maintains (fun _ s op => op.Reads ∨ s.InRange tx) fun _ s => s.InRange tx

theorem lockingGrinMw_fits (hL : Sized L tx) (rand : LockMwRand K) : Fits tx (lockingGrinMw L rand) := by
  intro s past hs
  refine Prog.sat_request_bind (.inl trivial) fun _ _ _ => Prog.sat_get_bind <|
    Prog.sat_lift_bind fun _ _ => Prog.sat_lift_bind fun lockTime hlock => Prog.sat_modify_bind <|
    sat_sendMsg_bind (.inl trivial) <| dsharedOutMwTxAlice_only.sat_bind_returns
    (dsharedOutMwTxAlice_inRange hL) (fun _ _ hop _ => .inl (reads_of_protocol hop)) ?_
  rintro past₁ shared - ⟨hshared, hchange⟩
  refine Prog.sat_modify_bind <| Prog.sat_lift_bind fun _ _ => Prog.sat_lift_bind fun fundValue hfund =>
    dsharedInpMwTxBob_only.sat_bind_returns (dsharedInpMwTxBob_finalizes.returns.and dsharedInpMwTxBob_value)
    (fun _ _ hop _ => .inl (reads_of_protocol hop)) ?_
  rintro past₂ refund - ⟨⟨t, ht, hvalid⟩, coin, hcoin, rfl⟩
  refine Prog.sat_modify_bind <| Prog.sat_lift_bind fun _ _ => ⟨.inl trivial, fun ans => ?_⟩
  cases ans with
  | error e => trivial
  | ok u =>
    obtain ⟨hlt, rfl⟩ := i64OfU64_eq_some (Outcome.unwrap_eq_ok.mp hlock)
    refine ⟨{ hs.pub with mwLockTime := ?_ }, { hs.prv with
      sharedCoin := ?_
      changeCoin := hchange
      refundCoin := ?_
      refundTx := ?_ }⟩
    · rintro _ ⟨⟩
      omega
    · rintro _ ⟨⟩
      exact hshared
    · rw [hcoin]
      rintro _ ⟨⟩
      exact subU64_lt hshared hfund
    · rw [ht]
      rintro _ ⟨⟩
      exact hL.tx t hvalid

omit [CommRing K] [AddCommGroup P] [Module K P] [DecidableEq K] [DecidableEq P] in
/-- The coin of an output of a transaction. -/
theorem new2_inRange {txid : String} {vout value : ℕ} {secret : PrivateKey K} {pubKey : PublicKey P}
    {pubScript : List UInt8} (hvout : vout < 2 ^ 32) (hvalue : value < 2 ^ 64) :
    BTCInput.InRange (BTCInput.new2 B txid vout value secret pubKey pubScript) := ⟨hvout, hvalue⟩

theorem lockingPhaseSwapMw_fits (hL : Sized L tx) (rand : LockMwRand K) :
    Fits tx (lockingPhaseSwapMw L B rand) := by
  intro s past hs
  refine Prog.sat_modify_bind <| sat_sendMsg_bind (.inl trivial) <|
    sat_receivePubKey_bind (.inl trivial) fun _ _ _ => Prog.sat_modify_bind <|
    sat_receivePubKey_bind (.inl trivial) fun _ _ _ => Prog.sat_modify_bind <|
    sat_receiveI64_bind (.inl trivial) fun _ lockTime htime => Prog.sat_modify_bind <|
    Prog.sat_lift_bind fun _ _ => Prog.sat_lift_bind fun _ _ =>
    Prog.sat_request_bind (.inl trivial) fun _ _ _ => sat_receiveMsg_bind (.inl trivial) fun _ =>
    sat_receiveMsg_bind (.inl trivial) fun _ => ?_
  split_ifs
  · exact Prog.sat_modify_bind trivial
  · refine Prog.sat_get_bind <| verifyFunds_only.sat_bind ?_ fun _ verified _ => ?_
    · intro _ op hop _
      match op, hop with
      | .getAddressFinalBalance _, _ => exact .inl trivial
      | .sleep, _ => exact .inl trivial
    · cases verified with
      | false => exact Prog.sat_modify_bind trivial
      | true =>
        refine Prog.sat_modify_bind <| lockingGrinMw_fits hL rand _ _
          ⟨{ hs.pub with btcLockTime := ?_ }, { hs.prv with lock := ?_ }⟩
        · rintro _ ⟨⟩
          exact parseI64_range htime
        · rintro _ ⟨⟩
          exact new2_inRange (Nat.two_pow_pos 32) hs.pub.btcAmount

theorem lockingGrinBtc_fits (rand : LockBtcRand K) : Fits tx (lockingGrinBtc L rand) := by
  intro s past hs
  refine sat_receiveI64_bind (.inl trivial) fun _ lockTime htime => Prog.sat_modify_bind <|
    Prog.sat_get_bind <| dsharedOutMwTxBob_only.sat_bind_returns dsharedOutMwTxBob_value
    (fun _ _ hop _ => .inl (reads_of_protocol hop)) ?_
  intro past₁ shared _ hshared
  refine Prog.sat_modify_bind <| Prog.sat_lift_bind fun _ _ => Prog.sat_lift_bind fun _ _ =>
    dsharedInpMwTxAlice_only.sat_bind (fun _ _ hop _ => .inl (reads_of_protocol hop)) fun _ _ _ => ?_
  refine ⟨{ hs.pub with mwLockTime := ?_ }, { hs.prv with sharedCoin := ?_ }⟩
  · rintro _ ⟨⟩
    exact parseI64_range htime
  · rintro _ ⟨⟩
    rw [MWCoin.InRange, hshared]
    exact hs.pub.mwAmount

theorem lockingPhaseSwapBtc_fits (rand : LockBtcRand K) : Fits tx (lockingPhaseSwapBtc L B rand) := by
  intro s past hs
  refine Prog.sat_modify_bind <| sat_receivePubKey_bind (.inl trivial) fun _ _ _ =>
    Prog.sat_modify_bind <| sat_sendMsg_bind (.inl trivial) <| sat_sendMsg_bind (.inl trivial) <|
    Prog.sat_request_bind (.inl trivial) fun _ _ _ => Prog.sat_get_bind <| Prog.sat_lift_bind fun _ _ =>
    Prog.sat_lift_bind fun lockHeight hheight => sat_sendMsg_bind (.inl trivial) <|
    Prog.sat_modify_bind <| Prog.sat_lift_bind fun lock hlock =>
    Prog.sat_request_bind (.inl trivial) fun _ _ _ => Prog.sat_modify_bind <|
    sat_sendMsg_bind (.inl trivial) <| sat_sendMsg_bind (.inl trivial) <| Prog.sat_modify_bind <|
    lockingGrinBtc_fits rand _ _ ?_
  obtain ⟨hlt, rfl⟩ := i64OfU64_eq_some (Outcome.unwrap_eq_ok.mp hheight)
  refine ⟨{ hs.pub with btcLockTime := ?_ }, { hs.prv with change := ?_, lock := ?_ }⟩
  · rintro _ ⟨⟩
    omega
  · rintro _ ⟨⟩
    exact new2_inRange (by norm_num) (signedLockTransaction_chOut hlock)
  · rintro _ ⟨⟩
    exact new2_inRange (Nat.two_pow_pos 32) hs.pub.btcAmount

theorem execPhaseSwapMw_fits (rand : ExecMwRand K) : Fits tx (execPhaseSwapMw L B rand) := by
  intro s past hs
  refine sat_compareTimes_bind (fun _ => .inl trivial) (fun _ => .inl trivial)
    fun _ _ _ _ enough _ _ => ?_
  cases enough with
  | false => trivial
  | true =>
    refine Prog.sat_modify_bind <| Prog.sat_get_bind <| Prog.sat_lift_bind fun _ _ =>
      Prog.sat_lift_bind fun _ _ => Prog.sat_lift_bind fun _ _ => Prog.sat_lift_bind fun _ _ =>
      Prog.sat_lift_bind fun _ _ => dcontractMwTxAlice_only.sat_bind
      (fun _ _ hop _ => .inl (reads_of_protocol hop)) fun _ _ _ => Prog.sat_lift_bind fun redeem hredeem =>
      Prog.sat_lift_bind fun o ho => Prog.sat_request_bind (.inl trivial) fun _ _ _ => ?_
    obtain ⟨value, hvalue, hout⟩ := signedRedeemTransaction_output hredeem
    rw [Outcome.unwrap_eq_ok, hout] at ho
    cases ho
    refine ⟨{ hs.pub with }, { hs.prv with swapped := ?_ }⟩
    rintro _ ⟨⟩
    exact new2_inRange (Nat.two_pow_pos 32) (subU64_lt hs.pub.btcAmount hvalue)

theorem execPhaseSwapBtc_fits (rand : ExecBtcRand K) : Fits tx (execPhaseSwapBtc L B rand) := by
  intro s past hs
  refine sat_compareTimes_bind (fun _ => .inl trivial) (fun _ => .inl trivial)
    fun _ _ _ _ enough _ _ => ?_
  cases enough with
  | false => trivial
  | true =>
    refine Prog.sat_modify_bind <| Prog.sat_get_bind <| Prog.sat_lift_bind fun shared hshared =>
      Prog.sat_lift_bind fun _ _ => Prog.sat_lift_bind fun _ _ => Prog.sat_lift_bind fun _ _ =>
      Prog.sat_lift_bind fun fundValue hfund => dcontractMwTxBob_only.sat_bind_returns dcontractMwTxBob_value
      (fun _ _ hop _ => .inl (reads_of_protocol hop)) ?_
    rintro past₁ result - ⟨coin, hcoin, rfl⟩
    refine Prog.sat_modify_bind <| Prog.sat_lift_bind fun _ _ =>
      Prog.sat_request_bind (.inl trivial) fun _ _ _ => ?_
    refine ⟨{ hs.pub with }, { hs.prv with swappedCoin := ?_ }⟩
    rw [hcoin]
    rintro _ ⟨⟩
    exact subU64_lt (hs.prv.sharedCoin shared (Outcome.unwrap_eq_ok.mp hshared)) hfund

omit [CommRing K] [AddCommGroup P] [Module K P] [DecidableEq K] [DecidableEq P] in
theorem refundPhaseSwapMw_fits :
    Fits tx (refundPhaseSwapMw : Process K P (SwapSlate K P) Unit) := by
  intro s past hs
  refine sat_compareTimes_bind (fun _ => .inl trivial) (fun _ => .inl trivial)
    fun _ _ _ _ passed _ _ => ?_
  cases passed with
  | false => trivial
  | true =>
    exact Prog.sat_get_bind <| Prog.sat_lift_bind fun _ _ =>
      Prog.sat_request_bind (.inl trivial) fun _ _ _ => ⟨{ hs.pub with }, hs.prv⟩

omit [DecidableEq K] [DecidableEq P] in
theorem refundPhaseSwapBtc_fits (key : K) : Fits tx (refundPhaseSwapBtc B key) := by
  intro s past hs
  refine sat_compareTimes_bind (fun _ => .inl trivial) (fun _ => .inl trivial)
    fun _ _ _ _ passed _ _ => ?_
  cases passed with
  | false => trivial
  | true =>
    refine Prog.sat_get_bind <| Prog.sat_lift_bind fun refund hrefund =>
      Prog.sat_request_bind (.inl trivial) fun _ _ _ => Prog.sat_lift_bind fun o ho => ?_
    obtain ⟨value, hvalue, hout⟩ := signedRefundTransaction_output hrefund
    rw [Outcome.unwrap_eq_ok, hout] at ho
    cases ho
    refine ⟨{ hs.pub with }, { hs.prv with refunded := ?_ }⟩
    rintro _ ⟨⟩
    exact new2_inRange (Nat.two_pow_pos 32) (subU64_lt hs.pub.btcAmount hvalue)

/-! ### The commands -/

theorem phasesKeep_inRange (hL : Sized L tx) :
    PhasesKeep L B rand (fun _ s op => op.Reads ∨ s.InRange tx) fun _ s => s.InRange tx where
  mono _ _ _ _ h := h
  ops _ s op hop := by
    match op, hop with
    | .connect _ _, _ | .getSlateChecksum, _ | .send (.text _), _ | .recv, _ | .bind, _ | .accept, _ =>
      exact .inl trivial
  creates _ _ _ h := .inr h
  writes _ _ _ h := .inr h
  locking role := by
    cases role with
    | mw => exact lockingPhaseSwapMw_fits hL _
    | btc => exact lockingPhaseSwapBtc_fits _
  execution role := by
    cases role with
    | mw => exact execPhaseSwapMw_fits _
    | btc => exact execPhaseSwapBtc_fits _
  refund role := by
    cases role with
    | mw => exact refundPhaseSwapMw_fits
    | btc => exact refundPhaseSwapBtc_fits _

theorem main_fits (hL : Sized L tx) {command : Command} (h : command.InRange) :
    Fits tx (main L B rand command) := by
  refine (phasesKeep_inRange hL).main ?_
  cases command with
  | importBtc swapid txid vout value sk pubScript =>
    intro past s secret pubKey hs
    refine ⟨hs.pub, { hs.prv with btcInputs := ?_ }⟩
    exact List.forall_mem_append.mpr ⟨hs.prv.btcInputs, List.forall_mem_singleton.mpr ⟨h.1, h.2⟩⟩
  | importGrin swapid coin =>
    intro past s hs
    refine ⟨hs.pub, { hs.prv with mwInputs := ?_ }⟩
    exact List.forall_mem_append.mpr ⟨hs.prv.mwInputs, List.forall_mem_singleton.mpr h⟩
  | _ => trivial

section

omit [CommRing K] [AddCommGroup P] [Module K P] [DecidableEq K] [DecidableEq P]

/-- The slate that a command starts from is in range, whatever the files are. -/
theorem loadSlate_inRange {command : Command} {files : SlateFiles} {slate : SwapSlate K P}
    (hcommand : command.InRange)
    (h : command.loadSlate (jsonFiles J tx sha256) settings files = .ok slate) : slate.InRange tx := by
  have hblank : (SwapSlatePriv.blank : SwapSlatePriv K P).InRange tx := by
    constructor <;> simp [SwapSlatePriv.blank]
  cases command with
  | init swapid args =>
    obtain ⟨hfrom, hto, htimeBtc, htimeGrin⟩ := hcommand
    simp only [Command.loadSlate, Init.execute] at h
    split at h
    · cases h
      refine ⟨⟨?_, htimeGrin, by simp [TimeInRange], ?_, htimeBtc, by simp [TimeInRange]⟩, hblank⟩ <;>
      · dsimp only
        split_ifs
        · exact hfrom
        · exact hto
    · cases h
  | accept swapid =>
    simp only [Command.loadSlate, Outcome.expect_eq_ok, createPrivFromPub_eq_ok] at h
    obtain ⟨hpub, hprv⟩ := h
    obtain ⟨_, -, hpub⟩ := Option.bind_eq_some_iff.mp hpub
    exact ⟨pubFromJson_inRange hpub, hprv ▸ hblank⟩
  | _ =>
    simp only [Command.loadSlate, Outcome.expect_eq_ok] at h
    exact readSlateFromDisk_inRange h

/-! ### The files -/

/-- The files that are there can be read. -/
structure Readable (F : FileLib K P) (files : SlateFiles) : Prop where
  pub : ∀ text ∈ files.pub, ∃ pub, F.pubFromJson text = some pub
  prv : ∀ text ∈ files.prv, ∃ prv, F.prvFromJson text = some prv

theorem readable_files (hJ : J.Lawful) (htx : Shallow tx) {slate : SwapSlate K P} (h : slate.InRange tx) :
    Readable (jsonFiles J tx sha256) (slate.files (jsonFiles J tx sha256)) where
  pub := by
    rintro _ ⟨⟩
    exact ⟨_, pubFromJson_pubToJson hJ h.pub⟩
  prv := by
    rintro _ ⟨⟩
    exact ⟨_, prvFromJson_prvToJson hJ htx h.prv⟩

/-- Two files that are there make a slate. -/
theorem Readable.exists_slate {F : FileLib K P} {files : SlateFiles} (h : Readable F files)
    (hpub : files.pub.isSome) (hprv : files.prv.isSome) : ∃ slate, readSlateFromDisk F files = .ok slate := by
  obtain ⟨pubText, hpub⟩ := Option.isSome_iff_exists.mp hpub
  obtain ⟨prvText, hprv⟩ := Option.isSome_iff_exists.mp hprv
  obtain ⟨pub, hpubText⟩ := h.pub pubText hpub
  obtain ⟨prv, hprvText⟩ := h.prv prvText hprv
  exact ⟨⟨pub, prv⟩, readSlateFromDisk_eq_ok.mpr ⟨by simp [storedPub, hpub, hpubText],
    by simp [storedPrv, hprv, hprvText]⟩⟩

/-- A slate that is there stays readable, also between the operations of a write. -/
theorem readable_step (hJ : J.Lawful) (htx : Shallow tx) {files : SlateFiles}
    {e : Event (SwapSlate K P) (@Op.Ans K P)}
    (h : ∃ slate, readSlateFromDisk (jsonFiles J tx sha256) files = .ok slate)
    (he : e.op.Reads ∨ e.mem.InRange tx) :
    ∃ slate, readSlateFromDisk (jsonFiles J tx sha256) (files.step (jsonFiles J tx sha256) e) =
      .ok slate := by
  obtain hreads | hrange := he
  · rwa [step_of_reads hreads]
  · obtain ⟨stored, hstored⟩ := h
    obtain ⟨hpub, hprv⟩ := readSlateFromDisk_eq_ok.mp hstored
    obtain ⟨slate, op, ans⟩ := e
    match op, ans with
    | .createSlateFile true, .ok _ =>
      obtain ⟨text, hfile, htext⟩ := Option.bind_eq_some_iff.mp hpub
      refine ⟨stored, readSlateFromDisk_eq_ok.mpr ⟨?_, hprv⟩⟩
      simp [storedPub, SlateFiles.step, hfile, htext]
    | .createSlateFile false, .ok _ =>
      obtain ⟨text, hfile, htext⟩ := Option.bind_eq_some_iff.mp hprv
      refine ⟨stored, readSlateFromDisk_eq_ok.mpr ⟨hpub, ?_⟩⟩
      simp [storedPrv, SlateFiles.step, hfile, htext]
    | .writeSlateFile true, .ok _ =>
      exact ⟨⟨slate.pubSlate, stored.prvSlate⟩,
        readSlateFromDisk_eq_ok.mpr ⟨pubFromJson_pubToJson hJ hrange.pub, hprv⟩⟩
    | .writeSlateFile false, .ok _ =>
      exact ⟨⟨stored.pubSlate, slate.prvSlate⟩,
        readSlateFromDisk_eq_ok.mpr ⟨hpub, prvFromJson_prvToJson hJ htx hrange.prv⟩⟩
    | .createSlateFile true, .error _ | .createSlateFile false, .error _ | .writeSlateFile true, .error _
    | .writeSlateFile false, .error _ => exact ⟨stored, hstored⟩
    | .send _, _ | .recv, _ | .getBlockHeight, _ | .pushTransaction _, _ | .getCurrentBlockHeight, _
    | .importBtcAddress _, _ | .getAddressFinalBalance _, _ | .sendRawTransaction _, _ | .sleep, _
    | .connect _ _, _ | .bind, _ | .accept, _ | .getSlateChecksum, _ => exact ⟨stored, hstored⟩

theorem readable_after (hJ : J.Lawful) (htx : Shallow tx) {files : SlateFiles}
    {t : Trace K P (SwapSlate K P)}
    (h : ∃ slate, readSlateFromDisk (jsonFiles J tx sha256) files = .ok slate)
    (ht : ∀ e ∈ t, e.op.Reads ∨ e.mem.InRange tx) :
    ∃ slate, readSlateFromDisk (jsonFiles J tx sha256) (files.after (jsonFiles J tx sha256) t) =
      .ok slate := by
  induction t generalizing files with
  | nil => exact h
  | cons e t ih =>
    obtain ⟨he, ht⟩ := List.forall_mem_cons.mp ht
    exact ih (readable_step hJ htx h he) ht

end

/-- The commands that `parse_arguments` accepts. -/
def parsedCommand (_ : Directory) (command : Command) : Prop :=
  ∃ args drawn clients, ArgMatches.parseArguments args drawn clients = .ok command

/-- Along every session of commands from the command line, with any peers and nodes, the files that are
there can be read.  A further command on a swap with two files leaves a slate that can be read wherever it
stops, if only between its two writes. -/
theorem session_readable (hJ : J.Lawful) (htx : Shallow tx) (hL : Sized L tx)
    {runs : List (Command × Option Phase)} (hstart : ∀ swapid, Readable (jsonFiles J tx sha256) (dir swapid))
    (h : Session L B (jsonFiles J tx sha256) settings parsedCommand dir runs dir₁) :
    (∀ swapid, Readable (jsonFiles J tx sha256) (dir₁ swapid)) ∧
      ∀ command rand slate t q, parsedCommand dir₁ command →
        (dir₁ command.swapid).pub.isSome → (dir₁ command.swapid).prv.isSome →
        command.loadSlate (jsonFiles J tx sha256) settings (dir₁ command.swapid) = .ok slate →
        Steps (main L B rand command slate) t q →
        Truthful (jsonFiles J tx sha256) (dir₁ command.swapid) t →
        ∃ slate', readSlateFromDisk (jsonFiles J tx sha256)
          ((dir₁ command.swapid).after (jsonFiles J tx sha256) t) = .ok slate' := by
  have hnow : ∀ swapid, Readable (jsonFiles J tx sha256) (dir₁ swapid) := by
    induction h with
    | start => exact hstart
    | @command runs dir₁ dir₂ command phase hruns hfresh hcond hstep ih =>
      intro swapid
      obtain ⟨args, drawn, clients, hparse⟩ := hcond
      cases hstep with
      | unread hload => exact ih swapid
      | ran hload hsteps htrue hq =>
        by_cases hid : swapid = command.swapid
        · subst hid
          rw [Function.update_self]
          have hcommand := ArgMatches.parseArguments_inRange hparse
          obtain ⟨hfiles, -⟩ | ⟨slate', phase, rfl, -, hfiles⟩ := main_files hsteps htrue hq
          · rw [hfiles]
            exact ih _
          · rw [hfiles]
            have hrange : slate'.InRange tx :=
              hsteps.sat (main_fits hL hcommand _ [] (loadSlate_inRange hcommand hload))
            exact readable_files hJ htx hrange
        · rw [Function.update_of_ne hid]
          exact ih swapid
  refine ⟨hnow, ?_⟩
  rintro command rand slate t q ⟨args, drawn, clients, hparse⟩ hpub hprv hload hsteps -
  have hcommand := ArgMatches.parseArguments_inRange hparse
  refine readable_after hJ htx ((hnow _).exists_slate hpub hprv) fun e he => ?_
  obtain ⟨t₁, t₂, rfl⟩ := List.append_of_mem he
  exact hsteps.sat_event (main_fits hL hcommand slate [] (loadSlate_inRange hcommand hload))

/-- The arguments of a command, by its names. -/
def argsOf (values : List (String × String)) : List String → ArgMatches
  | [] => ⟨fun name => values.lookup name, none⟩
  | name :: names => ⟨fun _ => none, some (name, argsOf values names)⟩

/-- A proof context whose amount is too large is not read. -/
def sizedExponents : GrinLib Scalar Scalar := { exponents with
  ctxFromJson text := (exponents.ctxFromJson text).filter fun ctx => ctx.amount < 2 ^ 64 }

theorem sizedExponents_sized : Sized sizedExponents txExponents where
  ctx text ctx h := by
    obtain ⟨-, hctx⟩ := Option.filter_eq_some_iff.mp h
    simpa using hctx
  tx _ _ := trivial

/-- The files of the samples, in JSON. -/
def sampleFiles : FileLib Scalar Scalar := jsonFiles sampleLib txExponents id

/-- A locked swap of a taker that offers Grin. -/
def sampleRefundable : SwapSlate Scalar Scalar :=
  let slate := timedSlate 100040
  { slate with
    pubSlate.btc.swapType := .offered
    prvSlate.mw.refundTx := some .empty }

theorem sampleRefundable_inRange : sampleRefundable.InRange txExponents where
  pub := by constructor <;> simp [sampleRefundable, timedSlate, lockedSlates, TimeInRange]
  prv := by
    constructor
    case refundTx => exact fun _ _ => trivial
    case lock =>
      rintro _ ⟨⟩
      exact new2_inRange (by decide) (by decide)
    all_goals simp [sampleRefundable, timedSlate, lockedSlates]

/-- The offerer of the sample, with imported coins. -/
def sampleHolding (inputs : List MWCoin) : SwapSlate Scalar Scalar :=
  { sampleSlate with prvSlate.mw.inputs := inputs }

theorem sampleHolding_inRange {inputs : List MWCoin} (h : ∀ coin ∈ inputs, MWCoin.InRange coin) :
    (sampleHolding inputs).InRange txExponents where
  pub := by constructor <;> simp [sampleHolding, sampleSlate, TimeInRange]
  prv := by
    constructor
    case mwInputs => exact h
    all_goals simp [sampleHolding, sampleSlate, SwapSlatePriv.blank]

/-- The files of a slate in range are read from a directory. -/
theorem sampleFiles_read {slate : SwapSlate Scalar Scalar} {swapid : ℕ} (h : slate.InRange txExponents)
    (hdir : dir swapid = slate.files sampleFiles) : readSlateFromDisk sampleFiles (dir swapid) = .ok slate := by
  rw [hdir]
  exact readSlateFromDisk_jsonFiles sampleLib_lawful txExponents_shallow h

/-- The coin that the sample imports. -/
def sampleGrinCoin : MWCoin := ⟨"08ab", "01", 1500000000⟩

theorem parsed_init : parsedCommand dir (.init 1 sampleInit) :=
  ⟨argsOf [("from-currency", "grin"), ("to-currency", "btc"), ("from-amount", "1012500000"),
    ("to-amount", "100000"), ("timeout", "400")] ["init"], 1, 0, by rfl⟩

theorem parsed_importGrin : parsedCommand dir (.importGrin 1 sampleGrinCoin) :=
  ⟨argsOf [("swapid", "1"), ("commitment", "08ab"), ("blinding_factor", "01"), ("value", "1500000000")]
    ["import", "grin"], 0, 0, by rfl⟩

theorem parsed_cancel : parsedCommand dir (.cancel 2) :=
  ⟨argsOf [("swapid", "2")] ["cancel"], 0, 0, by rfl⟩

/-- The taker gets its Grin back past both lock times. -/
theorem sampleRefundable_cancel (hdir : dir 2 = sampleRefundable.files sampleFiles) :
    CommandStep sizedExponents (btcExponents []) sampleFiles sampleSettings dir (.cancel 2) (some .refund)
      (Function.update dir 2
        (({ sampleRefundable with pubSlate.status := .failed } : SwapSlate Scalar Scalar).files
          sampleFiles)) := by
  have hload : (Command.cancel 2).loadSlate sampleFiles sampleSettings (dir 2) = .ok sampleRefundable := by
    simp only [Command.loadSlate, sampleFiles_read sampleRefundable_inRange hdir, Outcome.expect_ok]
  have hpassed : bothPassed 1500401 700041 5000 100040 = .ok true := by decide
  have hphase : Steps ((refundPhase (btcExponents []) sampleRand sampleRefundable.taker >>=
      fun _ => pure (some Phase.refund)) sampleRefundable) _ (.ret _ (some .refund)) :=
    (refundPhaseSwapMw_steps rfl rfl hpassed rfl).bind_pure
  have hrun : Steps ((Command.cancel 2).run sizedExponents (btcExponents []) sampleRand sampleRefundable)
      _ (.ret _ (some .refund)) :=
    cancel_steps (sampleFiles.sha256 (sampleFiles.pubToJson sampleRefundable.pubSlate)) rfl hphase
  refine commandStep_of_run hload hrun ?_
  rw [show (Command.cancel 2).swapid = 2 from rfl, hdir]
  exact ⟨trivial, rfl, trivial, trivial, trivial, trivial, trivial, trivial, trivial⟩

/-- A directory with the sample, under the id 2. -/
def sampleRefundableDirectory : Directory :=
  Function.update emptyDirectory 2 (sampleRefundable.files sampleFiles)

theorem sampleRefundableDirectory_readable (swapid : ℕ) :
    Readable sampleFiles (sampleRefundableDirectory swapid) := by
  by_cases hid : swapid = 2
  · rw [hid, sampleRefundableDirectory, Function.update_self]
    exact readable_files sampleLib_lawful txExponents_shallow sampleRefundable_inRange
  · rw [sampleRefundableDirectory, Function.update_of_ne hid]
    exact ⟨by simp [emptyDirectory], by simp [emptyDirectory]⟩

/-- A session that makes a swap with the id 1, and refunds the one with the id 2. -/
theorem session_refundable : ∃ dir₁,
    Session sizedExponents (btcExponents []) sampleFiles sampleSettings parsedCommand sampleRefundableDirectory
      [(.init 1 sampleInit, none), (.importGrin 1 sampleGrinCoin, none), (.cancel 2, some .refund)] dir₁ ∧
    dir₁ 1 = (sampleHolding [sampleGrinCoin]).files sampleFiles := by
  have hrun : Steps ((Command.init 1 sampleInit).run sizedExponents (btcExponents []) sampleRand sampleSlate)
      [] (.ret sampleSlate none) := .refl _
  have hinit : CommandStep sizedExponents (btcExponents []) sampleFiles sampleSettings
      sampleRefundableDirectory (.init 1 sampleInit) none
      (Function.update sampleRefundableDirectory 1 (sampleSlate.files sampleFiles)) :=
    commandStep_of_run rfl hrun trivial
  have himport := commandStep_importGrin sizedExponents (btcExponents []) sampleSettings sampleRand 1
    sampleGrinCoin (sampleFiles_read (sampleHolding_inRange (List.forall_mem_nil _))
      (Function.update_self 1 (sampleSlate.files sampleFiles) sampleRefundableDirectory))
  rw [Function.update_idem] at himport
  have hdir : (Function.update sampleRefundableDirectory 1
      ((sampleHolding [sampleGrinCoin]).files sampleFiles)) 2 = sampleRefundable.files sampleFiles := by
    rw [Function.update_of_ne (by decide), sampleRefundableDirectory, Function.update_self]
  have hfresh : Command.Fresh sampleRefundableDirectory (.init 1 sampleInit) :=
    Function.update_of_ne (by decide) _ _
  have hholding : Session sizedExponents (btcExponents []) sampleFiles sampleSettings parsedCommand
      sampleRefundableDirectory ([] ++ [(.init 1 sampleInit, none)] ++ [(.importGrin 1 sampleGrinCoin, none)])
      (Function.update sampleRefundableDirectory 1 ((sampleHolding [sampleGrinCoin]).files sampleFiles)) :=
    .command (.command .start hfresh parsed_init hinit) trivial parsed_importGrin himport
  refine ⟨_, .command hholding trivial parsed_cancel (sampleRefundable_cancel hdir), ?_⟩
  rw [Function.update_of_ne (by decide), Function.update_self]

/-- After that session a second import that stops between its two writes leaves a slate. -/
theorem session_readable_sample : ∃ dir₁ slate, ∃ t : Trace Scalar Scalar (SwapSlate Scalar Scalar), ∃ q,
    Session sizedExponents (btcExponents []) sampleFiles sampleSettings parsedCommand sampleRefundableDirectory
      [(.init 1 sampleInit, none), (.importGrin 1 sampleGrinCoin, none), (.cancel 2, some .refund)] dir₁ ∧
    (∀ swapid, Readable sampleFiles (dir₁ swapid)) ∧
    Steps (main sizedExponents (btcExponents []) sampleRand (.importGrin 1 sampleGrinCoin) slate) t q ∧
    t.length = 3 ∧ Writing q ∧
    ∃ slate', readSlateFromDisk sampleFiles ((dir₁ 1).after sampleFiles t) = .ok slate' := by
  obtain ⟨dir₁, hsession, hdir⟩ := session_refundable
  obtain ⟨hnow, hstop⟩ := session_readable sampleLib_lawful txExponents_shallow sizedExponents_sized
    sampleRefundableDirectory_readable hsession
  have hcoin : MWCoin.InRange sampleGrinCoin := show 1500000000 < 2 ^ 64 by decide
  have hread := sampleFiles_read (sampleHolding_inRange (List.forall_mem_singleton.mpr hcoin)) hdir
  have hload : (Command.importGrin 1 sampleGrinCoin).loadSlate sampleFiles sampleSettings (dir₁ 1) =
      .ok (sampleHolding [sampleGrinCoin]) := by
    simp only [Command.loadSlate, hread, Outcome.expect_ok]
  let slate := sampleHolding [sampleGrinCoin, sampleGrinCoin]
  have hsteps : Steps (main sizedExponents (btcExponents []) sampleRand (.importGrin 1 sampleGrinCoin)
      (sampleHolding [sampleGrinCoin])) [⟨slate, .createSlateFile false, .ok ()⟩,
        ⟨slate, .createSlateFile true, .ok ()⟩, ⟨slate, .writeSlateFile false, .ok ()⟩] _ :=
    .step (.step (.step (.refl _)))
  have hfiles : (dir₁ 1).pub.isSome ∧ (dir₁ 1).prv.isSome := by
    rw [hdir]
    exact ⟨rfl, rfl⟩
  exact ⟨dir₁, _, _, _, hsession, hnow, hsteps, rfl, ⟨_, _, _, rfl, not_reads_write⟩,
    hstop (.importGrin 1 sampleGrinCoin) _ _ _ _ parsed_importGrin hfiles.1 hfiles.2 hload hsteps
      ⟨rfl, rfl, rfl, trivial⟩⟩

end MwBtcSwap
