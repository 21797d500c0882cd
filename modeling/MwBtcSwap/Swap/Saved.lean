import MwBtcSwap.Swap.Executed
import MwBtcSwap.Swap.Stored

/-! What the files hold while a phase runs.  The phases keep their keys and coins in memory, and `main`
writes them when the command has returned, so a run that stops before leaves none of them. -/

namespace MwBtcSwap

open Interaction Machine Grin Bitcoin

/-- `send_raw_transaction` has accepted a transaction. -/
def Broadcast {K P σ : Type} (t : Trace K P σ) : Prop :=
  ∃ s tx, ⟨s, .sendRawTransaction tx, .ok ()⟩ ∈ t

variable {K P : Type} [CommRing K] [AddCommGroup P] [Module K P] [DecidableEq K] [DecidableEq P]

variable {L : GrinLib K P} {B : BtcLib K P} {F : FileLib K P} {settings : Settings}
  {dir dir₁ : Directory} {command : Command} {runs : List (Command × Option Phase)}
  {files : SlateFiles} {slate : SwapSlate K P} {rand : Rand K} {swapid : ℕ}
  {t t₁ t₂ : Trace K P (SwapSlate K P)} {e : Event (SwapSlate K P) (@Op.Ans K P)}

omit [CommRing K] [AddCommGroup P] [Module K P] [DecidableEq K] [DecidableEq P] in
theorem writeSlateToDisk_only {wrtPriv wrtPub : Bool} :
    (writeSlateToDisk wrtPriv wrtPub : Process K P (SwapSlate K P) Unit).Only fun op => ¬ op.Reads := by
  refine .bind (.request not_reads_create) fun _ => .bind (.request not_reads_create) fun _ => ?_
  cases wrtPriv <;> cases wrtPub
  · exact .pure _
  · exact .request not_reads_write
  · exact .bind (.request not_reads_write) fun _ => .pure _
  · exact .bind (.request not_reads_write) fun _ => .request not_reads_write

/-- Up to an operation that is not a write, a command has written nothing. -/
theorem main_unwritten {q : Program K P (SwapSlate K P) (Option Phase)}
    (haccept : ∀ swapid, command ≠ .accept swapid)
    (h : Steps (main L B rand command slate) (t₁ ++ e :: t₂) q) (he : e.op.Reads) :
    files.after F (t₁ ++ [e]) = files := by
  have hphases : Phases (command.run L B rand) _ := run_phases haccept
  obtain ⟨p, hp, rfl⟩ | ⟨u₁, u₂, s, phase, heq, hrun, hwrite⟩ := h.bind_inv
  · apply after_of_reads
    intro e' he'
    apply hp.forall_op (hphases slate [])
    rw [List.append_cons]
    exact List.mem_append_left _ he'
  · have hwrites : ∀ e' ∈ u₂, ¬ e'.op.Reads := by
      have honly : (writeSlateToDisk true true >>= fun _ => pure phase : Process K P _ _).Only
          fun op => ¬ op.Reads := .bind writeSlateToDisk_only fun _ => .pure _
      exact hwrite.forall_op ((honly s []).mono (fun _ _ _ h => h.2.1) fun _ _ _ h => h)
    obtain ⟨u, rfl, hu⟩ | ⟨u, rfl, rfl⟩ := List.append_eq_append_iff.mp heq
    · cases u with
      | nil =>
        rw [List.nil_append] at hu
        exact (hwrites e (hu ▸ List.mem_cons_self) he).elim
      | cons e' u =>
        obtain ⟨rfl, -⟩ := List.cons.inj hu
        apply after_of_reads
        intro e' he'
        apply hrun.forall_op (hphases slate [])
        rw [List.append_cons]
        exact List.mem_append_left _ he'
    · exact (hwrites e (List.mem_append_right _ List.mem_cons_self) he).elim

/-! ### The keys of the lock -/

/-- The files hold what the refund phase of the Bitcoin owner needs. -/
def RefundSaved (F : FileLib K P) (files : SlateFiles) : Prop :=
  ∃ slate, readSlateFromDisk F files = .ok slate ∧ slate.prvSlate.btc.sk.isSome ∧
    slate.prvSlate.btc.x.isSome ∧ slate.prvSlate.btc.lock.isSome ∧ slate.pubSlate.btc.pubA.isSome ∧
    slate.pubSlate.btc.lockTime.isSome

omit [CommRing K] [AddCommGroup P] [Module K P] [DecidableEq K] [DecidableEq P] in
theorem Begun.unlocked (hF : F.Lawful) (h : Begun F files) : UnlockedFiles F files := by
  intro slate hread _
  obtain ⟨stored, rfl, -, hblank⟩ := h.blank hF
  rw [readSlateFromDisk_files hF, Except.ok.injEq] at hread
  subst hread
  rw [hblank]
  exact unlocked_blank

/-- A locking phase that broadcasts its lock has its keys in the files at no point before `main` writes
them, so they are there at every point after the broadcast only if there is no broadcast. -/
theorem locking_saves_iff (hF : F.Lawful) (hbegun : Begun F (dir swapid))
    (hsession : Session L B F settings anyCommand dir runs dir₁)
    (hcommand : command = .lock swapid ∨ ∃ clients, command = .listen swapid clients)
    (hload : command.loadSlate F settings (dir₁ swapid) = .ok slate)
    (hinit : slate.pubSlate.status = .initialized)
    {q : Program K P (SwapSlate K P) (Option Phase)}
    (h : Steps (main L B rand command slate) t q) :
    (∀ t', t' <+: t → Broadcast t' → RefundSaved F ((dir₁ swapid).after F t')) ↔ ¬ Broadcast t := by
  constructor
  · rintro hsaved ⟨s, tx, hmem⟩
    obtain ⟨t₁, t₂, rfl⟩ := List.append_of_mem hmem
    have haccept : ∀ swapid, command ≠ .accept swapid := by
      rcases hcommand with rfl | ⟨clients, rfl⟩ <;> exact nofun
    have hread : readSlateFromDisk F (dir₁ swapid) = .ok slate := by
      rcases hcommand with rfl | ⟨clients, rfl⟩ <;> exact loadSlate_read hload nofun nofun
    have hafter := hsaved (t₁ ++ [⟨s, .sendRawTransaction tx, .ok ()⟩])
      ⟨t₂, by simp⟩ ⟨s, tx, by simp⟩
    rw [main_unwritten haccept h trivial] at hafter
    obtain ⟨stored, hstored, hsk, -⟩ := hafter
    rw [hread, Except.ok.injEq] at hstored
    subst hstored
    have hunlocked := hsession.unlocked hF (hbegun.unlocked hF) slate hread hinit
    rw [hunlocked.sk] at hsk
    cases hsk
  · rintro hnot t' ⟨u, rfl⟩ ⟨s, tx, hmem⟩
    exact (hnot ⟨s, tx, List.mem_append_left u hmem⟩).elim

/-- A Bitcoin owner whose peer is gone when the lock is broadcast. -/
theorem lockingPhaseSwapBtc_stops {rand : LockBtcRand K} {pubA : PublicKey P}
    {height lockHeight lockTime : ℕ} {lock : SignedLock} (hB : B.Lawful) (hkey : pubA.key ≠ 0)
    (hadd : addU64 L.overflowChecks height slate.pubSlate.btc.timelock = .ok lockHeight)
    (hlt : Outcome.unwrap unwrapErr (i64OfU64 lockHeight) = .ok lockTime)
    (hlock : signedLockTransaction B pubA (B.publicKey (createPrivateKey rand.x))
      (B.publicKey (createPrivateKey rand.skB)) (B.publicKey (createPrivateKey rand.skR))
      slate.prvSlate.btc.inputs slate.pubSlate.btc.amount lockTime = .ok lock) :
    ∃ t slate' msg, Steps (lockingPhaseSwapBtc L B rand slate) t (.stop slate' (.panic msg)) ∧
      Broadcast t ∧ ∀ e ∈ t, e.op.InPhase := by
  have hphase : (lockingPhaseSwapBtc L B rand slate).Reaches fun u q =>
      (∃ slate' msg, q = .stop slate' (.panic msg)) ∧ Broadcast u ∧ ∀ e ∈ u, e.op.InPhase := by
    refine Prog.reaches_modify_bind ?_
    refine reaches_receivePubKey_bind (deserializePubKey_serialize hB hkey) ?_
    refine Prog.reaches_modify_bind ?_
    refine reaches_sendMsg_bind ?_
    refine reaches_sendMsg_bind ?_
    refine Prog.reaches_request_bind (.ok height) rfl ?_
    refine Prog.reaches_get_bind ?_
    refine Prog.reaches_lift_bind hadd ?_
    refine Prog.reaches_lift_bind hlt ?_
    refine reaches_sendMsg_bind ?_
    refine Prog.reaches_modify_bind ?_
    refine Prog.reaches_lift_bind hlock ?_
    refine Prog.reaches_request_bind (.ok ()) rfl ?_
    refine Prog.reaches_modify_bind ?_
    -- the address is not acknowledged
    refine ⟨[⟨_, .send _, .error (.err "connection reset")⟩], _, .step (.refl _), ⟨_, _, rfl⟩, ?_, ?_⟩
    · exact ⟨_, lock.signedTx, .tail _ <| .tail _ <| .tail _ <| .tail _ <| .tail _ <| .head _⟩
    · simp [Op.InPhase]
  obtain ⟨t, _, hsteps, ⟨slate', msg, rfl⟩, hbroadcast, hops⟩ := hphase
  exact ⟨t, slate', msg, hsteps, hbroadcast, hops⟩

theorem sample_lock_stops : ∃ t slate msg,
    Steps (main exponents (btcExponents []) sampleRand (.lock 1) sampleTaker) t
      (.stop slate (.panic msg)) ∧ Broadcast t ∧
        Truthful fileExponents (sampleTaker.files fileExponents) t := by
  obtain ⟨lock, h⟩ := sample_lockable
  obtain ⟨u, slate, msg, hsteps, hbroadcast, hops⟩ := @lockingPhaseSwapBtc_stops _ _ _ _ _ _ _
    exponents (btcExponents []) sampleTaker sampleRand.lockBtc _ 700000 700040 700040 _
    (btcExponents_lawful []) h.keyA (by decide) (by decide) h.lock
  have hrun : Steps (lockingPhase exponents (btcExponents []) sampleRand sampleTaker.taker sampleTaker) u
      (.stop slate (.panic msg)) := hsteps
  have hcommand : Steps ((Command.lock 1).run exponents (btcExponents []) sampleRand sampleTaker) _
      (.stop slate (.panic msg)) :=
    (lockExecute_steps (fileExponents.pubToJson sampleTaker.pubSlate) rfl hrun).bind_stop
  obtain ⟨s, tx, hmem⟩ := hbroadcast
  exact ⟨_, slate, msg, hcommand.bind_stop, ⟨s, tx, List.mem_append_right _ hmem⟩,
    trivial, rfl, trivial, trivial, truthful_of_inPhase hops⟩

theorem lock_load : (Command.lock 1).loadSlate fileExponents sampleSettings
    (sampleDirectory sampleTaker 1) = .ok sampleTaker := by
  simp only [Command.loadSlate, sampleDirectory_read, Outcome.expect_ok]

theorem locking_saves_sample : ∃ t q,
    Steps (main exponents (btcExponents []) sampleRand (.lock 1) sampleTaker) t q ∧
    ¬ ∀ t', t' <+: t → Broadcast t' →
      RefundSaved fileExponents ((sampleDirectory sampleTaker 1).after fileExponents t') := by
  obtain ⟨t, slate, msg, hsteps, hbroadcast, -⟩ := sample_lock_stops
  have hiff := locking_saves_iff fileExponents_lawful sample_begun (session_taker trivial) (.inl rfl)
    lock_load rfl hsteps
  exact ⟨t, _, hsteps, fun h => hiff.mp h hbroadcast⟩

/-- The lock of the taker is broadcast, its peer does not answer, and none of its keys is in the files. -/
theorem lock_loses_keys : ∃ t slate msg,
    Session exponents (btcExponents []) fileExponents sampleSettings anyCommand
      (sampleDirectory sampleSlate) [(sampleImport, none)] (sampleDirectory sampleTaker) ∧
    (Command.lock 1).loadSlate fileExponents sampleSettings (sampleDirectory sampleTaker 1) =
      .ok sampleTaker ∧
    Steps (main exponents (btcExponents []) sampleRand (.lock 1) sampleTaker) t
      (.stop slate (.panic msg)) ∧
    Truthful fileExponents (sampleDirectory sampleTaker 1) t ∧ Broadcast t ∧
    ¬ RefundSaved fileExponents ((sampleDirectory sampleTaker 1).after fileExponents t) := by
  obtain ⟨t, slate, msg, hsteps, hbroadcast, htrue⟩ := sample_lock_stops
  rw [← sampleDirectory_self] at htrue
  refine ⟨t, slate, msg, session_taker trivial, lock_load, hsteps, htrue, hbroadcast, ?_⟩
  obtain ⟨hfiles, -⟩ | ⟨slate', phase, hret, -⟩ := main_files hsteps htrue not_writing_stop
  · rw [hfiles]
    rintro ⟨stored, hstored, hsk, -⟩
    rw [sampleDirectory_read, Except.ok.injEq] at hstored
    subst hstored
    cases hsk
  · cases hret

/-! ### The results of the execution -/

/-- The peer's two answers in the contract give the witness `x`. -/
def WitnessObtained (L : GrinLib K P) (t : Trace K P (SwapSlate K P)) (x : K) : Prop :=
  ∃ past past' S₂ S aptSig sig, past <+: past' ∧ past' <+: t ∧ Answered L .contract .ptx past S₂ ∧
    Answered L .contract .ptx3 past' S ∧ slot2Sig S₂ = .ok aptSig ∧ slot2Sig S = .ok sig ∧
    extWitness sig aptSig = .ok x

/-- `dcontract_mw_tx_bob` has sent the final slate. -/
def FinalSent (t : Trace K P (SwapSlate K P)) : Prop :=
  ∃ s S, ⟨s, .send (.slate .contract .tx S), .ok ()⟩ ∈ t

/-- When `dcontract_mw_tx_bob` returns, it has. -/
theorem dcontractMwTxBob_finalSent {sigNonce x : K} {recv : RecvRand K} {inp : MWCoin}
    {fundValue timelock : ℕ} (past : Trace K P (SwapSlate K P)) :
    (dcontractMwTxBob L sigNonce recv inp fundValue timelock x slate).Sat (fun _ _ _ => True)
      (fun past' _ _ => FinalSent past') past := by
  refine sat_receiveSlate_bind trivial fun _ _ _ => Prog.sat_lift_bind fun _ _ =>
    Prog.sat_lift_bind fun _ _ => sat_exchange_bind trivial (fun _ _ => trivial)
    fun past₃ S₃ _ _ => Prog.sat_lift_bind fun S _ => sat_sendMsg_bind trivial ?_
  exact ⟨slate, S, List.mem_append_right _ List.mem_cons_self⟩

/-- The files hold a witness, or the output that was redeemed with it. -/
def WitnessSaved (F : FileLib K P) (files : SlateFiles) : Prop :=
  ∃ slate, readSlateFromDisk F files = .ok slate ∧
    (slate.prvSlate.btc.x.isSome ∨ slate.prvSlate.btc.swapped.isSome)

/-- The files hold the coin that was received. -/
def CoinSaved (F : FileLib K P) (files : SlateFiles) : Prop :=
  ∃ slate, readSlateFromDisk F files = .ok slate ∧ slate.prvSlate.mw.swappedCoin.isSome

/-- What the files of a role hold of the execution: the Grin owner's its witness, the Bitcoin owner's
its coin. -/
def ResultsSaved (F : FileLib K P) (files : SlateFiles) : Role → Prop
  | .mw => WitnessSaved F files
  | .btc => CoinSaved F files

/-- The execution has come so far that its results must not be lost. -/
def ResultsDue (L : GrinLib K P) (t : Trace K P (SwapSlate K P)) : Role → Prop
  | .mw => ∃ x, WitnessObtained L t x
  | .btc => FinalSent t

theorem ResultsDue.mono {role : Role} (h : ResultsDue L t₁ role) (hleads : t₁ <+: t) :
    ResultsDue L t role := by
  cases role with
  | mw =>
    obtain ⟨x, past, past', S₂, S, aptSig, sig, hpast, hpast', h⟩ := h
    exact ⟨x, past, past', S₂, S, aptSig, sig, hpast, hpast'.trans hleads, h⟩
  | btc =>
    obtain ⟨s, S, hmem⟩ := h
    exact ⟨s, S, hleads.subset hmem⟩

/-- No result of an execution is stored. -/
structure Unexecuted (slate : SwapSlate K P) (role : Role) : Prop where
  x : role = .mw → slate.prvSlate.btc.x = none
  swapped : slate.prvSlate.btc.swapped = none
  swappedCoin : slate.prvSlate.mw.swappedCoin = none

omit [DecidableEq K] [DecidableEq P] in
theorem Locks.unexecuted {party : Party} {slate' : SwapSlate K P}
    (h : Locks B rand slate slate' (party.role slate)) (hslate : Unexecuted slate (party.role slate)) :
    Unexecuted slate' (party.role slate') := by
  have hrole : party.role slate' = party.role slate := by
    cases party <;> simp only [Party.role, SwapSlate.offerer, SwapSlate.taker, h.swapType]
  rw [hrole]
  cases hmw : party.role slate with
  | mw =>
    rw [hmw] at h hslate
    obtain ⟨d, rfl⟩ := h
    exact ⟨hslate.x, hslate.swapped, hslate.swappedCoin⟩
  | btc =>
    rw [hmw] at h hslate
    obtain ⟨d, rfl⟩ := h
    exact ⟨(fun heq => by cases heq), hslate.swapped, hslate.swappedCoin⟩

omit [CommRing K] [AddCommGroup P] [Module K P] [DecidableEq K] [DecidableEq P] in
theorem Unexecuted.not_saved (hF : F.Lawful) {role : Role} (h : Unexecuted slate role) :
    ¬ ResultsSaved F (slate.files F) role := by
  cases role with
  | mw =>
    rintro ⟨stored, hstored, hsaved⟩
    rw [readSlateFromDisk_files hF, Except.ok.injEq] at hstored
    subst hstored
    rw [h.x rfl, h.swapped] at hsaved
    rcases hsaved with hsaved | hsaved <;> cases hsaved
  | btc =>
    rintro ⟨stored, hstored, hsaved⟩
    rw [readSlateFromDisk_files hF, Except.ok.injEq] at hstored
    subst hstored
    rw [h.swappedCoin] at hsaved
    cases hsaved

omit [DecidableEq K] [DecidableEq P] in
/-- A slate that is not finished has no results. -/
theorem Party.keeps_unexecuted (party : Party) :
    party.Keeps B fun slate => slate.pubSlate.status = .finished ∨ slate.pubSlate.status = .failed ∨
      Unexecuted slate (party.role slate) := by
  intro rand slate slate' command phase hdrives hfin hslate
  obtain ⟨inputs, rfl⟩ | ⟨inputs, rfl⟩ | ⟨hinit, hlocks⟩ | hexec | hrefund := hfin.driven hdrives
  · exact hslate.imp_right fun h => h.imp_right fun h => ⟨h.x, h.swapped, h.swappedCoin⟩
  · exact hslate.imp_right fun h => h.imp_right fun h => ⟨h.x, h.swapped, h.swappedCoin⟩
  · rcases hslate with hfinished | hfailed | hslate
    · cases hinit.symm.trans hfinished
    · cases hinit.symm.trans hfailed
    · exact .inr (.inr (hlocks.unexecuted hslate))
  · exact .inl hexec.status
  · exact .inr (.inl hrefund.status)

/-- The operations that make a result due are not writes. -/
theorem resultsDue_cut {role : Role} (h : ResultsDue L t role) :
    ∃ t₁ e t₂, t = t₁ ++ e :: t₂ ∧ e.op.Reads ∧ ResultsDue L (t₁ ++ [e]) role := by
  cases role with
  | mw =>
    obtain ⟨x, past, past', S₂, S, aptSig, sig, hpast, ⟨u, rfl⟩, hans₂, hans, h⟩ := h
    obtain ⟨pre, s, s', ans, S₁, msg, rfl, hread⟩ := hans
    refine ⟨pre ++ [⟨s, .send (.slate .contract .ptx3 S₁), ans⟩], ⟨s', .recv, .ok msg⟩, u, by simp,
      trivial, x, past, _, S₂, S, aptSig, sig, hpast, by simp, hans₂, ?_, h⟩
    exact ⟨pre, s, s', ans, S₁, msg, rfl, hread⟩
  | btc =>
    obtain ⟨s, S, hmem⟩ := h
    obtain ⟨t₁, t₂, rfl⟩ := List.append_of_mem hmem
    exact ⟨t₁, _, t₂, rfl, trivial, s, S, by simp⟩

/-- An execution has its results in the files at no point before `main` writes them, so they are there
whenever they are due only if they are never due. -/
theorem execution_saves_iff (hF : F.Lawful) {party : Party} (hbegun : Begun F (dir swapid))
    (hsession : Session L B F settings (party.uses swapid) dir runs dir₁)
    (hcommand : party = .taker ∧ command = .execute swapid ∨
      party = .offerer ∧ ∃ clients, command = .listen swapid clients)
    (hload : command.loadSlate F settings (dir₁ swapid) = .ok slate)
    (hsetup : slate.pubSlate.status = .setup)
    {q : Program K P (SwapSlate K P) (Option Phase)}
    (h : Steps (main L B rand command slate) t q) :
    (∀ t', t' <+: t → ResultsDue L t' (party.role slate) →
        ResultsSaved F ((dir₁ swapid).after F t') (party.role slate)) ↔
      ¬ ResultsDue L t (party.role slate) := by
  have hread : readSlateFromDisk F (dir₁ swapid) = .ok slate := by
    rcases hcommand with ⟨-, rfl⟩ | ⟨-, clients, rfl⟩ <;> exact loadSlate_read hload nofun nofun
  have haccept : ∀ swapid, command ≠ .accept swapid := by
    rcases hcommand with ⟨-, rfl⟩ | ⟨-, clients, rfl⟩ <;> exact nofun
  constructor
  · intro hsaved hdue
    obtain ⟨t₁, e, t₂, rfl, he, hdue⟩ := resultsDue_cut hdue
    have hafter := hsaved (t₁ ++ [e]) ⟨t₂, by simp⟩ hdue
    rw [main_unwritten haccept h he] at hafter
    have hstart : ∀ slate : SwapSlate K P, slate.pubSlate.status = .initialized →
        slate.prvSlate = .blank → slate.pubSlate.status = .finished ∨
          slate.pubSlate.status = .failed ∨ Unexecuted slate (party.role slate) := by
      intro slate _ hblank
      right; right
      constructor <;> rw [hblank] <;> first | exact fun _ => rfl | rfl
    obtain ⟨stored, hstored, hunexecuted⟩ := hsession.holds hF party.keeps_unexecuted hbegun hstart
    rw [hstored, readSlateFromDisk_files hF, Except.ok.injEq] at hread
    subst hread
    rcases hunexecuted with hfinished | hfailed | hunexecuted
    · cases hsetup.symm.trans hfinished
    · cases hsetup.symm.trans hfailed
    · rw [hstored] at hafter
      exact hunexecuted.not_saved hF hafter
  · intro hnot t' hleads hdue
    exact (hnot (hdue.mono hleads)).elim

/-- The taker of the sample sends the final slate of the contract, and its Grin node is down. -/
theorem sample_execution_stops {lock : SignedLock} {sharedA sharedB : DSharedOutMwTxResult Scalar Scalar}
    (hcoin : SharedCoin exponents sharedA.sharedCoin sharedB.sharedCoin 1012500000 21 31)
    (hvalue : sharedB.sharedCoin.value = 1012500000) :
    ∃ t slate, Steps (main exponents (btcExponents []) sampleRand (.execute 1)
        (sampleTakerSetup lock sharedB)) t (.stop slate (.err "node down")) ∧
      FinalSent t ∧
      Truthful fileExponents ((sampleTakerSetup lock sharedB).files fileExponents) t := by
  have hrun := contract_run () (sampleTakerSetup lock sharedB).executing exponents_lawful hcoin
    sample_spendsAll sample_execKeys
  obtain ⟨tA, tB, -, hB, -⟩ := steps_of_talk_only dcontractMwTxAlice_only dcontractMwTxBob_only hrun
  obtain ⟨s, S, hmem⟩ := hB.sat (dcontractMwTxBob_finalSent [])
  have hops : ∀ e ∈ tB, e.op.InPhase := by
    refine hB.forall_op ((dcontractMwTxBob_only _ []).mono ?_ fun _ _ _ h => h)
    rintro past s op ⟨-, hop, -⟩
    match op, hop with
    | .recv, _ => trivial
    | .send _, _ => trivial
  have henough : enoughTime exponents.overflowChecks 1500000 700000 1500400 700040 = .ok true := by decide
  have hsk : deserializePrivKey (btcExponents []) (serializePrivKey (btcExponents [])
      (createPrivateKey 5)) = .ok (createPrivateKey 5) :=
    deserializePrivKey_serialize (btcExponents_lawful []) (by decide)
  have hgrinSk := ((exponents_sameCurve []).privateKey (k := 5) (by decide)).1
  have hfund : subU64 exponents.overflowChecks sharedB.sharedCoin.value (estimateFees exponents 1 1 1) =
      .ok 1000000000 := by
    rw [hvalue]
    decide
  obtain ⟨u, q, hexec, rfl, rfl⟩ := execPhaseSwapBtc_steps (L := exponents) (B := btcExponents [])
    (s := sampleTakerSetup lock sharedB) (t := tB)
    (.error (.err "node down")) rfl rfl henough rfl rfl hsk hgrinSk hfund hB rfl
  have hphase : Steps (execPhase exponents (btcExponents []) sampleRand
      (sampleTakerSetup lock sharedB).taker (sampleTakerSetup lock sharedB)) _
      (.stop _ (.err "node down")) := hexec
  have hcommand : Steps ((Command.execute 1).run exponents (btcExponents []) sampleRand
      (sampleTakerSetup lock sharedB)) _ (.stop _ (.err "node down")) :=
    (runExecute_steps (fileExponents.pubToJson (sampleTakerSetup lock sharedB).pubSlate) rfl
      hphase).bind_stop
  refine ⟨_, _, hcommand.bind_stop, ⟨s, S, ?_⟩, ?_⟩
  · rw [List.nil_append] at hmem
    exact List.mem_append_right _ (.tail _ (List.mem_append_right _ (List.mem_append_left _ hmem)))
  · refine ⟨trivial, rfl, trivial, trivial, trivial, truthful_of_inPhase fun e he => ?_⟩
    simp only [List.cons_append, List.nil_append, List.mem_cons, List.mem_append, List.not_mem_nil,
      or_false] at he
    rcases he with rfl | rfl | he | rfl
    · trivial
    · trivial
    · exact hops e he
    · trivial

/-- A session of the taker up to its execution, after which its Grin node is down. -/
theorem session_execution_stops {C : Directory → Command → Prop}
    (himport : C (sampleDirectory sampleSlate) sampleImport)
    (hlock : C (sampleDirectory sampleTaker) (.lock 1)) :
    ∃ t slate slate', Session exponents (btcExponents []) fileExponents sampleSettings C
        (sampleDirectory sampleSlate) [(sampleImport, none), (.lock 1, some .locking)]
        (sampleDirectory slate) ∧
      slate.pubSlate.status = .setup ∧ slate.taker = .btc ∧ slate.prvSlate.mw.swappedCoin = none ∧
      (Command.execute 1).loadSlate fileExponents sampleSettings (sampleDirectory slate 1) = .ok slate ∧
      Steps (main exponents (btcExponents []) sampleRand (.execute 1) slate) t
        (.stop slate' (.err "node down")) ∧
      Truthful fileExponents (sampleDirectory slate 1) t ∧ FinalSent t := by
  obtain ⟨lock, sharedA, sharedB, hsession, hcoin, hvalue⟩ := session_locked himport hlock
  obtain ⟨t, slate', hsteps, hsent, htrue⟩ := @sample_execution_stops lock _ _ hcoin hvalue
  have hload : (Command.execute 1).loadSlate fileExponents sampleSettings
      (sampleDirectory (sampleTakerSetup lock sharedB) 1) = .ok (sampleTakerSetup lock sharedB) := by
    simp only [Command.loadSlate, sampleDirectory_read, Outcome.expect_ok]
  rw [← sampleDirectory_self] at htrue
  exact ⟨t, sampleTakerSetup lock sharedB, slate', hsession, rfl, rfl, rfl, hload, hsteps, htrue, hsent⟩

theorem execution_saves_sample : ∃ t slate q,
    Steps (main exponents (btcExponents []) sampleRand (.execute 1) slate) t q ∧
    ¬ ∀ t', t' <+: t → ResultsDue exponents t' (Party.taker.role slate) →
      ResultsSaved fileExponents ((sampleDirectory slate 1).after fileExponents t')
        (Party.taker.role slate) := by
  obtain ⟨t, slate, slate', hsession, hsetup, hrole, -, hload, hsteps, htrue, hsent⟩ :=
    session_execution_stops (C := Party.taker.uses 1) (fun _ => trivial) (fun _ => rfl)
  have hiff := execution_saves_iff fileExponents_lawful sample_begun hsession (.inl ⟨rfl, rfl⟩) hload
    hsetup hsteps
  refine ⟨t, slate, _, hsteps, fun h => hiff.mp h ?_⟩
  rw [Party.role, hrole]
  exact hsent

/-- The taker has sent the final slate, its node is down, and the coin it received is not in its
files. -/
theorem execution_loses_coin : ∃ t slate slate',
    Session exponents (btcExponents []) fileExponents sampleSettings (Party.taker.uses 1)
      (sampleDirectory sampleSlate) [(sampleImport, none), (.lock 1, some .locking)]
      (sampleDirectory slate) ∧
    Steps (main exponents (btcExponents []) sampleRand (.execute 1) slate) t
      (.stop slate' (.err "node down")) ∧
    Truthful fileExponents (sampleDirectory slate 1) t ∧ FinalSent t ∧
    ¬ CoinSaved fileExponents ((sampleDirectory slate 1).after fileExponents t) := by
  obtain ⟨t, slate, slate', hsession, -, -, hcoin, -, hsteps, htrue, hsent⟩ :=
    session_execution_stops (C := Party.taker.uses 1) (fun _ => trivial) (fun _ => rfl)
  refine ⟨t, slate, slate', hsession, hsteps, htrue, hsent, ?_⟩
  obtain ⟨hfiles, -⟩ | ⟨_, _, hret, -⟩ := main_files hsteps htrue not_writing_stop
  · rw [hfiles]
    rintro ⟨stored, hstored, hsaved⟩
    rw [sampleDirectory_read, Except.ok.injEq] at hstored
    subst hstored
    rw [hcoin] at hsaved
    cases hsaved
  · cases hret

end MwBtcSwap
