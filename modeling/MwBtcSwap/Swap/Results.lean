import MwBtcSwap.Swap.Commands
import MwBtcSwap.Swap.Times

/-! What commands leave in the slate and in the files.  A command that returns completed the phase that
the status of the slate allows, and only then are the files written. -/

namespace MwBtcSwap

open Interaction Machine Grin Bitcoin

variable {K P : Type} [CommRing K] [AddCommGroup P] [Module K P] [DecidableEq K] [DecidableEq P]

variable {L : GrinLib K P} {B : BtcLib K P} {F : FileLib K P} {rand : Rand K}
  {slate slate' : SwapSlate K P} {past : Trace K P (SwapSlate K P)}

/-- The slate after the locking phase of a role. -/
def Locks (B : BtcLib K P) (rand : Rand K) (slate slate' : SwapSlate K P) : Role → Prop
  | .mw => ∃ d, slate' = slate.lockMw B (createPrivateKey rand.lockMw.skA) d
  | .btc => ∃ d, slate' = slate.lockBtc B (createPrivateKey rand.lockBtc.skB)
      (createPrivateKey rand.lockBtc.skR) (createPrivateKey rand.lockBtc.x) d

/-- The slate after the execution phase of a role. -/
def Executes (slate slate' : SwapSlate K P) : Role → Prop
  | .mw => ∃ swapped, slate' = { slate with
      pubSlate.status := .finished
      prvSlate.btc.swapped := some swapped }
  | .btc => ∃ coin, slate' = { slate with
      pubSlate.status := .finished
      prvSlate.mw.swappedCoin := coin }

/-- The slate after the refund phase of a role. -/
def Refunds (slate slate' : SwapSlate K P) : Role → Prop
  | .mw => slate' = { slate with pubSlate.status := .failed }
  | .btc => ∃ refunded, slate' = { slate with
      pubSlate.status := .failed
      prvSlate.btc.refunded := some refunded }

/-- A process that writes no file and leaves a slate in this relation to its first. -/
def Phases {α : Type} (p : Process K P (SwapSlate K P) α)
    (Q : SwapSlate K P → SwapSlate K P → α → Prop) : Prop :=
  ∀ slate past, (p slate).Sat (fun _ _ op => op.Reads) (fun _ slate' a => Q slate slate' a) past

omit [CommRing K] [AddCommGroup P] [Module K P] [DecidableEq K] [DecidableEq P] in
theorem reads_of_protocol {protocol : Protocol} {op : Op K P} (h : Op.OfProtocol protocol op) :
    op.Reads := by
  match op, h with
  | .recv, _ => trivial
  | .send _, _ => trivial

theorem lockingPhase_phases (role : Role) :
    Phases (lockingPhase L B rand role) fun slate slate' _ => Locks B rand slate slate' role := by
  intro slate past
  cases role with
  | mw =>
    refine (lockingPhaseSwapMw_sat rand.lockMw slate past).mono ?_ ?_
    · intro past s op hop
      cases op with
      | createSlateFile b => exact hop
      | writeSlateFile b => exact hop
      | _ => trivial
    · rintro past s _ ⟨d, hs, -⟩
      exact ⟨d, hs⟩
  | btc =>
    refine (lockingPhaseSwapBtc_sat rand.lockBtc slate past).mono ?_ ?_
    · intro past s op hop
      cases op with
      | createSlateFile b => exact hop
      | writeSlateFile b => exact hop
      | _ => trivial
    · rintro past s _ ⟨d, hs, -⟩
      exact ⟨d, hs⟩

theorem execPhase_phases (role : Role) :
    Phases (execPhase L B rand role) fun slate slate' _ => Executes slate slate' role := by
  intro slate past
  cases role with
  | mw =>
    exact execPhaseSwapMw_sat (fun _ => trivial) (fun _ => trivial)
      (fun _ _ _ _ _ _ _ _ _ hop => reads_of_protocol hop) (fun _ _ => trivial)
      fun _ _ _ _ _ _ _ => ⟨_, rfl⟩
  | btc =>
    refine execPhaseSwapBtc_sat (fun _ => trivial) (fun _ => trivial) fun _ _ _ _ _ _ _ =>
      (dcontractMwTxBob_only _ _).mono (fun _ _ _ hop => reads_of_protocol hop.2.1) ?_
    rintro _ s _ ⟨rfl, -⟩
    exact ⟨fun _ => trivial, fun _ => ⟨_, rfl⟩⟩

omit [DecidableEq K] [DecidableEq P] in
theorem refundPhase_phases (role : Role) :
    Phases (refundPhase B rand role) fun slate slate' _ => Refunds slate slate' role := by
  intro slate past
  cases role with
  | mw =>
    exact refundPhaseSwapMw_sat (fun _ => trivial) (fun _ => trivial) (fun _ _ => trivial) fun _ => rfl
  | btc =>
    exact refundPhaseSwapBtc_sat (fun _ => trivial) (fun _ => trivial) (fun _ _ => trivial)
      fun _ _ _ _ _ _ => ⟨_, rfl⟩

/-! ### Commands -/

/-- What the listener made of its slate in a phase. -/
def Serves (B : BtcLib K P) (rand : Rand K) (slate slate' : SwapSlate K P) : Phase → Prop
  | .locking => slate.pubSlate.status = .initialized ∧ Locks B rand slate slate' slate.offerer
  | .execution => slate.pubSlate.status = .setup ∧ Executes slate slate' slate.offerer
  | .refund => slate.pubSlate.status = .setup ∧ Refunds slate slate' slate.offerer

/-- What a command that returns made of its slate, and the phase that it completed. -/
def Finishes (B : BtcLib K P) (rand : Rand K) (slate slate' : SwapSlate K P) :
    Command → Option Phase → Prop
  | .init .., phase | .accept _, phase => slate' = slate ∧ phase = none
  | .importBtc .., phase => phase = none ∧ ∃ input, slate' = { slate with
      prvSlate.btc.inputs := slate.prvSlate.btc.inputs ++ [input] }
  | .importGrin _ coin, phase => phase = none ∧ slate' = { slate with
      prvSlate.mw.inputs := slate.prvSlate.mw.inputs ++ [coin] }
  | .lock _, phase => phase = some .locking ∧ slate.pubSlate.status = .initialized ∧
      Locks B rand slate slate' slate.taker
  | .execute _, phase => phase = some .execution ∧ slate.pubSlate.status = .setup ∧
      Executes slate slate' slate.taker
  | .cancel _, phase => phase = some .refund ∧ slate.pubSlate.status = .setup ∧
      Refunds slate slate' slate.taker
  | .listen .., phase => ∃ served, phase = some served ∧ Serves B rand slate slate' served

omit [CommRing K] [AddCommGroup P] [Module K P] [DecidableEq K] [DecidableEq P] in
theorem connectToPeer_reads : (connectToPeer : Process K P (SwapSlate K P) String).Only Op.Reads := by
  intro s past
  exact Proc.Only.bind (.request trivial) (fun _ => .bind (.request trivial) fun _ =>
    .bind (.request trivial) fun _ => .request trivial) s past

theorem lockExecute_phases :
    Phases (lockExecute L B rand) fun slate slate' _ => slate.pubSlate.status = .initialized ∧
      Locks B rand slate slate' slate.taker := by
  intro slate past
  refine connectToPeer_reads.sat_bind (fun _ _ h _ => h) fun _ resp _ => Prog.sat_get_bind ?_
  split_ifs with hresp hstatus
  · trivial
  · trivial
  · exact (lockingPhase_phases _ slate _).mono (fun _ _ _ h => h)
      fun _ _ _ h => ⟨not_not.mp hstatus, h⟩

omit [CommRing K] [AddCommGroup P] [Module K P] [DecidableEq K] [DecidableEq P] in
theorem runExecute_phases {name : String} {phase : Role → Process K P (SwapSlate K P) Unit}
    {Q : SwapSlate K P → SwapSlate K P → Role → Prop}
    (h : ∀ role, Phases (phase role) fun slate slate' _ => Q slate slate' role) :
    Phases (runExecute name phase) fun slate slate' _ => slate.pubSlate.status = .setup ∧
      Q slate slate' slate.taker := by
  intro slate past
  refine connectToPeer_reads.sat_bind (fun _ _ h _ => h) fun _ resp _ => Prog.sat_get_bind ?_
  split_ifs with hresp hstatus
  · trivial
  · trivial
  · refine Prog.sat_request_bind trivial fun _ _ _ => ?_
    exact (h slate.taker slate _).mono (fun _ _ _ h => h) fun _ _ _ h => ⟨not_not.mp hstatus, h⟩

/-- The phase that a client of the listener gets, or none and the slate as it was. -/
theorem serveClient_phases :
    (serveClient L B rand slate slate).Sat (fun _ _ op => op.Reads) (fun _ slate' phase =>
      phase = none ∧ slate' = slate ∨
        ∃ served, phase = some served ∧ Serves B rand slate slate' served) past := by
  unfold serveClient
  split_ifs with hinit hsetup
  · refine (lockingPhase_phases _ slate past).bind fun _ _ _ h => ?_
    exact .inr ⟨.locking, rfl, hinit, h⟩
  · refine Prog.sat_request_bind trivial fun _ msg _ => ?_
    split_ifs
    · refine (execPhase_phases _ slate _).bind fun _ _ _ h => ?_
      exact .inr ⟨.execution, rfl, hsetup, h⟩
    · refine (refundPhase_phases _ slate _).bind fun _ _ _ h => ?_
      exact .inr ⟨.refund, rfl, hsetup, h⟩
  · exact .inl ⟨rfl, rfl⟩

-- a client without a phase leaves the slate alone, so the loop goes on as it started
theorem serveClients_phases (clients : ℕ) :
    Phases (serveClients L B rand clients) (Serves B rand) := by
  induction clients with
  | zero =>
    intro slate past
    exact ⟨trivial, fun _ => trivial⟩
  | succ clients ih =>
    intro slate past
    refine Prog.sat_request_bind trivial fun _ _ _ => Prog.sat_request_bind trivial fun _ msg _ =>
      Prog.sat_request_bind trivial fun _ checksum _ => ?_
    split_ifs
    · refine Prog.sat_request_bind trivial fun _ _ _ => Prog.sat_get_bind ?_
      refine serveClient_phases.bind ?_
      rintro past' slate' phase (⟨rfl, rfl⟩ | ⟨served, rfl, hserved⟩)
      · exact ih slate' past'
      · exact hserved
    · exact Prog.sat_request_bind trivial fun _ _ _ => ih slate _

theorem listenExecute_phases (clients : ℕ) :
    Phases (listenExecute L B rand clients) (Serves B rand) := by
  intro slate past
  refine Prog.sat_get_bind <| Prog.sat_lift_bind fun value _ => ?_
  split_ifs
  · trivial
  · exact Prog.sat_request_bind trivial fun _ _ _ => serveClients_phases clients slate _

omit [DecidableEq K] [DecidableEq P] in
theorem importBtcExecute_phases {txid sk pubScript : String} {vout value : ℕ} :
    Phases (importBtcExecute B txid vout value sk pubScript) fun slate slate' _ =>
      ∃ input, slate' = { slate with
        prvSlate.btc.inputs := slate.prvSlate.btc.inputs ++ [input] } := by
  intro slate past
  exact Prog.sat_lift_bind fun key _ => ⟨_, rfl⟩

/-- A command other than `accept` writes no file before it returns. -/
theorem run_phases {command : Command} (h : ∀ swapid, command ≠ .accept swapid) :
    Phases (command.run L B rand) fun slate slate' phase => Finishes B rand slate slate' command phase := by
  intro slate past
  cases command with
  | init swapid args => exact ⟨rfl, rfl⟩
  | accept swapid => exact (h swapid rfl).elim
  | importBtc swapid txid vout value sk pubScript =>
    exact (importBtcExecute_phases slate past).bind fun _ _ _ h => ⟨rfl, h⟩
  | importGrin swapid coin => exact ⟨rfl, rfl⟩
  | listen swapid clients =>
    refine (listenExecute_phases clients slate past).bind fun _ _ served hserved => ?_
    exact ⟨served, rfl, hserved⟩
  | lock swapid => exact (lockExecute_phases slate past).bind fun _ _ _ h => ⟨rfl, h⟩
  | execute swapid =>
    exact (runExecute_phases execPhase_phases slate past).bind fun _ _ _ h => ⟨rfl, h⟩
  | cancel swapid =>
    exact (runExecute_phases refundPhase_phases slate past).bind fun _ _ _ h => ⟨rfl, h⟩

/-! ### Files -/

/-- The files of a slate. -/
def SwapSlate.files (F : FileLib K P) (slate : SwapSlate K P) : SlateFiles :=
  ⟨some (F.pubToJson slate.pubSlate), some (F.prvToJson slate.prvSlate)⟩

/-- The program is in the middle of writing the files. -/
def Writing {α : Type} (q : Program K P (SwapSlate K P) α) : Prop :=
  ∃ s op k, q = .call s op k ∧ ¬ op.Reads

section

omit [CommRing K] [AddCommGroup P] [Module K P] [DecidableEq K] [DecidableEq P]

theorem not_writing_ret {α : Type} {a : α} : ¬ Writing (.ret slate a : Program K P (SwapSlate K P) α) := by
  rintro ⟨_, _, _, h, -⟩
  cases h

theorem not_writing_stop {α : Type} {e : Failure} :
    ¬ Writing (.stop slate e : Program K P (SwapSlate K P) α) := by
  rintro ⟨_, _, _, h, -⟩
  cases h

/-- A program that is about to create or to write a file goes on after that. -/
theorem steps_of_writing {α : Type} {files : SlateFiles} {s : SwapSlate K P} {op : Op K P}
    {k : op.Ans → Program K P (SwapSlate K P) α} {t : Trace K P (SwapSlate K P)}
    {q : Program K P (SwapSlate K P) α} (hop : ¬ op.Reads) (h : Steps (.call s op k) t q)
    (htrue : Truthful F files t) (hq : ¬ Writing q) :
    ∃ ans t', t = ⟨s, op, ans⟩ :: t' ∧ DiskAnswer F files ⟨s, op, ans⟩ ∧ Steps (k ans) t' q ∧
      Truthful F (files.step F ⟨s, op, ans⟩) t' := by
  cases h with
  | refl => exact (hq ⟨_, _, _, rfl, hop⟩).elim
  | step h => exact ⟨_, _, rfl, htrue.1, h, htrue.2⟩

/-- Writing the files goes on until they are written. -/
theorem steps_writeSlateToDisk {phase : Option Phase} {files : SlateFiles}
    {t : Trace K P (SwapSlate K P)} {q : Program K P (SwapSlate K P) (Option Phase)}
    (h : Steps ((writeSlateToDisk true true >>= fun _ => pure phase) slate) t q)
    (htrue : Truthful F files t) (hq : ¬ Writing q) :
    t = slate.writes ∧ q = .ret slate phase ∧ files.after F t = slate.files F := by
  obtain ⟨ans, t, rfl, rfl, h, htrue⟩ := steps_of_writing not_reads_create h htrue hq
  obtain ⟨ans, t, rfl, rfl, h, htrue⟩ := steps_of_writing not_reads_create h htrue hq
  obtain ⟨ans, t, rfl, rfl, h, htrue⟩ := steps_of_writing not_reads_write h htrue hq
  obtain ⟨ans, t, rfl, rfl, h, htrue⟩ := steps_of_writing not_reads_write h htrue hq
  obtain ⟨rfl, rfl⟩ := steps_ret.mp h
  exact ⟨rfl, rfl, rfl⟩

end

/-- A run of `main` that is not in the middle of writing has left the files alone, or has returned and
written them. -/
theorem main_files {command : Command} {files : SlateFiles} {t : Trace K P (SwapSlate K P)}
    {q : Program K P (SwapSlate K P) (Option Phase)} (h : Steps (main L B rand command slate) t q)
    (htrue : Truthful F files t) (hq : ¬ Writing q) :
    (files.after F t = files ∧ ∀ slate' phase, q ≠ .ret slate' phase) ∨
      ∃ slate' phase, q = .ret slate' phase ∧ Finishes B rand slate slate' command phase ∧
        files.after F t = slate'.files F := by
  by_cases haccept : ∃ swapid, command = .accept swapid
  · obtain ⟨swapid, rfl⟩ := haccept
    -- the private file is written once more before the two files are
    obtain ⟨ans, t, rfl, rfl, h, htrue⟩ := steps_of_writing not_reads_create h htrue hq
    obtain ⟨ans, t, rfl, rfl, h, htrue⟩ := steps_of_writing not_reads_create h htrue hq
    obtain ⟨ans, t, rfl, rfl, h, htrue⟩ := steps_of_writing not_reads_write h htrue hq
    obtain ⟨-, rfl, hfiles⟩ := steps_writeSlateToDisk h htrue hq
    exact .inr ⟨slate, none, rfl, ⟨rfl, rfl⟩, hfiles⟩
  · have hphases : Phases (command.run L B rand) _ :=
      run_phases fun swapid hcommand => haccept ⟨swapid, hcommand⟩
    obtain ⟨p, hp, rfl⟩ | ⟨t₁, t₂, s, phase, rfl, hrun, hwrite⟩ := h.bind_inv
    · left
      refine ⟨after_of_reads (hp.forall_op (hphases slate [])), ?_⟩
      intro slate' phase hret
      cases p with
      | ret s a => exact hq ⟨_, _, _, rfl, not_reads_create⟩
      | stop s e => cases hret
      | call s op k => cases hret
    · right
      obtain ⟨-, htrue⟩ := truthful_append.mp htrue
      rw [after_append, after_of_reads (hrun.forall_op (hphases slate []))] at *
      obtain ⟨-, rfl, hfiles⟩ := steps_writeSlateToDisk hwrite htrue hq
      exact ⟨s, phase, rfl, hrun.sat (hphases slate []), hfiles⟩

end MwBtcSwap
