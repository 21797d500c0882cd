import MwBtcSwap.Swap.Handshake

/-! Commands of the two parties that run at the same time, the one of the offerer and the one of the
taker, each with a socket, a disk and nodes that answer: they find the same checksum and go on to the
phase that the taker named. -/

namespace MwBtcSwap

open Interaction Machine Grin Bitcoin Relation

variable {K P : Type} [CommRing K] [AddCommGroup P] [Module K P] [DecidableEq K] [DecidableEq P]

variable {L : GrinLib K P} {B : BtcLib K P} {F : FileLib K P} {swapid clients : ℕ}
  {slateO slateT slateO' slateT' : SwapSlate K P} {randO randT : Rand K} {filesO filesT : SlateFiles}
  {nodes nodes' : Nodes K P (SwapSlate K P)}

/-- The socket and the disk of a party: connections are made, and the files are those of the start with
what was written since. -/
structure Hosted (F : FileLib K P) (files : SlateFiles) (nodes : Nodes K P (SwapSlate K P)) : Prop where
  connect : ∀ past server port, nodes past (.connect server port) = .ok ()
  bind : ∀ past, nodes past .bind = .ok ()
  accept : ∀ past, nodes past .accept = .ok ()
  checksum : ∀ past, nodes past .getSlateChecksum = getSlateChecksum F (files.after F past)
  create : ∀ past isPublic, nodes past (.createSlateFile isPublic) = .ok ()
  write : ∀ past isPublic, nodes past (.writeSlateFile isPublic) = .ok ()

section

omit [CommRing K] [AddCommGroup P] [Module K P] [DecidableEq K] [DecidableEq P]

theorem Hosted.diskAnswer {files : SlateFiles} (h : Hosted F files nodes)
    (past : Trace K P (SwapSlate K P)) (s : SwapSlate K P) (op : Op K P) :
    DiskAnswer F (files.after F past) ⟨s, op, nodes past op⟩ := by
  cases op with
  | getSlateChecksum => exact h.checksum past
  | createSlateFile isPublic => exact h.create past isPublic
  | writeSlateFile isPublic => exact h.write past isPublic
  | _ => trivial

/-- Nodes that answer at once, with a disk. -/
def diskNodes (F : FileLib K P) (files : SlateFiles) (heightGrin heightBtc amount : ℕ) :
    Nodes K P (SwapSlate K P)
  | past, .getSlateChecksum => getSlateChecksum F (files.after F past)
  | _, .createSlateFile _ => .ok ()
  | _, .writeSlateFile _ => .ok ()
  | past, op => promptNodes heightGrin heightBtc amount past op

theorem diskNodes_hosted (files : SlateFiles) (heightGrin heightBtc amount : ℕ) :
    Hosted F files (diskNodes F files heightGrin heightBtc amount) :=
  ⟨fun _ _ _ => rfl, fun _ => rfl, fun _ => rfl, fun _ => rfl, fun _ _ => rfl, fun _ _ => rfl⟩

/-- The checksum before a write is that of the public file of the start. -/
theorem Hosted.checksum_of_reads {files : SlateFiles} (h : Hosted F files nodes) {text : String}
    (hpub : files.pub = some text) {past : Trace K P (SwapSlate K P)}
    (hpast : ∀ e ∈ past, e.op.Reads) : nodes past .getSlateChecksum = .ok (F.sha256 text) := by
  rw [h.checksum, after_of_reads hpast, getSlateChecksum, hpub]

end

section Truthful

variable {α β : Type} {files : SlateFiles}
  {a b : Actors K P (SwapSlate K P) (SwapSlate K P) α β}

omit [CommRing K] [AddCommGroup P] [Module K P] [DecidableEq K] [DecidableEq P] in
theorem JointStep.truthful (h : JointStep L nodes nodes' a b) (hhost : Hosted F files nodes)
    (ha : Truthful F files a.1.past) : Truthful F files b.1.past := by
  cases h with
  | left hop => exact truthful_append.mpr ⟨ha, hhost.diskAnswer _ _ _, trivial⟩
  | right hop => exact ha
  | send => exact truthful_append.mpr ⟨ha, trivial, trivial⟩
  | recv => exact truthful_append.mpr ⟨ha, trivial, trivial⟩

omit [CommRing K] [AddCommGroup P] [Module K P] [DecidableEq K] [DecidableEq P] in
/-- What the first party reads of its files along a joint run is in them. -/
theorem JointSteps.truthful (h : JointSteps L nodes nodes' a b) (hhost : Hosted F files nodes)
    (ha : Truthful F files a.1.past) : Truthful F files b.1.past := by
  induction h with
  | refl => exact ha
  | tail _ hstep ih => exact hstep.truthful hhost ih

end Truthful

/-! ### The handshakes -/

section Handshake

variable {Q : Actors K P (SwapSlate K P) (SwapSlate K P) (Option Phase) (Option Phase) → Prop}

/-- What a command does after its phase. -/
def finish (phase : Phase) : Process K P (SwapSlate K P) (Option Phase) := do
  writeSlateToDisk true true
  return some phase

omit [CommRing K] [AddCommGroup P] [Module K P] [DecidableEq K] [DecidableEq P] in
theorem finish_eq (phase : Phase) : (finish phase : Process K P (SwapSlate K P) (Option Phase)) =
    (Proc.request (.createSlateFile false) (Outcome.expect "Unable to create private slate file") >>=
      fun _ => Proc.request (.createSlateFile true) (Outcome.expect "Unable to creat public slate file") >>=
      fun _ => Proc.request (.writeSlateFile false) (Outcome.expect "Unable to write private slate file") >>=
      fun _ => Proc.request (.writeSlateFile true) (Outcome.expect "Unable to write public slate file") >>=
      fun _ => pure (some phase)) := by
  simp only [finish, writeSlateToDisk, Proc.bind_assoc, if_true]

/-- No look at a balance has been made. -/
def Opening (past : Trace K P (SwapSlate K P)) : Prop := past.countP isLook = 0

/-- The files of the two parties have the public part of the offerer's slate. -/
structure SamePublic (F : FileLib K P) (slateO slateT : SwapSlate K P) (filesO filesT : SlateFiles) :
    Prop where
  slates : slateT.pubSlate = slateO.pubSlate
  filesO : filesO.pub = some (F.pubToJson slateO.pubSlate)
  filesT : filesT.pub = some (F.pubToJson slateO.pubSlate)

theorem lock_eq : main L B randT (.lock swapid) = (connectToPeer >>= fun resp => Proc.get >>= fun slate =>
    (if eqIgnoreAsciiCase resp "OK" = false then
      Proc.lift (.error (.err "Checksums didn't match!"))
    else if slate.pubSlate.status ≠ .initialized then
      Proc.lift (.error (.err "Slate is not in initialized state!"))
    else lockingPhase L B randT slate.taker) >>= fun _ => finish .locking) := by
  simp only [main, Command.run, lockExecute, Proc.bind_assoc]
  rfl

theorem listen_eq : main L B randO (.listen swapid clients) =
    listenExecute L B randO clients >>= finish := by
  show ((listenExecute L B randO clients >>= fun phase => pure (some phase)) >>= _ :
    Process K P (SwapSlate K P) (Option Phase)) = _
  rw [Proc.bind_assoc]
  rfl

/-- A listener and a taker that connects to it find the same checksum. -/
theorem jointReaches_handshake {g : String → Process K P (SwapSlate K P) (Option Phase)} {value : ℕ}
    (hsame : SamePublic F slateO slateT filesO filesT) (hO : Hosted F filesO nodes)
    (hT : Hosted F filesT nodes') (hvalue : (offeredValue L slateO).1 = .ok value)
    (hnot : ¬ (slateO.pubSlate.status ≠ .setup ∧ value < (offeredValue L slateO).2))
    (h : ∀ past past', Opening past → Opening past' → JointReaches L nodes nodes' Q
      (⟨past, (serveClient L B randO slateO >>= fun served => (match served with
          | some phase => pure phase
          | none => serveClients L B randO clients) >>= finish) slateO⟩, ⟨past', g "OK" slateT⟩)) :
    JointReaches L nodes nodes' Q (⟨[], main L B randO (.listen swapid (clients + 1)) slateO⟩,
      ⟨[], (connectToPeer >>= g) slateT⟩) := by
  rw [listen_eq]
  simp only [listenExecute, connectToPeer, Proc.bind_assoc]
  refine jointReaches_left_get ?_
  refine jointReaches_left_lift hvalue ?_
  rw [if_neg hnot]
  simp only [Proc.bind_assoc]
  refine jointReaches_left (c := ()) (fun h => h) (by rw [hO.bind]; rfl) ?_
  rw [serveClients]
  simp only [Proc.bind_assoc]
  refine jointReaches_left (c := ()) (fun h => h) (by rw [hO.accept]; rfl) ?_
  refine jointReaches_right_get ?_
  refine jointReaches_right (c := ()) (fun h => h) (by rw [hT.connect]; rfl) ?_
  refine jointReaches_right (fun h => h)
    (by rw [hT.checksum_of_reads hsame.filesT (by simp [Op.Reads])]; rfl) ?_
  refine jointReaches_recv ?_
  refine jointReaches_left (fun h => h)
    (by rw [hO.checksum_of_reads hsame.filesO (by simp [Op.Reads])]; rfl) ?_
  rw [Msg.render, if_pos (eqIgnoreAsciiCase_self _)]
  simp only [Proc.bind_assoc]
  refine jointReaches_send ?_
  refine jointReaches_left_get ?_
  refine h _ _ ?_ ?_
  · simp [Opening, isLook]
  · simp [Opening, isLook]

/-- `listen` and `lock` at the same time reach the locking phase. -/
theorem jointReaches_lock {value : ℕ} (hsame : SamePublic F slateO slateT filesO filesT)
    (hO : Hosted F filesO nodes) (hT : Hosted F filesT nodes')
    (hinit : slateO.pubSlate.status = .initialized) (hvalue : (offeredValue L slateO).1 = .ok value)
    (henough : (offeredValue L slateO).2 ≤ value)
    (h : ∀ past past', Opening past → Opening past' → JointReaches L nodes nodes' Q
      (⟨past, (lockingPhase L B randO slateO.offerer >>= fun _ => finish .locking) slateO⟩,
        ⟨past', (lockingPhase L B randT slateT.taker >>= fun _ => finish .locking) slateT⟩)) :
    JointReaches L nodes nodes' Q (⟨[], main L B randO (.listen swapid (clients + 1)) slateO⟩,
      ⟨[], main L B randT (.lock swapid) slateT⟩) := by
  have hnot : ¬ (slateO.pubSlate.status ≠ .setup ∧ value < (offeredValue L slateO).2) := by omega
  rw [lock_eq]
  refine jointReaches_handshake hsame hO hT hvalue hnot fun past past' hpast hpast' => ?_
  refine jointReaches_right_get ?_
  rw [if_neg (by decide), if_neg (not_not.mpr (hsame.slates ▸ hinit)), serveClient, if_pos hinit]
  simp only [Proc.bind_assoc]
  exact h past past' hpast hpast'

omit [CommRing K] [AddCommGroup P] [Module K P] [DecidableEq K] [DecidableEq P] in
theorem run_eq {name : String} {phase : Role → Process K P (SwapSlate K P) Unit} {completed : Phase} :
    ((runExecute name phase >>= fun _ => pure (some completed)) >>= fun phase => do
      writeSlateToDisk true true
      return phase) = (connectToPeer >>= fun resp => Proc.get >>= fun slate =>
    (if eqIgnoreAsciiCase resp "OK" = false then
      Proc.lift (.error (.err "Checksums didn't match"))
    else if slate.pubSlate.status ≠ .setup then
      Proc.lift (.error (.err "Slate must be in state SETUP to be executed"))
    else do
      sendMsg (.text name)
      phase slate.taker) >>= fun _ => finish completed) := by
  simp only [runExecute, Proc.bind_assoc]
  rfl

/-- `listen` and a command of the taker that names a phase reach what the listener does at the name. -/
theorem jointReaches_run {name : String} {phase : Role → Process K P (SwapSlate K P) Unit}
    {completed : Phase} {value : ℕ} (hsame : SamePublic F slateO slateT filesO filesT)
    (hO : Hosted F filesO nodes) (hT : Hosted F filesT nodes')
    (hsetup : slateO.pubSlate.status = .setup) (hvalue : (offeredValue L slateO).1 = .ok value)
    (h : ∀ past past', Opening past → Opening past' → JointReaches L nodes nodes' Q
      (⟨past, if name = "EXECUTE" then
          (execPhase L B randO slateO.offerer >>= fun _ => finish .execution) slateO
        else (refundPhase B randO slateO.offerer >>= fun _ => finish .refund) slateO⟩,
        ⟨past', (phase slateT.taker >>= fun _ => finish completed) slateT⟩)) :
    JointReaches L nodes nodes' Q (⟨[], main L B randO (.listen swapid (clients + 1)) slateO⟩,
      ⟨[], ((runExecute name phase >>= fun _ => pure (some completed)) >>= fun phase => do
        writeSlateToDisk true true
        return phase) slateT⟩) := by
  have hnot : ¬ (slateO.pubSlate.status ≠ .setup ∧ value < (offeredValue L slateO).2) :=
    fun hlow => hlow.1 hsetup
  have hinit : slateO.pubSlate.status ≠ .initialized := by
    rw [hsetup]
    decide
  rw [run_eq]
  refine jointReaches_handshake hsame hO hT hvalue hnot fun past past' hpast hpast' => ?_
  refine jointReaches_right_get ?_
  rw [if_neg (by decide), if_neg (not_not.mpr (hsame.slates ▸ hsetup)), serveClient, if_neg hinit,
    if_pos hsetup]
  simp only [Proc.bind_assoc]
  refine jointReaches_recv ?_
  have hserve := h (past ++ [⟨slateO, .recv, .ok name⟩]) (past' ++ [⟨slateT, .send (.text name), .ok ()⟩])
    (by simpa [Opening, isLook] using hpast) (by simpa [Opening, isLook] using hpast')
  by_cases hname : name = "EXECUTE"
  · rw [Msg.render, if_pos hname, Proc.bind_assoc]
    rw [if_pos hname] at hserve
    exact hserve
  · rw [Msg.render, if_neg hname, Proc.bind_assoc]
    rw [if_neg hname] at hserve
    exact hserve

omit [CommRing K] [AddCommGroup P] [Module K P] [DecidableEq K] [DecidableEq P] in
/-- Two phases that return together are followed by the writes of the files. -/
theorem jointReaches_finish {p q : Process K P (SwapSlate K P) Unit} {phase phase' : Phase}
    {past past' t u : Trace K P (SwapSlate K P)} {s s' r r' : SwapSlate K P}
    (hO : Hosted F filesO nodes) (hT : Hosted F filesT nodes')
    (hsteps : JointSteps L nodes nodes' (⟨past, p s⟩, ⟨past', q s'⟩) (⟨t, .ret r ()⟩, ⟨u, .ret r' ()⟩))
    (h : Q (⟨t ++ r.writes, .ret r (some phase)⟩, ⟨u ++ r'.writes, .ret r' (some phase')⟩)) :
    JointReaches L nodes nodes' Q (⟨past, (p >>= fun _ => finish phase) s⟩,
      ⟨past', (q >>= fun _ => finish phase') s'⟩) := by
  refine jointReaches_bind hsteps ?_
  rw [finish_eq, finish_eq]
  refine jointReaches_left (c := ()) (fun h => h) (by rw [hO.create]; rfl) ?_
  refine jointReaches_left (c := ()) (fun h => h) (by rw [hO.create]; rfl) ?_
  refine jointReaches_left (c := ()) (fun h => h) (by rw [hO.write]; rfl) ?_
  refine jointReaches_left (c := ()) (fun h => h) (by rw [hO.write]; rfl) ?_
  refine jointReaches_right (c := ()) (fun h => h) (by rw [hT.create]; rfl) ?_
  refine jointReaches_right (c := ()) (fun h => h) (by rw [hT.create]; rfl) ?_
  refine jointReaches_right (c := ()) (fun h => h) (by rw [hT.write]; rfl) ?_
  refine jointReaches_right (c := ()) (fun h => h) (by rw [hT.write]; rfl) ?_
  simp only [hO.create, hO.write, hT.create, hT.write, List.append_assoc]
  exact ⟨_, .refl, h⟩

end Handshake

end MwBtcSwap
