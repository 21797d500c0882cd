import MwBtcSwap.Swap.Results

/-! Commands run one after another on a slate directory, with any peers and nodes.  A command may stop
at any point but in the middle of writing the files. -/

namespace MwBtcSwap

open Interaction Machine Grin Bitcoin

variable {K P : Type} [CommRing K] [AddCommGroup P] [Module K P] [DecidableEq K] [DecidableEq P]

/-- The phase that a program has completed, if it has returned. -/
def completedPhase {σ : Type} : Program K P σ (Option Phase) → Option Phase
  | .ret _ phase => phase
  | _ => none

/-- The id that `init` draws is new. -/
def Command.Fresh (dir : Directory) : Command → Prop
  | .init swapid _ => dir swapid = ⟨none, none⟩
  | _ => True

/-- One command on the directory, with the phase that it completed. -/
inductive CommandStep (L : GrinLib K P) (B : BtcLib K P) (F : FileLib K P) (settings : Settings)
    (dir : Directory) (command : Command) : Option Phase → Directory → Prop
  | unread {e : Failure} (hload : command.loadSlate F settings (dir command.swapid) = .error e) :
    CommandStep L B F settings dir command none dir
  | ran {rand : Rand K} {slate : SwapSlate K P} {t : Trace K P (SwapSlate K P)}
      {q : Program K P (SwapSlate K P) (Option Phase)}
      (hload : command.loadSlate F settings (dir command.swapid) = .ok slate)
      (hsteps : Steps (main L B rand command slate) t q)
      (htrue : Truthful F (dir command.swapid) t) (hq : ¬ Writing q) :
    CommandStep L B F settings dir command (completedPhase q)
      (Function.update dir command.swapid ((dir command.swapid).after F t))

/-- The commands of a session and the phases that they completed.  Every command meets the condition
`C` on the directory it is run on, and the ids that are drawn are new. -/
inductive Session (L : GrinLib K P) (B : BtcLib K P) (F : FileLib K P) (settings : Settings)
    (C : Directory → Command → Prop) (dir : Directory) :
    List (Command × Option Phase) → Directory → Prop
  | start : Session L B F settings C dir [] dir
  | command {runs : List (Command × Option Phase)} {dir₁ dir₂ : Directory} {command : Command}
      {phase : Option Phase} (hruns : Session L B F settings C dir runs dir₁)
      (hfresh : command.Fresh dir₁) (hcond : C dir₁ command)
      (hstep : CommandStep L B F settings dir₁ command phase dir₂) :
    Session L B F settings C dir (runs ++ [(command, phase)]) dir₂

/-- Any command. -/
def anyCommand (_ : Directory) (_ : Command) : Prop := True

variable {L : GrinLib K P} {B : BtcLib K P} {F : FileLib K P} {settings : Settings}
  {dir dir₁ dir₂ : Directory} {command : Command} {phase : Option Phase}
  {runs : List (Command × Option Phase)} {files : SlateFiles} {slate : SwapSlate K P}

/-- A command leaves the directory as it was, or replaces the files of its swap. -/
theorem CommandStep.cases_files (h : CommandStep L B F settings dir command phase dir₂) :
    (phase = none ∧ dir₂ = dir) ∨
      ∃ rand slate slate', command.loadSlate F settings (dir command.swapid) = .ok slate ∧
        Finishes B rand slate slate' command phase ∧
        dir₂ = Function.update dir command.swapid (slate'.files F) := by
  cases h with
  | unread hload => exact .inl ⟨rfl, rfl⟩
  | @ran rand slate t q hload hsteps htrue hq =>
    obtain ⟨hfiles, hnot⟩ | ⟨slate', phase, rfl, hfin, hfiles⟩ := main_files hsteps htrue hq
    · refine .inl ⟨?_, by rw [hfiles, Function.update_eq_self]⟩
      cases q with
      | ret s a => exact (hnot s a rfl).elim
      | stop s e => rfl
      | call s op k => rfl
    · exact .inr ⟨rand, slate, slate', hload, hfin, by rw [hfiles]⟩

/-- A command that returns is a step, after which the files are those of its slate. -/
theorem commandStep_of_run {rand : Rand K} {slate' : SwapSlate K P} {t : Trace K P (SwapSlate K P)}
    (hload : command.loadSlate F settings (dir command.swapid) = .ok slate)
    (hsteps : Steps (command.run L B rand slate) t (.ret slate' phase))
    (htrue : Truthful F (dir command.swapid) t) :
    CommandStep L B F settings dir command phase
      (Function.update dir command.swapid (slate'.files F)) := by
  have hmain := CommandStep.ran hload (hsteps.bind (steps_writes slate'))
    (truthful_append.mpr ⟨htrue, truthful_writes⟩) not_writing_ret
  rwa [after_append] at hmain

theorem commandStep_of_main {rand : Rand K} {slate' : SwapSlate K P} {t : Trace K P (SwapSlate K P)}
    (hload : command.loadSlate F settings (dir command.swapid) = .ok slate)
    (hsteps : Steps (main L B rand command slate) t (.ret slate' phase))
    (htrue : Truthful F (dir command.swapid) t) :
    CommandStep L B F settings dir command phase
      (Function.update dir command.swapid (slate'.files F)) := by
  obtain ⟨-, hnot⟩ | ⟨_, _, ⟨⟩, -, hfiles⟩ := main_files hsteps htrue not_writing_ret
  · exact (hnot slate' phase rfl).elim
  · rw [← hfiles]
    exact .ran hload hsteps htrue not_writing_ret

/-! ### What is stored -/

/-- The public part that is stored. -/
def storedPub (F : FileLib K P) (files : SlateFiles) : Option SwapSlatePub :=
  files.pub.bind F.pubFromJson

/-- The private part that is stored. -/
def storedPrv (F : FileLib K P) (files : SlateFiles) : Option (SwapSlatePriv K P) :=
  files.prv.bind F.prvFromJson

/-- The status that is stored. -/
def storedStatus (F : FileLib K P) (files : SlateFiles) : Option SwapStatus :=
  (storedPub F files).map SwapSlatePub.status

section

omit [CommRing K] [AddCommGroup P] [Module K P] [DecidableEq K] [DecidableEq P]

theorem storedPub_files (hF : F.Lawful) : storedPub F (slate.files F) = some slate.pubSlate :=
  hF.pub_codec slate.pubSlate

theorem storedPrv_files (hF : F.Lawful) : storedPrv F (slate.files F) = some slate.prvSlate :=
  hF.prv_codec slate.prvSlate

theorem readSlateFromDisk_eq_ok :
    readSlateFromDisk F files = .ok slate ↔
      storedPub F files = some slate.pubSlate ∧ storedPrv F files = some slate.prvSlate := by
  obtain ⟨pub, prv⟩ := files
  cases slate
  cases pub <;> cases prv <;>
    simp [readSlateFromDisk, storedPub, storedPrv, Outcome.bind_eq_ok]

theorem createPrivFromPub_eq_ok :
    createPrivFromPub F files = .ok slate ↔
      storedPub F files = some slate.pubSlate ∧ slate.prvSlate = .blank := by
  obtain ⟨pub, prv⟩ := files
  cases slate
  cases pub with
  | none => simp [createPrivFromPub, storedPub]
  | some text =>
    simp only [createPrivFromPub, storedPub, Option.bind_some, Outcome.bind_eq_ok,
      Outcome.unwrap_eq_ok, Outcome.pure_eq_ok, Except.ok.injEq, SwapSlate.mk.injEq]
    constructor
    · rintro ⟨pubSlate, hpub, rfl, rfl⟩
      exact ⟨hpub, rfl⟩
    · rintro ⟨hpub, rfl⟩
      exact ⟨_, hpub, rfl, rfl⟩

theorem Init.execute_status {args : Init} (h : args.execute settings = .ok slate) :
    slate.pubSlate.status = .initialized := by
  simp only [Init.execute] at h
  split at h
  · cases h
    rfl
  · cases h

/-- The public part that a command starts from is the stored one, or a new one. -/
theorem loadSlate_pub (h : command.loadSlate F settings files = .ok slate) :
    storedPub F files = some slate.pubSlate ∨
      ∃ swapid args, command = .init swapid args ∧ slate.pubSlate.status = .initialized := by
  cases command with
  | init swapid args =>
    right
    exact ⟨swapid, args, rfl, Init.execute_status h⟩
  | accept swapid =>
    simp only [Command.loadSlate, Outcome.expect_eq_ok, createPrivFromPub_eq_ok] at h
    exact .inl h.1
  | _ =>
    simp only [Command.loadSlate, Outcome.expect_eq_ok, readSlateFromDisk_eq_ok] at h
    exact .inl h.1

theorem readSlateFromDisk_files (hF : F.Lawful) : readSlateFromDisk F (slate.files F) = .ok slate :=
  readSlateFromDisk_eq_ok.mpr ⟨storedPub_files hF, storedPrv_files hF⟩

end

/-- Importing a coin into a stored slate. -/
theorem commandStep_importGrin (L : GrinLib K P) (B : BtcLib K P) (settings : Settings) (rand : Rand K)
    (swapid : ℕ) (coin : MWCoin) (hread : readSlateFromDisk F (dir swapid) = .ok slate) :
    CommandStep L B F settings dir (.importGrin swapid coin) none (Function.update dir swapid
      (({ slate with prvSlate.mw.inputs := slate.prvSlate.mw.inputs ++ [coin] } :
        SwapSlate K P).files F)) := by
  have hload : (Command.importGrin swapid coin).loadSlate F settings (dir swapid) = .ok slate := by
    simp only [Command.loadSlate, hread, Outcome.expect_ok]
  have hrun : Steps ((Command.importGrin swapid coin).run L B rand slate) []
      (.ret { slate with prvSlate.mw.inputs := slate.prvSlate.mw.inputs ++ [coin] } none) := .refl _
  exact commandStep_of_run hload hrun trivial

/-- Accepting a swap whose public file is that of the slate. -/
theorem commandStep_accept (L : GrinLib K P) (B : BtcLib K P) (settings : Settings) (rand : Rand K)
    (hF : F.Lawful) (swapid : ℕ) (hdir : dir swapid = slate.files F) :
    CommandStep L B F settings dir (.accept swapid) none (Function.update dir swapid
      ((⟨slate.pubSlate, .blank⟩ : SwapSlate K P).files F)) := by
  have hload : (Command.accept swapid).loadSlate F settings (dir swapid) =
      .ok ⟨slate.pubSlate, .blank⟩ := by
    simp only [Command.loadSlate, Outcome.expect_eq_ok, createPrivFromPub_eq_ok, hdir,
      storedPub_files hF, true_and]
  have hrun : Steps ((Command.accept swapid).run L B rand ⟨slate.pubSlate, .blank⟩)
      [⟨⟨slate.pubSlate, .blank⟩, .createSlateFile false, .ok ()⟩,
        ⟨⟨slate.pubSlate, .blank⟩, .createSlateFile true, .ok ()⟩,
        ⟨⟨slate.pubSlate, .blank⟩, .writeSlateFile false, .ok ()⟩]
      (.ret ⟨slate.pubSlate, .blank⟩ none) := .step (.step (.step (.refl _)))
  exact commandStep_of_run hload hrun ⟨rfl, rfl, rfl, trivial⟩

/-! ### The status of a swap -/

/-- The commands on a swap that completed a phase. -/
def completions (swapid : ℕ) (phase : Phase) (runs : List (Command × Option Phase)) : ℕ :=
  runs.countP fun run => decide (run.1.swapid = swapid ∧ run.2 = some phase)

theorem completions_concat (swapid : ℕ) (completed : Phase) :
    completions swapid completed (runs ++ [(command, phase)]) =
      completions swapid completed runs +
        if command.swapid = swapid ∧ phase = some completed then 1 else 0 := by
  simp [completions]

/-- The phases that a swap with a stored status has been through. -/
def Lived (locks ends : ℕ) : Option SwapStatus → Prop
  | none | some .initialized => locks = 0 ∧ ends = 0
  | some .setup => locks ≤ 1 ∧ ends = 0
  | some .finished | some .failed => locks ≤ 1 ∧ ends ≤ 1
  | some .executing => False

omit [DecidableEq K] [DecidableEq P] in
theorem Locks.status {rand : Rand K} {slate' : SwapSlate K P} {role : Role}
    (h : Locks B rand slate slate' role) : slate'.pubSlate.status = .setup := by
  cases role <;>
  · obtain ⟨d, rfl⟩ := h
    rfl

omit [CommRing K] [AddCommGroup P] [Module K P] [DecidableEq K] [DecidableEq P] in
theorem Executes.status {slate' : SwapSlate K P} {role : Role} (h : Executes slate slate' role) :
    slate'.pubSlate.status = .finished := by
  cases role <;>
  · obtain ⟨d, rfl⟩ := h
    rfl

omit [CommRing K] [AddCommGroup P] [Module K P] [DecidableEq K] [DecidableEq P] in
theorem Refunds.status {slate' : SwapSlate K P} {role : Role} (h : Refunds slate slate' role) :
    slate'.pubSlate.status = .failed := by
  cases role with
  | mw =>
    cases h
    rfl
  | btc =>
    obtain ⟨d, rfl⟩ := h
    rfl

omit [DecidableEq K] [DecidableEq P] in
/-- What a command that returns does to the status. -/
theorem Finishes.status {rand : Rand K} {slate' : SwapSlate K P}
    (h : Finishes B rand slate slate' command phase) :
    (phase = none ∧ slate'.pubSlate = slate.pubSlate) ∨
      (phase = some .locking ∧ slate.pubSlate.status = .initialized ∧
        slate'.pubSlate.status = .setup) ∨
      (phase = some .execution ∧ slate.pubSlate.status = .setup ∧
        slate'.pubSlate.status = .finished) ∨
      (phase = some .refund ∧ slate.pubSlate.status = .setup ∧
        slate'.pubSlate.status = .failed) := by
  cases command with
  | init swapid args =>
    obtain ⟨rfl, rfl⟩ := h
    exact .inl ⟨rfl, rfl⟩
  | accept swapid =>
    obtain ⟨rfl, rfl⟩ := h
    exact .inl ⟨rfl, rfl⟩
  | importBtc swapid txid vout value sk pubScript =>
    obtain ⟨rfl, input, rfl⟩ := h
    exact .inl ⟨rfl, rfl⟩
  | importGrin swapid coin =>
    obtain ⟨rfl, rfl⟩ := h
    exact .inl ⟨rfl, rfl⟩
  | listen swapid clients =>
    obtain ⟨served, rfl, h⟩ := h
    cases served with
    | locking => exact .inr (.inl ⟨rfl, h.1, h.2.status⟩)
    | execution => exact .inr (.inr (.inl ⟨rfl, h.1, h.2.status⟩))
    | refund => exact .inr (.inr (.inr ⟨rfl, h.1, h.2.status⟩))
  | lock swapid => exact .inr (.inl ⟨h.1, h.2.1, h.2.2.status⟩)
  | execute swapid => exact .inr (.inr (.inl ⟨h.1, h.2.1, h.2.2.status⟩))
  | cancel swapid => exact .inr (.inr (.inr ⟨h.1, h.2.1, h.2.2.status⟩))

/-- One command moves the status by one step, with the phase that it completed. -/
theorem CommandStep.status (hF : F.Lawful) (h : CommandStep L B F settings dir command phase dir₂)
    (hfresh : command.Fresh dir) (swapid : ℕ) :
    (storedStatus F (dir₂ swapid) = storedStatus F (dir swapid) ∧
        (command.swapid = swapid → phase = none)) ∨
      (command.swapid = swapid ∧ phase = none ∧ storedStatus F (dir swapid) = none ∧
        storedStatus F (dir₂ swapid) = some .initialized) ∨
      (command.swapid = swapid ∧ phase = some .locking ∧
        storedStatus F (dir swapid) = some .initialized ∧
        storedStatus F (dir₂ swapid) = some .setup) ∨
      (command.swapid = swapid ∧ phase = some .execution ∧ storedStatus F (dir swapid) = some .setup ∧
        storedStatus F (dir₂ swapid) = some .finished) ∨
      (command.swapid = swapid ∧ phase = some .refund ∧ storedStatus F (dir swapid) = some .setup ∧
        storedStatus F (dir₂ swapid) = some .failed) := by
  obtain ⟨rfl, rfl⟩ | ⟨rand, slate, slate', hload, hfin, rfl⟩ := h.cases_files
  · exact .inl ⟨rfl, fun _ => rfl⟩
  · by_cases hid : command.swapid = swapid
    · subst hid
      have hafter : storedStatus F (Function.update dir command.swapid (slate'.files F)
          command.swapid) = some slate'.pubSlate.status := by
        rw [Function.update_self, storedStatus, storedPub_files hF, Option.map_some]
      rw [hafter]
      obtain hpub | ⟨swapid, args, rfl, hinit⟩ := loadSlate_pub hload
      · have hbefore : storedStatus F (dir command.swapid) = some slate.pubSlate.status := by
          rw [storedStatus, hpub, Option.map_some]
        rw [hbefore]
        obtain ⟨rfl, hsame⟩ | ⟨rfl, h₁, h₂⟩ | ⟨rfl, h₁, h₂⟩ | ⟨rfl, h₁, h₂⟩ := hfin.status
        · exact .inl ⟨by rw [hsame], fun _ => rfl⟩
        · exact .inr (.inr (.inl ⟨rfl, rfl, by rw [h₁], by rw [h₂]⟩))
        · exact .inr (.inr (.inr (.inl ⟨rfl, rfl, by rw [h₁], by rw [h₂]⟩)))
        · exact .inr (.inr (.inr (.inr ⟨rfl, rfl, by rw [h₁], by rw [h₂]⟩)))
      · obtain ⟨rfl, rfl⟩ := hfin
        have hnone : storedStatus F (dir swapid) = none := by
          rw [storedStatus, storedPub, show dir swapid = _ from hfresh]
          rfl
        exact .inr (.inl ⟨rfl, rfl, hnone, by rw [hinit]⟩)
    · exact .inl ⟨by rw [Function.update_of_ne (Ne.symm hid)], fun h => (hid h).elim⟩

/-- Along a session the completed phases are those of the stored status. -/
theorem Session.lived (hF : F.Lawful) {swapid : ℕ}
    (h : Session L B F settings anyCommand dir runs dir₁)
    (hstart : storedStatus F (dir swapid) = none ∨ storedStatus F (dir swapid) = some .initialized) :
    Lived (completions swapid .locking runs)
      (completions swapid .execution runs + completions swapid .refund runs)
      (storedStatus F (dir₁ swapid)) := by
  induction h with
  | start =>
    obtain hnone | hinit := hstart
    · rw [hnone]
      exact ⟨rfl, rfl⟩
    · rw [hinit]
      exact ⟨rfl, rfl⟩
  | @command runs dir₁ dir₂ command phase hruns hfresh hcond hstep ih =>
    simp only [completions_concat]
    obtain ⟨hsame, hphase⟩ | ⟨hid, rfl, hbefore, hafter⟩ | ⟨hid, rfl, hbefore, hafter⟩ |
      ⟨hid, rfl, hbefore, hafter⟩ | ⟨hid, rfl, hbefore, hafter⟩ := hstep.status hF hfresh swapid
    · have hnot : ∀ completed, ¬ (command.swapid = swapid ∧ phase = some completed) := by
        rintro completed ⟨hid, hsome⟩
        rw [hphase hid] at hsome
        cases hsome
      simpa [hnot, hsame] using ih
    all_goals
      rw [hbefore] at ih
      rw [hafter]
      simp only [Lived, hid, true_and, Option.some.injEq, reduceCtorEq, if_true, if_false] at ih ⊢
      omega

/-! ### A sample -/

/-- A swap of 1.0125 Grin for 100000 satoshis with a timeout of 400 minutes. -/
def sampleInit : Init := .new .grin .btc 1012500000 100000 400

def sampleSettings : Settings := ⟨"127.0.0.1", "8080"⟩

/-- The slate that this creates. -/
def sampleSlate : SwapSlate Scalar Scalar where
  pubSlate := {
    status := .initialized
    mw := ⟨1012500000, 400, none, .offered⟩
    btc := ⟨100000, 40, .requested, none, none, none, none⟩
    peer := ⟨"127.0.0.1", "8080"⟩ }
  prvSlate := .blank

/-- Keys for the commands of the samples. -/
def sampleRand : Rand Scalar where
  lockMw := ⟨3, ⟨11, 12, 13, 14, 15⟩, ⟨21, 22, 23, 24⟩, 25, ⟨41, 42, 43, 44⟩⟩
  lockBtc := ⟨7, 9, 5, ⟨31, 32, 33, 34⟩, ⟨61, 62, 63, 64, 65⟩⟩
  execMw := ⟨⟨71, 72, 73, 74, 75⟩, 76⟩
  execBtc := ⟨81, ⟨82, 83, 84, 85⟩⟩
  refund := 91

/-- The directory before any swap. -/
def emptyDirectory : Directory := fun _ => ⟨none, none⟩

/-- Creating the swap with the id 1. -/
theorem session_init {C : Directory → Command → Prop} (hC : C emptyDirectory (.init 1 sampleInit)) :
    Session exponents (btcExponents []) fileExponents sampleSettings C emptyDirectory
      [(.init 1 sampleInit, none)]
      (Function.update emptyDirectory 1 (sampleSlate.files fileExponents)) := by
  have hload : (Command.init 1 sampleInit).loadSlate fileExponents sampleSettings (emptyDirectory 1) =
      .ok sampleSlate := rfl
  have hrun : Steps ((Command.init 1 sampleInit).run exponents (btcExponents []) sampleRand sampleSlate)
      [] (.ret sampleSlate none) := .refl _
  exact .command .start rfl hC (commandStep_of_run hload hrun trivial)

end MwBtcSwap
