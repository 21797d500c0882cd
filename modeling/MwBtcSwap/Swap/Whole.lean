import MwBtcSwap.Swap.Settled
import MwBtcSwap.Swap.Stored

/-! A swap from its files to its end.  The lock handshake leaves files from which the next commands of the
two parties start, whatever was tried in between, and these commands swap the coins or return them. -/

namespace MwBtcSwap

open Interaction Machine Grin Bitcoin Relation Confluence

variable {K P : Type} [CommRing K] [AddCommGroup P] [Module K P] [DecidableEq K] [DecidableEq P]

variable {L : GrinLib K P} {B : BtcLib K P} {F : FileLib K P} {swapid clients : ℕ}
  {mw btc mw' btc' : SwapSlate K P} {ra rb rand : Rand K} {nodes nodes' : Nodes K P (SwapSlate K P)}
  {d : SwapTerms K} {recv : RecvRand K} {slate slate' : SwapSlate K P} {settings settings' : Settings}
  {dir dir₁ dir₂ : Directory} {command : Command} {phase : Option Phase}
  {runs runs' : List (Command × Option Phase)}

/-! ### The offer -/

/-- The offer of the swap and the imported coins are the same in both slates. -/
structure SameOffer (slate slate' : SwapSlate K P) : Prop where
  typeMw : slate'.pubSlate.mw.swapType = slate.pubSlate.mw.swapType
  typeBtc : slate'.pubSlate.btc.swapType = slate.pubSlate.btc.swapType
  amountMw : slate'.pubSlate.mw.amount = slate.pubSlate.mw.amount
  amountBtc : slate'.pubSlate.btc.amount = slate.pubSlate.btc.amount
  inputsMw : slate'.prvSlate.mw.inputs = slate.prvSlate.mw.inputs
  inputsBtc : slate'.prvSlate.btc.inputs = slate.prvSlate.btc.inputs

omit [CommRing K] [AddCommGroup P] [Module K P] [DecidableEq K] [DecidableEq P] in
theorem SameOffer.offerer (h : SameOffer slate slate') : slate'.offerer = slate.offerer := by
  rw [SwapSlate.offerer, SwapSlate.offerer, h.typeBtc]

omit [CommRing K] [AddCommGroup P] [Module K P] [DecidableEq K] [DecidableEq P] in
theorem SameOffer.offeredValue (h : SameOffer slate slate') :
    MwBtcSwap.offeredValue L slate' = MwBtcSwap.offeredValue L slate := by
  rw [MwBtcSwap.offeredValue, MwBtcSwap.offeredValue, h.typeMw, h.amountMw, h.amountBtc, h.inputsMw,
    h.inputsBtc]

omit [DecidableEq K] [DecidableEq P] in
theorem Locks.sameOffer {role : Role} (h : Locks B rand slate slate' role) : SameOffer slate slate' := by
  cases role <;>
  · obtain ⟨d, rfl⟩ := h
    exact ⟨rfl, rfl, rfl, rfl, rfl, rfl⟩

omit [DecidableEq K] [DecidableEq P] in
/-- A command that completed the locking phase keeps the offer. -/
theorem Finishes.sameOffer (h : Finishes B rand slate slate' command (some .locking)) :
    SameOffer slate slate' := by
  cases command with
  | init swapid args => cases h.2
  | accept swapid => cases h.2
  | importBtc swapid txid vout value sk pubScript => cases h.1
  | importGrin swapid coin => cases h.1
  | listen swapid clients =>
    obtain ⟨served, hserved, h⟩ := h
    cases hserved
    exact h.2.sameOffer
  | lock swapid => exact h.2.2.sameOffer
  | execute swapid => cases h.1
  | cancel swapid => cases h.1

/-- The slates with which two commands return from the locking phase keep the offer. -/
theorem sameOffer_of_steps {commands : Command × Command} {t u : Trace K P (SwapSlate K P)}
    (hmw : Hosted F (mw.files F) nodes) (hbtc : Hosted F (btc.files F) nodes')
    (h : JointSteps L nodes nodes' (commandStart L B mw btc ra rb commands)
      (⟨t, .ret mw' (some .locking)⟩, ⟨u, .ret btc' (some .locking)⟩)) :
    SameOffer mw mw' ∧ SameOffer btc btc' := by
  obtain ⟨htrue, htrue'⟩ := truthful_of_steps hmw hbtc h
  obtain ⟨t', u', ht, hu, hrun, hrun', -⟩ := h.extends
  obtain rfl : t = t' := ht
  obtain rfl : u = u' := hu
  have hkept : ∀ {rand : Rand K} {slate slate' : SwapSlate K P} {command : Command} {files : SlateFiles}
      {t : Trace K P (SwapSlate K P)}, Steps (main L B rand command slate) t (.ret slate' (some .locking)) →
      Truthful F files t → SameOffer slate slate' := by
    intro rand slate slate' command files t hrun htrue
    obtain ⟨-, hnot⟩ | ⟨s, a, hret, hfin, -⟩ := main_files hrun htrue not_writing_ret
    · exact (hnot _ _ rfl).elim
    · cases hret
      exact hfin.sameOffer
  exact ⟨hkept hrun htrue, hkept hrun' htrue'⟩

/-! ### Between the commands -/

/-- The commands that run a phase. -/
def Command.Tries : Command → Prop
  | .listen .. | .lock _ | .execute _ | .cancel _ => True
  | _ => False

/-- The commands of a session on a swap tried a phase and completed none; those on other swaps are any. -/
def Idle (swapid : ℕ) (runs : List (Command × Option Phase)) : Prop :=
  ∀ run ∈ runs, run.1.swapid = swapid → run.1.Tries ∧ run.2 = none

theorem CommandStep.files_of_tries (h : CommandStep L B F settings dir command none dir₂)
    (htries : command.Tries) : dir₂ = dir := by
  obtain ⟨-, hdir⟩ | ⟨rand, slate, slate', -, hfin, -⟩ := h.cases_files
  · exact hdir
  · cases command with
    | listen swapid clients =>
      obtain ⟨served, hserved, -⟩ := hfin
      cases hserved
    | lock swapid => cases hfin.1
    | execute swapid => cases hfin.1
    | cancel swapid => cases hfin.1
    | _ => exact htries.elim

theorem CommandStep.files_of_other (h : CommandStep L B F settings dir command phase dir₂)
    (hother : command.swapid ≠ swapid) : dir₂ swapid = dir swapid := by
  obtain ⟨-, hdir⟩ | ⟨rand, slate, slate', -, -, hdir⟩ := h.cases_files
  · rw [hdir]
  · rw [hdir, Function.update_of_ne (Ne.symm hother)]

/-- Tries that complete nothing leave the files of the swap as they are. -/
theorem Session.files_of_idle (h : Session L B F settings anyCommand dir runs dir₁)
    (hidle : Idle swapid runs) : dir₁ swapid = dir swapid := by
  induction h with
  | start => rfl
  | @command runs dir₁ dir₂ command phase hruns hfresh hcond hstep ih =>
    rw [← ih fun run hrun => hidle run (List.mem_append_left _ hrun)]
    by_cases hid : command.swapid = swapid
    · obtain ⟨htries, rfl⟩ := hidle (command, phase)
        (List.mem_append_right _ (List.mem_singleton_self _)) hid
      rw [hstep.files_of_tries htries]
    · exact hstep.files_of_other hid

/-- The files of a party's swap are those of the slate that it reads from them. -/
theorem Session.files_of_read (hF : F.Lawful) {party : Party} (hbegun : Begun F (dir swapid))
    (h : Session L B F settings (party.uses swapid) dir runs dir₁)
    (hread : readSlateFromDisk F (dir₁ swapid) = .ok slate) : dir₁ swapid = slate.files F := by
  obtain ⟨stored, hstored, -⟩ := h.holds hF (I := fun _ => True) (fun _ _ _ _ _ _ _ _ => trivial) hbegun
    fun _ _ _ => trivial
  rw [hstored, readSlateFromDisk_files hF, Except.ok.injEq] at hread
  rw [hstored, hread]

/-! ### The ends -/

/-- How a locked swap can end, from the slates and the files of the two parties.  While an hour is left on
both chains, `listen` and `execute` swap the coins; past both lock heights, `listen` and `cancel` return
them: in every order of the steps. -/
structure Settles (L : GrinLib K P) (B : BtcLib K P) (F : FileLib K P) (swapid : ℕ) (d : SwapTerms K)
    (recv : RecvRand K) (mw btc : SwapSlate K P) (filesMw filesBtc : SlateFiles) : Prop where
  executes : ∀ (clients : ℕ) (ra rb : Rand K) (ff : FeeFields) (nodes nodes' : Nodes K P (SwapSlate K P)),
    Hosted F filesMw nodes → Hosted F filesBtc nodes' → Accepting nodes → Accepting nodes' →
    ContractKeys L ra.execMw.spend rb.execBtc.sigNonce rb.execBtc.recv mw.pubSlate.mw.amount d.shareA d.shareB
      (mw.pubSlate.mw.amount - L.txFee 1 1 1) d.x ff →
    Looks nodes (enoughTime L.overflowChecks) d.heightGrin d.heightBtc →
    Looks nodes' (enoughTime L.overflowChecks) d.heightGrin d.heightBtc →
    Inevitable (JointStep L nodes nodes') (BothReturned fun t mw' a u btc' b =>
        Completed F .execution mw btc t mw' a u btc' b ∧ EndsSwapped L B d mw ra rb t mw' u btc')
      (commandStart L B mw btc ra rb (mw.offerer.commands swapid clients (.execute swapid)))
  cancels : ∀ (clients : ℕ) (ra rb : Rand K) (nodes nodes' : Nodes K P (SwapSlate K P)),
    Hosted F filesMw nodes → Hosted F filesBtc nodes' → Accepting nodes → Accepting nodes' →
    Looks nodes bothPassed d.heightGrin d.heightBtc → Looks nodes' bothPassed d.heightGrin d.heightBtc →
    Inevitable (JointStep L nodes nodes') (BothReturned fun t mw' a u btc' b =>
        Completed F .refund mw btc t mw' a u btc' b ∧ EndsRefunded L B d recv mw rb t mw' u btc')
      (commandStart L B mw btc ra rb (mw.offerer.commands swapid clients (.cancel swapid)))

/-- A locked swap can end in both ways. -/
theorem SwapLocked.settles (hL : L.Lawful) (hB : B.Lawful) (hC : SameCurve L B)
    (h : SwapLocked L B d recv mw btc) {value : ℕ}
    (hvalue : (offeredValue L (offered mw btc)).1 = .ok value) :
    Settles L B F swapid d recv mw btc (mw.files F) (btc.files F) where
  executes clients ra rb ff nodes nodes' hmw hbtc hnodes hnodes' hkeys hlook hlook' := by
    have hserved : Served L B "EXECUTE" (execPhase L B) .execution := fun _ _ _ => rfl
    exact h.reaches hserved (fun _ => rfl) hvalue hmw hbtc (fun _ _ _ _ _ _ hends => hends.append)
      (h.executes hL hB hC hkeys hlook hlook' hnodes hnodes')
  cancels clients ra rb nodes nodes' hmw hbtc hnodes hnodes' hlook hlook' := by
    have hserved : Served L B "CANCEL" (refundPhase B) .refund := fun _ _ _ => rfl
    exact h.reaches hserved (fun _ => rfl) hvalue hmw hbtc (fun _ _ _ _ _ _ hends => hends.append)
      (h.cancels hB hlook hlook' hnodes hnodes')

omit [CommRing K] [AddCommGroup P] [Module K P] [DecidableEq K] [DecidableEq P] in
/-- The listener counts its inputs as before. -/
theorem offeredValue_offered (h : SameOffer mw mw') (h' : SameOffer btc btc') :
    offeredValue L (offered mw' btc') = offeredValue L (offered mw btc) := by
  rw [offered, offered, h.offerer]
  cases mw.offerer with
  | mw => exact h.offeredValue
  | btc => exact h'.offeredValue

/-- A swap of two honest parties from `init` and `accept` on.  Whatever they imported and tried, when what
they read from their files can be locked, `listen` and `lock` return in every order of their steps; and
whatever is tried after that without completing a phase, the next commands of both read slates with the
same offer from which the swap ends: executed in time both coins change hands, cancelled late both go back,
again in every order of the steps. -/
theorem swap_inevitable (hF : F.Lawful) (hL : L.Lawful) (hB : B.Lawful) (hC : SameCurve L B)
    {party party' : Party} {dirMw dirMw₁ dirBtc dirBtc₁ : Directory}
    (hbegun : Begun F (dirMw swapid)) (hbegun' : Begun F (dirBtc swapid))
    (hprep : Session L B F settings (party.uses swapid) dirMw runs dirMw₁)
    (hprep' : Session L B F settings' (party'.uses swapid) dirBtc runs' dirBtc₁)
    (hread : readSlateFromDisk F (dirMw₁ swapid) = .ok mw)
    (hread' : readSlateFromDisk F (dirBtc₁ swapid) = .ok btc) {p : LockPlan K}
    (h : Lockable L B mw btc ra.lockMw rb.lockBtc p) (hbound : p.Bounded mw)
    (hinit : mw.pubSlate.status = .initialized)
    {value : ℕ} (hvalue : (offeredValue L (offered mw btc)).1 = .ok value)
    (henough : (offeredValue L (offered mw btc)).2 ≤ value) (hmw : Hosted F (dirMw₁ swapid) nodes)
    (hbtc : Hosted F (dirBtc₁ swapid) nodes') (hnodes : MwNodes nodes p.heightGrin mw.pubSlate.btc.amount)
    (hnodes' : BtcNodes nodes' p.heightBtc) :
    Inevitable (JointStep L nodes nodes') (BothReturned fun t _ a u _ b =>
        a = some .locking ∧ b = some .locking ∧ SentLocks L B (p.terms B mw ra rb) mw t u ∧
        ∀ tries tries' dirMw₂ dirBtc₂,
          Session L B F settings anyCommand
            (Function.update dirMw₁ swapid ((dirMw₁ swapid).after F t)) tries dirMw₂ →
          Session L B F settings' anyCommand
            (Function.update dirBtc₁ swapid ((dirBtc₁ swapid).after F u)) tries' dirBtc₂ →
          Idle swapid tries → Idle swapid tries' →
          ∃ mw' btc', readSlateFromDisk F (dirMw₂ swapid) = .ok mw' ∧
            readSlateFromDisk F (dirBtc₂ swapid) = .ok btc' ∧ SameOffer mw mw' ∧ SameOffer btc btc' ∧
            Settles L B F swapid (p.terms B mw ra rb) ra.lockMw.recv mw' btc' (dirMw₂ swapid)
              (dirBtc₂ swapid))
      (commandStart L B mw btc ra rb (mw.offerer.commands swapid clients (.lock swapid))) := by
  have hfiles := hprep.files_of_read hF hbegun hread
  have hfiles' := hprep'.files_of_read hF hbegun' hread'
  rw [hfiles] at hmw
  rw [hfiles'] at hbtc
  obtain ⟨_, hsteps, t, mw', u, btc', rfl, hlocked, hsent⟩ : JointReaches L nodes nodes' _ _ :=
    lock_reaches hL hB h hbound hinit hvalue henough hmw hbtc hnodes hnodes'
  have hdone := completed_of_steps hmw hbtc hsteps
  obtain ⟨hsame, hsame'⟩ := sameOffer_of_steps hmw hbtc hsteps
  refine JointReaches.inevitable ⟨_, hsteps, t, mw', _, u, btc', _, rfl, rfl, rfl, hsent, ?_⟩
  intro tries tries' dirMw₂ dirBtc₂ htries htries' hidle hidle'
  have hafter : dirMw₂ swapid = mw'.files F := by
    rw [htries.files_of_idle hidle, Function.update_self, hfiles, hdone.filesMw]
  have hafter' : dirBtc₂ swapid = btc'.files F := by
    rw [htries'.files_of_idle hidle', Function.update_self, hfiles', hdone.filesBtc]
  rw [hafter, hafter']
  exact ⟨mw', btc', readSlateFromDisk_files hF, readSlateFromDisk_files hF, hsame, hsame',
    hlocked.settles hL hB hC (by rw [offeredValue_offered hsame hsame', hvalue])⟩

/-- The taker of the sample has accepted the public file of the offerer. -/
theorem sample_begun_taker : Begun fileExponents (sampleDirectory sampleSlate 1) := by
  have haccept : createPrivFromPub fileExponents
      ⟨some (fileExponents.pubToJson sampleSlate.pubSlate), none⟩ = .ok sampleSlate :=
    createPrivFromPub_eq_ok.mpr ⟨fileExponents_lawful.pub_codec _, rfl⟩
  rw [sampleDirectory_self]
  exact .accept (show sampleInit.execute sampleSettings = .ok sampleSlate from rfl) rfl haccept

theorem swap_inevitable_sample : ∃ lock, Inevitable
    (JointStep exponents
      (diskNodes fileExponents (sampleDirectory sampleFunded 1) 1500000 700000 100000)
      (diskNodes fileExponents (sampleDirectory sampleTaker 1) 1500000 700000 100000))
    (BothReturned fun t _ a u _ b =>
      a = some .locking ∧ b = some .locking ∧
      SentLocks exponents (btcExponents [])
        ((samplePlan lock).terms (btcExponents []) sampleFunded sampleRand sampleRand) sampleFunded t u ∧
      ∀ tries tries' dirMw₂ dirBtc₂,
        Session exponents (btcExponents []) fileExponents sampleSettings anyCommand
          (Function.update (sampleDirectory sampleFunded) 1
            ((sampleDirectory sampleFunded 1).after fileExponents t)) tries dirMw₂ →
        Session exponents (btcExponents []) fileExponents sampleSettings anyCommand
          (Function.update (sampleDirectory sampleTaker) 1
            ((sampleDirectory sampleTaker 1).after fileExponents u)) tries' dirBtc₂ →
        Idle 1 tries → Idle 1 tries' →
        ∃ mw' btc', readSlateFromDisk fileExponents (dirMw₂ 1) = .ok mw' ∧
          readSlateFromDisk fileExponents (dirBtc₂ 1) = .ok btc' ∧ SameOffer sampleFunded mw' ∧
          SameOffer sampleTaker btc' ∧
          Settles exponents (btcExponents []) fileExponents 1
            ((samplePlan lock).terms (btcExponents []) sampleFunded sampleRand sampleRand)
            sampleRand.lockMw.recv mw' btc' (dirMw₂ 1) (dirBtc₂ 1))
    (commandStart exponents (btcExponents []) sampleFunded sampleTaker sampleRand sampleRand
      (.listen 1 1, .lock 1)) := by
  obtain ⟨lock, h⟩ := sample_lockable
  have hvalue : (offeredValue exponents (offered sampleFunded sampleTaker)).1 = .ok 2000000000 := by
    decide +kernel
  have himport := commandStep_importGrin exponents (btcExponents []) sampleSettings sampleRand
    1 sampleCoin (sampleDirectory_read sampleSlate)
  rw [sampleDirectory_update] at himport
  have hprep : Session exponents (btcExponents []) fileExponents sampleSettings (Party.offerer.uses 1)
      (sampleDirectory sampleSlate) ([] ++ [(.importGrin 1 sampleCoin, none)])
      (sampleDirectory sampleFunded) := .command .start trivial (fun _ => trivial) himport
  have hprep' := session_taker (C := Party.taker.uses 1) (fun _ => trivial)
  exact ⟨lock, swap_inevitable fileExponents_lawful exponents_lawful (btcExponents_lawful [])
    (exponents_sameCurve []) sample_begun sample_begun_taker hprep hprep' (sampleDirectory_read _)
    (sampleDirectory_read _) h (sample_bounded lock) rfl hvalue (by decide +kernel)
    (diskNodes_hosted _ _ _ _) (diskNodes_hosted _ _ _ _)
    ⟨fun _ => rfl, fun _ _ => rfl, fun _ _ => rfl, 0, by decide, fun _ _ => rfl⟩
    ⟨fun _ => rfl, fun _ _ => rfl⟩⟩

end MwBtcSwap
