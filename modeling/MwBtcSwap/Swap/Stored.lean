import MwBtcSwap.Swap.Handshake

/-! The slate files along a session: the status moves along the life cycle of a swap, a swap that is set up
has every field that the next phases unwrap, and secrets are not erased as long as a swap is accepted only
once. -/

namespace MwBtcSwap

open Interaction Machine Grin Bitcoin

variable {K P : Type} [CommRing K] [AddCommGroup P] [Module K P] [DecidableEq K] [DecidableEq P]

variable {L : GrinLib K P} {B : BtcLib K P} {F : FileLib K P} {settings : Settings}
  {dir dir₁ dir₂ : Directory} {command : Command} {phase : Option Phase}
  {runs runs' : List (Command × Option Phase)} {files : SlateFiles} {slate slate' : SwapSlate K P}
  {rand : Rand K} {swapid : ℕ}

omit [CommRing K] [AddCommGroup P] [Module K P] [DecidableEq K] [DecidableEq P] in
/-- A command other than `init` and `accept` starts from the slate that is stored. -/
theorem loadSlate_read (h : command.loadSlate F settings files = .ok slate)
    (hinit : ∀ swapid args, command ≠ .init swapid args) (haccept : ∀ swapid, command ≠ .accept swapid) :
    readSlateFromDisk F files = .ok slate := by
  cases command with
  | init swapid args => exact (hinit swapid args rfl).elim
  | accept swapid => exact (haccept swapid rfl).elim
  | _ => simpa only [Command.loadSlate, Outcome.expect_eq_ok] using h

/-! ### The life cycle of a swap -/

/-- How the stored status moves. -/
inductive StatusStep : Option SwapStatus → Option SwapStatus → Prop
  | same (status : Option SwapStatus) : StatusStep status status
  | created : StatusStep none (some .initialized)
  | locked : StatusStep (some .initialized) (some .setup)
  | finished : StatusStep (some .setup) (some .finished)
  | failed : StatusStep (some .setup) (some .failed)

/-- The life cycle of a swap.  In every session on a directory in which the swap does not exist yet, or is
initialized, each command moves the stored status by one step of the life cycle, `EXECUTING` is never
stored, and the phases succeed at most once. -/
theorem session_life_cycle (hF : F.Lawful) {swapid : ℕ}
    (h : Session L B F settings anyCommand dir runs dir₁)
    (hstart : storedStatus F (dir swapid) = none ∨ storedStatus F (dir swapid) = some .initialized) :
    (∀ command phase dir₂, command.Fresh dir₁ → CommandStep L B F settings dir₁ command phase dir₂ →
      StatusStep (storedStatus F (dir₁ swapid)) (storedStatus F (dir₂ swapid))) ∧
    storedStatus F (dir₁ swapid) ≠ some .executing ∧
    completions swapid .locking runs ≤ 1 ∧
    completions swapid .execution runs + completions swapid .refund runs ≤ 1 := by
  have hlived := h.lived hF hstart
  refine ⟨?_, ?_⟩
  · intro command phase dir₂ hfresh hstep
    obtain ⟨hsame, -⟩ | ⟨-, -, hbefore, hafter⟩ | ⟨-, -, hbefore, hafter⟩ | ⟨-, -, hbefore, hafter⟩ |
      ⟨-, -, hbefore, hafter⟩ := hstep.status hF hfresh swapid
    · rw [hsame]
      exact .same _
    · rw [hbefore, hafter]
      exact .created
    · rw [hbefore, hafter]
      exact .locked
    · rw [hbefore, hafter]
      exact .finished
    · rw [hbefore, hafter]
      exact .failed
  · generalize storedStatus F (dir₁ swapid) = status at hlived
    rcases status with _ | status
    · obtain ⟨hlocks, hends⟩ := hlived
      exact ⟨nofun, by omega, by omega⟩
    · cases status with
      | executing => exact hlived.elim
      | _ =>
        obtain ⟨hlocks, hends⟩ := hlived
        exact ⟨nofun, by omega, by omega⟩

/-- The offerer of the sample imports its coin and serves a `lock`. -/
theorem session_listen {C : Directory → Command → Prop}
    {before : List (Command × Option Phase)} {dir : Directory}
    (hbefore : Session exponents (btcExponents []) fileExponents sampleSettings C dir before
      (sampleDirectory sampleSlate))
    (himport : C (sampleDirectory sampleSlate) (.importGrin 1 sampleCoin))
    (hlisten : C (sampleDirectory sampleFunded) (.listen 1 1)) : ∃ lock shared refund,
    Session exponents (btcExponents []) fileExponents sampleSettings C dir
      (before ++ [(.importGrin 1 sampleCoin, none)] ++ [(.listen 1 1, some .locking)])
      (sampleDirectory (sampleOffererSetup lock shared refund)) ∧ refund.tx.tx.isSome := by
  obtain ⟨tO, -, lock, shared, -, refund, hO, htrueO, -, -, -, -, -, hrefund⟩ := sample_handshake
  have hgrin := commandStep_importGrin exponents (btcExponents []) sampleSettings sampleRand
    1 sampleCoin (sampleDirectory_read sampleSlate)
  rw [sampleDirectory_update] at hgrin
  have hload : (Command.listen 1 1).loadSlate fileExponents sampleSettings
      (sampleDirectory sampleFunded 1) = .ok sampleFunded := by
    simp only [Command.loadSlate, sampleDirectory_read, Outcome.expect_ok]
  rw [← sampleDirectory_self] at htrueO
  have hlock := commandStep_of_main hload hO htrueO
  rw [show (Command.listen 1 1).swapid = 1 from rfl, sampleDirectory_update] at hlock
  exact ⟨lock, shared, refund, .command (.command hbefore trivial himport hgrin) trivial hlisten hlock, hrefund⟩

/-- The listener serves a `cancel`. -/
theorem commandStep_listen_cancel {t : Trace K P (SwapSlate K P)} {value : ℕ} (settings : Settings)
    (hF : F.Lawful) (hdir : dir swapid = slate.files F) (hsetup : slate.pubSlate.status = .setup)
    (hvalue : (offeredValue L slate).1 = .ok value)
    (h : Steps (refundPhase B rand slate.offerer slate) t (.ret slate' ()))
    (htrue : Truthful F (slate.files F) t) :
    CommandStep L B F settings dir (.listen swapid 1) (some .refund)
      (Function.update dir swapid (slate'.files F)) := by
  have hload : (Command.listen swapid 1).loadSlate F settings (dir swapid) = .ok slate := by
    rw [hdir]
    simp only [Command.loadSlate, readSlateFromDisk_files hF, Outcome.expect_ok]
  have hrun : Steps ((Command.listen swapid 1).run L B rand slate) _ (.ret slate' (some .refund)) :=
    (listenExecute_steps (F.sha256 (F.pubToJson slate.pubSlate)) hvalue (.inl hsetup)
      (serveClient_refund hsetup h)).bind_pure
  refine commandStep_of_run hload hrun ?_
  rw [show (Command.listen swapid 1).swapid = swapid from rfl, hdir]
  exact ⟨trivial, trivial, trivial, rfl, trivial, trivial, htrue⟩

/-- The listener of the sample serves it past both lock times. -/
theorem sample_listen_cancel {lock : SignedLock} {shared : DSharedOutMwTxResult Scalar Scalar}
    {refund : DBuildMWTxResult Scalar Scalar} (hrefund : refund.tx.tx.isSome) :
    CommandStep exponents (btcExponents []) fileExponents sampleSettings
      (sampleDirectory (sampleOffererSetup lock shared refund)) (.listen 1 1) (some .refund)
      (sampleDirectory { sampleOffererSetup lock shared refund with pubSlate.status := .failed }) := by
  obtain ⟨tx, htx⟩ := Option.isSome_iff_exists.mp hrefund
  have hvalue : (offeredValue exponents (sampleOffererSetup lock shared refund)).1 = .ok 2000000000 := by
    show (offeredValue exponents sampleFunded).1 = _
    decide +kernel
  have hpassed : bothPassed 1500401 700041 1500400 700040 = .ok true := by decide
  have hphase : Steps (refundPhase (btcExponents []) sampleRand
      (sampleOffererSetup lock shared refund).offerer (sampleOffererSetup lock shared refund)) _ _ :=
    refundPhaseSwapMw_steps rfl rfl hpassed htx
  have hstep := commandStep_listen_cancel (L := exponents) sampleSettings fileExponents_lawful
    (sampleDirectory_self _) rfl hvalue hphase ⟨trivial, trivial, trivial, trivial⟩
  rwa [sampleDirectory_update] at hstep

/-- A swap from its `init` up to its refund. -/
theorem session_life_cycle_sample : ∃ dir₁ dir₂, ∃ runs : List (Command × Option Phase),
    runs = [(.init 1 sampleInit, none), (.importGrin 1 sampleCoin, none), (.listen 1 1, some .locking)] ∧
    Session exponents (btcExponents []) fileExponents sampleSettings anyCommand emptyDirectory runs dir₁ ∧
    storedStatus fileExponents (dir₁ 1) = some .setup ∧
    CommandStep exponents (btcExponents []) fileExponents sampleSettings dir₁ (.listen 1 1) (some .refund)
      dir₂ ∧
    storedStatus fileExponents (dir₂ 1) = some .failed ∧
    StatusStep (storedStatus fileExponents (dir₁ 1)) (storedStatus fileExponents (dir₂ 1)) ∧
    storedStatus fileExponents (dir₁ 1) ≠ some .executing ∧
    completions 1 .locking runs ≤ 1 ∧ completions 1 .execution runs + completions 1 .refund runs ≤ 1 := by
  obtain ⟨lock, shared, refund, hsession, hrefund⟩ :=
    session_listen (session_init (C := anyCommand) trivial) trivial trivial
  have hstep := @sample_listen_cancel lock shared refund hrefund
  have hstart : storedStatus fileExponents (emptyDirectory 1) = none := rfl
  obtain ⟨hmoves, hstored, hlocks, hends⟩ :=
    session_life_cycle fileExponents_lawful hsession (.inl hstart)
  have hmove := hmoves (.listen 1 1) _ _ trivial hstep
  exact ⟨_, _, _, rfl, hsession, sampleDirectory_status _, hstep, sampleDirectory_status _, hmove, hstored,
    hlocks, hends⟩

/-! ### A slate that is set up is complete -/

/-- What the execution and the refund phase of the Grin owner unwrap. -/
structure CompleteMw (slate : SwapSlate K P) : Prop where
  sk : slate.prvSlate.btc.sk.isSome
  lock : slate.prvSlate.btc.lock.isSome
  pubA : slate.pubSlate.btc.pubA.isSome
  pubB : slate.pubSlate.btc.pubB.isSome
  pubX : slate.pubSlate.btc.pubX.isSome
  lockTimeMw : slate.pubSlate.mw.lockTime.isSome
  lockTimeBtc : slate.pubSlate.btc.lockTime.isSome
  sharedCoin : slate.prvSlate.mw.sharedCoin.isSome
  refundTx : slate.prvSlate.mw.refundTx.isSome

/-- What the execution and the refund phase of the Bitcoin owner unwrap. -/
structure CompleteBtc (slate : SwapSlate K P) : Prop where
  sk : slate.prvSlate.btc.sk.isSome
  x : slate.prvSlate.btc.x.isSome
  lock : slate.prvSlate.btc.lock.isSome
  pubA : slate.pubSlate.btc.pubA.isSome
  lockTimeMw : slate.pubSlate.mw.lockTime.isSome
  lockTimeBtc : slate.pubSlate.btc.lockTime.isSome
  sharedCoin : slate.prvSlate.mw.sharedCoin.isSome

def Complete (slate : SwapSlate K P) : Role → Prop
  | .mw => CompleteMw slate
  | .btc => CompleteBtc slate

inductive Party
  | offerer
  | taker
  deriving DecidableEq

/-- The part that a party plays in a swap. -/
def Party.role (slate : SwapSlate K P) : Party → Role
  | .offerer => slate.offerer
  | .taker => slate.taker

/-- The commands with which a party drives a swap. -/
def Party.Drives (party : Party) : Command → Prop
  | .importBtc .. | .importGrin .. => True
  | .listen .. => party = .offerer
  | .lock _ | .execute _ | .cancel _ => party = .taker
  | .init .. | .accept _ => False

/-- Any commands on other swaps, and those of the party on this one. -/
def Party.uses (party : Party) (swapid : ℕ) (_ : Directory) (command : Command) : Prop :=
  command.swapid = swapid → party.Drives command

/-- Files that `init` wrote, or `accept` for a public file as `init` writes it. -/
inductive Begun (F : FileLib K P) : SlateFiles → Prop
  | init {args : Init} {settings : Settings} {slate : SwapSlate K P}
      (h : args.execute settings = .ok slate) : Begun F (slate.files F)
  | accept {args : Init} {settings : Settings} {offer slate : SwapSlate K P} {files : SlateFiles}
      (h : args.execute settings = .ok offer) (hpub : files.pub = some (F.pubToJson offer.pubSlate))
      (haccept : createPrivFromPub F files = .ok slate) : Begun F (slate.files F)

omit [CommRing K] [AddCommGroup P] [Module K P] [DecidableEq K] [DecidableEq P] in
theorem Init.execute_blank {args : Init} (h : args.execute settings = .ok slate) :
    slate.prvSlate = .blank := by
  simp only [Init.execute] at h
  split at h
  · cases h
    rfl
  · cases h

omit [CommRing K] [AddCommGroup P] [Module K P] [DecidableEq K] [DecidableEq P] in
theorem Begun.blank (hF : F.Lawful) (h : Begun F files) :
    ∃ slate : SwapSlate K P, files = slate.files F ∧ slate.pubSlate.status = .initialized ∧
      slate.prvSlate = .blank := by
  cases h with
  | init h => exact ⟨_, rfl, Init.execute_status h, Init.execute_blank h⟩
  | accept h hpub haccept =>
    obtain ⟨hstored, hblank⟩ := createPrivFromPub_eq_ok.mp haccept
    rw [storedPub, hpub, Option.bind_some, hF.pub_codec, Option.some.injEq] at hstored
    exact ⟨_, rfl, by rw [← hstored, Init.execute_status h], hblank⟩

section

omit [DecidableEq K] [DecidableEq P]

/-- The locking phase fills every field. -/
theorem Locks.complete {role : Role} (h : Locks B rand slate slate' role) : Complete slate' role := by
  cases role with
  | mw =>
    obtain ⟨d, rfl⟩ := h
    exact ⟨rfl, rfl, rfl, rfl, rfl, rfl, rfl, rfl, rfl⟩
  | btc =>
    obtain ⟨d, rfl⟩ := h
    exact ⟨rfl, rfl, rfl, rfl, rfl, rfl, rfl⟩

theorem Locks.swapType {role : Role} (h : Locks B rand slate slate' role) :
    slate'.pubSlate.btc.swapType = slate.pubSlate.btc.swapType := by
  cases role <;>
  · obtain ⟨d, rfl⟩ := h
    rfl

theorem Locks.complete_party {party : Party} (h : Locks B rand slate slate' (party.role slate)) :
    Complete slate' (party.role slate') := by
  have hrole : party.role slate' = party.role slate := by
    cases party <;> simp only [Party.role, SwapSlate.offerer, SwapSlate.taker, h.swapType]
  rw [hrole]
  exact h.complete

omit [CommRing K] [AddCommGroup P] [Module K P] in
/-- Imported inputs leave the fields of the phases alone. -/
theorem Complete.importBtc {role : Role} {inputs : List BTCInput} (h : Complete slate role) :
    Complete { slate with prvSlate.btc.inputs := inputs } role := by
  cases role with
  | mw => exact ⟨h.sk, h.lock, h.pubA, h.pubB, h.pubX, h.lockTimeMw, h.lockTimeBtc, h.sharedCoin,
      h.refundTx⟩
  | btc => exact ⟨h.sk, h.x, h.lock, h.pubA, h.lockTimeMw, h.lockTimeBtc, h.sharedCoin⟩

omit [CommRing K] [AddCommGroup P] [Module K P] in
theorem Complete.importGrin {role : Role} {inputs : List MWCoin} (h : Complete slate role) :
    Complete { slate with prvSlate.mw.inputs := inputs } role := by
  cases role with
  | mw => exact ⟨h.sk, h.lock, h.pubA, h.pubB, h.pubX, h.lockTimeMw, h.lockTimeBtc, h.sharedCoin,
      h.refundTx⟩
  | btc => exact ⟨h.sk, h.x, h.lock, h.pubA, h.lockTimeMw, h.lockTimeBtc, h.sharedCoin⟩

/-- What a party's command that returns made of its slate: it imported an input, or it completed a phase
in the part of the party. -/
theorem Finishes.driven {party : Party} (h : Finishes B rand slate slate' command phase)
    (hdrives : party.Drives command) :
    (∃ inputs, slate' = { slate with prvSlate.btc.inputs := inputs }) ∨
      (∃ inputs, slate' = { slate with prvSlate.mw.inputs := inputs }) ∨
      (slate.pubSlate.status = .initialized ∧ Locks B rand slate slate' (party.role slate)) ∨
      Executes slate slate' (party.role slate) ∨ Refunds slate slate' (party.role slate) := by
  cases command with
  | init swapid args => exact hdrives.elim
  | accept swapid => exact hdrives.elim
  | importBtc swapid txid vout value sk pubScript =>
    obtain ⟨-, input, hslate⟩ := h
    exact .inl ⟨_, hslate⟩
  | importGrin swapid coin => exact .inr (.inl ⟨_, h.2⟩)
  | listen swapid clients =>
    cases hdrives
    obtain ⟨served, -, h⟩ := h
    cases served with
    | locking => exact .inr (.inr (.inl h))
    | execution => exact .inr (.inr (.inr (.inl h.2)))
    | refund => exact .inr (.inr (.inr (.inr h.2)))
  | lock swapid =>
    cases hdrives
    exact .inr (.inr (.inl h.2))
  | execute swapid =>
    cases hdrives
    exact .inr (.inr (.inr (.inl h.2.2)))
  | cancel swapid =>
    cases hdrives
    exact .inr (.inr (.inr (.inr h.2.2)))

end

/-- The commands of a party keep `I`. -/
def Party.Keeps (party : Party) (B : BtcLib K P) (I : SwapSlate K P → Prop) : Prop :=
  ∀ rand slate slate' command phase, party.Drives command →
    Finishes B rand slate slate' command phase → I slate → I slate'

/-- What the commands of a party keep holds of the slate in the files. -/
theorem CommandStep.holds (hF : F.Lawful) {party : Party} {I : SwapSlate K P → Prop}
    (hkeeps : party.Keeps B I) (h : CommandStep L B F settings dir command phase dir₂)
    (huses : party.uses swapid dir command) (hfiles : ∃ slate, dir swapid = slate.files F ∧ I slate) :
    ∃ slate, dir₂ swapid = slate.files F ∧ I slate := by
  obtain ⟨-, rfl⟩ | ⟨rand, slate, slate', hload, hfin, rfl⟩ := h.cases_files
  · exact hfiles
  · by_cases hid : command.swapid = swapid
    · subst hid
      have hdrives := huses rfl
      obtain ⟨stored, hstored, hI⟩ := hfiles
      have hread : readSlateFromDisk F (dir command.swapid) = .ok slate := by
        apply loadSlate_read hload
        · rintro swapid args rfl
          exact hdrives
        · rintro swapid rfl
          exact hdrives
      rw [hstored, readSlateFromDisk_files hF, Except.ok.injEq] at hread
      subst hread
      rw [Function.update_self]
      exact ⟨slate', rfl, hkeeps _ _ _ _ _ hdrives hfin hI⟩
    · rwa [Function.update_of_ne (Ne.symm hid)]

theorem Session.holds (hF : F.Lawful) {party : Party} {I : SwapSlate K P → Prop}
    (hkeeps : party.Keeps B I) (hbegun : Begun F (dir swapid))
    (hI : ∀ slate : SwapSlate K P, slate.pubSlate.status = .initialized → slate.prvSlate = .blank →
      I slate)
    (h : Session L B F settings (party.uses swapid) dir runs dir₁) :
    ∃ slate, dir₁ swapid = slate.files F ∧ I slate := by
  induction h with
  | start =>
    obtain ⟨slate, hslate, hinit, hblank⟩ := hbegun.blank hF
    exact ⟨slate, hslate, hI slate hinit hblank⟩
  | command hruns hfresh hcond hstep ih => exact hstep.holds hF hkeeps hcond ih

omit [DecidableEq K] [DecidableEq P] in
/-- A slate stays complete once it is set up. -/
theorem Party.keeps_complete (party : Party) :
    party.Keeps B fun slate => slate.pubSlate.status = .setup → Complete slate (party.role slate) := by
  intro rand slate slate' command phase hdrives hfin hslate hsetup
  obtain ⟨inputs, rfl⟩ | ⟨inputs, rfl⟩ | ⟨-, hlocks⟩ | hexec | hrefund := hfin.driven hdrives
  · exact (hslate hsetup).importBtc
  · exact (hslate hsetup).importGrin
  · exact hlocks.complete_party
  · rw [hexec.status] at hsetup
    cases hsetup
  · rw [hrefund.status] at hsetup
    cases hsetup

/-- Whatever a party does with its commands, a slate with the status `SETUP` has every field that the
execution and the refund phase of its part unwrap. -/
theorem session_setup_complete (hF : F.Lawful) {party : Party} (hbegun : Begun F (dir swapid))
    (h : Session L B F settings (party.uses swapid) dir runs dir₁)
    (hsetup : storedStatus F (dir₁ swapid) = some .setup) :
    ∃ slate, readSlateFromDisk F (dir₁ swapid) = .ok slate ∧ Complete slate (party.role slate) := by
  have hstart : ∀ slate : SwapSlate K P, slate.pubSlate.status = .initialized →
      slate.prvSlate = .blank → slate.pubSlate.status = .setup → Complete slate (party.role slate) := by
    intro slate hinit _ hstatus
    rw [hinit] at hstatus
    cases hstatus
  obtain ⟨slate, hslate, hcomplete⟩ := h.holds hF party.keeps_complete hbegun hstart
  rw [hslate, storedStatus, storedPub_files hF, Option.map_some, Option.some.injEq] at hsetup
  exact ⟨slate, by rw [hslate, readSlateFromDisk_files hF], hcomplete hsetup⟩

theorem sample_begun : Begun fileExponents (sampleDirectory sampleSlate 1) := by
  rw [sampleDirectory_self]
  exact .init (show sampleInit.execute sampleSettings = .ok sampleSlate from rfl)

theorem session_setup_complete_sample : ∃ dir₁ slate,
    Session exponents (btcExponents []) fileExponents sampleSettings (Party.offerer.uses 1)
      (sampleDirectory sampleSlate) [(.importGrin 1 sampleCoin, none), (.listen 1 1, some .locking)] dir₁ ∧
    readSlateFromDisk fileExponents (dir₁ 1) = .ok slate ∧
    Complete slate (Party.offerer.role slate) := by
  obtain ⟨lock, shared, refund, hsession, -⟩ :=
    session_listen (.start (C := Party.offerer.uses 1)) (fun _ => trivial) (fun _ => rfl)
  obtain ⟨slate, hread, hcomplete⟩ :=
    session_setup_complete fileExponents_lawful sample_begun hsession (sampleDirectory_status _)
  exact ⟨_, slate, hsession, hread, hcomplete⟩

/-! ### Secrets -/

/-- What stays in a private slate: the inputs that were imported, the keys, the lock, the shared coin
and its refund. -/
structure Keeps (prv prv' : SwapSlatePriv K P) : Prop where
  inputsMw : prv.mw.inputs <+: prv'.mw.inputs
  inputsBtc : prv.btc.inputs <+: prv'.btc.inputs
  sk : ∀ sk, prv.btc.sk = some sk → prv'.btc.sk = some sk
  x : ∀ x, prv.btc.x = some x → prv'.btc.x = some x
  rSk : ∀ rSk, prv.btc.rSk = some rSk → prv'.btc.rSk = some rSk
  lock : ∀ lock, prv.btc.lock = some lock → prv'.btc.lock = some lock
  sharedCoin : ∀ coin, prv.mw.sharedCoin = some coin → prv'.mw.sharedCoin = some coin
  refundTx : ∀ tx, prv.mw.refundTx = some tx → prv'.mw.refundTx = some tx

section

omit [CommRing K] [AddCommGroup P] [Module K P] [DecidableEq K] [DecidableEq P]

theorem Keeps.refl (prv : SwapSlatePriv K P) : Keeps prv prv :=
  ⟨List.prefix_rfl, List.prefix_rfl, fun _ h => h, fun _ h => h, fun _ h => h, fun _ h => h,
    fun _ h => h, fun _ h => h⟩

theorem Keeps.trans {prv prv' prv'' : SwapSlatePriv K P} (h : Keeps prv prv') (h' : Keeps prv' prv'') :
    Keeps prv prv'' where
  inputsMw := h.inputsMw.trans h'.inputsMw
  inputsBtc := h.inputsBtc.trans h'.inputsBtc
  sk _ hsk := h'.sk _ (h.sk _ hsk)
  x _ hx := h'.x _ (h.x _ hx)
  rSk _ hsk := h'.rSk _ (h.rSk _ hsk)
  lock _ hlock := h'.lock _ (h.lock _ hlock)
  sharedCoin _ hcoin := h'.sharedCoin _ (h.sharedCoin _ hcoin)
  refundTx _ htx := h'.refundTx _ (h.refundTx _ htx)

/-- Nothing of the locking phase is stored yet. -/
structure Unlocked (prv : SwapSlatePriv K P) : Prop where
  sk : prv.btc.sk = none
  x : prv.btc.x = none
  rSk : prv.btc.rSk = none
  lock : prv.btc.lock = none
  sharedCoin : prv.mw.sharedCoin = none
  refundTx : prv.mw.refundTx = none

theorem unlocked_blank : Unlocked (.blank : SwapSlatePriv K P) := ⟨rfl, rfl, rfl, rfl, rfl, rfl⟩

theorem Unlocked.keeps {prv prv' : SwapSlatePriv K P} (h : Unlocked prv)
    (hmw : prv.mw.inputs <+: prv'.mw.inputs) (hbtc : prv.btc.inputs <+: prv'.btc.inputs) :
    Keeps prv prv' := by
  refine ⟨hmw, hbtc, ?_, ?_, ?_, ?_, ?_, ?_⟩ <;> intro v hv
  · cases h.sk.symm.trans hv
  · cases h.x.symm.trans hv
  · cases h.rSk.symm.trans hv
  · cases h.lock.symm.trans hv
  · cases h.sharedCoin.symm.trans hv
  · cases h.refundTx.symm.trans hv

end

section

omit [DecidableEq K] [DecidableEq P]

theorem Locks.keeps {role : Role} (h : Locks B rand slate slate' role)
    (hunlocked : Unlocked slate.prvSlate) : Keeps slate.prvSlate slate'.prvSlate := by
  cases role <;>
  · obtain ⟨d, rfl⟩ := h
    exact hunlocked.keeps List.prefix_rfl List.prefix_rfl

omit [CommRing K] [AddCommGroup P] [Module K P] in
theorem Executes.keeps {role : Role} (h : Executes slate slate' role) :
    Keeps slate.prvSlate slate'.prvSlate := by
  cases role <;>
  · obtain ⟨d, rfl⟩ := h
    exact ⟨List.prefix_rfl, List.prefix_rfl, fun _ h => h, fun _ h => h, fun _ h => h, fun _ h => h,
      fun _ h => h, fun _ h => h⟩

omit [CommRing K] [AddCommGroup P] [Module K P] in
theorem Refunds.keeps {role : Role} (h : Refunds slate slate' role) :
    Keeps slate.prvSlate slate'.prvSlate := by
  cases role with
  | mw =>
    cases h
    exact .refl _
  | btc =>
    obtain ⟨d, rfl⟩ := h
    exact ⟨List.prefix_rfl, List.prefix_rfl, fun _ h => h, fun _ h => h, fun _ h => h, fun _ h => h,
      fun _ h => h, fun _ h => h⟩

/-- A command that returns keeps the secrets of a slate that has none of the locking phase before
it. -/
theorem Finishes.keeps (h : Finishes B rand slate slate' command phase)
    (hunlocked : slate.pubSlate.status = .initialized → Unlocked slate.prvSlate) :
    Keeps slate.prvSlate slate'.prvSlate := by
  cases command with
  | init swapid args =>
    obtain ⟨rfl, -⟩ := h
    exact .refl _
  | accept swapid =>
    obtain ⟨rfl, -⟩ := h
    exact .refl _
  | importBtc swapid txid vout value sk pubScript =>
    obtain ⟨-, input, rfl⟩ := h
    exact ⟨List.prefix_rfl, List.prefix_append _ _, fun _ h => h, fun _ h => h, fun _ h => h,
      fun _ h => h, fun _ h => h, fun _ h => h⟩
  | importGrin swapid coin =>
    obtain ⟨-, rfl⟩ := h
    exact ⟨List.prefix_append _ _, List.prefix_rfl, fun _ h => h, fun _ h => h, fun _ h => h,
      fun _ h => h, fun _ h => h, fun _ h => h⟩
  | listen swapid clients =>
    obtain ⟨served, -, h⟩ := h
    cases served with
    | locking => exact h.2.keeps (hunlocked h.1)
    | execution => exact h.2.keeps
    | refund => exact h.2.keeps
  | lock swapid => exact h.2.2.keeps (hunlocked h.2.1)
  | execute swapid => exact h.2.2.keeps
  | cancel swapid => exact h.2.2.keeps

/-- A slate that is still initialized has only got inputs. -/
theorem Finishes.unlocked (h : Finishes B rand slate slate' command phase)
    (hunlocked : slate.pubSlate.status = .initialized → Unlocked slate.prvSlate)
    (hstatus : slate'.pubSlate.status = .initialized) : Unlocked slate'.prvSlate := by
  obtain ⟨rfl, hsame⟩ | ⟨-, -, hsetup⟩ | ⟨-, -, hfinished⟩ | ⟨-, -, hfailed⟩ := h.status
  · have hbefore := hunlocked (hsame ▸ hstatus)
    cases command with
    | init swapid args =>
      obtain ⟨rfl, -⟩ := h
      exact hbefore
    | accept swapid =>
      obtain ⟨rfl, -⟩ := h
      exact hbefore
    | importBtc swapid txid vout value sk pubScript =>
      obtain ⟨-, input, rfl⟩ := h
      exact ⟨hbefore.sk, hbefore.x, hbefore.rSk, hbefore.lock, hbefore.sharedCoin, hbefore.refundTx⟩
    | importGrin swapid coin =>
      obtain ⟨-, rfl⟩ := h
      exact ⟨hbefore.sk, hbefore.x, hbefore.rSk, hbefore.lock, hbefore.sharedCoin, hbefore.refundTx⟩
    | listen swapid clients =>
      obtain ⟨served, hserved, -⟩ := h
      cases hserved
    | lock swapid => cases h.1
    | execute swapid => cases h.1
    | cancel swapid => cases h.1
  · rw [hsetup] at hstatus
    cases hstatus
  · rw [hfinished] at hstatus
    cases hstatus
  · rw [hfailed] at hstatus
    cases hstatus

end

/-- A swap is accepted only while it has no private file. -/
def acceptsOnce (dir : Directory) : Command → Prop
  | .accept swapid => (dir swapid).prv = none
  | _ => True

/-- The stored slates that are initialized have nothing of the locking phase. -/
def UnlockedFiles (F : FileLib K P) (files : SlateFiles) : Prop :=
  ∀ slate, readSlateFromDisk F files = .ok slate → slate.pubSlate.status = .initialized →
    Unlocked slate.prvSlate

omit [CommRing K] [AddCommGroup P] [Module K P] [DecidableEq K] [DecidableEq P] in
/-- The private part that a command starts from: the stored one, or a blank one when none is stored. -/
theorem loadSlate_prv (h : command.loadSlate F settings (dir command.swapid) = .ok slate)
    (hfresh : command.Fresh dir) (hcond : acceptsOnce dir command) :
    readSlateFromDisk F (dir command.swapid) = .ok slate ∨
      ((dir command.swapid).prv = none ∧ slate.prvSlate = .blank) := by
  cases command with
  | init swapid args =>
    right
    refine ⟨congrArg SlateFiles.prv (show dir swapid = _ from hfresh), ?_⟩
    simp only [Command.loadSlate, Init.execute] at h
    split at h
    · cases h
      rfl
    · cases h
  | accept swapid =>
    right
    simp only [Command.loadSlate, Outcome.expect_eq_ok, createPrivFromPub_eq_ok] at h
    exact ⟨hcond, h.2⟩
  | _ => exact .inl (loadSlate_read h (fun _ _ heq => by cases heq) fun _ heq => by cases heq)

omit [CommRing K] [AddCommGroup P] [Module K P] [DecidableEq K] [DecidableEq P] in
theorem loadSlate_unlocked (h : command.loadSlate F settings files = .ok slate)
    (hunlocked : UnlockedFiles F files) (hstatus : slate.pubSlate.status = .initialized) :
    Unlocked slate.prvSlate := by
  cases command with
  | init swapid args =>
    rw [Init.execute_blank h]
    exact unlocked_blank
  | accept swapid =>
    simp only [Command.loadSlate, Outcome.expect_eq_ok, createPrivFromPub_eq_ok] at h
    rw [h.2]
    exact unlocked_blank
  | _ =>
    have hread := loadSlate_read h (fun _ _ heq => by cases heq) fun _ heq => by cases heq
    exact hunlocked slate hread hstatus

theorem CommandStep.unlocked (hF : F.Lawful) (h : CommandStep L B F settings dir command phase dir₂)
    (hunlocked : UnlockedFiles F (dir swapid)) : UnlockedFiles F (dir₂ swapid) := by
  obtain ⟨-, rfl⟩ | ⟨rand, slate, slate', hload, hfin, rfl⟩ := h.cases_files
  · exact hunlocked
  · by_cases hid : command.swapid = swapid
    · subst hid
      rw [Function.update_self]
      intro stored hread hstatus
      rw [readSlateFromDisk_files hF, Except.ok.injEq] at hread
      subst hread
      exact hfin.unlocked (loadSlate_unlocked hload hunlocked) hstatus
    · rwa [Function.update_of_ne (Ne.symm hid)]

theorem Session.unlocked (hF : F.Lawful) {C : Directory → Command → Prop}
    (h : Session L B F settings C dir runs dir₁) (hunlocked : UnlockedFiles F (dir swapid)) :
    UnlockedFiles F (dir₁ swapid) := by
  induction h with
  | start => exact hunlocked
  | command hruns hfresh hcond hstep ih => exact hstep.unlocked hF ih

theorem CommandStep.keeps (hF : F.Lawful) (h : CommandStep L B F settings dir command phase dir₂)
    (hfresh : command.Fresh dir) (hcond : acceptsOnce dir command)
    (hunlocked : UnlockedFiles F (dir swapid)) {prv : SwapSlatePriv K P}
    (hprv : storedPrv F (dir swapid) = some prv) :
    ∃ prv', storedPrv F (dir₂ swapid) = some prv' ∧ Keeps prv prv' := by
  obtain ⟨-, rfl⟩ | ⟨rand, slate, slate', hload, hfin, rfl⟩ := h.cases_files
  · exact ⟨prv, hprv, .refl _⟩
  · by_cases hid : command.swapid = swapid
    · subst hid
      rw [Function.update_self]
      obtain hread | ⟨hnone, -⟩ := loadSlate_prv hload hfresh hcond
      · obtain ⟨-, hstored⟩ := readSlateFromDisk_eq_ok.mp hread
        rw [hstored, Option.some.injEq] at hprv
        subst hprv
        exact ⟨slate'.prvSlate, storedPrv_files hF, hfin.keeps (loadSlate_unlocked hload hunlocked)⟩
      · rw [storedPrv, hnone] at hprv
        cases hprv
    · rw [Function.update_of_ne (Ne.symm hid)]
      exact ⟨prv, hprv, .refl _⟩

theorem Session.keeps (hF : F.Lawful) (h : Session L B F settings acceptsOnce dir runs dir₁)
    (hunlocked : UnlockedFiles F (dir swapid)) {prv : SwapSlatePriv K P}
    (hprv : storedPrv F (dir swapid) = some prv) :
    ∃ prv', storedPrv F (dir₁ swapid) = some prv' ∧ Keeps prv prv' := by
  induction h with
  | start => exact ⟨prv, hprv, .refl _⟩
  | command hruns hfresh hcond hstep ih =>
    obtain ⟨prv', hprv', h⟩ := ih
    obtain ⟨prv'', hprv'', h'⟩ := hstep.keeps hF hfresh hcond (hruns.unlocked hF hunlocked) hprv'
    exact ⟨prv'', hprv'', h.trans h'⟩

/-- As long as no swap is accepted that already has a private file, what is stored of the secrets of a
swap is stored unchanged after every later command. -/
theorem session_keeps_secrets (hF : F.Lawful) (hstart : ∀ swapid, (dir swapid).prv = none)
    (h : Session L B F settings acceptsOnce dir runs dir₁)
    (h' : Session L B F settings acceptsOnce dir₁ runs' dir₂) {prv : SwapSlatePriv K P}
    (hprv : storedPrv F (dir₁ swapid) = some prv) :
    ∃ prv', storedPrv F (dir₂ swapid) = some prv' ∧ Keeps prv prv' := by
  have hunlocked : UnlockedFiles F (dir swapid) := by
    intro slate hread
    obtain ⟨-, hnone⟩ := readSlateFromDisk_eq_ok.mp hread
    rw [storedPrv, hstart swapid] at hnone
    cases hnone
  exact h'.keeps hF (h.unlocked hF hunlocked) hprv

/-- Creating the swap and importing the coin. -/
theorem session_funded {C : Directory → Command → Prop} (hinit : C emptyDirectory (.init 1 sampleInit))
    (himport : C (sampleDirectory sampleSlate) (.importGrin 1 sampleCoin)) :
    Session exponents (btcExponents []) fileExponents sampleSettings C emptyDirectory
      [(.init 1 sampleInit, none), (.importGrin 1 sampleCoin, none)] (sampleDirectory sampleFunded) := by
  have hstep := commandStep_importGrin exponents (btcExponents []) sampleSettings sampleRand
    1 sampleCoin (sampleDirectory_read sampleSlate)
  rw [sampleDirectory_update] at hstep
  exact .command (session_init hinit) trivial himport hstep

theorem session_keeps_secrets_sample :
    ∃ dir₂ prv', Session exponents (btcExponents []) fileExponents sampleSettings acceptsOnce
        emptyDirectory [(.init 1 sampleInit, none), (.importGrin 1 sampleCoin, none)]
        (sampleDirectory sampleFunded) ∧
      Session exponents (btcExponents []) fileExponents sampleSettings acceptsOnce
        (sampleDirectory sampleFunded) [(.importGrin 1 (sampleShared 21), none)] dir₂ ∧
      storedPrv fileExponents (dir₂ 1) = some prv' ∧ Keeps sampleFunded.prvSlate prv' := by
  have hfund := session_funded (C := acceptsOnce) trivial trivial
  have hstep := commandStep_importGrin exponents (btcExponents []) sampleSettings sampleRand
    1 (sampleShared 21) (sampleDirectory_read sampleFunded)
  have himport : Session exponents (btcExponents []) fileExponents sampleSettings acceptsOnce
      (sampleDirectory sampleFunded) ([] ++ [(.importGrin 1 (sampleShared 21), none)]) _ :=
    .command .start trivial trivial hstep
  have hprv : storedPrv fileExponents (sampleDirectory sampleFunded 1) = some sampleFunded.prvSlate := by
    rw [sampleDirectory_self]
    exact storedPrv_files fileExponents_lawful
  obtain ⟨prv', hprv', hkeeps⟩ :=
    session_keeps_secrets fileExponents_lawful (fun _ => rfl) hfund himport hprv
  exact ⟨_, prv', hfund, himport, hprv', hkeeps⟩

/-- A second `accept` of the swap erases the imported coin. -/
theorem accept_erases_input :
    ∃ prv prv', Session exponents (btcExponents []) fileExponents sampleSettings anyCommand
        emptyDirectory [(.init 1 sampleInit, none), (.importGrin 1 sampleCoin, none)]
        (sampleDirectory sampleFunded) ∧
      Session exponents (btcExponents []) fileExponents sampleSettings anyCommand
        (sampleDirectory sampleFunded) [(.accept 1, none)] (sampleDirectory sampleSlate) ∧
      storedPrv fileExponents (sampleDirectory sampleFunded 1) = some prv ∧
      storedPrv fileExponents (sampleDirectory sampleSlate 1) = some prv' ∧
      prv.mw.inputs = [sampleCoin] ∧ prv'.mw.inputs = [] ∧ ¬ Keeps prv prv' := by
  have hstep := commandStep_accept exponents (btcExponents []) sampleSettings sampleRand
    fileExponents_lawful 1 (sampleDirectory_self sampleFunded)
  rw [sampleDirectory_update] at hstep
  refine ⟨sampleFunded.prvSlate, .blank, session_funded trivial trivial,
    .command .start trivial trivial hstep, ?_, ?_, rfl, rfl, ?_⟩
  · rw [sampleDirectory_self]
    exact storedPrv_files fileExponents_lawful
  · rw [sampleDirectory_self]
    exact storedPrv_files fileExponents_lawful
  · intro h
    have hleads : [sampleCoin] <+: [] := h.inputsMw
    cases hleads.length_le

end MwBtcSwap
