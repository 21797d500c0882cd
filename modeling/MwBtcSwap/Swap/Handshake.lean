import MwBtcSwap.Swap.Honest
import MwBtcSwap.Swap.Sessions

/-! Two parties that run the locking phase over one connection, `listen` on the one side and `lock` on
the other, end with the same public slate. -/

namespace MwBtcSwap

open Interaction Machine Grin Bitcoin

section Connections

variable {K P σ : Type}

/-- The operation opens a connection. -/
def Op.opens : Op K P → Bool
  | .connect _ _ => true
  | .accept => true
  | _ => false

/-- The part of a run on the connection that it opened last. -/
def lastConnection (t : Trace K P σ) : Trace K P σ :=
  (t.reverse.takeWhile fun e => !e.op.opens).reverse

theorem lastConnection_eq {t u : Trace K P σ} {e : Event σ (@Op.Ans K P)} (he : e.op.opens = true)
    (hu : ∀ e' ∈ u, e'.op.opens = false) : lastConnection (t ++ e :: u) = u := by
  have hrest : ∀ e' ∈ u.reverse, (!e'.op.opens) = true := by
    intro e' he'
    rw [hu e' (List.mem_reverse.mp he'), Bool.not_false]
  rw [lastConnection, List.reverse_append, List.reverse_cons, List.append_assoc,
    List.takeWhile_append_of_pos hrest, List.singleton_append,
    List.takeWhile_cons_of_neg (by rw [he]; decide), List.append_nil, List.reverse_reverse]

theorem opens_of_inPhase {op : Op K P} (h : op.InPhase) : op.opens = false := by
  cases op with
  | connect server port => exact h.elim
  | accept => exact h.elim
  | _ => rfl

end Connections

variable {K P : Type} [CommRing K] [AddCommGroup P] [Module K P] [DecidableEq K] [DecidableEq P]

variable {L : GrinLib K P} {B : BtcLib K P} {F : FileLib K P} {settings : Settings} {swapid : ℕ}
  {slate slate' : SwapSlate K P} {rand : Rand K} {t : Trace K P (SwapSlate K P)}

/-! ### Both sides of the locking phase -/

/-- The part of the peer. -/
def Role.other : Role → Role
  | .mw => .btc
  | .btc => .mw

omit [CommRing K] [AddCommGroup P] [Module K P] [DecidableEq K] [DecidableEq P] in
theorem taker_eq (slate : SwapSlate K P) : slate.taker = slate.offerer.other := by
  simp only [SwapSlate.taker, SwapSlate.offerer]
  split_ifs <;> rfl

/-- The text of the public key of a secret key is read back. -/
def RoundTrips (B : BtcLib K P) (sk : K) : Prop :=
  deserializePubKey B (serializePubKey B (B.publicKey (createPrivateKey sk))) =
    .ok (B.publicKey (createPrivateKey sk))

/-- The texts of the keys of a locking phase are read back. -/
structure Rand.Readable (B : BtcLib K P) (rand : Rand K) : Prop where
  skA : RoundTrips B rand.lockMw.skA
  skB : RoundTrips B rand.lockBtc.skB
  x : RoundTrips B rand.lockBtc.x

/-- The two lists are the start of one list. -/
theorem eq_of_isPrefix {α : Type} {l l' m : List α} (h : l <+: m) (h' : l' <+: m)
    (hlen : l.length = l'.length) : l = l' :=
  (List.prefix_of_prefix_length_le h h' hlen.le).eq_of_length hlen

/-- The public slate that a locking phase leaves is set up. -/
structure SetUp (pub : SwapSlatePub) : Prop where
  status : pub.status = .setup
  pubA : pub.btc.pubA.isSome
  pubB : pub.btc.pubB.isSome
  pubX : pub.btc.pubX.isSome
  lockTimeMw : pub.mw.lockTime.isSome
  lockTimeBtc : pub.btc.lockTime.isSome

/-- What one party hears of a lock height is what the other told. -/
theorem lockTime_eq {height : ℕ} {n m : ℤ} (h : i64OfU64 height = some n)
    (h' : parseI64 (toString height) = some m) : m = n := by
  obtain ⟨hlt, rfl⟩ := i64OfU64_eq_some h
  rw [parseI64_toString hlt, Option.some.injEq] at h'
  exact h'.symm

/-- Two parties that return from the locking phase over one connection agree. -/
theorem lockingPhase_agree {ra rb : Rand K} {mw btc mw' btc' : SwapSlate K P}
    {u : Trace K P (SwapSlate K P)} (hra : ra.Readable B) (hrb : rb.Readable B)
    (hpub : btc.pubSlate = mw.pubSlate)
    (hmw : Steps (lockingPhaseSwapMw L B ra.lockMw mw) t (.ret mw' ()))
    (hbtc : Steps (lockingPhaseSwapBtc L B rb.lockBtc btc) u (.ret btc' ()))
    (hconn : Connected L t u) : mw'.pubSlate = btc'.pubSlate ∧ SetUp mw'.pubSlate := by
  obtain ⟨d, rfl, ⟨height, hheight, hsent⟩, pubB, pubX, lockTime, hreceived, hpubB, hpubX, hlock⟩ :=
    hmw.sat (lockingPhaseSwapMw_sat ra.lockMw mw [])
  obtain ⟨d', rfl, ⟨height', hheight', hsent'⟩, pubA, lockTime', hreceived', hpubA, hlock'⟩ :=
    hbtc.sat (lockingPhaseSwapBtc_sat rb.lockBtc btc [])
  simp only [List.nil_append, sent_nil, received_nil] at hsent hsent' hreceived hreceived'
  rw [hconn.1] at hreceived
  rw [hconn.2] at hreceived'
  obtain ⟨rfl, rfl, rfl, -⟩ : pubB = _ ∧ pubX = _ ∧ lockTime = _ ∧ True := by
    simpa using eq_of_isPrefix hreceived hsent' rfl
  obtain ⟨rfl, rfl, -⟩ : pubA = _ ∧ lockTime' = _ ∧ True := by
    simpa using eq_of_isPrefix hreceived' hsent rfl
  have htimeBtc := lockTime_eq hheight' hlock
  have htimeMw := lockTime_eq hheight hlock'
  rw [hrb.skB, Except.ok.injEq] at hpubB
  rw [hrb.x, Except.ok.injEq] at hpubX
  rw [hra.skA, Except.ok.injEq] at hpubA
  refine ⟨?_, rfl, rfl, rfl, rfl, rfl, rfl⟩
  simp only [SwapSlate.lockMw, SwapSlate.lockBtc, hpub, ← hpubA, ← hpubB, ← hpubX, htimeBtc, htimeMw]

/-! ### Runs of the commands -/

/-- `main` returns after the command did and both files are written. -/
theorem main_inv {command : Command} {phase : Option Phase} {files : SlateFiles}
    (h : Steps (main L B rand command slate) t (.ret slate' phase)) (htrue : Truthful F files t) :
    ∃ t₁, t = t₁ ++ slate'.writes ∧
      Steps (command.run L B rand slate) t₁ (.ret slate' phase) := by
  obtain ⟨t₁, t₂, s, a, rfl, hrun, hwrite⟩ := h.bind_ret_inv
  obtain ⟨-, htrue⟩ := truthful_append.mp htrue
  obtain ⟨rfl, hret, -⟩ := steps_writeSlateToDisk hwrite htrue not_writing_ret
  cases hret
  exact ⟨t₁, rfl, hrun⟩

/-- What `main` returns is in the files. -/
theorem main_written {command : Command} {phase : Option Phase} {files : SlateFiles}
    (h : Steps (main L B rand command slate) t (.ret slate' phase)) (htrue : Truthful F files t) :
    files.after F t = slate'.files F := by
  obtain ⟨-, hnot⟩ | ⟨s, a, hret, -, hfiles⟩ := main_files h htrue not_writing_ret
  · exact (hnot _ _ rfl).elim
  · cases hret
    exact hfiles

/-- The last client of a listener that was initialized got the locking phase. -/
theorem serveClients_inv {clients : ℕ} {phase : Phase} (hinit : slate.pubSlate.status = .initialized)
    (h : Steps (serveClients L B rand clients slate) t (.ret slate' phase)) :
    ∃ t₁ msg checksum t₂, t = t₁ ++ ⟨slate, .accept, .ok ()⟩ :: ⟨slate, .recv, .ok msg⟩ ::
        ⟨slate, .getSlateChecksum, .ok checksum⟩ :: ⟨slate, .send (.text "OK"), .ok ()⟩ :: t₂ ∧
      Steps (lockingPhase L B rand slate.offerer slate) t₂ (.ret slate' ()) := by
  induction clients generalizing t with
  | zero =>
    obtain ⟨a, t', -, h⟩ := steps_call_ret.mp h
    cases h
  | succ clients ih =>
    simp only [serveClients, Proc.bind_apply, steps_request_bind, steps_receiveMsg_bind,
      Outcome.expect_eq_ok] at h
    obtain ⟨_, _, _, rfl, rfl, msg, _, rfl, _, checksum, t', rfl, rfl, h⟩ := h
    split_ifs at h with heq
    · simp only [Proc.bind_apply, steps_sendMsg_bind, Proc.get_apply, Prog.bind_ret, serveClient, hinit,
        if_true] at h
      obtain ⟨t₂, rfl, h⟩ := h
      obtain ⟨t₃, t₄, s, a, rfl, h, hret⟩ := h.bind_ret_inv
      obtain ⟨t₅, t₆, s', a', rfl, hphase, hpure⟩ := h.bind_ret_inv
      obtain ⟨rfl, hpure⟩ := steps_ret.mp hpure
      cases hpure
      obtain ⟨rfl, hret⟩ := steps_ret.mp hret
      cases hret
      exact ⟨[], msg, checksum, t₅, by simp, hphase⟩
    · simp only [Proc.bind_apply, steps_sendMsg_bind] at h
      obtain ⟨t₂, rfl, h⟩ := h
      obtain ⟨t₁, msg', checksum', t₃, rfl, hphase⟩ := ih h
      exact ⟨_ :: _ :: _ :: _ :: t₁, msg', checksum', t₃, rfl, hphase⟩

theorem listenExecute_inv {clients : ℕ} {phase : Phase} (hinit : slate.pubSlate.status = .initialized)
    (h : Steps (listenExecute L B rand clients slate) t (.ret slate' phase)) :
    ∃ t₁ msg checksum t₂, t = t₁ ++ ⟨slate, .accept, .ok ()⟩ :: ⟨slate, .recv, .ok msg⟩ ::
        ⟨slate, .getSlateChecksum, .ok checksum⟩ :: ⟨slate, .send (.text "OK"), .ok ()⟩ :: t₂ ∧
      Steps (lockingPhase L B rand slate.offerer slate) t₂ (.ret slate' ()) := by
  simp only [listenExecute, Proc.bind_apply, Proc.get_apply, Prog.bind_ret, steps_lift_bind] at h
  obtain ⟨value, -, h⟩ := h
  split_ifs at h
  · cases h
  · simp only [Proc.bind_apply, steps_request_bind] at h
    obtain ⟨ans, u, t', -, rfl, h⟩ := h
    obtain ⟨t₁, msg, checksum, t₂, rfl, hphase⟩ := serveClients_inv hinit h
    exact ⟨_ :: t₁, msg, checksum, t₂, rfl, hphase⟩

/-- A taker that returns from `lock` connected, told its checksum and ran the locking phase. -/
theorem lockExecute_inv (h : Steps (lockExecute L B rand slate) t (.ret slate' ())) :
    ∃ checksum resp t₁, t = ⟨slate, .connect slate.pubSlate.peer.server slate.pubSlate.peer.port,
        .ok ()⟩ :: ⟨slate, .getSlateChecksum, .ok checksum⟩ :: ⟨slate, .send (.text checksum), .ok ()⟩ ::
        ⟨slate, .recv, .ok resp⟩ :: t₁ ∧
      Steps (lockingPhase L B rand slate.taker slate) t₁ (.ret slate' ()) := by
  obtain ⟨t₁, t₂, s, resp, rfl, hconnect, hrest⟩ := h.bind_ret_inv
  simp only [connectToPeer, Proc.bind_apply, Proc.get_apply, Prog.bind_ret, steps_request_bind,
    steps_sendMsg_bind, Outcome.expect_eq_ok] at hconnect
  obtain ⟨_, _, _, rfl, rfl, _, checksum, _, rfl, rfl, t', rfl, hconnect⟩ := hconnect
  obtain ⟨rfl, rfl⟩ := steps_receiveMsg hconnect
  simp only [Proc.bind_apply, Proc.get_apply, Prog.bind_ret] at hrest
  split_ifs at hrest
  · cases hrest
  · cases hrest
  · exact ⟨checksum, resp, t₂, rfl, hrest⟩

/-- The operations of a locking phase are on the open connection and on the nodes. -/
theorem lockingPhase_inPhase {role : Role}
    (h : Steps (lockingPhase L B rand role slate) t (.ret slate' ())) : ∀ e ∈ t, e.op.InPhase := by
  have hsat : (lockingPhase L B rand role slate).Sat (fun _ _ op => op.InPhase) (fun _ _ _ => True) [] := by
    cases role with
    | mw =>
      refine (lockingPhaseSwapMw_sat rand.lockMw slate []).mono ?_ fun _ _ _ _ => trivial
      intro past s op hop
      cases op with
      | send msg => trivial
      | pushTransaction tx => trivial
      | _ => exact hop
    | btc =>
      refine (lockingPhaseSwapBtc_sat rand.lockBtc slate []).mono ?_ fun _ _ _ _ => trivial
      intro past s op hop
      cases op with
      | send msg => trivial
      | getBlockHeight => trivial
      | _ => exact hop
  exact h.forall_op hsat

/-! ### Agreement -/

/-- The commands that come before the handshakes: accepting the swap and importing inputs. -/
def Command.Prepares : Command → Prop
  | .accept _ | .importBtc .. | .importGrin .. => True
  | _ => False

/-- Any commands on other swaps, and preparations of this one. -/
def prepares (swapid : ℕ) (_ : Directory) (command : Command) : Prop :=
  command.swapid = swapid → command.Prepares

section Agreement

variable {dir dir₁ : Directory} {runs : List (Command × Option Phase)} {pubSlate : SwapSlatePub}

/-- Preparations leave the public file as it is, byte by byte. -/
theorem Session.pubFile (hF : F.Lawful) (h : Session L B F settings (prepares swapid) dir runs dir₁)
    (hpub : (dir swapid).pub = some (F.pubToJson pubSlate)) :
    (dir₁ swapid).pub = some (F.pubToJson pubSlate) := by
  induction h with
  | start => exact hpub
  | @command runs dir₁ dir₂ command phase hruns hfresh hcond hstep ih =>
    obtain ⟨-, rfl⟩ | ⟨rand, slate, slate', hload, hfin, rfl⟩ := hstep.cases_files
    · exact ih
    · by_cases hid : command.swapid = swapid
      · subst hid
        have hstored : storedPub F (dir₁ command.swapid) = some slate.pubSlate := by
          obtain hstored | ⟨swapid, args, rfl, -⟩ := loadSlate_pub hload
          · exact hstored
          · exact (hcond rfl).elim
        rw [storedPub, ih, Option.bind_some, hF.pub_codec, Option.some.injEq] at hstored
        have hsame : slate'.pubSlate = slate.pubSlate := by
          obtain ⟨-, hsame⟩ | ⟨rfl, -⟩ | ⟨rfl, -⟩ | ⟨rfl, -⟩ := hfin.status
          · exact hsame
          all_goals
            have hprep := hcond rfl
            cases command with
            | init swapid args => exact hprep.elim
            | accept swapid => cases hfin.2
            | importBtc swapid txid vout value sk pubScript => cases hfin.1
            | importGrin swapid coin => cases hfin.1
            | listen swapid clients => exact hprep.elim
            | lock swapid => exact hprep.elim
            | execute swapid => exact hprep.elim
            | cancel swapid => exact hprep.elim
        rw [Function.update_self, SwapSlate.files, hsame, ← hstored]
      · rwa [Function.update_of_ne (Ne.symm hid)]

section

omit [CommRing K] [AddCommGroup P] [Module K P] [DecidableEq K] [DecidableEq P]

/-- The slate that a command reads has the public part of the file. -/
theorem readSlateFromDisk_pub (hF : F.Lawful) {files : SlateFiles}
    (hpub : files.pub = some (F.pubToJson pubSlate)) (h : readSlateFromDisk F files = .ok slate) :
    slate.pubSlate = pubSlate := by
  obtain ⟨hstored, -⟩ := readSlateFromDisk_eq_ok.mp h
  rw [storedPub, hpub, Option.bind_some, hF.pub_codec, Option.some.injEq] at hstored
  exact hstored.symm

/-- The last connection of a command that ran a phase after a handshake of three operations. -/
theorem lastConnection_handshake {t p : Trace K P (SwapSlate K P)}
    {e₁ e₂ e₃ e₄ : Event (SwapSlate K P) (@Op.Ans K P)} (h₁ : e₁.op.opens = true)
    (h₂ : e₂.op.opens = false) (h₃ : e₃.op.opens = false) (h₄ : e₄.op.opens = false)
    (hp : ∀ e ∈ p, e.op.InPhase) :
    lastConnection (t ++ e₁ :: e₂ :: e₃ :: e₄ :: (p ++ slate.writes)) =
      e₂ :: e₃ :: e₄ :: (p ++ slate.writes) := by
  apply lastConnection_eq h₁
  intro e he
  simp only [SwapSlate.writes, List.mem_cons, List.mem_append, List.not_mem_nil, or_false] at he
  rcases he with rfl | rfl | rfl | he | rfl | rfl | rfl | rfl
  · exact h₂
  · exact h₃
  · exact h₄
  · exact opens_of_inPhase (hp e he)
  all_goals rfl

theorem lastConnection_first {p : Trace K P (SwapSlate K P)}
    {e₁ e₂ e₃ e₄ : Event (SwapSlate K P) (@Op.Ans K P)} (h₁ : e₁.op.opens = true)
    (h₂ : e₂.op.opens = false) (h₃ : e₃.op.opens = false) (h₄ : e₄.op.opens = false)
    (hp : ∀ e ∈ p, e.op.InPhase) :
    lastConnection (e₁ :: e₂ :: e₃ :: e₄ :: (p ++ slate.writes)) =
      e₂ :: e₃ :: e₄ :: (p ++ slate.writes) :=
  lastConnection_handshake (t := []) h₁ h₂ h₃ h₄ hp

end

/-- The locking phases of a lock handshake in which both commands return. -/
theorem lock_phases {randO randT : Rand K} {clients : ℕ} {phaseO phaseT : Option Phase}
    {slateO slateT slateO' slateT' : SwapSlate K P} {tO tT : Trace K P (SwapSlate K P)}
    {filesO filesT : SlateFiles} (hinit : slateO.pubSlate.status = .initialized)
    (hO : Steps (main L B randO (.listen swapid clients) slateO) tO (.ret slateO' phaseO))
    (htrueO : Truthful F filesO tO)
    (hT : Steps (main L B randT (.lock swapid) slateT) tT (.ret slateT' phaseT))
    (htrueT : Truthful F filesT tT) (hconn : Connected L (lastConnection tO) (lastConnection tT)) :
    ∃ pO pT, Steps (lockingPhase L B randO slateO.offerer slateO) pO (.ret slateO' ()) ∧
      Steps (lockingPhase L B randT slateT.taker slateT) pT (.ret slateT' ()) ∧ Connected L pO pT := by
  obtain ⟨tO, rfl, hrunO⟩ := main_inv hO htrueO
  obtain ⟨tT, rfl, hrunT⟩ := main_inv hT htrueT
  obtain ⟨uO, uO', s, served, rfl, hlisten, hret⟩ := hrunO.bind_ret_inv
  obtain ⟨rfl, hret⟩ := steps_ret.mp hret
  cases hret
  obtain ⟨uT, uT', s', _, rfl, hlock, hret⟩ := hrunT.bind_ret_inv
  obtain ⟨rfl, hret⟩ := steps_ret.mp hret
  cases hret
  obtain ⟨tO, msg, checksum, pO, rfl, hphaseO⟩ := listenExecute_inv hinit hlisten
  obtain ⟨checksum', resp, pT, rfl, hphaseT⟩ := lockExecute_inv hlock
  simp only [List.append_nil, List.append_assoc, List.cons_append] at hconn
  rw [lastConnection_handshake rfl rfl rfl rfl (lockingPhase_inPhase hphaseO)] at hconn
  rw [lastConnection_first rfl rfl rfl rfl (lockingPhase_inPhase hphaseT)] at hconn
  refine ⟨pO, pT, hphaseO, hphaseT, ?_⟩
  simp only [Connected, received_cons, received_append, sent_cons, sent_append, received?, sent?,
    Msg.render, Option.toList_some, Option.toList_none, List.nil_append, List.cons_append,
    received_writes, sent_writes, List.append_nil, List.cons.injEq] at hconn
  exact ⟨hconn.1.2, hconn.2.2⟩

/-- The two commands of a lock handshake, when both return. -/
theorem lock_agree {randO randT : Rand K} {clients : ℕ} {phaseO phaseT : Option Phase}
    {slateO slateT slateO' slateT' : SwapSlate K P} {tO tT : Trace K P (SwapSlate K P)}
    {filesO filesT : SlateFiles} (hrandO : randO.Readable B) (hrandT : randT.Readable B)
    (hinit : slateO.pubSlate.status = .initialized) (hpub : slateT.pubSlate = slateO.pubSlate)
    (hO : Steps (main L B randO (.listen swapid clients) slateO) tO (.ret slateO' phaseO))
    (htrueO : Truthful F filesO tO)
    (hT : Steps (main L B randT (.lock swapid) slateT) tT (.ret slateT' phaseT))
    (htrueT : Truthful F filesT tT) (hconn : Connected L (lastConnection tO) (lastConnection tT)) :
    slateO'.pubSlate = slateT'.pubSlate ∧ SetUp slateO'.pubSlate := by
  obtain ⟨pO, pT, hphaseO, hphaseT, hphases⟩ := lock_phases hinit hO htrueO hT htrueT hconn
  have htaker : slateT.taker = slateO.offerer.other := by
    rw [← taker_eq, SwapSlate.taker, SwapSlate.taker, hpub]
  rw [htaker] at hphaseT
  cases hrole : slateO.offerer with
  | mw =>
    rw [hrole] at hphaseO hphaseT
    exact lockingPhase_agree hrandO hrandT hpub hphaseO hphaseT hphases
  | btc =>
    rw [hrole] at hphaseO hphaseT
    obtain ⟨hsame, hsetup⟩ :=
      lockingPhase_agree hrandT hrandO hpub.symm hphaseT hphaseO ⟨hphases.2, hphases.1⟩
    exact ⟨hsame.symm, hsame ▸ hsetup⟩

/-- Agreement of the handshakes.  From a public file of `init` on both sides, whatever is accepted and
imported, and one locking phase over a connection in which both commands return: the public files are
the same bytes at the handshake of `lock`, and after it until the next handshake, with the keys and the
lock times of both parties. -/
theorem handshake_agreement (hF : F.Lawful) {randO randT : Rand K} (hrandO : randO.Readable B)
    (hrandT : randT.Readable B) {args : Init} {offered : Settings} {offer : SwapSlate K P}
    (hinit : args.execute offered = .ok offer) {settingsO settingsT : Settings}
    {dirO dirO₁ dirT dirT₁ : Directory} {runsO runsT : List (Command × Option Phase)}
    (hfileO : (dirO swapid).pub = some (F.pubToJson offer.pubSlate))
    (hfileT : (dirT swapid).pub = some (F.pubToJson offer.pubSlate))
    (hprepO : Session L B F settingsO (prepares swapid) dirO runsO dirO₁)
    (hprepT : Session L B F settingsT (prepares swapid) dirT runsT dirT₁)
    {clients : ℕ} {phaseO phaseT : Option Phase} {slateO slateT slateO' slateT' : SwapSlate K P}
    {tO tT : Trace K P (SwapSlate K P)}
    (hloadO : (Command.listen swapid clients).loadSlate F settingsO (dirO₁ swapid) = .ok slateO)
    (hO : Steps (main L B randO (.listen swapid clients) slateO) tO (.ret slateO' phaseO))
    (htrueO : Truthful F (dirO₁ swapid) tO)
    (hloadT : (Command.lock swapid).loadSlate F settingsT (dirT₁ swapid) = .ok slateT)
    (hT : Steps (main L B randT (.lock swapid) slateT) tT (.ret slateT' phaseT))
    (htrueT : Truthful F (dirT₁ swapid) tT)
    (hconn : Connected L (lastConnection tO) (lastConnection tT)) :
    ((dirO₁ swapid).pub = (dirT₁ swapid).pub ∧
      getSlateChecksum F (dirO₁ swapid) = getSlateChecksum F (dirT₁ swapid)) ∧
    ∀ runsO' runsT' dirO₂ dirT₂,
      Session L B F settingsO (prepares swapid)
        (Function.update dirO₁ swapid ((dirO₁ swapid).after F tO)) runsO' dirO₂ →
      Session L B F settingsT (prepares swapid)
        (Function.update dirT₁ swapid ((dirT₁ swapid).after F tT)) runsT' dirT₂ →
      (dirO₂ swapid).pub = (dirT₂ swapid).pub ∧
        getSlateChecksum F (dirO₂ swapid) = getSlateChecksum F (dirT₂ swapid) ∧
        ∃ pub, storedPub F (dirO₂ swapid) = some pub ∧ storedPub F (dirT₂ swapid) = some pub ∧
          SetUp pub := by
  have hpubO := hprepO.pubFile hF hfileO
  have hpubT := hprepT.pubFile hF hfileT
  simp only [Command.loadSlate, Outcome.expect_eq_ok] at hloadO hloadT
  have hslateO := readSlateFromDisk_pub hF hpubO hloadO
  have hslateT := readSlateFromDisk_pub hF hpubT hloadT
  have hsum : ∀ {files files' : SlateFiles}, files.pub = files'.pub →
      getSlateChecksum F files = getSlateChecksum F files' := by
    intro files files' h
    rw [getSlateChecksum, getSlateChecksum, h]
  have hsame : (dirO₁ swapid).pub = (dirT₁ swapid).pub := by rw [hpubO, hpubT]
  refine ⟨⟨hsame, hsum hsame⟩, ?_⟩
  intro runsO' runsT' dirO₂ dirT₂ hafterO hafterT
  obtain ⟨hagree, hsetup⟩ := lock_agree hrandO hrandT
    (by rw [hslateO, Init.execute_status hinit]) (by rw [hslateO, hslateT]) hO htrueO hT htrueT hconn
  have hO₂ := hafterO.pubFile hF (by rw [Function.update_self]; rw [main_written hO htrueO]; rfl)
  have hT₂ := hafterT.pubFile hF (by rw [Function.update_self]; rw [main_written hT htrueT]; rfl)
  rw [← hagree] at hT₂
  have hsame₂ : (dirO₂ swapid).pub = (dirT₂ swapid).pub := by rw [hO₂, hT₂]
  refine ⟨hsame₂, hsum hsame₂, slateO'.pubSlate, ?_, ?_, hsetup⟩
  · rw [storedPub, hO₂, Option.bind_some, hF.pub_codec]
  · rw [storedPub, hT₂, Option.bind_some, hF.pub_codec]

end Agreement

/-! ### Honest handshakes -/

omit [CommRing K] [AddCommGroup P] [Module K P] [DecidableEq K] [DecidableEq P] in
theorem truthful_of_inPhase {files : SlateFiles} {t : Trace K P (SwapSlate K P)}
    (h : ∀ e ∈ t, e.op.InPhase) : Truthful F files t := by
  induction t generalizing files with
  | nil => trivial
  | cons e t ih =>
    refine ⟨?_, ih fun e' he' => h e' (List.mem_cons_of_mem e he')⟩
    obtain ⟨s, op, ans⟩ := e
    have hop := h _ List.mem_cons_self
    cases op with
    | getSlateChecksum => exact hop.elim
    | createSlateFile isPublic => exact hop.elim
    | writeSlateFile isPublic => exact hop.elim
    | _ => trivial

/-- `main` writes what the command returned. -/
theorem main_steps {command : Command} {phase : Option Phase}
    (h : Steps (command.run L B rand slate) t (.ret slate' phase)) :
    Steps (main L B rand command slate) (t ++ slate'.writes) (.ret slate' phase) :=
  h.bind (steps_writes slate')

theorem eqIgnoreAsciiCase_self (a : String) : eqIgnoreAsciiCase a a = true := decide_eq_true rfl

/-- The listener serves a first client with the same checksum. -/
theorem listenExecute_steps (checksum : String) {value : ℕ} {served : Phase}
    (hvalue : (offeredValue L slate).1 = .ok value)
    (henough : slate.pubSlate.status = .setup ∨ (offeredValue L slate).2 ≤ value)
    (hserve : Steps (serveClient L B rand slate slate) t (.ret slate' (some served))) :
    Steps (listenExecute L B rand 1 slate) (⟨slate, .bind, .ok ()⟩ ::
      ⟨slate, .accept, .ok ()⟩ :: ⟨slate, .recv, .ok checksum⟩ ::
      ⟨slate, .getSlateChecksum, .ok checksum⟩ :: ⟨slate, .send (.text "OK"), .ok ()⟩ :: t)
      (.ret slate' served) := by
  have hnot : ¬ (slate.pubSlate.status ≠ .setup ∧ value < (offeredValue L slate).2) := by
    rintro ⟨hsetup, hlt⟩
    exact henough.elim hsetup hlt.not_ge
  have hreaches : (listenExecute L B rand 1 slate).Reaches fun u q => u = (⟨slate, .bind, .ok ()⟩ ::
      ⟨slate, .accept, .ok ()⟩ :: ⟨slate, .recv, .ok checksum⟩ ::
      ⟨slate, .getSlateChecksum, .ok checksum⟩ :: ⟨slate, .send (.text "OK"), .ok ()⟩ :: t) ∧
      q = (.ret slate' served) := by
    refine Prog.reaches_get_bind ?_
    refine Prog.reaches_lift_bind hvalue ?_
    rw [if_neg hnot]
    refine Prog.reaches_request_bind (.ok ()) rfl ?_
    refine Prog.reaches_request_bind (.ok ()) rfl ?_
    refine reaches_receiveMsg_bind checksum ?_
    refine Prog.reaches_request_bind (.ok checksum) rfl ?_
    rw [if_pos (eqIgnoreAsciiCase_self checksum)]
    refine reaches_sendMsg_bind ?_
    refine Prog.reaches_get_bind ?_
    refine Prog.reaches_bind hserve ?_
    refine Prog.reaches_here ⟨?_, rfl⟩
    rw [List.append_nil]
  obtain ⟨u, q, hsteps, rfl, rfl⟩ := hreaches
  exact hsteps

theorem serveClient_locking (hinit : slate.pubSlate.status = .initialized)
    (h : Steps (lockingPhase L B rand slate.offerer slate) t (.ret slate' ())) :
    Steps (serveClient L B rand slate slate) t (.ret slate' (some .locking)) := by
  rw [serveClient, if_pos hinit]
  exact h.bind_pure

theorem serveClient_refund (hsetup : slate.pubSlate.status = .setup)
    (h : Steps (refundPhase B rand slate.offerer slate) t (.ret slate' ())) :
    Steps (serveClient L B rand slate slate) (⟨slate, .recv, .ok "CANCEL"⟩ :: t)
      (.ret slate' (some .refund)) := by
  rw [serveClient, if_neg (by simp [hsetup]), if_pos hsetup]
  exact .step h.bind_pure

omit [CommRing K] [AddCommGroup P] [Module K P] [DecidableEq K] [DecidableEq P] in
/-- The start of a command of the taker, with a peer that answers. -/
theorem connectToPeer_steps {checksum resp : String} :
    Steps (connectToPeer slate : Program K P (SwapSlate K P) String)
      [⟨slate, .connect slate.pubSlate.peer.server slate.pubSlate.peer.port, .ok ()⟩,
        ⟨slate, .getSlateChecksum, .ok checksum⟩, ⟨slate, .send (.text checksum), .ok ()⟩,
        ⟨slate, .recv, .ok resp⟩] (.ret slate resp) :=
  .step (.step (.step (.step (.refl _))))

/-- The taker locks with a peer that found the same checksum. -/
theorem lockExecute_steps {q : Program K P (SwapSlate K P) Unit} (checksum : String)
    (hinit : slate.pubSlate.status = .initialized)
    (h : Steps (lockingPhase L B rand slate.taker slate) t q) :
    Steps (lockExecute L B rand slate)
      ([⟨slate, .connect slate.pubSlate.peer.server slate.pubSlate.peer.port, .ok ()⟩,
        ⟨slate, .getSlateChecksum, .ok checksum⟩, ⟨slate, .send (.text checksum), .ok ()⟩,
        ⟨slate, .recv, .ok "OK"⟩] ++ t) q := by
  refine connectToPeer_steps.bind ?_
  rw [Proc.bind_apply, Proc.get_apply, Prog.bind_ret, if_neg (by decide), if_neg (not_not.mpr hinit)]
  exact h

/-- A lock handshake of two honest parties over one connection. -/
theorem lock_handshake {randO randT : Rand K} {slateO slateT slateO' slateT' : SwapSlate K P}
    {pO pT : Trace K P (SwapSlate K P)} {value : ℕ} (hpub : slateT.pubSlate = slateO.pubSlate)
    (hinit : slateO.pubSlate.status = .initialized) (hvalue : (offeredValue L slateO).1 = .ok value)
    (henough : (offeredValue L slateO).2 ≤ value)
    (hO : Steps (lockingPhase L B randO slateO.offerer slateO) pO (.ret slateO' ()))
    (hT : Steps (lockingPhase L B randT slateT.taker slateT) pT (.ret slateT' ()))
    (hconn : Connected L pO pT) (F : FileLib K P) (swapid : ℕ) :
    ∃ tO tT, Steps (main L B randO (.listen swapid 1) slateO) tO (.ret slateO' (some .locking)) ∧
      Truthful F (slateO.files F) tO ∧
      Steps (main L B randT (.lock swapid) slateT) tT (.ret slateT' (some .locking)) ∧
      Truthful F (slateT.files F) tT ∧ Connected L (lastConnection tO) (lastConnection tT) := by
  have hchecksum : slateT.files F =
      ⟨some (F.pubToJson slateO.pubSlate), some (F.prvToJson slateT.prvSlate)⟩ := by
    rw [SwapSlate.files, hpub]
  have hrunO : Steps ((Command.listen swapid 1).run L B randO slateO) _ (.ret slateO' (some .locking)) :=
    (listenExecute_steps (F.sha256 (F.pubToJson slateO.pubSlate)) hvalue (.inr henough)
      (serveClient_locking hinit hO)).bind_pure
  have hrunT : Steps ((Command.lock swapid).run L B randT slateT) _ (.ret slateT' (some .locking)) :=
    (lockExecute_steps (F.sha256 (F.pubToJson slateO.pubSlate)) (hpub ▸ hinit) hT).bind_pure
  have hpO := lockingPhase_inPhase hO
  have hpT := lockingPhase_inPhase hT
  refine ⟨_, _, main_steps hrunO, ?_, main_steps hrunT, ?_, ?_⟩
  · exact truthful_append.mpr ⟨⟨trivial, trivial, trivial, rfl, trivial, truthful_of_inPhase hpO⟩,
      truthful_writes⟩
  · rw [hchecksum]
    exact truthful_append.mpr ⟨⟨trivial, rfl, trivial, trivial, truthful_of_inPhase hpT⟩,
      truthful_writes⟩
  · -- the connection of the listener is not its first operation
    have hlastO : lastConnection ([⟨slateO, .bind, .ok ()⟩] ++ ⟨slateO, .accept, .ok ()⟩ ::
        ⟨slateO, .recv, .ok (F.sha256 (F.pubToJson slateO.pubSlate))⟩ ::
        ⟨slateO, .getSlateChecksum, .ok (F.sha256 (F.pubToJson slateO.pubSlate))⟩ ::
        ⟨slateO, .send (.text "OK"), .ok ()⟩ :: (pO ++ slateO'.writes)) = _ :=
      lastConnection_handshake rfl rfl rfl rfl hpO
    simp only [List.cons_append, List.nil_append] at hlastO ⊢
    rw [hlastO, lastConnection_first rfl rfl rfl rfl hpT]
    simp only [Connected, received_cons, received_append, sent_cons, sent_append, received?, sent?,
      Msg.render, Option.toList_some, Option.toList_none, List.nil_append, List.cons_append,
      received_writes, sent_writes, List.append_nil, hconn.1, hconn.2, and_self]

/-! ### A sample of the locking phase -/

/-- A directory that has only the swap with the id 1. -/
def sampleDirectory (slate : SwapSlate Scalar Scalar) : Directory :=
  Function.update emptyDirectory 1 (slate.files fileExponents)

theorem sampleDirectory_self (slate : SwapSlate Scalar Scalar) :
    sampleDirectory slate 1 = slate.files fileExponents := Function.update_self 1 _ _

theorem sampleDirectory_read (slate : SwapSlate Scalar Scalar) :
    readSlateFromDisk fileExponents (sampleDirectory slate 1) = .ok slate := by
  rw [sampleDirectory_self]
  exact readSlateFromDisk_files fileExponents_lawful

theorem sampleDirectory_status (slate : SwapSlate Scalar Scalar) :
    storedStatus fileExponents (sampleDirectory slate 1) = some slate.pubSlate.status := by
  rw [sampleDirectory_self, storedStatus, storedPub_files fileExponents_lawful, Option.map_some]

theorem sampleDirectory_update (slate slate' : SwapSlate Scalar Scalar) :
    Function.update (sampleDirectory slate) 1 (slate'.files fileExponents) = sampleDirectory slate' :=
  Function.update_idem _ _ _

/-- The offerer of the sample, with an imported coin. -/
def sampleFunded : SwapSlate Scalar Scalar :=
  { sampleSlate with prvSlate.mw.inputs := [sampleCoin] }

/-- An output of 200000 satoshis to the key 4. -/
def sampleBtcInput : BTCInput :=
  BTCInput.new2 (btcExponents []) sampleTxid.toText 0 200000 (createPrivateKey 4)
    ((btcExponents []).publicKey (createPrivateKey 4))
    (getP2pkhPubScript (btcExponents []) ((btcExponents []).publicKey (createPrivateKey 4)))

/-- The taker of the sample, with this output. -/
def sampleTaker : SwapSlate Scalar Scalar :=
  { sampleSlate with prvSlate.btc.inputs := [sampleBtcInput] }

/-- The command that imports it. -/
def sampleImport : Command :=
  .importBtc 1 sampleBtcInput.txid sampleBtcInput.vout sampleBtcInput.value sampleBtcInput.secret
    sampleBtcInput.pubScript

theorem session_taker {C : Directory → Command → Prop} (hC : C (sampleDirectory sampleSlate) sampleImport) :
    Session exponents (btcExponents []) fileExponents sampleSettings C (sampleDirectory sampleSlate)
      [(sampleImport, none)] (sampleDirectory sampleTaker) := by
  have hload : sampleImport.loadSlate fileExponents sampleSettings (sampleDirectory sampleSlate 1) =
      .ok sampleSlate := by
    simp only [sampleImport, Command.loadSlate, sampleDirectory_read, Outcome.expect_ok]
  have hrun : Steps (sampleImport.run exponents (btcExponents []) sampleRand sampleSlate)
      [] (.ret sampleTaker none) := by
    simp only [sampleImport, Command.run, importBtcExecute]
    exact .refl _
  have hstep := commandStep_of_run hload hrun trivial
  rw [show sampleImport.swapid = 1 from rfl, sampleDirectory_update] at hstep
  exact .command .start trivial hC hstep

theorem sample_refundKeys (timelock : ℕ) :
    SharedInpKeys exponents sampleRand.lockBtc.spend 25 sampleRecv 1012500000 31 21 1000000000 timelock
      ⟨12500000⟩ where
  fee := by decide
  output := by decide
  signable := ⟨by decide, by decide, by decide, by decide⟩
  body := by
    simp only [Plan.tx, exponents_bodyOk, sharedPlan, spendPlan, List.length_singleton]
    decide +kernel

/-- A locking phase at the heights 700000 and 1500000, with some inputs of the Grin owner. -/
theorem sample_fundable {mw : SwapSlate Scalar Scalar} {coins : List (Input × Scalar)} {value : ℕ}
    (hpub : mw.pubSlate = sampleSlate.pubSlate)
    (hfund : Funding exponents mw.prvSlate.mw.inputs coins 1012500000
      (exponents.txFee mw.prvSlate.mw.inputs.length 2 1) value)
    (hkeys : SharedOutKeys exponents sampleSpend sampleShareA sampleShareB coins
      mw.prvSlate.mw.inputs.length 1012500000 0 value ⟨23000000⟩) :
    ∃ lock, Fundable exponents (btcExponents []) mw sampleTaker sampleRand.lockMw sampleRand.lockBtc
      ⟨700000, 1500000, coins, value, ⟨23000000⟩, ⟨12500000⟩, lock⟩ := by
  obtain ⟨lock, hlock⟩ : ∃ lock, signedLockTransaction (btcExponents [])
      ((btcExponents []).publicKey (createPrivateKey 3))
      ((btcExponents []).publicKey (createPrivateKey 5))
      ((btcExponents []).publicKey (createPrivateKey 7))
      ((btcExponents []).publicKey (createPrivateKey 9)) [sampleBtcInput] 100000 700040 = .ok lock :=
    Outcome.exists_ok (by decide +kernel)
  refine ⟨lock, by rw [hpub]; rfl, by decide +kernel, by decide +kernel, by decide +kernel, ?_, ?_, ?_,
    ?_, ?_, ?_, ?_, ?_⟩
  · rw [hpub]
    show 700000 + 40 < 2 ^ 63
    decide
  · rw [hpub]
    show 1500000 + 400 < 2 ^ 63
    decide
  · rw [hpub]
    exact hlock
  · rw [hpub]
    decide
  · rw [hpub]
    exact hfund
  · rw [hpub]
    exact hkeys
  · rw [hpub]
    exact sample_spendsAll
  · rw [hpub]
    exact sample_refundKeys 1500400

/-- That locking phase with the sample coin. -/
def samplePlan (lock : SignedLock) : LockPlan Scalar :=
  ⟨700000, 1500000, [sampleOpening], 964500000, ⟨23000000⟩, ⟨12500000⟩, lock⟩

theorem sample_lockable :
    ∃ lock, Lockable exponents (btcExponents []) sampleFunded sampleTaker sampleRand.lockMw
      sampleRand.lockBtc (samplePlan lock) := by
  obtain ⟨lock, h⟩ := @sample_fundable sampleFunded _ _ rfl sample_funding (sample_sharedOutKeys 0)
  refine ⟨lock, h, ?_⟩
  show 0 < 964500000
  decide

/-- The slate of the offerer after it. -/
def sampleOffererSetup (lock : SignedLock) (shared : DSharedOutMwTxResult Scalar Scalar)
    (refund : DBuildMWTxResult Scalar Scalar) : SwapSlate Scalar Scalar :=
  ((samplePlan lock).verified (btcExponents []) sampleFunded sampleRand.lockMw
    sampleRand.lockBtc).fundedMw 1500400 shared refund

/-- The slate of the taker after it. -/
def sampleTakerSetup (lock : SignedLock) (shared : DSharedOutMwTxResult Scalar Scalar) :
    SwapSlate Scalar Scalar :=
  ((samplePlan lock).sent (btcExponents []) sampleTaker sampleRand.lockMw
    sampleRand.lockBtc).fundedBtc 1500400 shared

/-- The lock handshake of the sample. -/
theorem sample_handshake : ∃ tO tT lock sharedA sharedB refund,
    Steps (main exponents (btcExponents []) sampleRand (.listen 1 1) sampleFunded) tO
      (.ret (sampleOffererSetup lock sharedA refund) (some .locking)) ∧
    Truthful fileExponents (sampleFunded.files fileExponents) tO ∧
    Steps (main exponents (btcExponents []) sampleRand (.lock 1) sampleTaker) tT
      (.ret (sampleTakerSetup lock sharedB) (some .locking)) ∧
    Truthful fileExponents (sampleTaker.files fileExponents) tT ∧
    Connected exponents (lastConnection tO) (lastConnection tT) ∧
    SharedCoin exponents sharedA.sharedCoin sharedB.sharedCoin 1012500000 21 31 ∧
    sharedB.sharedCoin.value = 1012500000 ∧ refund.tx.tx.isSome := by
  obtain ⟨lock, hlockable⟩ := sample_lockable
  obtain ⟨pO, pT, sharedA, sharedB, refund, hO, hT, hconn, hcoin⟩ :=
    hlockable.runs exponents_lawful (btcExponents_lawful [])
  have hvalue : (offeredValue exponents sampleFunded).1 = .ok 2000000000 := by decide +kernel
  have henough : (offeredValue exponents sampleFunded).2 ≤ 2000000000 := by decide +kernel
  have hpub : sampleTaker.pubSlate = sampleFunded.pubSlate := rfl
  have hO : Steps (lockingPhase exponents (btcExponents []) sampleRand sampleFunded.offerer sampleFunded)
      pO (.ret (sampleOffererSetup lock sharedA refund) ()) := hO
  have hT : Steps (lockingPhase exponents (btcExponents []) sampleRand sampleTaker.taker sampleTaker)
      pT (.ret (sampleTakerSetup lock sharedB) ()) := hT
  obtain ⟨tO, tT, hO, htrueO, hT, htrueT, hconn⟩ :=
    lock_handshake hpub rfl hvalue henough hO hT hconn fileExponents 1
  exact ⟨tO, tT, lock, sharedA, sharedB, refund, hO, htrueO, hT, htrueT, hconn, hcoin⟩

theorem sample_readable : sampleRand.Readable (btcExponents []) :=
  ⟨by unfold RoundTrips; decide +kernel, by unfold RoundTrips; decide +kernel,
    by unfold RoundTrips; decide +kernel⟩

theorem handshake_agreement_sample : ∃ tO tT slateO slateT pub,
    Steps (main exponents (btcExponents []) sampleRand (.listen 1 1) sampleFunded) tO
      (.ret slateO (some .locking)) ∧
    Steps (main exponents (btcExponents []) sampleRand (.lock 1) sampleTaker) tT
      (.ret slateT (some .locking)) ∧
    storedPub fileExponents ((sampleDirectory sampleFunded 1).after fileExponents tO) = some pub ∧
    storedPub fileExponents ((sampleDirectory sampleTaker 1).after fileExponents tT) = some pub ∧
    SetUp pub := by
  obtain ⟨tO, tT, lock, sharedA, sharedB, refund, hO, htrueO, hT, htrueT, hconn, -⟩ := sample_handshake
  have hinit : sampleInit.execute sampleSettings = .ok sampleSlate := rfl
  have hprep : Session exponents (btcExponents []) fileExponents sampleSettings (prepares 1)
      (sampleDirectory sampleSlate) ([] ++ [(.importGrin 1 sampleCoin, none)])
      (sampleDirectory sampleFunded) := by
    have hstep := commandStep_importGrin exponents (btcExponents []) sampleSettings sampleRand
      1 sampleCoin (sampleDirectory_read sampleSlate)
    rw [sampleDirectory_update] at hstep
    exact .command .start trivial (fun _ => trivial) hstep
  have hfileO : (sampleDirectory sampleSlate 1).pub =
      some (fileExponents.pubToJson sampleSlate.pubSlate) := by
    rw [sampleDirectory_self, SwapSlate.files]
  have hfileT : (sampleDirectory sampleTaker 1).pub =
      some (fileExponents.pubToJson sampleSlate.pubSlate) := by
    rw [sampleDirectory_self]
    rfl
  have hloadO : (Command.listen 1 1).loadSlate fileExponents sampleSettings
      (sampleDirectory sampleFunded 1) = .ok sampleFunded := by
    simp only [Command.loadSlate, sampleDirectory_read, Outcome.expect_ok]
  have hloadT : (Command.lock 1).loadSlate fileExponents sampleSettings
      (sampleDirectory sampleTaker 1) = .ok sampleTaker := by
    simp only [Command.loadSlate, sampleDirectory_read, Outcome.expect_ok]
  rw [← sampleDirectory_self] at htrueO htrueT
  obtain ⟨-, hafter⟩ := handshake_agreement fileExponents_lawful sample_readable sample_readable hinit
    hfileO hfileT hprep .start hloadO hO htrueO hloadT hT htrueT hconn
  obtain ⟨-, -, pub, hpubO, hpubT, hsetup⟩ := hafter _ _ _ _ .start .start
  rw [Function.update_self] at hpubO hpubT
  exact ⟨tO, tT, _, _, pub, hO, hT, hpubO, hpubT, hsetup⟩

end MwBtcSwap
