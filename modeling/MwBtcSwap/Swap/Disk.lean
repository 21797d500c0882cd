import MwBtcSwap.Grin.Exponents
import MwBtcSwap.Net
import MwBtcSwap.Swap.Types

/-! `slate.rs`: the two files of a swap.  A file is its text; `serde_json` and `sha2` are the fields of
`FileLib`.  The operations of a run on the files are events of its trace, and `SlateFiles.after` is what
they leave. -/

namespace MwBtcSwap

open Interaction

variable {K P : Type}

/-- The functions of the crates that `slate.rs` calls. -/
structure FileLib (K P : Type) where
  /-- `serde_json::to_string_pretty` of the public part. -/
  pubToJson : SwapSlatePub → String
  pubFromJson : String → Option SwapSlatePub
  /-- `serde_json::to_string_pretty` of the private part. -/
  prvToJson : SwapSlatePriv K P → String
  prvFromJson : String → Option (SwapSlatePriv K P)
  /-- The hexadecimal text of `Sha256` of a text. -/
  sha256 : String → String

/-- A slate is read back as it was written. -/
structure FileLib.Lawful (F : FileLib K P) : Prop where
  pub_codec : ∀ slate, F.pubFromJson (F.pubToJson slate) = some slate
  prv_codec : ∀ slate, F.prvFromJson (F.prvToJson slate) = some slate

/-- The files of a swap in the slate directory, those that exist. -/
structure SlateFiles where
  pub : Option String
  prv : Option String
  deriving DecidableEq

/-- The slate directory, by the ids of the swaps. -/
abbrev Directory := ℕ → SlateFiles

variable (F : FileLib K P)

/-- `read_slate_from_disk` -/
def readSlateFromDisk (files : SlateFiles) : Outcome (SwapSlate K P) :=
  match files.prv, files.pub with
  | some prvContents, some pubContents => do
    let pubSlate ← Outcome.unwrap unwrapErr (F.pubFromJson pubContents)
    let prvSlate ← Outcome.unwrap unwrapErr (F.prvFromJson prvContents)
    return ⟨pubSlate, prvSlate⟩
  | _, _ => .error (.err "Unable to read slate files, as the files don't exist")

/-- `get_slate_checksum` -/
def getSlateChecksum (files : SlateFiles) : Outcome String :=
  match files.pub with
  | some pubContents => .ok (F.sha256 pubContents)
  | none => .error (.err "Unable to read slate files, as the files don't exist")

/-- The private part of a new slate. -/
def SwapSlatePriv.blank : SwapSlatePriv K P where
  mw := ⟨[], none, none, none, none, none⟩
  btc := ⟨[], none, none, none, none, none, none, none⟩

/-- The slate of `create_priv_from_pub`, which is also written to the private file. -/
def createPrivFromPub (files : SlateFiles) : Outcome (SwapSlate K P) :=
  match files.pub with
  | some pubContents => do
    let pubSlate ← Outcome.unwrap unwrapErr (F.pubFromJson pubContents)
    return ⟨pubSlate, .blank⟩
  | none => .error (.err "Unable to create private slate file, as the public file doesn't exist")

/-- `write_slate_to_disk`: the files that are missing are created, also one that is not written. -/
def writeSlateToDisk (wrtPriv wrtPub : Bool) : Process K P (SwapSlate K P) Unit := do
  Proc.request (.createSlateFile false) (Outcome.expect "Unable to create private slate file")
  Proc.request (.createSlateFile true) (Outcome.expect "Unable to creat public slate file")
  if wrtPriv then
    Proc.request (.writeSlateFile false) (Outcome.expect "Unable to write private slate file")
  if wrtPub then
    Proc.request (.writeSlateFile true) (Outcome.expect "Unable to write public slate file")

/-! ### The files along a run -/

/-- The files after an operation: a file that is created is empty, and a write that succeeds replaces the
text of its file. -/
def SlateFiles.step (files : SlateFiles) : Event (SwapSlate K P) (@Op.Ans K P) → SlateFiles
  | ⟨_, .createSlateFile true, .ok _⟩ => { files with pub := some (files.pub.getD "") }
  | ⟨_, .createSlateFile false, .ok _⟩ => { files with prv := some (files.prv.getD "") }
  | ⟨slate, .writeSlateFile true, .ok _⟩ => { files with pub := some (F.pubToJson slate.pubSlate) }
  | ⟨slate, .writeSlateFile false, .ok _⟩ => { files with prv := some (F.prvToJson slate.prvSlate) }
  | _ => files

/-- The files after the operations of a run. -/
def SlateFiles.after (files : SlateFiles) (t : Trace K P (SwapSlate K P)) : SlateFiles :=
  t.foldl (SlateFiles.step F) files

/-- What a disk answers: the checksum of the public file that is there, and every file is created and
written. -/
def DiskAnswer (files : SlateFiles) : Event (SwapSlate K P) (@Op.Ans K P) → Prop
  | ⟨_, .getSlateChecksum, ans⟩ => ans = getSlateChecksum F files
  | ⟨_, .createSlateFile _, ans⟩ => ans = .ok ()
  | ⟨_, .writeSlateFile _, ans⟩ => ans = .ok ()
  | _ => True

/-- Every answer of a run about the files is right when it is given. -/
def Truthful : SlateFiles → Trace K P (SwapSlate K P) → Prop
  | _, [] => True
  | files, e :: t => DiskAnswer F files e ∧ Truthful (files.step F e) t

variable {F} {files : SlateFiles} {t u : Trace K P (SwapSlate K P)}

@[simp] theorem after_nil : files.after F [] = files := rfl

@[simp] theorem after_append : files.after F (t ++ u) = (files.after F t).after F u :=
  List.foldl_append

theorem truthful_append :
    Truthful F files (t ++ u) ↔ Truthful F files t ∧ Truthful F (files.after F t) u := by
  induction t generalizing files with
  | nil => simp [Truthful]
  | cons e t ih => simp [Truthful, ih, and_assoc, SlateFiles.after]

/-- The operations that leave the files as they are. -/
def Op.Reads : Op K P → Prop
  | .createSlateFile _ => False
  | .writeSlateFile _ => False
  | _ => True

theorem not_reads_create {isPublic : Bool} : ¬ (Op.createSlateFile isPublic : Op K P).Reads := fun h => h

theorem not_reads_write {isPublic : Bool} : ¬ (Op.writeSlateFile isPublic : Op K P).Reads := fun h => h

theorem step_of_reads {e : Event (SwapSlate K P) (@Op.Ans K P)} (h : e.op.Reads) :
    files.step F e = files := by
  match e, h with
  | ⟨_, .send _, _⟩, _ => rfl
  | ⟨_, .recv, _⟩, _ => rfl
  | ⟨_, .getBlockHeight, _⟩, _ => rfl
  | ⟨_, .pushTransaction _, _⟩, _ => rfl
  | ⟨_, .getCurrentBlockHeight, _⟩, _ => rfl
  | ⟨_, .importBtcAddress _, _⟩, _ => rfl
  | ⟨_, .getAddressFinalBalance _, _⟩, _ => rfl
  | ⟨_, .sendRawTransaction _, _⟩, _ => rfl
  | ⟨_, .sleep, _⟩, _ => rfl
  | ⟨_, .connect _ _, _⟩, _ => rfl
  | ⟨_, .bind, _⟩, _ => rfl
  | ⟨_, .accept, _⟩, _ => rfl
  | ⟨_, .getSlateChecksum, _⟩, _ => rfl

/-- A run that does not write leaves the files as they are. -/
theorem after_of_reads (h : ∀ e ∈ t, e.op.Reads) : files.after F t = files := by
  induction t generalizing files with
  | nil => rfl
  | cons e t ih =>
    rw [SlateFiles.after, List.foldl_cons, step_of_reads (h e List.mem_cons_self)]
    exact ih fun e' he' => h e' (List.mem_cons_of_mem e he')

/-- What `write_slate_to_disk` does when it writes both files. -/
def SwapSlate.writes (slate : SwapSlate K P) : Trace K P (SwapSlate K P) :=
  [⟨slate, .createSlateFile false, .ok ()⟩, ⟨slate, .createSlateFile true, .ok ()⟩,
    ⟨slate, .writeSlateFile false, .ok ()⟩, ⟨slate, .writeSlateFile true, .ok ()⟩]

theorem steps_writes {α : Type} {a : α} (slate : SwapSlate K P) :
    Steps ((writeSlateToDisk true true >>= fun _ => pure a) slate) slate.writes (.ret slate a) :=
  .step (.step (.step (.step (.refl _))))

theorem truthful_writes {slate : SwapSlate K P} : Truthful F files slate.writes :=
  ⟨rfl, rfl, rfl, rfl, trivial⟩

@[simp] theorem received_writes (slate : SwapSlate K P) : received slate.writes = [] := rfl

@[simp] theorem sent_writes (L : Grin.GrinLib K P) (slate : SwapSlate K P) : sent L slate.writes = [] :=
  rfl

/-! ### An instance -/

deriving instance Encodable for Grin.MWCoin, Grin.OutputFeatures, Grin.Input, Grin.Output,
  Grin.KernelFeatures, Grin.TxKernel, Grin.Transaction, Bitcoin.BTCInput, SwapStatus, SwapType, SwapMeta,
  MWPub, MWPriv, BTCPub, BTCPriv, SwapSlatePub, SwapSlatePriv

open Grin in
/-- Files by the encoding of their slates, and a checksum that is the text itself. -/
def fileExponents : FileLib Scalar Scalar where
  pubToJson := Exponents.toText
  pubFromJson := Exponents.ofText
  prvToJson := Exponents.toText
  prvFromJson := Exponents.ofText
  sha256 := id

theorem fileExponents_lawful : fileExponents.Lawful :=
  ⟨Grin.Exponents.ofText_toText, Grin.Exponents.ofText_toText⟩

end MwBtcSwap
