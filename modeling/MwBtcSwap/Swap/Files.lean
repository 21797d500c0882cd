import MwBtcSwap.Lib.Pretty
import MwBtcSwap.Swap.Sessions

/-! The texts of the slate files: the structures of `swap_types.rs` as `serde` writes and reads them.  The
JSON library and the codec that the Grin library has for a transaction are parameters. -/

namespace MwBtcSwap

open Interaction Machine Grin Bitcoin Json

variable {K P : Type}

/-! ### Enumerations -/

def SwapStatus.name : SwapStatus → String
  | initialized => "INITIALIZED"
  | setup => "SETUP"
  | executing => "EXECUTING"
  | finished => "FINISHED"
  | failed => "FAILED"

def SwapStatus.ofName : String → Option SwapStatus
  | "INITIALIZED" => some initialized
  | "SETUP" => some setup
  | "EXECUTING" => some executing
  | "FINISHED" => some finished
  | "FAILED" => some failed
  | _ => none

def SwapStatus.codec : Codec SwapStatus := .enum name ofName fun s => by cases s <;> rfl

def SwapType.name : SwapType → String
  | offered => "OFFERED"
  | requested => "REQUESTED"

def SwapType.ofName : String → Option SwapType
  | "OFFERED" => some offered
  | "REQUESTED" => some requested
  | _ => none

def SwapType.codec : Codec SwapType := .enum name ofName fun s => by cases s <;> rfl

/-! ### Structures -/

def MWCoin.fields : Fields MWCoin :=
  ((Fields.required "commitment" .string).and <|
    (Fields.required "blinding_factor" .string).and <|
    Fields.required "value" .u64).iso
  (fun c => (c.commitment, c.blindingFactor, c.value))
  (fun (commitment, blindingFactor, value) => { commitment, blindingFactor, value })
  (fun _ => rfl) fun _ h => h

def MWCoin.codec : Codec MWCoin := MWCoin.fields.codec (by decide)

def BTCInput.fields : Fields BTCInput :=
  ((Fields.required "txid" .string).and <|
    (Fields.required "vout" .u32).and <|
    (Fields.required "value" .u64).and <|
    (Fields.required "secret" .string).and <|
    (Fields.required "pub_key" .string).and <|
    Fields.required "pub_script" .string).iso
  (fun i => (i.txid, i.vout, i.value, i.secret, i.pubKey, i.pubScript))
  (fun (txid, vout, value, secret, pubKey, pubScript) => { txid, vout, value, secret, pubKey, pubScript })
  (fun _ => rfl) fun _ h => h

def BTCInput.codec : Codec BTCInput := BTCInput.fields.codec (by decide)

def SwapMeta.fields : Fields SwapMeta :=
  ((Fields.required "server" .string).and <| Fields.required "port" .string).iso
  (fun m => (m.server, m.port)) (fun (server, port) => { server, port }) (fun _ => rfl) fun _ h => h

def MWPub.fields : Fields MWPub :=
  ((Fields.required "amount" .u64).and <|
    (Fields.required "timelock" .u64).and <|
    (Fields.nullable "lock_time" .i64).and <|
    Fields.required "swap_type" SwapType.codec).iso
  (fun p => (p.amount, p.timelock, p.lockTime, p.swapType))
  (fun (amount, timelock, lockTime, swapType) => { amount, timelock, lockTime, swapType })
  (fun _ => rfl) fun _ h => h

def BTCPub.fields : Fields BTCPub :=
  ((Fields.required "amount" .u64).and <|
    (Fields.required "timelock" .u64).and <|
    (Fields.required "swap_type" SwapType.codec).and <|
    (Fields.nullable "lock_time" .i64).and <|
    (Fields.nullable "pub_a" .string).and <|
    (Fields.nullable "pub_b" .string).and <|
    Fields.nullable "pub_x" .string).iso
  (fun p => (p.amount, p.timelock, p.swapType, p.lockTime, p.pubA, p.pubB, p.pubX))
  (fun (amount, timelock, swapType, lockTime, pubA, pubB, pubX) =>
    { amount, timelock, swapType, lockTime, pubA, pubB, pubX })
  (fun _ => rfl) fun _ h => h

-- `partial_key` is never read, and is 0 in every slate that the program makes
def MWPriv.fields (tx : Codec (Grin.Transaction K P)) : Fields (MWPriv K P) :=
  ((Fields.required "inputs" (.list MWCoin.codec)).and <|
    (Fields.required "partial_key" .u64).and <|
    (Fields.nullable "shared_coin" MWCoin.codec).and <|
    (Fields.nullable "change_coin" MWCoin.codec).and <|
    (Fields.nullable "refund_coin" MWCoin.codec).and <|
    (Fields.nullable "swapped_coin" MWCoin.codec).and <|
    Fields.nullable "refund_tx" tx).iso
  (fun p => (p.inputs, 0, p.sharedCoin, p.changeCoin, p.refundCoin, p.swappedCoin, p.refundTx))
  (fun (inputs, _, sharedCoin, changeCoin, refundCoin, swappedCoin, refundTx) =>
    { inputs, sharedCoin, changeCoin, refundCoin, swappedCoin, refundTx })
  (fun _ => rfl) fun _ h => ⟨h.1, Nat.two_pow_pos 64, h.2.2⟩

theorem MWPriv.nodup_names (tx : Codec (Grin.Transaction K P)) : (MWPriv.fields tx).names.Nodup := by
  have hnames : (MWPriv.fields tx).names = ["inputs", "partial_key", "shared_coin", "change_coin",
    "refund_coin", "swapped_coin", "refund_tx"] := rfl
  rw [hnames]
  decide

-- `witness` is never read, too
def BTCPriv.fields : Fields BTCPriv :=
  ((Fields.required "inputs" (.list BTCInput.codec)).and <|
    (Fields.required "witness" .u64).and <|
    (Fields.nullable "sk" .string).and <|
    (Fields.nullable "x" .string).and <|
    (Fields.nullable "r_sk" .string).and <|
    (Fields.nullable "change" BTCInput.codec).and <|
    (Fields.nullable "swapped" BTCInput.codec).and <|
    (Fields.nullable "lock" BTCInput.codec).and <|
    Fields.nullable "refunded" BTCInput.codec).iso
  (fun p => (p.inputs, 0, p.sk, p.x, p.rSk, p.change, p.swapped, p.lock, p.refunded))
  (fun (inputs, _, sk, x, rSk, change, swapped, lock, refunded) =>
    { inputs, sk, x, rSk, change, swapped, lock, refunded })
  (fun _ => rfl) fun _ h => ⟨h.1, Nat.two_pow_pos 64, h.2.2⟩

def SwapSlatePub.fields : Fields SwapSlatePub :=
  ((Fields.required "status" SwapStatus.codec).and <|
    (Fields.required "mw" (MWPub.fields.codec (by decide))).and <|
    (Fields.required "btc" (BTCPub.fields.codec (by decide))).and <|
    Fields.required "meta" (SwapMeta.fields.codec (by decide))).iso
  (fun p => (p.status, p.mw, p.btc, p.peer)) (fun (status, mw, btc, peer) => { status, mw, btc, peer })
  (fun _ => rfl) fun _ h => h

def SwapSlatePub.codec : Codec SwapSlatePub := SwapSlatePub.fields.codec (by decide)

def SwapSlatePriv.fields (tx : Codec (Grin.Transaction K P)) : Fields (SwapSlatePriv K P) :=
  ((Fields.required "mw" ((MWPriv.fields tx).codec (MWPriv.nodup_names tx))).and <|
    Fields.required "btc" (BTCPriv.fields.codec (by decide))).iso
  (fun p => (p.mw, p.btc)) (fun (mw, btc) => { mw, btc }) (fun _ => rfl) fun _ h => h

theorem SwapSlatePriv.nodup_names (tx : Codec (Grin.Transaction K P)) :
    (SwapSlatePriv.fields tx).names.Nodup := by
  have hnames : (SwapSlatePriv.fields tx).names = ["mw", "btc"] := rfl
  rw [hnames]
  decide

def SwapSlatePriv.codec (tx : Codec (Grin.Transaction K P)) : Codec (SwapSlatePriv K P) :=
  (SwapSlatePriv.fields tx).codec (nodup_names tx)

/-- The files of the program. -/
def jsonFiles (J : JsonLib) (tx : Codec (Grin.Transaction K P)) (sha256 : String → String) : FileLib K P where
  pubToJson := SwapSlatePub.codec.toText J
  pubFromJson := SwapSlatePub.codec.ofText J
  prvToJson := (SwapSlatePriv.codec tx).toText J
  prvFromJson := (SwapSlatePriv.codec tx).ofText J
  sha256 := sha256

/-! ### Ranges -/

/-- A lock time is an `i64`. -/
def TimeInRange (time : Option ℤ) : Prop := ∀ t ∈ time, -2 ^ 63 ≤ t ∧ t < 2 ^ 63

/-- The numbers of a public part fit their types. -/
structure SwapSlatePub.InRange (p : SwapSlatePub) : Prop where
  mwAmount : p.mw.amount < 2 ^ 64
  mwTimelock : p.mw.timelock < 2 ^ 64
  mwLockTime : TimeInRange p.mw.lockTime
  btcAmount : p.btc.amount < 2 ^ 64
  btcTimelock : p.btc.timelock < 2 ^ 64
  btcLockTime : TimeInRange p.btc.lockTime

/-- The value of a coin is a `u64`. -/
def MWCoin.InRange (coin : MWCoin) : Prop := coin.value < 2 ^ 64

structure BTCInput.InRange (input : BTCInput) : Prop where
  vout : input.vout < 2 ^ 32
  value : input.value < 2 ^ 64

/-- The numbers of a private part fit their types, and its transaction can be written. -/
structure SwapSlatePriv.InRange (tx : Codec (Grin.Transaction K P)) (p : SwapSlatePriv K P) : Prop where
  mwInputs : ∀ coin ∈ p.mw.inputs, MWCoin.InRange coin
  sharedCoin : ∀ coin ∈ p.mw.sharedCoin, MWCoin.InRange coin
  changeCoin : ∀ coin ∈ p.mw.changeCoin, MWCoin.InRange coin
  refundCoin : ∀ coin ∈ p.mw.refundCoin, MWCoin.InRange coin
  swappedCoin : ∀ coin ∈ p.mw.swappedCoin, MWCoin.InRange coin
  refundTx : ∀ t ∈ p.mw.refundTx, tx.InRange t
  btcInputs : ∀ input ∈ p.btc.inputs, BTCInput.InRange input
  change : ∀ input ∈ p.btc.change, BTCInput.InRange input
  swapped : ∀ input ∈ p.btc.swapped, BTCInput.InRange input
  lock : ∀ input ∈ p.btc.lock, BTCInput.InRange input
  refunded : ∀ input ∈ p.btc.refunded, BTCInput.InRange input

structure SwapSlate.InRange (tx : Codec (Grin.Transaction K P)) (slate : SwapSlate K P) : Prop where
  pub : slate.pubSlate.InRange
  prv : slate.prvSlate.InRange tx

variable {J : JsonLib} {tx : Codec (Grin.Transaction K P)} {sha256 : String → String} {slate : SwapSlate K P}

theorem MWCoin.inRange_codec {coin : MWCoin} : MWCoin.codec.InRange coin ↔ MWCoin.InRange coin :=
  ⟨fun h => h.2.2, fun h => ⟨trivial, trivial, h⟩⟩

theorem BTCInput.inRange_codec {input : BTCInput} :
    BTCInput.codec.InRange input ↔ BTCInput.InRange input :=
  ⟨fun h => ⟨h.2.1, h.2.2.1⟩, fun h => ⟨trivial, h.vout, h.value, trivial, trivial, trivial⟩⟩

theorem SwapSlatePub.inRange_codec {p : SwapSlatePub} : SwapSlatePub.codec.InRange p ↔ p.InRange := by
  constructor
  · rintro ⟨-, ⟨hamount, htimelock, hlockTime, -⟩, ⟨hamount', htimelock', -, hlockTime', -⟩, -⟩
    exact ⟨hamount, htimelock, hlockTime, hamount', htimelock', hlockTime'⟩
  · intro h
    exact ⟨trivial, ⟨h.mwAmount, h.mwTimelock, h.mwLockTime, trivial⟩,
      ⟨h.btcAmount, h.btcTimelock, trivial, h.btcLockTime, fun _ _ => trivial, fun _ _ => trivial,
        fun _ _ => trivial⟩, trivial, trivial⟩

theorem SwapSlatePriv.inRange_codec {p : SwapSlatePriv K P} :
    (SwapSlatePriv.codec tx).InRange p ↔ p.InRange tx := by
  have hcoin : ∀ c : Option MWCoin, (∀ coin ∈ c, MWCoin.codec.InRange coin) ↔
      ∀ coin ∈ c, MWCoin.InRange coin := fun c => forall₂_congr fun _ _ => MWCoin.inRange_codec
  have hinput : ∀ i : Option BTCInput, (∀ input ∈ i, BTCInput.codec.InRange input) ↔
      ∀ input ∈ i, BTCInput.InRange input := fun i => forall₂_congr fun _ _ => BTCInput.inRange_codec
  constructor
  · rintro ⟨⟨hinputs, -, hshared, hchange, hrefund, hswapped, htx⟩,
      ⟨hinputs', -, -, -, -, hchange', hswapped', hlock, hrefunded⟩⟩
    exact ⟨fun c hc => MWCoin.inRange_codec.mp (hinputs c hc), (hcoin _).mp hshared,
      (hcoin _).mp hchange, (hcoin _).mp hrefund, (hcoin _).mp hswapped, htx,
      fun i hi => BTCInput.inRange_codec.mp (hinputs' i hi), (hinput _).mp hchange',
      (hinput _).mp hswapped', (hinput _).mp hlock, (hinput _).mp hrefunded⟩
  · intro h
    exact ⟨⟨fun c hc => MWCoin.inRange_codec.mpr (h.mwInputs c hc), Nat.two_pow_pos 64,
        (hcoin _).mpr h.sharedCoin, (hcoin _).mpr h.changeCoin, (hcoin _).mpr h.refundCoin,
        (hcoin _).mpr h.swappedCoin, h.refundTx⟩,
      ⟨fun i hi => BTCInput.inRange_codec.mpr (h.btcInputs i hi), Nat.two_pow_pos 64,
        fun _ _ => trivial, fun _ _ => trivial, fun _ _ => trivial, (hinput _).mpr h.change,
        (hinput _).mpr h.swapped, (hinput _).mpr h.lock, (hinput _).mpr h.refunded⟩⟩

/-! ### Reading what was written -/

/-- A transaction that is not too deep to be read inside a private part. -/
def Shallow (tx : Codec (Grin.Transaction K P)) : Prop := tx.depth + 2 ≤ recursionLimit

theorem SwapSlatePriv.depth_codec (htx : Shallow tx) : (SwapSlatePriv.codec tx).depth ≤ recursionLimit := by
  have hdepth : (SwapSlatePriv.codec tx).depth =
      max (max 2 (max 0 (max 1 (max 1 (max 1 (max 1 tx.depth))))) + 1) 3 + 1 := rfl
  rw [Shallow, recursionLimit] at htx
  rw [hdepth, recursionLimit]
  omega

theorem pubFromJson_inRange {text : String} {p : SwapSlatePub}
    (h : (jsonFiles J tx sha256).pubFromJson text = some p) : p.InRange :=
  SwapSlatePub.inRange_codec.mp (Codec.inRange_of_ofText h)

theorem prvFromJson_inRange {text : String} {p : SwapSlatePriv K P}
    (h : (jsonFiles J tx sha256).prvFromJson text = some p) : p.InRange tx :=
  SwapSlatePriv.inRange_codec.mp (Codec.inRange_of_ofText h)

theorem pubFromJson_pubToJson (hJ : J.Lawful) {p : SwapSlatePub} (h : p.InRange) :
    (jsonFiles J tx sha256).pubFromJson ((jsonFiles J tx sha256).pubToJson p) = some p := by
  dsimp only [jsonFiles]
  exact Codec.ofText_toText hJ (by decide) (SwapSlatePub.inRange_codec.mpr h)

theorem prvFromJson_prvToJson (hJ : J.Lawful) (htx : Shallow tx) {p : SwapSlatePriv K P} (h : p.InRange tx) :
    (jsonFiles J tx sha256).prvFromJson ((jsonFiles J tx sha256).prvToJson p) = some p := by
  dsimp only [jsonFiles]
  exact Codec.ofText_toText hJ (SwapSlatePriv.depth_codec htx) (SwapSlatePriv.inRange_codec.mpr h)

theorem readSlateFromDisk_inRange {files : SlateFiles}
    (h : readSlateFromDisk (jsonFiles J tx sha256) files = .ok slate) : slate.InRange tx := by
  obtain ⟨hpub, hprv⟩ := readSlateFromDisk_eq_ok.mp h
  obtain ⟨_, -, hpub⟩ := Option.bind_eq_some_iff.mp hpub
  obtain ⟨_, -, hprv⟩ := Option.bind_eq_some_iff.mp hprv
  exact ⟨pubFromJson_inRange hpub, prvFromJson_inRange hprv⟩

theorem readSlateFromDisk_jsonFiles (hJ : J.Lawful) (htx : Shallow tx) (h : slate.InRange tx) :
    readSlateFromDisk (jsonFiles J tx sha256) (slate.files (jsonFiles J tx sha256)) = .ok slate :=
  readSlateFromDisk_eq_ok.mpr ⟨pubFromJson_pubToJson hJ h.pub, prvFromJson_prvToJson hJ htx h.prv⟩

/-- The files have a slate in JSON, however the texts look. -/
def SlateFiles.Holds (J : JsonLib) (tx : Codec (Grin.Transaction K P)) (slate : SwapSlate K P)
    (files : SlateFiles) : Prop :=
  files.pub.bind J.fromStr = some (SwapSlatePub.codec.write slate.pubSlate) ∧
    files.prv.bind J.fromStr = some ((SwapSlatePriv.codec tx).write slate.prvSlate)

theorem readSlateFromDisk_holds (h : slate.InRange tx) {files : SlateFiles} (hfiles : files.Holds J tx slate) :
    readSlateFromDisk (jsonFiles J tx sha256) files = .ok slate := by
  obtain ⟨hpub, hprv⟩ := hfiles
  obtain ⟨pub, hpub, hpubText⟩ := Option.bind_eq_some_iff.mp hpub
  obtain ⟨prv, hprv, hprvText⟩ := Option.bind_eq_some_iff.mp hprv
  rw [readSlateFromDisk_eq_ok, storedPub, storedPrv, hpub, hprv]
  exact ⟨Codec.ofText_of_fromStr (SwapSlatePub.inRange_codec.mpr h.pub) hpubText,
    Codec.ofText_of_fromStr (SwapSlatePriv.inRange_codec.mpr h.prv) hprvText⟩

/-- The slates that can be read are those whose numbers fit their types.  These are read from the files
that `write_slate_to_disk` makes of them, and from all other files that have the same JSON. -/
theorem slate_round_trip (hJ : J.Lawful) (htx : Shallow tx) (sha256 : String → String)
    (slate : SwapSlate K P) :
    ((∃ files, readSlateFromDisk (jsonFiles J tx sha256) files = .ok slate) ↔ slate.InRange tx) ∧
      (readSlateFromDisk (jsonFiles J tx sha256) (slate.files (jsonFiles J tx sha256)) = .ok slate ↔
        slate.InRange tx) ∧
      (slate.InRange tx → ∀ files : SlateFiles, files.Holds J tx slate →
        readSlateFromDisk (jsonFiles J tx sha256) files = .ok slate) := by
  have hread : ∀ files, readSlateFromDisk (jsonFiles J tx sha256) files = .ok slate → slate.InRange tx :=
    fun _ => readSlateFromDisk_inRange
  refine ⟨⟨?_, fun h => ⟨_, readSlateFromDisk_jsonFiles hJ htx h⟩⟩,
    ⟨hread _, readSlateFromDisk_jsonFiles hJ htx⟩, fun h _ => readSlateFromDisk_holds h⟩
  rintro ⟨files, h⟩
  exact hread files h

def txExponents : Codec (Grin.Transaction Scalar Scalar) := Exponents.codec

theorem txExponents_shallow : Shallow txExponents := by
  rw [Shallow, recursionLimit]
  decide

/-- A slate with a coin, a negative lock time and a stored transaction. -/
def sampleStored : SwapSlate Scalar Scalar :=
  { sampleSlate with
    pubSlate.btc.lockTime := some (-1)
    prvSlate.mw.inputs := [⟨"08ab", "01", 1500000000⟩]
    prvSlate.mw.refundTx := some .empty }

theorem sampleStored_inRange : sampleStored.InRange txExponents where
  pub := by constructor <;> simp [sampleStored, sampleSlate, TimeInRange]
  prv := by
    constructor
    case refundTx => exact fun _ _ => trivial
    all_goals simp [sampleStored, sampleSlate, SwapSlatePriv.blank, MWCoin.InRange]

theorem slate_round_trip_sample :
    readSlateFromDisk (jsonFiles sampleLib txExponents id)
        (sampleStored.files (jsonFiles sampleLib txExponents id)) = .ok sampleStored ∧
      ¬ ∃ files, readSlateFromDisk (jsonFiles sampleLib txExponents id) files =
        .ok { sampleStored with pubSlate.mw.amount := 2 ^ 64 } := by
  have htrip (slate) := slate_round_trip sampleLib_lawful txExponents_shallow id slate
  refine ⟨(htrip _).2.1.mpr sampleStored_inRange, fun hread => ?_⟩
  have hamount := ((htrip _).1.mp hread).pub.mwAmount
  simp at hamount

end MwBtcSwap
