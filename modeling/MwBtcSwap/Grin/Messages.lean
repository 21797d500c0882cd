import MwBtcSwap.Grin.Exponents
import MwBtcSwap.Grin.Slate
import MwBtcSwap.Lib.Pretty
import MwBtcSwap.Tcp

/-! `v4.rs` and `ser.rs`: the JSON text of a slate.  A field with its default value is left out.  The
forms of keys, signatures, commitments and proofs are those of the crates, and parameters like the JSON
library. -/

namespace MwBtcSwap.Grin

open Schnorr Interaction Machine Json

variable {K P : Type} [CommRing K] [AddCommGroup P] [DecidableEq K]

/-! ### Fields that the swap does not read -/

structure VersionCompatInfoV4 where
  version : ℕ
  blockHeaderVersion : ℕ
  deriving DecidableEq, Repr

inductive SlateStateV4
  | unknown
  | standard1
  | standard2
  | standard3
  | invoice1
  | invoice2
  | invoice3
  deriving DecidableEq, Repr

/-- `PaymentInfoV4`, with the addresses and the signatures of another crate. -/
structure PaymentInfoV4 (A S : Type) where
  saddr : A
  raddr : A
  rsig : Option S

/-- The fields of `SlateV4` that are not in the model of it. -/
structure SlateHeaderV4 (U A S : Type) where
  ver : VersionCompatInfoV4
  id : U
  sta : SlateStateV4
  ttl : ℕ
  proof : Option (PaymentInfoV4 A S)

/-! ### `ser.rs` -/

/-- `u16::from_str_radix` for decimal digits. -/
def parseU16 (cs : List Char) : Option ℕ := (parseU64 (String.ofList cs)).filter fun n => n < 2 ^ 16

namespace VersionCompatInfoV4

/-- `version_info_v4::serialize` -/
def text (v : VersionCompatInfoV4) : String :=
  String.ofList (Nat.toDigits 10 v.version ++ ':' :: Nat.toDigits 10 v.blockHeaderVersion)

/-- `version_info_v4::deserialize` -/
def ofText (s : String) : Option VersionCompatInfoV4 :=
  match s.toList.splitOn ':' with
  | [version, blockHeaderVersion] => do
    let version ← parseU16 version
    let blockHeaderVersion ← parseU16 blockHeaderVersion
    return { version, blockHeaderVersion }
  | _ => none

structure InRange (v : VersionCompatInfoV4) : Prop where
  version : v.version < 2 ^ 16
  blockHeaderVersion : v.blockHeaderVersion < 2 ^ 16

theorem parseU16_toDigits {n : ℕ} (h : n < 2 ^ 16) : parseU16 (Nat.toDigits 10 n) = some n := by
  have hparse : parseU64 (String.ofList (Nat.toDigits 10 n)) = some n :=
    parseU64_toString (h.trans (by norm_num))
  rw [parseU16, hparse, Option.filter_some, if_pos (decide_eq_true h)]

theorem parseU16_lt {cs : List Char} {n : ℕ} (h : parseU16 cs = some n) : n < 2 ^ 16 := by
  obtain ⟨-, hn⟩ := Option.filter_eq_some_iff.mp h
  simpa using hn

theorem ofText_text (v : VersionCompatInfoV4) (h : v.InRange) : ofText v.text = some v := by
  have hcolon : ∀ n : ℕ, ':' ∉ Nat.toDigits 10 n := fun n hmem => by
    cases isDigit_toDigits hmem
  have hsplit : ([':'].intercalate [Nat.toDigits 10 v.version, Nat.toDigits 10 v.blockHeaderVersion]).splitOn
      ':' = [Nat.toDigits 10 v.version, Nat.toDigits 10 v.blockHeaderVersion] :=
    List.splitOn_intercalate ':' (by simp [hcolon]) (by simp)
  have htext : v.text.toList =
      [':'].intercalate [Nat.toDigits 10 v.version, Nat.toDigits 10 v.blockHeaderVersion] := by
    simp [text, List.intercalate]
  simp only [ofText, htext, hsplit, parseU16_toDigits h.version, parseU16_toDigits h.blockHeaderVersion]
  rfl

theorem ofText_inRange (s : String) (v : VersionCompatInfoV4) (h : ofText s = some v) : v.InRange := by
  unfold ofText at h
  split at h
  · obtain ⟨version, hversion, h⟩ := Option.bind_eq_some_iff.mp h
    obtain ⟨blockHeaderVersion, hblock, h⟩ := Option.bind_eq_some_iff.mp h
    cases h
    exact ⟨parseU16_lt hversion, parseU16_lt hblock⟩
  · cases h

def codec : Codec VersionCompatInfoV4 := .viaString text ofText InRange ofText_text ofText_inRange

end VersionCompatInfoV4

namespace SlateStateV4

/-- `slate_state_v4::serialize` -/
def label : SlateStateV4 → String
  | unknown => "NA"
  | standard1 => "S1"
  | standard2 => "S2"
  | standard3 => "S3"
  | invoice1 => "I1"
  | invoice2 => "I2"
  | invoice3 => "I3"

/-- `slate_state_v4::deserialize` -/
def ofLabel : String → Option SlateStateV4
  | "NA" => some unknown
  | "S1" => some standard1
  | "S2" => some standard2
  | "S3" => some standard3
  | "I1" => some invoice1
  | "I2" => some invoice2
  | "I3" => some invoice3
  | _ => none

def codec : Codec SlateStateV4 :=
  .viaString label ofLabel (fun _ => True) (fun s _ => by cases s <;> rfl) fun _ _ _ => trivial

end SlateStateV4

/-- `string_or_u64`: a number is written as a text, and read as a text or a number. -/
def stringOrU64 : Codec ℕ where
  write n := .string (toString n)
  read
    | .string s => parseU64 s
    | v => (asInt 0 (2 ^ 64) v).map Int.toNat
  InRange n := n < 2 ^ 64
  depth := 0
  read_write _ h := parseU64_toString h
  inRange_of_read v n h := by
    split at h
    · exact parseU64_lt h
    · exact Codec.u64.inRange_of_read _ n h
  write_ne_null _ := nofun
  fits _ _ := trivial

/-! ### Slates -/

/-- The forms of the types of the crates. -/
structure SlateCodecs (K P U A S : Type) [Zero K] where
  blindingFactor : Codec K
  feeFields : Codec FeeFields
  publicKey : Codec P
  signature : Codec (Signature K P)
  commitment : Codec Commitment
  rangeProof : Codec RangeProof
  uuid : Codec U
  dalekKey : Codec A
  dalekSig : Codec S
  zero_offset : blindingFactor.InRange 0
  zero_fee : feeFields.InRange ⟨0⟩

variable {U A S : Type} (C : SlateCodecs K P U A S)

namespace SlateCodecs

def participantFields : Fields (ParticipantData K P) :=
  ((Fields.required "xs" C.publicKey).and <|
    (Fields.required "nonce" C.publicKey).and <|
    Fields.skipped "part" C.signature).iso
  (fun p => (p.publicBlindExcess, p.publicNonce, p.partSig))
  (fun (publicBlindExcess, publicNonce, partSig) => { publicBlindExcess, publicNonce, partSig })
  (fun _ => rfl) fun _ h => h

def participant : Codec (ParticipantData K P) :=
  (participantFields C).codecWithDefaults (show ["xs", "nonce", "part"].Nodup by decide)

def commitsFields : Fields CommitsV4 :=
  ((Fields.default "f" .u8 0 (Nat.two_pow_pos 8)).and <|
    (Fields.required "c" C.commitment).and <|
    Fields.skipped "p" C.rangeProof).iso
  (fun c => (c.f, c.c, c.p)) (fun (f, c, p) => { f, c, p }) (fun _ => rfl) fun _ h => h

def commits : Codec CommitsV4 :=
  (commitsFields C).codecWithDefaults (show ["f", "c", "p"].Nodup by decide)

def paymentInfoFields : Fields (PaymentInfoV4 A S) :=
  ((Fields.required "saddr" C.dalekKey).and <|
    (Fields.required "raddr" C.dalekKey).and <|
    Fields.skipped "rsig" C.dalekSig).iso
  (fun p => (p.saddr, p.raddr, p.rsig)) (fun (saddr, raddr, rsig) => { saddr, raddr, rsig })
  (fun _ => rfl) fun _ h => h

def paymentInfo : Codec (PaymentInfoV4 A S) :=
  (paymentInfoFields C).codecWithDefaults (show ["saddr", "raddr", "rsig"].Nodup by decide)

end SlateCodecs

def KernelFeaturesArgs.fields : Fields KernelFeaturesArgs :=
  (Fields.required "lock_hgt" .u64).iso (fun a => a.lockHeight) (fun lockHeight => { lockHeight })
  (fun _ => rfl) fun _ h => h

def KernelFeaturesArgs.codec : Codec KernelFeaturesArgs := KernelFeaturesArgs.fields.codec (by decide)

namespace SlateCodecs

def slateFields : Fields (SlateHeaderV4 U A S × SlateV4 K P) :=
  ((Fields.required "ver" VersionCompatInfoV4.codec).and <|
    (Fields.required "id" C.uuid).and <|
    (Fields.required "sta" SlateStateV4.codec).and <|
    (Fields.default "off" C.blindingFactor 0 C.zero_offset).and <|
    (Fields.default "num_parts" .u8 2 (show 2 < 2 ^ 8 by decide)).and <|
    (Fields.default "amt" stringOrU64 0 (Nat.two_pow_pos 64)).and <|
    (Fields.default "fee" C.feeFields ⟨0⟩ C.zero_fee).and <|
    (Fields.default "feat" .u8 0 (Nat.two_pow_pos 8)).and <|
    (Fields.default "ttl" stringOrU64 0 (Nat.two_pow_pos 64)).and <|
    (Fields.required "sigs" (.list C.participant)).and <|
    (Fields.skipped "coms" (.list C.commits)).and <|
    (Fields.skipped "proof" C.paymentInfo).and <|
    Fields.skipped "feat_args" KernelFeaturesArgs.codec).iso
  (fun (h, v) => (h.ver, h.id, h.sta, v.off, v.numParts, v.amt, v.fee, v.feat, h.ttl, v.sigs, v.coms, h.proof,
    v.featArgs))
  (fun (ver, id, sta, off, numParts, amt, fee, feat, ttl, sigs, coms, proof, featArgs) =>
    ({ ver, id, sta, ttl, proof }, { numParts, coms, amt, fee, feat, off, sigs, featArgs }))
  (fun _ => rfl) fun _ h => h

/-- `SlateV4`, as `VersionedSlate` reads it. -/
def slate : Codec (SlateHeaderV4 U A S × SlateV4 K P) :=
  (slateFields C).codecWithDefaults (show ["ver", "id", "sta", "off", "num_parts", "amt", "fee", "feat",
    "ttl", "sigs", "coms", "proof", "feat_args"].Nodup by decide)

end SlateCodecs

/-! ### Ranges -/

variable {C}

namespace SlateCodecs

/-- The keys and the signature of a participant can be written. -/
structure ParticipantInRange (C : SlateCodecs K P U A S) (p : ParticipantData K P) : Prop where
  publicBlindExcess : C.publicKey.InRange p.publicBlindExcess
  publicNonce : C.publicKey.InRange p.publicNonce
  partSig : ∀ sig ∈ p.partSig, C.signature.InRange sig

structure CommitsInRange (C : SlateCodecs K P U A S) (c : CommitsV4) : Prop where
  features : c.f < 2 ^ 8
  commit : C.commitment.InRange c.c
  proof : ∀ p ∈ c.p, C.rangeProof.InRange p

/-- The numbers of a slate on the wire fit their types, and its keys, signatures, commitments and proofs
can be written. -/
structure SlateInRange (C : SlateCodecs K P U A S) (v : SlateV4 K P) : Prop where
  numParts : v.numParts < 2 ^ 8
  coms : ∀ coms ∈ v.coms, ∀ c ∈ coms, CommitsInRange C c
  amt : v.amt < 2 ^ 64
  fee : C.feeFields.InRange v.fee
  feat : v.feat < 2 ^ 8
  off : C.blindingFactor.InRange v.off
  sigs : ∀ p ∈ v.sigs, ParticipantInRange C p
  featArgs : ∀ a ∈ v.featArgs, a.lockHeight < 2 ^ 64

structure HeaderInRange (C : SlateCodecs K P U A S) (h : SlateHeaderV4 U A S) : Prop where
  ver : h.ver.InRange
  id : C.uuid.InRange h.id
  ttl : h.ttl < 2 ^ 64
  proof : ∀ p ∈ h.proof, C.dalekKey.InRange p.saddr ∧ C.dalekKey.InRange p.raddr ∧
    ∀ sig ∈ p.rsig, C.dalekSig.InRange sig

omit [AddCommGroup P] [DecidableEq K] in
theorem inRange_participant {p : ParticipantData K P} :
    C.participant.InRange p ↔ ParticipantInRange C p :=
  ⟨fun h => ⟨h.1, h.2.1, h.2.2⟩, fun h => ⟨h.publicBlindExcess, h.publicNonce, h.partSig⟩⟩

omit [AddCommGroup P] [DecidableEq K] in
theorem inRange_commits {c : CommitsV4} : C.commits.InRange c ↔ CommitsInRange C c :=
  ⟨fun h => ⟨h.1, h.2.1, h.2.2⟩, fun h => ⟨h.features, h.commit, h.proof⟩⟩

omit [AddCommGroup P] in
theorem inRange_slate {h : SlateHeaderV4 U A S} {v : SlateV4 K P} :
    C.slate.InRange (h, v) ↔ HeaderInRange C h ∧ SlateInRange C v := by
  constructor
  · rintro ⟨hver, hid, -, hoff, hnum, hamt, hfee, hfeat, httl, hsigs, hcoms, hproof, hargs⟩
    exact ⟨⟨hver, hid, httl, hproof⟩, hnum,
      fun coms hmem c hc => inRange_commits.mp (hcoms coms hmem c hc), hamt, hfee, hfeat, hoff,
      fun p hp => inRange_participant.mp (hsigs p hp), hargs⟩
  · rintro ⟨hh, hv⟩
    exact ⟨hh.ver, hh.id, trivial, hv.off, hv.numParts, hv.amt, hv.fee, hv.feat, hh.ttl,
      fun p hp => inRange_participant.mpr (hv.sigs p hp),
      fun coms hmem c hc => inRange_commits.mpr (hv.coms coms hmem c hc), hh.proof, hv.featArgs⟩

end SlateCodecs

/-! ### Messages -/

omit [AddCommGroup P] in
/-- The slates on the wire that can be read are those whose fields are in range.  They are read from the
text that is written, which `read_from_stream` takes from the line of `write_to_stream`, and from all other
texts of the same JSON. -/
theorem slate_message_round_trip {J : JsonLib} (hJ : J.Lawful) (hC : C.slate.depth ≤ recursionLimit)
    (h : SlateHeaderV4 U A S) (v : SlateV4 K P) :
    ((∃ text, C.slate.ofText J text = some (h, v)) ↔ C.HeaderInRange h ∧ C.SlateInRange v) ∧
      (C.slate.ofText J (C.slate.toCompactText J (h, v)) = some (h, v) ↔
        C.HeaderInRange h ∧ C.SlateInRange v) ∧
      (C.HeaderInRange h ∧ C.SlateInRange v → ∀ text, J.fromStr text = some (C.slate.write (h, v)) →
        C.slate.ofText J text = some (h, v)) ∧
      ∀ checks rest, readFromStream checks (writeToStream (C.slate.toCompactText J (h, v)) ++ rest) =
        .ok (C.slate.toCompactText J (h, v)) := by
  rw [← SlateCodecs.inRange_slate]
  have hwritten : C.slate.InRange (h, v) →
      C.slate.ofText J (C.slate.toCompactText J (h, v)) = some (h, v) := Codec.ofText_toCompactText hJ hC
  refine ⟨⟨?_, fun hrange => ⟨_, hwritten hrange⟩⟩, ⟨Codec.inRange_of_ofText, hwritten⟩,
    fun hrange _ => Codec.ofText_of_fromStr hrange, fun checks =>
    readFromStream_writeToStream checks (hJ.line _)⟩
  rintro ⟨text, hread⟩
  exact Codec.inRange_of_ofText hread

/-- The forms of the instance by exponents. -/
def slateExponents : SlateCodecs Scalar Scalar Unit Unit Unit where
  blindingFactor := Exponents.codec
  feeFields := Exponents.codec
  publicKey := Exponents.codec
  signature := Exponents.codec
  commitment := Exponents.codec
  rangeProof := Exponents.codec
  uuid := Exponents.codec
  dalekKey := Exponents.codec
  dalekSig := Exponents.codec
  zero_offset := trivial
  zero_fee := trivial

theorem slateExponents_depth : slateExponents.slate.depth ≤ recursionLimit := by decide

def headerExponents : SlateHeaderV4 Unit Unit Unit where
  ver := ⟨4, 3⟩
  id := ()
  sta := .standard1
  ttl := 0
  proof := none

theorem headerExponents_inRange : slateExponents.HeaderInRange headerExponents where
  ver := ⟨by decide, by decide⟩
  id := trivial
  ttl := by decide
  proof := by simp [headerExponents]

/-- A slate with an input, an output and a participant. -/
def sampleMessage : SlateV4 Scalar Scalar where
  numParts := 2
  coms := some [⟨0, ⟨[8]⟩, none⟩, ⟨0, ⟨[9]⟩, some ⟨[1, 2]⟩⟩]
  amt := 1000000000
  fee := ⟨12500000⟩
  feat := 2
  off := 5
  sigs := [⟨3, 4, some ⟨6, 7⟩⟩]
  featArgs := some ⟨1500400⟩

theorem sampleMessage_inRange : slateExponents.SlateInRange sampleMessage where
  numParts := by decide
  coms := by
    rintro _ ⟨⟩ c hc
    have hf : c.f = 0 := by
      revert c
      decide
    exact ⟨by omega, trivial, fun _ _ => trivial⟩
  amt := by decide
  fee := trivial
  feat := by decide
  off := trivial
  sigs _ _ := ⟨trivial, trivial, fun _ _ => trivial⟩
  featArgs := by
    rintro _ ⟨⟩
    decide

theorem slate_message_round_trip_sample :
    slateExponents.slate.ofText sampleLib
        (slateExponents.slate.toCompactText sampleLib (headerExponents, sampleMessage)) =
      some (headerExponents, sampleMessage) ∧
    ¬ ∃ text, slateExponents.slate.ofText sampleLib text =
      some (headerExponents, { sampleMessage with amt := 2 ^ 64 }) := by
  have htrip (v) := slate_message_round_trip sampleLib_lawful slateExponents_depth headerExponents v
  refine ⟨(htrip _).2.1.mpr ⟨headerExponents_inRange, sampleMessage_inRange⟩, fun hread => ?_⟩
  have hamount := ((htrip _).1.mp hread).2.amt
  simp at hamount

end MwBtcSwap.Grin
