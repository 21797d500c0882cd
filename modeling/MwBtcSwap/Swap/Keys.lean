import MwBtcSwap.Bitcoin.Exponents
import MwBtcSwap.Bitcoin.Routines
import MwBtcSwap.Grin.Routines

/-! Keys that are used on both chains.  The two libraries work on one curve, so a key of the one is a
key of the other with the same bytes. -/

namespace MwBtcSwap

open Interaction Grin Bitcoin

variable {K P : Type} [CommRing K] [AddCommGroup P] [Module K P]

/-- `grin_pk_from_btc_pk` -/
def grinPkFromBtcPk (L : GrinLib K P) (B : BtcLib K P) (bpk : PublicKey P) : Outcome P :=
  Outcome.unwrap "called `Result::unwrap()` on an `Err` value" (L.pubKeyFromSlice (B.pubKeyToBytes bpk))

/-- `grin_sk_from_btc_sk` -/
def grinSkFromBtcSk (L : GrinLib K P) (B : BtcLib K P) (sk : PrivateKey K) : Outcome K :=
  Outcome.unwrap "called `Result::unwrap()` on an `Err` value" (L.secretFromSlice (B.secretToBytes sk.key))

/-- The two libraries have the generator of keys in common, and read the keys of each other. -/
structure SameCurve (L : GrinLib K P) (B : BtcLib K P) : Prop where
  generator : B.G = L.G
  secret : ∀ k : K, k ≠ 0 → L.secretFromSlice (B.secretToBytes k) = some k
  secret' : ∀ k : K, k ≠ 0 → B.secretFromSlice (L.secretToBytes k) = some k
  pubKey : ∀ p : P, p ≠ 0 → L.pubKeyFromSlice (B.pubKeyToBytes ⟨true, p⟩) = some p

variable {L : GrinLib K P} {B : BtcLib K P}

omit [Module K P] in
/-- A key goes to the Grin side and back unchanged. -/
theorem SameCurve.privateKey (h : SameCurve L B) {k : K} (hk : k ≠ 0) :
    grinSkFromBtcSk L B (createPrivateKey k) = .ok k ∧
      privateKeyFromGrinSk B (L.secretToBytes k) = .ok (createPrivateKey k) := by
  simp [grinSkFromBtcSk, privateKeyFromGrinSk, createPrivateKey, h.secret k hk, h.secret' k hk]

/-- The public key on the Grin side is that of the secret key there. -/
theorem SameCurve.publicKey (h : SameCurve L B) {k : K} (hk : k • L.G ≠ 0) :
    grinPkFromBtcPk L B (B.publicKey (createPrivateKey k)) = .ok (k • L.G) := by
  rw [← h.generator] at hk ⊢
  simp [grinPkFromBtcPk, BtcLib.publicKey, createPrivateKey, h.pubKey _ hk]

theorem exponents_sameCurve (marked : List UInt8) : SameCurve exponents (btcExponents marked) where
  generator := by simp only [exponents, btcExponents]
  secret _ h := by
    simpa only [exponents, btcExponents] using Grin.Exponents.scalarOfBytes_scalarBytes h
  secret' _ h := by
    simpa only [exponents, btcExponents] using Grin.Exponents.scalarOfBytes_scalarBytes h
  pubKey _ h := by
    simpa only [exponents, btcExponents, Bitcoin.Exponents.keyBytes, if_true]
      using Grin.Exponents.pointOfBytes_pointBytes h

end MwBtcSwap
