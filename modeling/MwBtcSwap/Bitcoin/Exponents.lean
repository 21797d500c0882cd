import MwBtcSwap.Bitcoin.Library
import MwBtcSwap.Grin.Exponents

/-! The `bitcoin` crate can be as `Lawful` asks: an instance on the exponents of the Grin one, with the
same keys.  A signature shows the key under which it verifies, and one script is told apart from all
others by its hash. -/

namespace MwBtcSwap.Bitcoin

open Grin Grin.Exponents

namespace Exponents

def keyBytes (pk : PublicKey Scalar) : List UInt8 :=
  if pk.compressed then pointBytes 2 pk.key else pointBytes 4 pk.key ++ List.replicate 32 0

def keyOfBytes (bytes : List UInt8) : Option Scalar :=
  if bytes.length = 33 then pointOfBytes 2 bytes
  else if bytes.length = 65 then pointOfBytes 4 (bytes.take 33)
  else none

theorem length_pointBytes (tag : UInt8) (p : Scalar) : (pointBytes tag p).length = 33 := by
  simp [pointBytes, scalarBytes]

theorem keyOfBytes_keyBytes {pk : PublicKey Scalar} (h : pk.key ≠ 0) :
    keyOfBytes (keyBytes pk) = some pk.key := by
  cases hc : pk.compressed with
  | true => simp [keyBytes, keyOfBytes, hc, length_pointBytes, pointOfBytes_pointBytes h]
  | false =>
    simp [keyBytes, keyOfBytes, hc, length_pointBytes, List.take_left' (length_pointBytes _ _),
      pointOfBytes_pointBytes h]

/-- The bytes of a private key in WIF. -/
def wifBytes (sk : PrivateKey Scalar) : List UInt8 :=
  (if sk.network = .testnet then 0xef else 0x80) :: (if sk.compressed then 1 else 0) ::
    scalarBytes sk.key

def wifOfBytes : List UInt8 → Option (PrivateKey Scalar)
  | n :: c :: bytes => (scalarOfBytes bytes).map fun k =>
      ⟨decide (c = 1), if n = 0xef then .testnet else .bitcoin, k⟩
  | _ => none

theorem wifOfBytes_wifBytes {sk : PrivateKey Scalar} (h : sk.key ≠ 0) :
    wifOfBytes (wifBytes sk) = some sk := by
  obtain ⟨compressed, network, key⟩ := sk
  cases compressed <;> cases network <;>
    simp [wifBytes, wifOfBytes, scalarOfBytes_scalarBytes h]

/-- A signature of a message under a point. -/
def signature (msg : List UInt8) (p : Scalar) : List UInt8 :=
  0x30 :: (scalarBytes p ++ Bytes.toLE 8 (Bytes.ofLE msg))

end Exponents

open Exponents

/-- The functions of the crate, by exponents, with a hash function that tells `marked` apart from the
other scripts. -/
def btcExponents (marked : List UInt8) : BtcLib Scalar Scalar where
  overflowChecks := false
  G := 1
  secretToBytes := scalarBytes
  secretFromSlice := scalarOfBytes
  pubKeyToBytes := keyBytes
  pubKeyFromSlice := keyOfBytes
  toWif sk := Hex.encode (wifBytes sk)
  fromWif text := (Hex.decode text).bind wifOfBytes
  hash160 bytes := List.replicate 20 (if bytes = marked then 1 else 0)
  signatureHash tx ix script hashType :=
    Bytes.toLE 4 ix ++ Bytes.toLE 4 tx.lockTime ++ hashType :: script
  sign := signature
  verify msg sig key := (keyOfBytes key).any fun p => decide (sig = signature msg p)
  txid tx := ⟨Bytes.toLE 32 (tx.lockTime + (tx.output.map TxOut.value).sum)⟩
  addressFromScript script _ := some (Hex.encode script)

theorem btcExponents_lawful (marked : List UInt8) : (btcExponents marked).Lawful where
  pubKey_codec pk h := keyOfBytes_keyBytes h
  pubKey_bytes pk := by
    cases hc : pk.compressed with
    | true => exact ⟨2, scalarBytes pk.key, by simp [btcExponents, keyBytes, hc, pointBytes],
        by decide, by simp [scalarBytes]⟩
    | false => exact ⟨4, scalarBytes pk.key ++ List.replicate 32 0,
        by simp [btcExponents, keyBytes, hc, pointBytes], by decide, by simp [scalarBytes]⟩
  wif_codec sk h := by simp [btcExponents, wifOfBytes_wifBytes h]
  hash160_length bytes := by simp [btcExponents]
  sign_verifies sk msg h := by
    have hpk : ((btcExponents marked).publicKey sk).key = sk.key := by
      simp [BtcLib.publicKey, btcExponents]
    have hkey := keyOfBytes_keyBytes (show ((btcExponents marked).publicKey sk).key ≠ 0 by rwa [hpk])
    rw [hpk] at hkey
    change (keyOfBytes (keyBytes ((btcExponents marked).publicKey sk))).any
      (fun p => decide (signature msg sk.key = signature msg p)) = true
    simp [hkey]
  sign_bytes msg k := ⟨_, rfl, by simp [scalarBytes], by simp [scalarBytes]⟩
  txid_length tx := by simp [btcExponents]

/-- The marked script has a hash of its own. -/
theorem btcExponents_binds (marked : List UInt8) : (btcExponents marked).Binds marked := by
  intro s h
  by_contra hne
  simp [btcExponents, hne] at h

end MwBtcSwap.Bitcoin
