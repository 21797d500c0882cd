import MwBtcSwap.Lib.Hex

/-! The data of the Bitcoin side: keys, transactions, and the `BTCInput` that a party stores of an
output it can spend.  Scripts and witnesses are byte strings. -/

namespace MwBtcSwap.Bitcoin

inductive Network
  | bitcoin
  | testnet
  deriving DecidableEq, Repr

structure PrivateKey (K : Type) where
  compressed : Bool
  network : Network
  key : K
  deriving DecidableEq, Repr

structure PublicKey (P : Type) where
  compressed : Bool
  key : P
  deriving DecidableEq, Repr

/-- A transaction id, by its bytes in the order in which transactions hold it. -/
structure Txid where
  bytes : List UInt8
  deriving DecidableEq, Repr

/-- `Hash::from_str` of `sha256d`: 32 bytes, written last byte first. -/
def Txid.ofText (text : String) : Option Txid :=
  match Hex.decode text with
  | some bytes => if bytes.length = 32 then some ⟨bytes.reverse⟩ else none
  | none => none

/-- `Txid::to_string` -/
def Txid.toText (txid : Txid) : String := Hex.encode txid.bytes.reverse

/-- The text of an id is read back. -/
theorem Txid.ofText_toText {txid : Txid} (h : txid.bytes.length = 32) :
    Txid.ofText txid.toText = some txid := by
  simp [ofText, toText, h]

structure OutPoint where
  txid : Txid
  vout : ℕ
  deriving DecidableEq, Repr

structure TxIn where
  previousOutput : OutPoint
  scriptSig : List UInt8
  sequence : ℕ
  witness : List (List UInt8)
  deriving DecidableEq, Repr

structure TxOut where
  value : ℕ
  scriptPubkey : List UInt8
  deriving DecidableEq, Repr

structure Transaction where
  version : ℕ
  lockTime : ℕ
  input : List TxIn
  output : List TxOut
  deriving DecidableEq, Repr

/-- `BTCInput`: an output, the key that spends it in WIF, and its script in hexadecimal. -/
structure BTCInput where
  txid : String
  vout : ℕ
  value : ℕ
  secret : String
  pubKey : String
  pubScript : String
  deriving DecidableEq, Repr

end MwBtcSwap.Bitcoin
