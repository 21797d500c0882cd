import MwBtcSwap.Bitcoin.Routines
import Mathlib.Algebra.Order.BigOperators.Group.List
import Mathlib.Data.List.Nodup

/-! `bitcoin_core.rs`: the balance of an address, which is all that the program takes from the unspent
outputs that the node lists. -/

namespace MwBtcSwap.Bitcoin

open Interaction Machine

/-- `UTXO`, with its amount in satoshis. -/
structure UTXO where
  txid : String
  vout : ℕ
  address : String
  scriptPubKey : String
  amount : ℕ
  deriving DecidableEq, Repr

/-- `ListUnspentResponse`, with the message of its error. -/
structure ListUnspentResponse where
  result : Option (List UTXO)
  error : Option String
  id : String
  deriving DecidableEq, Repr

/-- `get_address_final_balance`, on the response to a request with an id. -/
def getAddressFinalBalance (checks : Bool) (id : String) (response : ListUnspentResponse) : Outcome ℕ :=
  if response.id ≠ id then .error (.err "RPC Request and Response id didn't match!")
  else
    match response.error with
    | some message => .error (.err message)
    | none => do
      let result ← Outcome.unwrap "GetAddressFinalBalance Result was empty" response.result
      sumU64 checks (result.map UTXO.amount)

/-- The outpoint of a text and an index. -/
def OutPoint.ofText (txid : String) (vout : ℕ) : Option OutPoint :=
  (Txid.ofText txid).map fun txid => ⟨txid, vout⟩

def UTXO.outpoint (u : UTXO) : Option OutPoint := OutPoint.ofText u.txid u.vout

def BTCInput.outpoint (input : BTCInput) : Option OutPoint := OutPoint.ofText input.txid input.vout

/-- `MAX_MONEY` -/
def maxMoney : ℕ := 2100000000000000

variable {K P : Type}

/-- The unspent outputs of an address, as a node lists them: every outpoint once, all of them with the
script of the address, and no more than there is. -/
structure Unspent (B : BtcLib K P) (address : String) where
  outputs : List UTXO
  readable : ∀ u ∈ outputs, u.outpoint.isSome
  nodup : (outputs.map UTXO.outpoint).Nodup
  pays : ∀ u ∈ outputs, ∀ script, scriptToAddress B script = .ok address →
    u.scriptPubKey = serializeScript script
  money : (outputs.map UTXO.amount).sum ≤ maxMoney

/-- The response that lists them. -/
def Unspent.response {B : BtcLib K P} {address : String} (unspent : Unspent B address) (id : String) :
    ListUnspentResponse := ⟨some unspent.outputs, none, id⟩

/-- The balance is the sum of the amounts. -/
theorem Unspent.balance {B : BtcLib K P} {address : String} (unspent : Unspent B address)
    (checks : Bool) (id : String) :
    getAddressFinalBalance checks id (unspent.response id) =
      .ok (unspent.outputs.map UTXO.amount).sum := by
  have hlt : (unspent.outputs.map UTXO.amount).sum < 2 ^ 64 := by
    have hmoney := unspent.money
    rw [maxMoney] at hmoney
    omega
  simp only [getAddressFinalBalance, Unspent.response, ne_eq, not_true_eq_false, if_false,
    Outcome.unwrap_some, Outcome.ok_bind, sumU64_of_lt hlt]

/-- An outpoint holds the whole balance exactly when no other one has a value. -/
theorem Unspent.holds_balance_iff {B : BtcLib K P} {address : String} (unspent : Unspent B address)
    (hpos : 0 < (unspent.outputs.map UTXO.amount).sum) (outpoint : Option OutPoint) :
    (∃ u ∈ unspent.outputs, u.outpoint = outpoint ∧
        u.amount = (unspent.outputs.map UTXO.amount).sum) ↔
      ∀ u ∈ unspent.outputs, 0 < u.amount → u.outpoint = outpoint := by
  constructor
  · rintro ⟨u, hu, rfl, hamount⟩ v hv hpos'
    by_contra hne
    have hmem : v ∈ unspent.outputs.erase u := by
      apply (List.mem_erase_of_ne _).mpr hv
      rintro rfl
      exact hne rfl
    have hsum := List.sum_map_erase UTXO.amount hu
    have hle : v.amount ≤ ((unspent.outputs.erase u).map UTXO.amount).sum :=
      List.single_le_sum (fun _ _ => Nat.zero_le _) _ (List.mem_map_of_mem hmem)
    omega
  · intro hall
    obtain ⟨u, hu, hne⟩ : ∃ u ∈ unspent.outputs, u.amount ≠ 0 := by
      by_contra! hzero
      have hsum : (unspent.outputs.map UTXO.amount).sum = 0 := by
        apply List.sum_eq_zero
        simpa using hzero
      omega
    have houtpoint := hall u hu (by omega)
    refine ⟨u, hu, houtpoint, ?_⟩
    -- any other output with a value has the outpoint, so it is this one
    have hother : ∀ v, v ≠ u → v ∈ unspent.outputs → v.amount = 0 := by
      intro v hvu hv
      by_contra hv0
      apply hvu
      apply List.inj_on_of_nodup_map unspent.nodup hv hu
      rw [hall v hv (by omega), houtpoint]
    rw [List.sum_map_eq_nsmul_single u UTXO.amount hother,
      List.count_eq_one_of_mem (List.Nodup.of_map _ unspent.nodup) hu, one_smul]

end MwBtcSwap.Bitcoin
