import MwBtcSwap.Bitcoin.Satoshis
import MwBtcSwap.Nodes
import MwBtcSwap.Swap.Funds

/-! How exact the verification of the Bitcoin lock is.  The balance that the Grin owner compares is a sum
of amounts that went through `f32`, so a lock may be refused that holds the amount of the swap, and one
may be taken that does not. -/

namespace MwBtcSwap

open Interaction Machine Grin Bitcoin

/-! ### A listing -/

/-- An output in the reply to `listunspent`, with its amount in satoshis.  The node may add other
members. -/
structure Listed where
  txid : String
  vout : ℕ
  address : String
  label : String
  scriptPubKey : String
  amount : ℕ
  confirmations : ℕ
  spendable : Bool
  solvable : Bool
  safe : Bool
  members : List (String × Json)
  vout_lt : vout < 2 ^ 32
  confirmations_lt : confirmations < 2 ^ 32
  members_eq : ∀ m ∈ [("txid", Json.string txid), ("vout", .number ⟨vout, none⟩),
      ("address", .string address), ("label", .string label), ("scriptPubKey", .string scriptPubKey),
      ("amount", .number (amountLiteral amount)), ("confirmations", .number ⟨confirmations, none⟩),
      ("spendable", .bool spendable), ("solvable", .bool solvable), ("safe", .bool safe)],
    Json.valuesOf members m.1 = [m.2]

def Listed.json (u : Listed) : Json := .object u.members

theorem required_asString (s : String) : Json.required Json.asString (some (.string s)) = some s := rfl

theorem required_asBool (b : Bool) : Json.required Json.asBool (some (.bool b)) = some b := rfl

theorem required_asNumber (n : Json.Number) : Json.required Json.asNumber (some (.number n)) = some n := rfl

theorem required_asU32 {n : ℕ} (h : n < 2 ^ 32) :
    Json.required Json.asU32 (some (.number ⟨n, none⟩)) = some n := by
  have hrange : (0 : ℤ) ≤ n ∧ (n : ℤ) < 2 ^ 32 := by omega
  rw [Json.required, Option.bind_some, Json.asU32, Json.asInt, if_pos hrange, Option.map_some,
    Int.toNat_natCast]

theorem readUTXO_listed (satoshis : Json.Number → ℕ) (u : Listed) :
    readUTXO satoshis u.json = some ⟨u.txid, u.vout, u.address, u.scriptPubKey,
      satoshis (amountLiteral u.amount)⟩ := by
  have hmembers := u.members_eq
  simp only [List.forall_mem_cons, List.not_mem_nil, false_imp_iff, implies_true, and_true] at hmembers
  have hfields : u.json.fields ["txid", "vout", "address", "label", "scriptPubKey", "amount",
      "confirmations", "spendable", "solvable", "safe"] =
      some fun name => (Json.valuesOf u.members name).head? := by
    rw [Listed.json, Json.fields, if_pos]
    simp [hmembers]
  simp only [readUTXO, hfields, hmembers, List.head?_cons, Option.bind_eq_bind, Option.bind_some,
    required_asString, required_asNumber, required_asBool, required_asU32 u.vout_lt,
    required_asU32 u.confirmations_lt, Option.pure_def]

/-- A reply to `listunspent` without an error. -/
structure Listing (id : String) where
  outputs : List Listed
  members : List (String × Json)
  id_eq : Json.valuesOf members "id" = [.string id]
  error_eq : Json.valuesOf members "error" = [] ∨ Json.valuesOf members "error" = [.null]
  result_eq : Json.valuesOf members "result" = [.array (outputs.map Listed.json)]

def Listing.json {id : String} (l : Listing id) : Json := .object l.members

/-- The amounts of the outputs. -/
def Listing.amounts {id : String} (l : Listing id) : List ℕ := l.outputs.map Listed.amount

variable {K P : Type}

section Calls

variable {R : RpcLib K P} {core : NodeCore} {addr body : String}

theorem asList_readUTXO (satoshis : Json.Number → ℕ) (outputs : List Listed) :
    Json.asList (readUTXO satoshis) (.array (outputs.map Listed.json)) =
      some (outputs.map fun u => ⟨u.txid, u.vout, u.address, u.scriptPubKey,
        satoshis (amountLiteral u.amount)⟩) := by
  induction outputs with
  | nil => rfl
  | cons u outputs ih =>
    rw [Json.asList] at ih
    rw [Json.asList, List.map_cons, List.mapM_cons, readUTXO_listed, ih]
    rfl

theorem Listing.read (l : Listing core.settings.id) (satoshis : Json.Number → ℕ) :
    readListUnspentResponse satoshis l.json =
      some ⟨some (l.outputs.map fun u => ⟨u.txid, u.vout, u.address, u.scriptPubKey,
        satoshis (amountLiteral u.amount)⟩), none, core.settings.id⟩ := by
  rcases l.error_eq with herror | herror <;>
    simp [readListUnspentResponse, readBtcResponse, Listing.json, Json.fields, l.id_eq, herror, l.result_eq,
      Json.optional, Json.required, Json.asString, asList_readUTXO]

/-- The balance of an address is the sum of the amounts, as the program reads them. -/
theorem Listing.balance (h : Replied R core (.getAddressFinalBalance addr) body)
    (l : Listing core.settings.id) (hparse : R.parse body = some l.json)
    (hf32 : R.satoshis = satAmount) (hlt : satSum l.amounts < 2 ^ 64) :
    BitcoinCore.getAddressFinalBalance R core addr = .ok (satSum l.amounts) := by
  rw [BitcoinCore.getAddressFinalBalance_eq h (by rw [hparse, Option.bind_some, l.read])]
  have hsum : sumU64 R.overflowChecks (l.amounts.map fun n => satAmount (amountLiteral n)) =
      .ok (satSum l.amounts) := sumU64_of_lt hlt
  simpa [getAddressFinalBalance, satSum, Listing.amounts, hf32, Function.comp_def] using hsum

end Calls

/-! ### The lock -/

variable [CommRing K] [AddCommGroup P] [Module K P] [DecidableEq K] [DecidableEq P]

variable {L : GrinLib K P} {B : BtcLib K P} {R : RpcLib K P} {core : NodeCore} {address body : String}

/-- What a lock holds that was verified with a listing of its address.  Up to 0.08 bitcoin it holds the
amount of the swap, and at most one satoshi more for each output; up to 40 bitcoins it pays for the redeem
transaction; and the amount of a swap that one output verifies has at most 24 significant digits. -/
theorem lockingPhaseSwapMw_covered {rand : LockMwRand K} {slate s s₀ : SwapSlate K P}
    {past : Trace K P (SwapSlate K P)} {k : Outcome ℕ → Program K P (SwapSlate K P) Unit}
    (hreplied : Replied R core (.getAddressFinalBalance address) body) (l : Listing core.settings.id)
    (hparse : R.parse body = some l.json) (hf32 : R.satoshis = satAmount)
    (hmoney : l.amounts.sum ≤ maxMoney)
    (h : Steps (lockingPhaseSwapMw L B rand slate) (past ++ [⟨s₀, .getAddressFinalBalance address,
      BitcoinCore.getAddressFinalBalance R core address⟩]) (.call s .getBlockHeight k)) :
    s.pubSlate.btc.amount = satSum l.amounts ∧
      (l.amounts.sum < 2 ^ 23 → s.pubSlate.btc.amount ≤ l.amounts.sum ∧
        l.amounts.sum ≤ s.pubSlate.btc.amount + l.amounts.length) ∧
      (s.pubSlate.btc.amount ≤ 4000000000 → s.pubSlate.btc.amount ≤ l.amounts.sum + btcFee) ∧
      (∀ n, l.amounts = [n] → ∃ m e : ℕ, m ≤ 2 ^ 24 ∧ s.pubSlate.btc.amount = m * 2 ^ e) := by
  obtain ⟨hverified, -⟩ := h.sat (lockingPhaseSwapMw_verified rand slate [])
  obtain ⟨past₀, s₀', address', txid, pubX, pubB, lockTime, hpast, -⟩ := hverified rfl
  rw [List.nil_append] at hpast
  obtain ⟨-, hlook⟩ := List.append_inj' hpast rfl
  rw [l.balance hreplied hparse hf32 (satSum_lt hmoney)] at hlook
  simp only [List.cons.injEq, Event.mk.injEq, Op.getAddressFinalBalance.injEq, and_true] at hlook
  obtain ⟨-, rfl, hans⟩ := hlook
  have hamount : s.pubSlate.btc.amount = satSum l.amounts := by simpa [eq_comm] using hans
  rw [hamount]
  refine ⟨rfl, satSum_small, satSum_le_add_fee hmoney, fun n hn => ?_⟩
  rw [hn] at hmoney ⊢
  obtain ⟨m, e, hm, heq⟩ := satAmount_digits (n := n) (by simpa using hmoney)
  exact ⟨m, e, hm, by simpa [satSum] using heq⟩

/-- One output of the amount of the sample. -/
def sampleListed (address : String) : Listed where
  txid := sampleTxid.toText
  vout := 0
  address := address
  label := ""
  scriptPubKey := address
  amount := 100000
  confirmations := 1
  spendable := false
  solvable := false
  safe := true
  members := [("txid", .string sampleTxid.toText), ("vout", .number ⟨0, none⟩),
    ("address", .string address), ("label", .string ""), ("scriptPubKey", .string address),
    ("amount", .number (amountLiteral 100000)), ("confirmations", .number ⟨1, none⟩),
    ("spendable", .bool false), ("solvable", .bool false), ("desc", .string "addr"),
    ("safe", .bool true)]
  vout_lt := by decide
  confirmations_lt := by decide
  members_eq := by simp [Json.valuesOf]

def sampleListing (address : String) : Listing "mw-btc-swap" where
  outputs := [sampleListed address]
  members := [("result", .array [(sampleListed address).json]), ("error", .null),
    ("id", .string "mw-btc-swap")]
  id_eq := rfl
  error_eq := .inr rfl
  result_eq := rfl

/-- A client that gets this reply to every request. -/
def listingRpc (address : String) : RpcLib Scalar Scalar where
  overflowChecks := false
  send _ := .answered ⟨200, (sampleListing address).json.text⟩
  parse := Json.read
  serialize _ := []
  satoshis := satAmount

theorem lockingPhaseSwapMw_covered_sample : ∃ t s k,
    Steps (lockingPhaseSwapMw exponents (btcExponents []) sampleRand.lockMw sampleFunded) t
      (.call s .getBlockHeight k) ∧
    s.pubSlate.btc.amount ≤ 100000 ∧ 100000 ≤ s.pubSlate.btc.amount + 1 := by
  obtain ⟨lock, h⟩ := sample_lockable
  obtain ⟨past, s₀, hsteps, -⟩ :=
    lockingPhaseSwapMw_steps (btcExponents_lawful []) h.toFundable sampleTxid.toText (.refl _)
  obtain ⟨s, k, hcall⟩ : ∃ s k, lockingGrinMw exponents sampleRand.lockMw _ = .call s .getBlockHeight k :=
    ⟨_, _, rfl⟩
  rw [hcall] at hsteps
  have hreplied : Replied (listingRpc lock.address) sampleCore (.getAddressFinalBalance lock.address)
      (sampleListing lock.address).json.text := HttpRequest.execute_eq_ok.mpr (.inr ⟨rfl, rfl⟩)
  have hparse : (listingRpc lock.address).parse (sampleListing lock.address).json.text =
      some (sampleListing lock.address).json := Json.read_text _
  have hamounts : (sampleListing lock.address).amounts = [100000] := rfl
  have hmoney : (sampleListing lock.address).amounts.sum ≤ maxMoney := by rw [hamounts]; decide
  have hless : (sampleListing lock.address).amounts.sum < 2 ^ 23 := by rw [hamounts]; decide
  have hbalance : BitcoinCore.getAddressFinalBalance (listingRpc lock.address) sampleCore lock.address =
      .ok 100000 := by
    rw [(sampleListing lock.address).balance hreplied hparse rfl
      (satSum_lt hmoney)]
    have hsum : satSum [100000] = 100000 := by decide +kernel
    exact congrArg Except.ok hsum
  have hlook : Steps (lockingPhaseSwapMw exponents (btcExponents []) sampleRand.lockMw sampleFunded)
      (past ++ [⟨s₀, .getAddressFinalBalance lock.address, BitcoinCore.getAddressFinalBalance
        (listingRpc lock.address) sampleCore lock.address⟩]) (.call s .getBlockHeight k) := by
    rw [hbalance]
    exact hsteps
  obtain ⟨-, hsmall, -⟩ := lockingPhaseSwapMw_covered hreplied (sampleListing lock.address) hparse rfl
    hmoney hlook
  obtain ⟨hle, hge⟩ := hsmall hless
  exact ⟨_, s, k, hlook, hle, hge⟩

end MwBtcSwap
