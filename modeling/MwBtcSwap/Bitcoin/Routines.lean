import MwBtcSwap.Bitcoin.Library
import MwBtcSwap.Lib.Machine

/-! `btcroutines.rs` and `bitcoin_types.rs`: the lock transaction, the transactions that spend its
output, their signatures, and the text forms of keys and scripts.  A function takes the random keys that
it draws. -/

namespace MwBtcSwap.Bitcoin

open Interaction Machine Script

variable {K P : Type} [CommRing K] [AddCommGroup P] [Module K P]

/-- `BTC_FEE` -/
def btcFee : ℕ := 500

/-- `SIGHASH_ALL` -/
def sighashAll : UInt8 := 1

/-- `create_private_key`, with the secret key that it draws. -/
def createPrivateKey (skey : K) : PrivateKey K := ⟨true, .testnet, skey⟩

/-! ### Scripts -/

/-- `Builder::push_int`: small numbers have their own opcodes. -/
def pushInt (n : ℤ) : Instr :=
  if n = -1 then .op .pushnumNeg1
  else if h : 1 ≤ n ∧ n ≤ 16 then .op (.pushnum ⟨(n - 1).toNat, by omega⟩)
  else if n = 0 then .push []
  else pushSlice (scriptInt n)

variable (B : BtcLib K P)

/-- `Builder::push_key` -/
def pushKey (pk : PublicKey P) : Instr := pushSlice (B.pubKeyToBytes pk)

/-- The instructions that `get_lock_pub_script` builds. -/
def lockScript (recvPk pubX refundPk : PublicKey P) (refundTime : ℤ) : List Instr :=
  [.op .opIf, pushInt refundTime, .op .cltv, .op .drop, pushKey B refundPk, .op .checksig, .op .opElse,
    .op (.pushnum 1), pushKey B recvPk, pushKey B pubX, .op (.pushnum 1), .op .checkmultisig,
    .op .opEndif]

/-- `Script::new_p2sh` of a script. -/
def p2sh (script : List UInt8) : List UInt8 := assemble (payToScriptHash (B.hash160 script))

/-- The script that `get_lock_pub_script` returns. -/
def lockPubScript (recvPk pubX refundPk : PublicKey P) (refundTime : ℤ) (wrapInP2sh : Bool) :
    List UInt8 :=
  let script := assemble (lockScript B recvPk pubX refundPk refundTime)
  if wrapInP2sh then p2sh B script else script

/-- `get_lock_pub_script`.  Its `push_int` negates a negative time: the least `i64` has no negation, and
without checks its bytes are pushed all the same. -/
def getLockPubScript (recvPk pubX refundPk : PublicKey P) (refundTime : ℤ) (wrapInP2sh : Bool) :
    Outcome (List UInt8) :=
  if B.overflowChecks = true ∧ refundTime = -2 ^ 63 then
    .error (.panic "attempt to negate with overflow")
  else .ok (lockPubScript B recvPk pubX refundPk refundTime wrapInP2sh)

omit [CommRing K] [AddCommGroup P] [Module K P] in
theorem getLockPubScript_of_nonneg {recvPk pubX refundPk : PublicKey P} {refundTime : ℤ}
    {wrapInP2sh : Bool} (h : 0 ≤ refundTime) :
    getLockPubScript B recvPk pubX refundPk refundTime wrapInP2sh =
      .ok (lockPubScript B recvPk pubX refundPk refundTime wrapInP2sh) :=
  if_neg (by omega)

variable {B} in
omit [CommRing K] [AddCommGroup P] [Module K P] in
theorem getLockPubScript_eq_ok {recvPk pubX refundPk : PublicKey P} {refundTime : ℤ}
    {wrapInP2sh : Bool} {script : List UInt8}
    (h : getLockPubScript B recvPk pubX refundPk refundTime wrapInP2sh = .ok script) :
    script = lockPubScript B recvPk pubX refundPk refundTime wrapInP2sh := by
  unfold getLockPubScript at h
  split_ifs at h
  exact (Except.ok.inj h).symm

/-- `get_p2pkh_pub_script` -/
def getP2pkhPubScript (recvPk : PublicKey P) : List UInt8 :=
  assemble [.op .dup, .op .hash160, pushSlice (B.hash160 (B.pubKeyToBytes recvPk)), .op .equalverify,
    .op .checksig]

/-! ### Transactions -/

/-- An input of a transaction that is not signed.  An id that is no text of one is a panic with the
message of the caller. -/
def unsignedInput (message : String) (inp : BTCInput) (sequence : ℕ) : Outcome TxIn := do
  let txid ← Outcome.unwrap message (Txid.ofText inp.txid)
  return { previousOutput := ⟨txid, inp.vout⟩, scriptSig := [], sequence, witness := [] }

/-- The loop of `create_lock_transaction`: it reads the id of an input, adds its value, and goes on. -/
def lockInputs : ℕ → List BTCInput → Outcome (List TxIn × ℕ)
  | inpAmount, [] => .ok ([], inpAmount)
  | inpAmount, inp :: inputs => do
    let txin ← unsignedInput "Failed to parse tx id from string" inp finalSequence
    let inpAmount ← addU64 B.overflowChecks inpAmount inp.value
    let (txinp, inpAmount) ← lockInputs inpAmount inputs
    return (txin :: txinp, inpAmount)

/-- `create_lock_transaction` -/
def createLockTransaction (recvPk pubX refundPk changePk : PublicKey P) (inputs : List BTCInput)
    (amount fee : ℕ) (refundTime : ℤ) : Outcome Transaction := do
  let (txinp, inpAmount) ← lockInputs B 0 inputs
  let need ← addU64 B.overflowChecks amount fee
  if inpAmount < need then throw (.err "Input coin amount is too little")
  let lockScriptPub ← getLockPubScript B recvPk pubX refundPk refundTime true
  let change ← subU64 B.overflowChecks inpAmount amount
  let change ← subU64 B.overflowChecks change fee
  return {
    version := 1
    lockTime := 0
    input := txinp
    output := [⟨amount, lockScriptPub⟩, ⟨change, getP2pkhPubScript B changePk⟩] }

/-- `create_spend_lock_transaction` -/
def createSpendLockTransaction (recvPk : PublicKey P) (input : BTCInput) (amount fee lockTime : ℕ) :
    Outcome Transaction := do
  let txinp ← unsignedInput "called `Result::unwrap()` on an `Err` value" input
    (if lockTime = 0 then finalSequence else 0)
  if input.value ≠ amount then throw (.err "Please fully redeem input coin")
  let value ← subU64 B.overflowChecks amount fee
  return { version := 1, lockTime, input := [txinp], output := [⟨value, getP2pkhPubScript B recvPk⟩] }

/-! ### Signatures -/

/-- `serialize_sig_der_with_sighash` -/
def serializeSigDerWithSighash (sigDer : List UInt8) (sigHash : UInt8) : List UInt8 :=
  sigDer ++ [sigHash]

/-- The signature of an input by a key, for a script. -/
def signInput (tx : Transaction) (ix : ℕ) (script : List UInt8) (sk : PrivateKey K) : List UInt8 :=
  serializeSigDerWithSighash (B.sign (B.sigHash tx ix script sighashAll) sk.key) sighashAll

/-- Set the script of one input. -/
def Transaction.withScriptSig (tx : Transaction) (ix : ℕ) (scriptSig : List UInt8) : Transaction :=
  { tx with input := tx.input.mapIdx fun i inp => if i = ix then { inp with scriptSig } else inp }

/-- `sign_p2pkh_transaction` -/
def signP2pkhTransaction (tx : Transaction) (scriptPubkeys : List (List UInt8))
    (skeys : List (PrivateKey K)) (pkeys : List (PublicKey P)) : Outcome Transaction := do
  let signedInp ← tx.input.zipIdx.mapM fun (inp, i) => do
    let scriptPubkey ← Outcome.unwrap "called `Option::unwrap()` on a `None` value" scriptPubkeys[i]?
    let signingKey ← Outcome.unwrap "called `Option::unwrap()` on a `None` value" skeys[i]?
    let pubKey ← Outcome.unwrap "called `Option::unwrap()` on a `None` value" pkeys[i]?
    let sig := signInput B tx i scriptPubkey signingKey
    return { inp with scriptSig := assemble [pushSlice sig, pushKey B pubKey] }
  return { tx with input := signedInp }

/-- The instructions that redeem the lock output. -/
def redeemScript (sigA sigX lockScript : List UInt8) : List Instr :=
  [.push [], pushSlice sigA, pushSlice sigX, .push [], pushSlice lockScript]

/-- The instructions that refund the lock output. -/
def refundScript (sig lockScript : List UInt8) : List Instr :=
  [pushSlice sig, pushInt 1, pushSlice lockScript]

/-- `sign_lock_transaction_redeemer` -/
def signLockTransactionRedeemer (tx : Transaction) (ix : ℕ) (lockScript : List UInt8)
    (sk x : PrivateKey K) : Transaction :=
  tx.withScriptSig ix (assemble (redeemScript (signInput B tx ix lockScript sk)
    (signInput B tx ix lockScript x) lockScript))

/-- `sign_lock_transaction_refund` -/
def signLockTransactionRefund (tx : Transaction) (ix : ℕ) (lockScript : List UInt8)
    (sk : PrivateKey K) : Transaction :=
  tx.withScriptSig ix (assemble (refundScript (signInput B tx ix lockScript sk) lockScript))

/-! ### Text -/

/-- `deserialize_script` -/
def deserializeScript (text : String) : Outcome (List UInt8) :=
  Outcome.unwrap "called `Result::unwrap()` on an `Err` value" (Hex.decode text)

/-- `serialize_script` -/
def serializeScript (script : List UInt8) : String := Hex.encode script

/-- `serialize_priv_key` -/
def serializePrivKey (sk : PrivateKey K) : String := B.toWif sk

/-- `deserialize_priv_key` -/
def deserializePrivKey (text : String) : Outcome (PrivateKey K) :=
  Outcome.unwrap "called `Result::unwrap()` on an `Err` value" (B.fromWif text)

/-- `serialize_pub_key` -/
def serializePubKey (pk : PublicKey P) : String := Hex.encode (B.pubKeyToBytes pk)

/-- `deserialize_pub_key`: a key of 33 bytes is compressed. -/
def deserializePubKey (text : String) : Outcome (PublicKey P) := do
  let bytes ← Outcome.unwrap "called `Result::unwrap()` on an `Err` value" (Hex.decode text)
  let key ← Outcome.unwrap "called `Result::unwrap()` on an `Err` value" (B.pubKeyFromSlice bytes)
  return ⟨decide (bytes.length = 33), key⟩

/-- `private_key_from_grin_sk`, from the bytes of the Grin key. -/
def privateKeyFromGrinSk (bytes : List UInt8) : Outcome (PrivateKey K) := do
  let key ← Outcome.unwrap "called `Result::unwrap()` on an `Err` value" (B.secretFromSlice bytes)
  return ⟨true, .testnet, key⟩

/-- `script_to_address` -/
def scriptToAddress (script : List UInt8) : Outcome String :=
  Outcome.unwrap "called `Result::unwrap()` on an `Err` value" (B.addressFromScript script .testnet)

/-- `BTCInput::new2` -/
def BTCInput.new2 (txid : String) (vout value : ℕ) (secret : PrivateKey K) (pubKey : PublicKey P)
    (pubScript : List UInt8) : BTCInput :=
  ⟨txid, vout, value, serializePrivKey B secret, serializePubKey B pubKey, serializeScript pubScript⟩

section Lock

variable {B} {recvPk pubX refundPk changePk : PublicKey P} {inputs : List BTCInput} {amount fee : ℕ}
  {refundTime : ℤ} {tx : Transaction}

section

omit [CommRing K] [AddCommGroup P] [Module K P]

/-- What the loop returns: as many inputs, and the sum of their values. -/
theorem lockInputs_ok {a : ℕ} {r : List TxIn × ℕ} (h : lockInputs B a inputs = .ok r) :
    r.1.length = inputs.length ∧
      (inputs.map BTCInput.value).foldlM (addU64 B.overflowChecks) a = .ok r.2 := by
  induction inputs generalizing a r with
  | nil =>
    cases h
    exact ⟨rfl, rfl⟩
  | cons inp inputs ih =>
    simp only [lockInputs, Outcome.bind_eq_ok, Outcome.pure_eq_ok] at h
    obtain ⟨txin, -, a', ha', ⟨txinp, total⟩, hrest, h⟩ := h
    cases h
    obtain ⟨hlength, hsum⟩ := ih hrest
    refine ⟨congrArg (· + 1) hlength, ?_⟩
    rw [List.map_cons, List.foldlM_cons, ha', Outcome.ok_bind, hsum]

/-- The lock transaction spends the inputs of the loop and returns what is left of their sum. -/
theorem createLockTransaction_ok
    (h : createLockTransaction B recvPk pubX refundPk changePk inputs amount fee refundTime = .ok tx) :
    ∃ txinp inpAmount rest change, lockInputs B 0 inputs = .ok (txinp, inpAmount) ∧
      subU64 B.overflowChecks inpAmount amount = .ok rest ∧
      subU64 B.overflowChecks rest fee = .ok change ∧
      tx = {
        version := 1
        lockTime := 0
        input := txinp
        output := [⟨amount, lockPubScript B recvPk pubX refundPk refundTime true⟩,
          ⟨change, getP2pkhPubScript B changePk⟩] } := by
  simp only [createLockTransaction, Outcome.bind_eq_ok, Outcome.throw_eq_error, Outcome.pure_eq_ok] at h
  obtain ⟨⟨txinp, inpAmount⟩, hinputs, _, -, h⟩ := h
  split_ifs at h
  · simp only [Outcome.error_bind] at h
    cases h
  · simp only [Outcome.bind_eq_ok] at h
    obtain ⟨script, hscript, rest, hrest, change, hchange, h⟩ := h
    obtain rfl := getLockPubScript_eq_ok hscript
    exact ⟨txinp, inpAmount, rest, change, hinputs, hrest, hchange, (Except.ok.inj h).symm⟩

/-- The outputs of the lock transaction. -/
theorem createLockTransaction_output
    (h : createLockTransaction B recvPk pubX refundPk changePk inputs amount fee refundTime = .ok tx) :
    ∃ change, tx.output = [⟨amount, lockPubScript B recvPk pubX refundPk refundTime true⟩,
      ⟨change, getP2pkhPubScript B changePk⟩] := by
  obtain ⟨_, _, _, change, -, -, -, rfl⟩ := createLockTransaction_ok h
  exact ⟨change, rfl⟩

end

end Lock

/-- The text of a public key is read back. -/
theorem deserializePubKey_serialize {B : BtcLib K P} (hB : B.Lawful) {pk : PublicKey P}
    (h : pk.key ≠ 0) : deserializePubKey B (serializePubKey B pk) = .ok pk := by
  obtain ⟨b, bytes, hbytes, -, hlen⟩ := hB.pubKey_bytes pk
  have hcodec := hB.pubKey_codec pk h
  rw [hbytes] at hcodec
  cases pk with
  | mk compressed key =>
    cases compressed <;>
      simp_all [deserializePubKey, serializePubKey]

/-- The text of a private key is read back. -/
theorem deserializePrivKey_serialize {B : BtcLib K P} (hB : B.Lawful) {sk : PrivateKey K}
    (h : sk.key ≠ 0) : deserializePrivKey B (serializePrivKey B sk) = .ok sk := by
  simp [deserializePrivKey, serializePrivKey, hB.wif_codec sk h]

end MwBtcSwap.Bitcoin
