import MwBtcSwap.Bitcoin.Lock
import MwBtcSwap.Bitcoin.Exponents

/-! The signatures of the Bitcoin side: what signing changes of a transaction, and for which transaction
the signatures are valid. -/

namespace MwBtcSwap.Bitcoin

open Interaction Machine Script

variable {K P : Type} [CommRing K] [AddCommGroup P] [Module K P]

variable {B : BtcLib K P} {tx signed : Transaction}

/-- Two inputs that differ at most in their scripts. -/
structure TxIn.SameButScript (u s : TxIn) : Prop where
  previousOutput : s.previousOutput = u.previousOutput
  sequence : s.sequence = u.sequence
  witness : s.witness = u.witness

/-- Two transactions that differ at most in the scripts of the inputs that satisfy `touched`. -/
structure Transaction.SameBut (touched : ℕ → Prop) (tx signed : Transaction) : Prop where
  version : signed.version = tx.version
  lockTime : signed.lockTime = tx.lockTime
  output : signed.output = tx.output
  length : signed.input.length = tx.input.length
  input : ∀ (i : ℕ) (u s : TxIn), tx.input[i]? = some u → signed.input[i]? = some s → u.SameButScript s
  script : ∀ (i : ℕ) (u s : TxIn), ¬ touched i → tx.input[i]? = some u → signed.input[i]? = some s →
    s.scriptSig = u.scriptSig

/-- Signatures cover what such transactions share. -/
theorem Transaction.SameBut.blank {touched : ℕ → Prop} (h : tx.SameBut touched signed) :
    signed.blank = tx.blank := by
  have hinput : signed.input.map (fun i => ({ i with scriptSig := [], witness := [] } : TxIn)) =
      tx.input.map fun i => { i with scriptSig := [], witness := [] } := by
    refine List.ext_getElem (by simp [h.length]) fun n hn hn' => ?_
    simp only [List.getElem_map]
    rw [List.length_map] at hn hn'
    obtain ⟨hout, hseq, -⟩ := h.input n _ _ (List.getElem?_eq_getElem hn') (List.getElem?_eq_getElem hn)
    rw [hout, hseq]
  simp only [Transaction.blank, hinput, h.version, h.lockTime, h.output]

theorem sameBut_withScriptSig (tx : Transaction) (ix : ℕ) (scriptSig : List UInt8) :
    tx.SameBut (fun i => i = ix) (tx.withScriptSig ix scriptSig) := by
  have hinput : ∀ i, (tx.withScriptSig ix scriptSig).input[i]? =
      tx.input[i]?.map fun u => if i = ix then { u with scriptSig } else u := by
    intro i
    simp [Transaction.withScriptSig]
  refine ⟨rfl, rfl, rfl, by simp [Transaction.withScriptSig], fun i u s hu hs => ?_,
    fun i u s hi hu hs => ?_⟩
  · rw [hinput, hu, Option.map_some] at hs
    cases hs
    split <;> exact ⟨rfl, rfl, rfl⟩
  · rw [hinput, hu, Option.map_some, if_neg hi] at hs
    cases hs
    rfl

/-- A signature verifies against the hash of an input, and carries the type of the hash. -/
def Signs (B : BtcLib K P) (tx : Transaction) (ix : ℕ) (script : List UInt8) (pk : PublicKey P)
    (sig : List UInt8) : Prop :=
  ∃ der, sig = der ++ [sighashAll] ∧
    B.verify (B.sigHash tx ix script sighashAll) der (B.pubKeyToBytes pk) = true

/-- A signature of a transaction signs every other one that shares what it covers. -/
theorem signs_signInput (hB : B.Lawful) {ix : ℕ} {script : List UInt8} {sk : PrivateKey K}
    (hk : sk.key ≠ 0) (hblank : signed.blank = tx.blank) :
    Signs B signed ix script (B.publicKey sk) (signInput B tx ix script sk) := by
  refine ⟨_, rfl, ?_⟩
  rw [BtcLib.sigHash, hblank]
  exact hB.sign_verifies sk _ hk

/-- Lists of scripts, secret keys and their public keys that go with `n` inputs. -/
def Parallel (B : BtcLib K P) (n : ℕ) (scripts : List (List UInt8)) (skeys : List (PrivateKey K))
    (pkeys : List (PublicKey P)) : Prop :=
  ∀ i < n, ∃ script sk, scripts[i]? = some script ∧ skeys[i]? = some sk ∧
    pkeys[i]? = some (B.publicKey sk) ∧ sk.key ≠ 0

/-- An input with the signature and the public key that a P2PKH output asks for. -/
def signedP2pkhInput (B : BtcLib K P) (tx : Transaction) (ix : ℕ) (u : TxIn) (script : List UInt8)
    (sk : PrivateKey K) : TxIn :=
  { u with scriptSig :=
      assemble [pushSlice (signInput B tx ix script sk), pushKey B (B.publicKey sk)] }

/-- `sign_p2pkh_transaction` signs every input with its own key. -/
theorem signP2pkhTransaction_inputs {scripts : List (List UInt8)} {skeys : List (PrivateKey K)}
    {pkeys : List (PublicKey P)} (h : Parallel B tx.input.length scripts skeys pkeys) :
    ∃ signed, signP2pkhTransaction B tx scripts skeys pkeys = .ok signed ∧
      tx.SameBut (fun _ => True) signed ∧
      ∀ i s, signed.input[i]? = some s → ∃ u script sk, tx.input[i]? = some u ∧
        scripts[i]? = some script ∧ skeys[i]? = some sk ∧ sk.key ≠ 0 ∧
        s = signedP2pkhInput B tx i u script sk := by
  have hbody : ∀ a ∈ tx.input.zipIdx, ∃ s, (do
      let scriptPubkey ← Outcome.unwrap "called `Option::unwrap()` on a `None` value" scripts[a.2]?
      let signingKey ← Outcome.unwrap "called `Option::unwrap()` on a `None` value" skeys[a.2]?
      let pubKey ← Outcome.unwrap "called `Option::unwrap()` on a `None` value" pkeys[a.2]?
      let sig := signInput B tx a.2 scriptPubkey signingKey
      return { a.1 with scriptSig := assemble [pushSlice sig, pushKey B pubKey] }) =
        (.ok s : Outcome TxIn) ∧ ∃ script sk, scripts[a.2]? = some script ∧ skeys[a.2]? = some sk ∧
        sk.key ≠ 0 ∧ s = signedP2pkhInput B tx a.2 a.1 script sk := by
    rintro ⟨u, i⟩ hu
    rw [List.mk_mem_zipIdx_iff_getElem?] at hu
    obtain ⟨hi, -⟩ := List.getElem?_eq_some_iff.mp hu
    obtain ⟨script, sk, hscript, hsk, hpk, hkey⟩ := h i hi
    refine ⟨signedP2pkhInput B tx i u script sk, ?_, script, sk, hscript, hsk, hkey, rfl⟩
    simp only [hscript, hsk, hpk, Outcome.unwrap_some, Outcome.ok_bind]
    rfl
  obtain ⟨inputs, hinputs, hlength, hall⟩ := Outcome.exists_mapM hbody
  rw [List.length_zipIdx] at hlength
  have hsign : signP2pkhTransaction B tx scripts skeys pkeys = .ok { tx with input := inputs } := by
    unfold signP2pkhTransaction
    exact congrArg (fun x => x >>= _) hinputs
  -- every input comes from the one at its index
  have hinput : ∀ (i : ℕ) (s : TxIn), inputs[i]? = some s → ∃ u script sk, tx.input[i]? = some u ∧
      scripts[i]? = some script ∧ skeys[i]? = some sk ∧ sk.key ≠ 0 ∧
      s = signedP2pkhInput B tx i u script sk := by
    intro i s hs
    obtain ⟨⟨u, j⟩, hu, script, sk, hscript, hsk, hkey, hs⟩ := hall i s hs
    obtain ⟨hinp, rfl⟩ : tx.input[i]? = some u ∧ i = j := by
      simpa [List.getElem?_zipIdx] using hu
    exact ⟨u, script, sk, hinp, hscript, hsk, hkey, hs⟩
  refine ⟨_, hsign, ⟨rfl, rfl, rfl, hlength, fun i u s hu hs => ?_, fun i u s hi => (hi trivial).elim⟩,
    hinput⟩
  obtain ⟨u', script, sk, hu', -, -, -, rfl⟩ := hinput i s hs
  obtain rfl : u = u' := Option.some.inj (hu.symm.trans hu')
  exact ⟨rfl, rfl, rfl⟩

theorem signP2pkhTransaction_signs (hB : B.Lawful) {scripts : List (List UInt8)}
    {skeys : List (PrivateKey K)} {pkeys : List (PublicKey P)}
    (h : Parallel B tx.input.length scripts skeys pkeys) :
    ∃ signed, signP2pkhTransaction B tx scripts skeys pkeys = .ok signed ∧
      tx.SameBut (fun _ => True) signed ∧
      ∀ i s, signed.input[i]? = some s → ∃ script sk sig, scripts[i]? = some script ∧
        skeys[i]? = some sk ∧ s.scriptSig = assemble [pushSlice sig, pushKey B (B.publicKey sk)] ∧
        Signs B signed i script (B.publicKey sk) sig := by
  obtain ⟨signed, hsign, hsame, hinput⟩ := signP2pkhTransaction_inputs h
  refine ⟨signed, hsign, hsame, fun i s hs => ?_⟩
  obtain ⟨u, script, sk, -, hscript, hsk, hkey, rfl⟩ := hinput i s hs
  exact ⟨script, sk, _, hscript, hsk, rfl, signs_signInput hB hkey hsame.blank⟩

/-- The script of an input, after it is signed. -/
theorem scriptSig_withScriptSig {ix : ℕ} {scriptSig : List UInt8} {s : TxIn}
    (h : (tx.withScriptSig ix scriptSig).input[ix]? = some s) : s.scriptSig = scriptSig := by
  simp only [Transaction.withScriptSig, List.getElem?_mapIdx, Option.map_eq_some_iff, if_true] at h
  obtain ⟨u, -, rfl⟩ := h
  rfl

theorem signLockTransactionRedeemer_signs (hB : B.Lawful) (tx : Transaction) (ix : ℕ)
    (lockScript : List UInt8) {sk x : PrivateKey K} (hsk : sk.key ≠ 0) (hx : x.key ≠ 0) :
    tx.SameBut (fun i => i = ix) (signLockTransactionRedeemer B tx ix lockScript sk x) ∧
      ∀ s, (signLockTransactionRedeemer B tx ix lockScript sk x).input[ix]? = some s →
        ∃ sigA sigX, s.scriptSig = assemble (redeemScript sigA sigX lockScript) ∧
          Signs B (signLockTransactionRedeemer B tx ix lockScript sk x) ix lockScript
            (B.publicKey sk) sigA ∧
          Signs B (signLockTransactionRedeemer B tx ix lockScript sk x) ix lockScript
            (B.publicKey x) sigX := by
  unfold signLockTransactionRedeemer
  have hsame := sameBut_withScriptSig tx ix (assemble (redeemScript
    (signInput B tx ix lockScript sk) (signInput B tx ix lockScript x) lockScript))
  exact ⟨hsame, fun s hs => ⟨_, _, scriptSig_withScriptSig hs, signs_signInput hB hsk hsame.blank,
    signs_signInput hB hx hsame.blank⟩⟩

theorem signLockTransactionRefund_signs (hB : B.Lawful) (tx : Transaction) (ix : ℕ)
    (lockScript : List UInt8) {sk : PrivateKey K} (hsk : sk.key ≠ 0) :
    tx.SameBut (fun i => i = ix) (signLockTransactionRefund B tx ix lockScript sk) ∧
      ∀ s, (signLockTransactionRefund B tx ix lockScript sk).input[ix]? = some s →
        ∃ sig, s.scriptSig = assemble (refundScript sig lockScript) ∧
          Signs B (signLockTransactionRefund B tx ix lockScript sk) ix lockScript
            (B.publicKey sk) sig := by
  unfold signLockTransactionRefund
  have hsame := sameBut_withScriptSig tx ix
    (assemble (refundScript (signInput B tx ix lockScript sk) lockScript))
  exact ⟨hsame, fun s hs => ⟨_, scriptSig_withScriptSig hs, signs_signInput hB hsk hsame.blank⟩⟩

/-- Signing writes input scripts and nothing else, and every signature that it writes is one of the
transaction that it returns. -/
theorem signing_exact (hB : B.Lawful) (tx : Transaction) :
    (∀ scripts skeys pkeys, Parallel B tx.input.length scripts skeys pkeys →
      ∃ signed, signP2pkhTransaction B tx scripts skeys pkeys = .ok signed ∧
        tx.SameBut (fun _ => True) signed ∧
        ∀ i s, signed.input[i]? = some s → ∃ script sk sig, scripts[i]? = some script ∧
          skeys[i]? = some sk ∧ s.scriptSig = assemble [pushSlice sig, pushKey B (B.publicKey sk)] ∧
          Signs B signed i script (B.publicKey sk) sig) ∧
    ∀ ix lockScript (sk x : PrivateKey K), sk.key ≠ 0 → x.key ≠ 0 →
      (tx.SameBut (fun i => i = ix) (signLockTransactionRedeemer B tx ix lockScript sk x) ∧
        ∀ s, (signLockTransactionRedeemer B tx ix lockScript sk x).input[ix]? = some s →
          ∃ sigA sigX, s.scriptSig = assemble (redeemScript sigA sigX lockScript) ∧
            Signs B (signLockTransactionRedeemer B tx ix lockScript sk x) ix lockScript
              (B.publicKey sk) sigA ∧
            Signs B (signLockTransactionRedeemer B tx ix lockScript sk x) ix lockScript
              (B.publicKey x) sigX) ∧
      (tx.SameBut (fun i => i = ix) (signLockTransactionRefund B tx ix lockScript sk) ∧
        ∀ s, (signLockTransactionRefund B tx ix lockScript sk).input[ix]? = some s →
          ∃ sig, s.scriptSig = assemble (refundScript sig lockScript) ∧
            Signs B (signLockTransactionRefund B tx ix lockScript sk) ix lockScript
              (B.publicKey sk) sig) := by
  refine ⟨fun scripts skeys pkeys h => signP2pkhTransaction_signs hB h, ?_⟩
  intro ix lockScript sk x hsk hx
  exact ⟨signLockTransactionRedeemer_signs hB tx ix lockScript hsk hx,
    signLockTransactionRefund_signs hB tx ix lockScript hsk⟩

/-! ### Outputs that pay to a key -/

/-- Signatures are longer than hashes. -/
def LongSignatures (B : BtcLib K P) : Prop := ∀ msg k, 20 ≤ (B.sign msg k).length

theorem getP2pkhPubScript_eq (hB : B.Lawful) (pk : PublicKey P) :
    getP2pkhPubScript B pk = assemble (payToPubkeyHash (B.hash160 (B.pubKeyToBytes pk))) := by
  have hlen := hB.hash160_length (B.pubKeyToBytes pk)
  rw [getP2pkhPubScript, pushSlice, if_pos (by omega), payToPubkeyHash]

/-- The input script of a P2PKH output leaves the key over the signature. -/
theorem evalBytes_signedP2pkhInput (hB : B.Lawful) (C : Checker) (tx : Transaction) (ix : ℕ) (u : TxIn)
    (script : List UInt8) (sk : PrivateKey K) :
    evalBytes C (signedP2pkhInput B tx ix u script sk).scriptSig [] =
      some [B.pubKeyToBytes (B.publicKey sk), signInput B tx ix script sk] := by
  have hsig := length_signInput hB tx ix script sk
  have hkey := length_pubKeyToBytes hB (B.publicKey sk)
  have hpushes : List.Forall₂ (Instr.Pushes C)
      [pushSlice (signInput B tx ix script sk), pushKey B (B.publicKey sk)]
      [signInput B tx ix script sk, B.pubKeyToBytes (B.publicKey sk)] :=
    .cons (pushes_of_length hsig) (.cons (pushes_of_length (by omega)) .nil)
  refine (evalBytes_pushes ?_ hpushes).2
  have h1 := length_pushSlice_bytes_le hsig
  have h2 := length_pushSlice_bytes_le (show (B.pubKeyToBytes (B.publicKey sk)).length ≤ 217 by omega)
  simp only [maxScript, assemble, pushKey, List.flatMap_cons, List.flatMap_nil, List.length_append,
    List.length_nil]
  omega

/-- A signed input spends the output of its key. -/
theorem satisfies_signedP2pkhInput (hB : B.Lawful) (hlong : LongSignatures B) {ix : ℕ} {u : TxIn}
    {sk : PrivateKey K} (hkey : sk.key ≠ 0) (hblank : signed.blank = tx.blank)
    (hinput : signed.input[ix]? =
      some (signedP2pkhInput B tx ix u (getP2pkhPubScript B (B.publicKey sk)) sk)) :
    B.satisfies signed ix (getP2pkhPubScript B (B.publicKey sk)) = true := by
  have hlen := hB.hash160_length (B.pubKeyToBytes (B.publicKey sk))
  have hlong : 20 < (signInput B tx ix (getP2pkhPubScript B (B.publicKey sk)) sk).length := by
    have hder := hlong (B.sigHash tx ix (getP2pkhPubScript B (B.publicKey sk)) sighashAll) sk.key
    simp only [signInput, serializeSigDerWithSighash, List.length_append, List.length_singleton]
    omega
  obtain ⟨bytes, hbytes, -, hshort⟩ :=
    signInput_bytes hB tx ix (getP2pkhPubScript B (B.publicKey sk)) sk
  have hshort : (signInput B tx ix (getP2pkhPubScript B (B.publicKey sk)) sk).length < 76 := by
    rw [hbytes, List.length_cons]
    omega
  have hcheck : checkSigs (B.checker signed ix)
      (payToPubkeyHash (B.hash160 (B.pubKeyToBytes (B.publicKey sk))))
      [signInput B tx ix (getP2pkhPubScript B (B.publicKey sk)) sk]
      (signInput B tx ix (getP2pkhPubScript B (B.publicKey sk)) sk)
      (B.pubKeyToBytes (B.publicKey sk)) = true := by
    rw [checkSigs, List.foldl_cons, List.foldl_nil, findAndDelete_payToPubkeyHash hlen hlong hshort,
      ← getP2pkhPubScript_eq hB]
    exact checkSig_signInput hB hkey hblank
  rw [BtcLib.satisfies, hinput, Option.any_some]
  conv => enter [1, 3]; rw [getP2pkhPubScript_eq hB]
  exact verifyScript_payToPubkeyHash hlen (evalBytes_signedP2pkhInput hB _ tx ix u _ sk) rfl hcheck

/-- Two inputs of different keys. -/
def sampleSignedInputs : Transaction :=
  { version := 1
    lockTime := 0
    input := [⟨⟨⟨List.replicate 32 9⟩, 0⟩, [], finalSequence, []⟩,
      ⟨⟨⟨List.replicate 32 9⟩, 1⟩, [], finalSequence, []⟩]
    output := [⟨1000, []⟩] }

theorem signing_exact_sample :
    ∃ signed, signP2pkhTransaction (btcExponents []) sampleSignedInputs [[1], [2]]
        [⟨true, .testnet, 3⟩, ⟨true, .testnet, 5⟩] [⟨true, 3⟩, ⟨true, 5⟩] = .ok signed ∧
      signed.output = sampleSignedInputs.output ∧
      (signLockTransactionRedeemer (btcExponents []) sampleSignedInputs 0 [1] ⟨true, .testnet, 3⟩
        ⟨true, .testnet, 5⟩).output = sampleSignedInputs.output := by
  obtain ⟨hall, hlock⟩ := signing_exact (btcExponents_lawful []) sampleSignedInputs
  obtain ⟨signed, hsigned, hsame, -⟩ := hall [[1], [2]]
    [⟨true, .testnet, 3⟩, ⟨true, .testnet, 5⟩] [⟨true, 3⟩, ⟨true, 5⟩] (by
      intro i hi
      have hcases : i = 0 ∨ i = 1 := by
        have hlen : sampleSignedInputs.input.length = 2 := rfl
        omega
      rcases hcases with rfl | rfl
      · exact ⟨[1], ⟨true, .testnet, 3⟩, rfl, rfl, by decide, by decide⟩
      · exact ⟨[2], ⟨true, .testnet, 5⟩, rfl, rfl, by decide, by decide⟩)
  obtain ⟨⟨hredeem, -⟩, -⟩ := hlock 0 [1] ⟨true, .testnet, 3⟩ ⟨true, .testnet, 5⟩ (by decide) (by decide)
  exact ⟨signed, hsigned, hsame.output, hredeem.output⟩

end MwBtcSwap.Bitcoin
