import MwBtcSwap.Bitcoin.Core
import MwBtcSwap.Bitcoin.Exponents

/-! The values of the lock transaction: what `create_lock_transaction` computes with `u64`, against the
exact sums of its inputs and outputs. -/

namespace MwBtcSwap.Bitcoin

open Interaction Machine

variable {K P : Type}

variable {B : BtcLib K P} {recvPk pubX refundPk changePk : PublicKey P} {inputs : List BTCInput}
  {outpoints : List OutPoint} {amount fee : ℕ} {refundTime : ℤ}

theorem unsignedInput_eq {message : String} {sequence : ℕ} {inp : BTCInput} {outpoint : OutPoint}
    (h : inp.outpoint = some outpoint) :
    unsignedInput message inp sequence = .ok ⟨outpoint, [], sequence, []⟩ := by
  obtain ⟨txid, htxid, rfl⟩ := Option.map_eq_some_iff.mp h
  simp [unsignedInput, htxid]

theorem unsignedInput_none {message : String} {sequence : ℕ} {inp : BTCInput}
    (h : inp.outpoint = none) : unsignedInput message inp sequence = .error (.panic message) := by
  rw [unsignedInput, Option.map_eq_none_iff.mp h]
  rfl

/-- Inputs with outpoints that can be read become inputs of a transaction, in order. -/
theorem lockInputs_eq (a : ℕ) (h : inputs.map BTCInput.outpoint = outpoints.map some) :
    lockInputs B a inputs = (inputs.map BTCInput.value).foldlM (addU64 B.overflowChecks) a >>=
      fun total => .ok (outpoints.map fun o => ⟨o, [], finalSequence, []⟩, total) := by
  induction inputs generalizing a outpoints with
  | nil =>
    obtain rfl : outpoints = [] := by simpa using h.symm
    rfl
  | cons inp inputs ih =>
    cases outpoints with
    | nil => cases h
    | cons o outpoints =>
      simp only [List.map_cons, List.cons.injEq] at h
      obtain ⟨hinp, hrest⟩ := h
      rw [lockInputs, unsignedInput_eq hinp, List.map_cons, List.foldlM_cons, Outcome.ok_bind]
      cases addU64 B.overflowChecks a inp.value with
      | error e => rfl
      | ok a' =>
        rw [Outcome.ok_bind, Outcome.ok_bind, ih a' hrest]
        cases (inputs.map BTCInput.value).foldlM (addU64 B.overflowChecks) a' <;> rfl

/-- The inputs before the first one that cannot be read. -/
def readableInputs (inputs : List BTCInput) : List BTCInput :=
  inputs.takeWhile fun inp => inp.outpoint.isSome

/-- The loop stops at the first input that cannot be read, if no sum overflows before. -/
theorem lockInputs_unreadable (a : ℕ) (h : ∃ inp ∈ inputs, inp.outpoint = none) :
    lockInputs B a inputs =
      ((readableInputs inputs).map BTCInput.value).foldlM (addU64 B.overflowChecks) a >>=
        fun _ => .error (.panic "Failed to parse tx id from string") := by
  induction inputs generalizing a with
  | nil => simp at h
  | cons inp inputs ih =>
    rw [lockInputs]
    cases hinp : inp.outpoint with
    | none =>
      rw [unsignedInput_none hinp, readableInputs, List.takeWhile_cons_of_neg (by simp [hinp])]
      rfl
    | some outpoint =>
      have hrest : ∃ inp ∈ inputs, inp.outpoint = none := by simpa [hinp] using h
      rw [unsignedInput_eq hinp, readableInputs, List.takeWhile_cons_of_pos (by simp [hinp]),
        List.map_cons, List.foldlM_cons, Outcome.ok_bind]
      cases addU64 B.overflowChecks a inp.value with
      | error e => rfl
      | ok a' =>
        rw [Outcome.ok_bind, Outcome.ok_bind, ih a' hrest, ← readableInputs]
        cases ((readableInputs inputs).map BTCInput.value).foldlM (addU64 B.overflowChecks) a' <;> rfl

/-- The outpoints of a list in which all can be read. -/
theorem exists_outpoints (h : ∀ inp ∈ inputs, inp.outpoint.isSome) :
    ∃ outpoints : List OutPoint, inputs.map BTCInput.outpoint = outpoints.map some := by
  induction inputs with
  | nil => exact ⟨[], rfl⟩
  | cons inp inputs ih =>
    obtain ⟨hinp, hrest⟩ := List.forall_mem_cons.mp h
    obtain ⟨outpoint, hout⟩ := Option.isSome_iff_exists.mp hinp
    obtain ⟨outpoints, houts⟩ := ih hrest
    exact ⟨outpoint :: outpoints, by rw [List.map_cons, hout, houts, List.map_cons]⟩

/-- An outpoint that cannot be read is a panic, like a sum that overflows before. -/
theorem createLockTransaction_unreadable (h : ∃ inp ∈ inputs, inp.outpoint = none) :
    createLockTransaction B recvPk pubX refundPk changePk inputs amount fee refundTime =
      if B.overflowChecks = true ∧ 2 ^ 64 ≤ ((readableInputs inputs).map BTCInput.value).sum then
        .error (.panic "attempt to add with overflow")
      else .error (.panic "Failed to parse tx id from string") := by
  rw [createLockTransaction, lockInputs_unreadable 0 h, foldlM_addU64_eq _ _ (by decide), Nat.zero_add]
  split <;> rfl

/-- In exact integers: an error when the inputs do not pay for the amount and the fee, and otherwise a
transaction that spends them, locks the amount and returns the rest to the change key. -/
def LockConserves (B : BtcLib K P) (recvPk pubX refundPk changePk : PublicKey P)
    (inputs : List BTCInput) (outpoints : List OutPoint) (amount fee : ℕ) (refundTime : ℤ) : Prop :=
  let total := (inputs.map BTCInput.value).sum
  let result := createLockTransaction B recvPk pubX refundPk changePk inputs amount fee refundTime
  (total < amount + fee → ∃ msg, result = .error (.err msg)) ∧
    (amount + fee ≤ total → ∃ tx, result = .ok tx ∧ tx.input.map TxIn.previousOutput = outpoints ∧
      tx.output = [⟨amount, lockPubScript B recvPk pubX refundPk refundTime true⟩,
        ⟨total - amount - fee, getP2pkhPubScript B changePk⟩])

/-- The transaction that is built after the tests, for the remainders of the sums. -/
theorem createLockTransaction_eq (houts : inputs.map BTCInput.outpoint = outpoints.map some)
    (hamount : amount < 2 ^ 64) (hfee : fee < 2 ^ 64) :
    createLockTransaction B recvPk pubX refundPk changePk inputs amount fee refundTime =
      if B.overflowChecks = true ∧
          (2 ^ 64 ≤ (inputs.map BTCInput.value).sum ∨ 2 ^ 64 ≤ amount + fee) then
        .error (.panic "attempt to add with overflow")
      else if (inputs.map BTCInput.value).sum % 2 ^ 64 < (amount + fee) % 2 ^ 64 then
        .error (.err "Input coin amount is too little")
      else if B.overflowChecks = true ∧ refundTime = -2 ^ 63 then
        .error (.panic "attempt to negate with overflow")
      else .ok {
        version := 1
        lockTime := 0
        input := outpoints.map fun o => ⟨o, [], finalSequence, []⟩
        output := [⟨amount, lockPubScript B recvPk pubX refundPk refundTime true⟩,
          ⟨(2 * 2 ^ 64 + (inputs.map BTCInput.value).sum % 2 ^ 64 - amount - fee) % 2 ^ 64,
            getP2pkhPubScript B changePk⟩] } := by
  generalize htotal : (inputs.map BTCInput.value).sum = total
  simp only [createLockTransaction, lockInputs_eq _ houts, foldlM_addU64_eq _ _ (Nat.two_pow_pos 64),
    htotal, Nat.zero_add, addU64_eq, getLockPubScript, Outcome.throw_eq_error, Outcome.pure_eq_ok]
  by_cases hchecks : B.overflowChecks = true
  · simp only [hchecks, true_and]
    by_cases hover : 2 ^ 64 ≤ total
    · simp only [hover, if_true, Outcome.error_bind, true_or]
    by_cases hneed : 2 ^ 64 ≤ amount + fee
    · simp only [hover, hneed, if_true, if_false, Outcome.ok_bind, Outcome.error_bind, or_true]
    simp only [hover, hneed, if_false, Outcome.ok_bind, or_self]
    by_cases hlt : total % 2 ^ 64 < (amount + fee) % 2 ^ 64
    · simp only [hlt, if_true, Outcome.error_bind]
    simp only [hlt, if_false]
    by_cases hmin : refundTime = -2 ^ 63
    · simp only [hmin, if_true, Outcome.error_bind]
    · have hchange : total % 2 ^ 64 - amount - fee =
          (2 * 2 ^ 64 + total % 2 ^ 64 - amount - fee) % 2 ^ 64 := by omega
      simp only [hmin, if_false, Outcome.ok_bind]
      rw [subU64_of_le (by omega), Outcome.ok_bind, subU64_of_le (by omega), Outcome.ok_bind, hchange]
  · rw [Bool.not_eq_true] at hchecks
    simp only [hchecks, Bool.false_eq_true, false_and, if_false, Outcome.ok_bind]
    by_cases hlt : total % 2 ^ 64 < (amount + fee) % 2 ^ 64
    · simp only [hlt, if_true, Outcome.error_bind]
    · have hchange : (2 ^ 64 + (2 ^ 64 + total % 2 ^ 64 - amount) % 2 ^ 64 - fee) % 2 ^ 64 =
          (2 * 2 ^ 64 + total % 2 ^ 64 - amount - fee) % 2 ^ 64 := by omega
      simp only [hlt, if_false]
      rw [subU64_eq _ (by omega)]
      simp only [Bool.false_eq_true, false_and, if_false, Outcome.ok_bind]
      rw [subU64_eq _ (by omega)]
      simp only [Bool.false_eq_true, false_and, if_false, Outcome.ok_bind, hchange]

/-- Inputs that pay, and whose sum is below `2 ^ 64`, are spent. -/
theorem createLockTransaction_of_le (B : BtcLib K P) (recvPk pubX refundPk changePk : PublicKey P)
    {refundTime : ℤ} (htime : 0 ≤ refundTime)
    (houts : inputs.map BTCInput.outpoint = outpoints.map some)
    (hlt : (inputs.map BTCInput.value).sum < 2 ^ 64)
    (hle : amount + fee ≤ (inputs.map BTCInput.value).sum) :
    createLockTransaction B recvPk pubX refundPk changePk inputs amount fee refundTime = .ok {
      version := 1
      lockTime := 0
      input := outpoints.map fun o => ⟨o, [], finalSequence, []⟩
      output := [⟨amount, lockPubScript B recvPk pubX refundPk refundTime true⟩,
        ⟨(inputs.map BTCInput.value).sum - amount - fee, getP2pkhPubScript B changePk⟩] } := by
  have hchange : (2 * 2 ^ 64 + (inputs.map BTCInput.value).sum - amount - fee) % 2 ^ 64 =
      (inputs.map BTCInput.value).sum - amount - fee := by omega
  rw [createLockTransaction_eq houts (by omega) (by omega), if_neg (by omega),
    Nat.mod_eq_of_lt hlt, Nat.mod_eq_of_lt (show amount + fee < 2 ^ 64 by omega), if_neg (by omega),
    if_neg (by omega), hchange]

/-- A panic is neither of the results. -/
theorem not_lockConserves_of_panic {msg : String}
    (h : createLockTransaction B recvPk pubX refundPk changePk inputs amount fee refundTime =
      .error (.panic msg)) :
    ¬ LockConserves B recvPk pubX refundPk changePk inputs outpoints amount fee refundTime := by
  rintro ⟨herr, hok⟩
  rw [h] at herr hok
  rcases Nat.lt_or_ge (inputs.map BTCInput.value).sum (amount + fee) with hlt | hle
  · obtain ⟨_, herr⟩ := herr hlt
    cases herr
  · obtain ⟨_, hok, -⟩ := hok hle
    cases hok

theorem lockConserves_of_err {msg : String}
    (h : createLockTransaction B recvPk pubX refundPk changePk inputs amount fee refundTime =
      .error (.err msg)) :
    LockConserves B recvPk pubX refundPk changePk inputs outpoints amount fee refundTime ↔
      (inputs.map BTCInput.value).sum < amount + fee := by
  rw [LockConserves, h]
  constructor
  · rintro ⟨-, hok⟩
    by_contra hle
    obtain ⟨_, hok, -⟩ := hok (Nat.le_of_not_lt hle)
    cases hok
  · intro hlt
    exact ⟨fun _ => ⟨msg, rfl⟩, fun hle => absurd hlt (Nat.not_lt.mpr hle)⟩

/-- A transaction is the right one if the inputs pay, and its change is what they leave. -/
theorem lockConserves_of_ok {change : ℕ}
    (h : createLockTransaction B recvPk pubX refundPk changePk inputs amount fee refundTime = .ok {
      version := 1
      lockTime := 0
      input := outpoints.map fun o => ⟨o, [], finalSequence, []⟩
      output := [⟨amount, lockPubScript B recvPk pubX refundPk refundTime true⟩,
        ⟨change, getP2pkhPubScript B changePk⟩] }) :
    LockConserves B recvPk pubX refundPk changePk inputs outpoints amount fee refundTime ↔
      amount + fee ≤ (inputs.map BTCInput.value).sum ∧
        change = (inputs.map BTCInput.value).sum - amount - fee := by
  rw [LockConserves, h]
  constructor
  · rintro ⟨herr, hok⟩
    rcases Nat.lt_or_ge (inputs.map BTCInput.value).sum (amount + fee) with hlt | hle
    · obtain ⟨_, herr⟩ := herr hlt
      cases herr
    · obtain ⟨_, htx, -, hout⟩ := hok hle
      cases htx
      simp only [List.cons.injEq, TxOut.mk.injEq, and_true, true_and] at hout
      exact ⟨hle, hout⟩
  · rintro ⟨hle, rfl⟩
    refine ⟨fun hlt => absurd hlt (Nat.not_lt.mpr hle), fun _ => ⟨_, rfl, ?_, rfl⟩⟩
    rw [List.map_map]
    exact List.map_id _

/-- `create_lock_transaction` is exact when it is checked and nothing overflows, also not the negation of
the time.  Without checks it is exact when both sums lost the same multiple of `2 ^ 64`, or when the inputs
are below the remainder of the other sum. -/
theorem createLockTransaction_conserves_iff (houts : inputs.map BTCInput.outpoint = outpoints.map some)
    (hamount : amount < 2 ^ 64) (hfee : fee < 2 ^ 64) :
    LockConserves B recvPk pubX refundPk changePk inputs outpoints amount fee refundTime ↔
      if B.overflowChecks then
        (inputs.map BTCInput.value).sum < 2 ^ 64 ∧ amount + fee < 2 ^ 64 ∧
          (refundTime = -2 ^ 63 → (inputs.map BTCInput.value).sum < amount + fee)
      else
        (inputs.map BTCInput.value).sum / 2 ^ 64 = (amount + fee) / 2 ^ 64 ∨
          (inputs.map BTCInput.value).sum + 2 ^ 64 < amount + fee := by
  have heq : createLockTransaction B recvPk pubX refundPk changePk inputs amount fee refundTime = _ :=
    createLockTransaction_eq houts hamount hfee
  by_cases hover : B.overflowChecks = true ∧
      (2 ^ 64 ≤ (inputs.map BTCInput.value).sum ∨ 2 ^ 64 ≤ amount + fee)
  · rw [if_pos hover] at heq
    rw [if_pos hover.1]
    refine iff_of_false (not_lockConserves_of_panic heq) ?_
    rintro ⟨htotal, hneed, -⟩
    omega
  have hsums : B.overflowChecks = true → (inputs.map BTCInput.value).sum < 2 ^ 64 ∧ amount + fee < 2 ^ 64 := by
    intro hchecks
    have hnot : ¬ (2 ^ 64 ≤ (inputs.map BTCInput.value).sum ∨ 2 ^ 64 ≤ amount + fee) :=
      fun h => hover ⟨hchecks, h⟩
    omega
  rw [if_neg hover] at heq
  by_cases hlt : (inputs.map BTCInput.value).sum % 2 ^ 64 < (amount + fee) % 2 ^ 64
  · rw [if_pos hlt] at heq
    rw [lockConserves_of_err heq]
    split
    · have := hsums ‹_›
      omega
    · omega
  rw [if_neg hlt] at heq
  by_cases hnegate : B.overflowChecks = true ∧ refundTime = -2 ^ 63
  · rw [if_pos hnegate] at heq
    rw [if_pos hnegate.1]
    refine iff_of_false (not_lockConserves_of_panic heq) ?_
    rintro ⟨htotal, hneed, hless⟩
    have := hless hnegate.2
    omega
  · rw [if_neg hnegate] at heq
    rw [lockConserves_of_ok heq]
    split
    · have hmin : refundTime ≠ -2 ^ 63 := fun h => hnegate ⟨‹_›, h⟩
      have := hsums ‹_›
      omega
    · omega

/-- An output of a value. -/
def sampleValueInput (value : ℕ) : BTCInput :=
  ⟨Txid.toText ⟨List.replicate 32 9⟩, 0, value, "", "", ""⟩

theorem createLockTransaction_conserves_sample :
    LockConserves (btcExponents []) ⟨true, 3⟩ ⟨true, 5⟩ ⟨true, 7⟩ ⟨true, 9⟩ [sampleValueInput 200000]
      [⟨⟨List.replicate 32 9⟩, 0⟩] 100000 500 700000 :=
  (createLockTransaction_conserves_iff (by decide) (by norm_num) (by norm_num)).mpr (by decide)

/-- Two inputs whose sum is past `2 ^ 64`: nothing seems to be there. -/
theorem createLockTransaction_wraps :
    ¬ LockConserves (btcExponents []) ⟨true, 3⟩ ⟨true, 5⟩ ⟨true, 7⟩ ⟨true, 9⟩
      [sampleValueInput (2 ^ 63), sampleValueInput (2 ^ 63)]
      [⟨⟨List.replicate 32 9⟩, 0⟩, ⟨⟨List.replicate 32 9⟩, 0⟩] 100000 500 700000 := by
  rintro ⟨-, hok⟩
  obtain ⟨tx, h, -⟩ := hok (by decide)
  have houts : [sampleValueInput (2 ^ 63), sampleValueInput (2 ^ 63)].map BTCInput.outpoint =
      [⟨⟨List.replicate 32 9⟩, 0⟩, ⟨⟨List.replicate 32 9⟩, 0⟩].map some := by decide
  have herr : createLockTransaction (btcExponents []) ⟨true, 3⟩ ⟨true, 5⟩ ⟨true, 7⟩ ⟨true, 9⟩
      [sampleValueInput (2 ^ 63), sampleValueInput (2 ^ 63)] 100000 500 700000 =
      .error (.err "Input coin amount is too little") := by
    rw [createLockTransaction_eq houts (by norm_num) (by norm_num)]
    decide
  rw [herr] at h
  cases h

end MwBtcSwap.Bitcoin
