import MwBtcSwap.Bitcoin.Values
import MwBtcSwap.Grin.Spend
import MwBtcSwap.Swap.Handshake
import Mathlib.Data.List.TakeWhile

/-! What the value check of `listen` admits, against what the locking phase asks of the inputs. -/

namespace MwBtcSwap

open Interaction Machine Grin Bitcoin

variable {K P : Type} [CommRing K] [AddCommGroup P] [Module K P] [DecidableEq K] [DecidableEq P]

variable {L : GrinLib K P} {B : BtcLib K P} {rand : Rand K} {slate : SwapSlate K P}

/-- The values cover what is needed, as the program adds and compares them. -/
def SumsCover (checks : Bool) (total need : ℕ) : Prop :=
  if checks then total < 2 ^ 64 ∧ need ≤ total else need % 2 ^ 64 ≤ total % 2 ^ 64

instance (checks : Bool) (total need : ℕ) : Decidable (SumsCover checks total need) := by
  unfold SumsCover
  infer_instance

/-- `listen` does not reject the slate, and goes on to its socket. -/
def Admits (L : GrinLib K P) (B : BtcLib K P) (rand : Rand K) (clients : ℕ) (slate : SwapSlate K P) :
    Prop :=
  ∃ k, listenExecute L B rand clients slate = .call slate .bind k

/-- A failure for lack of value: the error of the test, or a sum that does not fit. -/
def LacksValue {α : Type} (message : String) (x : Outcome α) : Prop :=
  x = .error (.err message) ∨ x = .error (.panic "attempt to add with overflow")

/-- The transaction that the locking phase of the offerer starts with fails for lack of value. -/
def BuilderLacksValue (L : GrinLib K P) (B : BtcLib K P) (rand : Rand K) (slate : SwapSlate K P) : Prop :=
  match slate.offerer with
  | .mw => LacksValue "Spend coins function failed, input coins do not have enough value"
      (spendCoins L rand.lockMw.spend slate.prvSlate.mw.inputs slate.pubSlate.mw.amount 0 2 3)
  | .btc => ∃ recvPk pubX refundPk changePk refundTime, LacksValue "Input coin amount is too little"
      (createLockTransaction B recvPk pubX refundPk changePk slate.prvSlate.btc.inputs
        slate.pubSlate.btc.amount btcFee refundTime)

/-! ### The check -/

theorem sumU64_covers {checks : Bool} {values : List ℕ} {need : ℕ} (h : need < 2 ^ 64) :
    (∃ value, sumU64 checks values = .ok value ∧ need ≤ value) ↔ SumsCover checks values.sum need := by
  rw [sumU64_eq, SumsCover, Nat.mod_eq_of_lt h]
  cases checks with
  | false => simp
  | true =>
    rcases Nat.lt_or_ge values.sum (2 ^ 64) with hlt | hge
    · simp only [hlt, true_and, if_true, if_neg (Nat.not_le.mpr hlt), Nat.mod_eq_of_lt hlt,
        Except.ok.injEq, exists_eq_left']
    · simp only [hge, Nat.not_lt.mpr hge, true_and, false_and, if_true, reduceCtorEq, exists_false]

/-- `listen` admits a slate that is not set up when the values cover the amount. -/
theorem admits_iff {clients : ℕ} (hstatus : slate.pubSlate.status ≠ .setup) :
    Admits L B rand clients slate ↔
      ∃ value, (offeredValue L slate).1 = .ok value ∧ (offeredValue L slate).2 ≤ value := by
  unfold Admits listenExecute
  simp only [Proc.bind_apply, Proc.get_apply, Prog.bind_ret]
  cases hvalue : (offeredValue L slate).1 with
  | error e =>
    constructor
    · rintro ⟨k, hk⟩
      cases hk
    · rintro ⟨value, hvalue, -⟩
      cases hvalue
  | ok value =>
    simp only [Proc.lift_ok, Prog.bind_ret, Except.ok.injEq, exists_eq_left']
    by_cases hlt : value < (offeredValue L slate).2
    · rw [if_pos ⟨hstatus, hlt⟩]
      constructor
      · rintro ⟨k, hk⟩
        cases hk
      · intro hle
        omega
    · rw [if_neg fun h => hlt h.2]
      exact ⟨fun _ => by omega, fun _ => ⟨_, rfl⟩⟩

theorem admits_iff_covers {clients : ℕ} (hstatus : slate.pubSlate.status ≠ .setup)
    (hmw : slate.pubSlate.mw.amount < 2 ^ 64) (hbtc : slate.pubSlate.btc.amount < 2 ^ 64) :
    Admits L B rand clients slate ↔
      if slate.pubSlate.mw.swapType = .offered then
        SumsCover L.overflowChecks (slate.prvSlate.mw.inputs.map MWCoin.value).sum
          slate.pubSlate.mw.amount
      else
        SumsCover L.overflowChecks (slate.prvSlate.btc.inputs.map BTCInput.value).sum
          slate.pubSlate.btc.amount := by
  rw [admits_iff hstatus, offeredValue]
  split
  · exact sumU64_covers hmw
  · exact sumU64_covers hbtc

/-! ### The builders -/

omit [CommRing K] [AddCommGroup P] [Module K P] [DecidableEq K] [DecidableEq P] in
/-- `create_lock_transaction` fails for lack of value when the values before an outpoint that cannot be
read overflow, or when all can be read and the sums do not cover the amount and the fee. -/
theorem createLockTransaction_lacksValue_iff {recvPk pubX refundPk changePk : PublicKey P}
    {inputs : List BTCInput} {amount : ℕ} {refundTime : ℤ} (hamount : amount < 2 ^ 64) :
    LacksValue "Input coin amount is too little"
        (createLockTransaction B recvPk pubX refundPk changePk inputs amount btcFee refundTime) ↔
      (B.overflowChecks = true ∧ 2 ^ 64 ≤ ((readableInputs inputs).map BTCInput.value).sum) ∨
        ((∀ inp ∈ inputs, inp.outpoint.isSome) ∧
          ¬ SumsCover B.overflowChecks (inputs.map BTCInput.value).sum (amount + btcFee)) := by
  by_cases hread : ∀ inp ∈ inputs, inp.outpoint.isSome
  · obtain ⟨outpoints, houts⟩ := exists_outpoints hread
    rw [createLockTransaction_eq houts hamount (by decide), and_iff_right hread, SumsCover,
      readableInputs, List.takeWhile_eq_self_iff.mpr hread]
    generalize (inputs.map BTCInput.value).sum = total
    cases hchecks : B.overflowChecks with
    | false =>
      simp only [Bool.false_eq_true, false_and, false_or, if_false, LacksValue]
      split <;> simp_all
    | true =>
      simp only [true_and, if_true, LacksValue]
      split
      · simp only [or_true, true_iff]
        omega
      split
      · simp only [true_or, true_iff]
        omega
      split
      · have hpanic : ("attempt to negate with overflow" : String) ≠
            "attempt to add with overflow" := by decide
        simp only [reduceCtorEq, Except.error.injEq, Failure.panic.injEq, hpanic, or_self, false_iff]
        omega
      · simp only [reduceCtorEq, or_self, false_iff]
        omega
  · have hnone : ∃ inp ∈ inputs, inp.outpoint = none := by simpa using hread
    rw [createLockTransaction_unreadable hnone, LacksValue]
    split <;> simp_all

/-- `spend_coins` fails for lack of value when a sum of the inputs overflows, or when there are inputs
and an amount that the sums do not cover. -/
theorem spendCoins_lacksValue_iff {spend : SpendRand K} {inputs : List MWCoin}
    {amount timelock participants : ℕ} (hamount : amount < 2 ^ 64) :
    LacksValue "Spend coins function failed, input coins do not have enough value"
        (spendCoins L spend inputs amount timelock 2 participants) ↔
      (L.overflowChecks = true ∧ 2 ^ 64 ≤ (inputs.map MWCoin.value).sum) ∨
        (inputs ≠ [] ∧ amount ≠ 0 ∧
          ¬ (SumsCover L.overflowChecks (inputs.map MWCoin.value).sum
              (amount + L.txFee inputs.length 2 1) ∧
            SumsCover L.overflowChecks (inputs.map MWCoin.value).sum amount)) := by
  obtain ⟨rest, hrest, htests⟩ := spendCoins_tests L spend inputs amount timelock 2 participants
  rw [htests, sumU64_eq]
  generalize hfee : L.txFee inputs.length 2 1 = fee
  by_cases hover : L.overflowChecks = true ∧ 2 ^ 64 ≤ (inputs.map MWCoin.value).sum
  · rw [if_pos hover]
    exact iff_of_true (.inr rfl) (.inl hover)
  rw [if_neg hover, Outcome.ok_bind, or_iff_right hover]
  by_cases hempty : inputs = []
  · simp [LacksValue, hempty]
  rw [if_neg (by simpa using hempty), and_iff_right hempty]
  by_cases hzero : amount = 0
  · simp [LacksValue, hzero]
  rw [if_neg hzero, and_iff_right hzero, notEnoughValue, if_pos (by decide), addU64_eq]
  generalize (inputs.map MWCoin.value).sum = total at hover ⊢
  -- the tests after it are of another kind
  have hlate : ∀ v, ¬ LacksValue "Spend coins function failed, input coins do not have enough value"
      (if duplicateInputs inputs = true then
        .error (.err "Spend coins function failed, duplicate input coins provided") else rest v) := by
    intro v h
    split at h
    · simp [LacksValue] at h
    · rcases h with h | h
      · exact hrest v _ h
      · exact hrest v _ h rfl
  by_cases hneed : L.overflowChecks = true ∧ 2 ^ 64 ≤ amount + fee
  · rw [if_pos hneed]
    refine iff_of_true (.inr rfl) ?_
    simp only [SumsCover, hneed.1, if_true]
    omega
  rw [if_neg hneed, Outcome.ok_bind, Outcome.pure_eq_ok, Outcome.ok_bind]
  have hcover : (decide (total % 2 ^ 64 < (amount + fee) % 2 ^ 64) ||
      decide (total % 2 ^ 64 < amount)) = true ↔
      ¬ (SumsCover L.overflowChecks total (amount + fee) ∧ SumsCover L.overflowChecks total amount) := by
    simp only [Bool.or_eq_true, decide_eq_true_eq, SumsCover]
    cases hchecks : L.overflowChecks with
    | false =>
      simp only [Bool.false_eq_true, if_false]
      omega
    | true =>
      simp only [hchecks, true_and] at hover hneed
      simp only [if_true]
      omega
  by_cases hlacking : (decide (total % 2 ^ 64 < (amount + fee) % 2 ^ 64) ||
      decide (total % 2 ^ 64 < amount)) = true
  · rw [if_pos hlacking]
    exact iff_of_true (.inl rfl) (hcover.mp hlacking)
  · rw [if_neg hlacking]
    exact iff_of_false (hlate _) fun h => hlacking (hcover.mpr h)

/-! ### Both -/

/-- The check of `listen`, on the values of the currency that it takes for the offered one. -/
def CheckPasses (L : GrinLib K P) (slate : SwapSlate K P) : Prop :=
  if slate.pubSlate.mw.swapType = .offered then
    SumsCover L.overflowChecks (slate.prvSlate.mw.inputs.map MWCoin.value).sum slate.pubSlate.mw.amount
  else
    SumsCover L.overflowChecks (slate.prvSlate.btc.inputs.map BTCInput.value).sum
      slate.pubSlate.btc.amount

/-- The values cover the amount and the fee of the builder, or it fails for another reason first. -/
def Funded (L : GrinLib K P) (B : BtcLib K P) (slate : SwapSlate K P) : Prop :=
  match slate.offerer with
  | .mw =>
    ¬ (L.overflowChecks = true ∧ 2 ^ 64 ≤ (slate.prvSlate.mw.inputs.map MWCoin.value).sum) ∧
      (slate.prvSlate.mw.inputs = [] ∨ slate.pubSlate.mw.amount = 0 ∨
        SumsCover L.overflowChecks (slate.prvSlate.mw.inputs.map MWCoin.value).sum
          (slate.pubSlate.mw.amount + L.txFee slate.prvSlate.mw.inputs.length 2 1) ∧
        SumsCover L.overflowChecks (slate.prvSlate.mw.inputs.map MWCoin.value).sum
          slate.pubSlate.mw.amount)
  | .btc =>
    ¬ (B.overflowChecks = true ∧
        2 ^ 64 ≤ ((readableInputs slate.prvSlate.btc.inputs).map BTCInput.value).sum) ∧
      ((∃ inp ∈ slate.prvSlate.btc.inputs, inp.outpoint = none) ∨
        SumsCover B.overflowChecks (slate.prvSlate.btc.inputs.map BTCInput.value).sum
          (slate.pubSlate.btc.amount + btcFee))

theorem builderLacksValue_iff (hmw : slate.pubSlate.mw.amount < 2 ^ 64)
    (hbtc : slate.pubSlate.btc.amount < 2 ^ 64) : BuilderLacksValue L B rand slate ↔ ¬ Funded L B slate := by
  unfold BuilderLacksValue Funded
  cases slate.offerer with
  | mw =>
    simp only [spendCoins_lacksValue_iff hmw]
    tauto
  | btc =>
    simp only [createLockTransaction_lacksValue_iff hbtc, Option.isSome_iff_ne_none]
    constructor
    · rintro ⟨-, -, -, -, -, hlacks⟩
      grind
    · intro hlacks
      exact ⟨⟨true, 0⟩, ⟨true, 0⟩, ⟨true, 0⟩, ⟨true, 0⟩, 0, by grind⟩

/-- What `listen` admits has the value that the locking phase asks for, exactly when the check fails or
the fee is covered too. -/
theorem listen_admits_fundable_iff (rand : Rand K) (clients : ℕ)
    (hinit : slate.pubSlate.status = .initialized) (hmw : slate.pubSlate.mw.amount < 2 ^ 64)
    (hbtc : slate.pubSlate.btc.amount < 2 ^ 64) :
    (Admits L B rand clients slate → ¬ BuilderLacksValue L B rand slate) ↔
      (CheckPasses L slate → Funded L B slate) := by
  have hstatus : slate.pubSlate.status ≠ .setup := by
    rw [hinit]
    decide
  rw [admits_iff_covers hstatus hmw hbtc, builderLacksValue_iff hmw hbtc, not_not, CheckPasses]

theorem listen_admits_fundable_sample :
    ¬ BuilderLacksValue exponents (btcExponents []) sampleRand sampleFunded := by
  have hadmits : Admits exponents (btcExponents []) sampleRand 1 sampleFunded :=
    (admits_iff_covers (by decide) (by decide) (by decide)).mpr (by decide)
  have hfunded : Funded exponents (btcExponents []) sampleFunded := by
    show ¬ (_ ∧ _) ∧ (_ ∨ _ ∨ _ ∧ _)
    decide
  exact (listen_admits_fundable_iff sampleRand 1 rfl (by decide) (by decide)).mpr
    (fun _ => hfunded) hadmits

/-- An offerer of Bitcoin whose output pays for the amount, but not for the fee. -/
def sampleWithoutFee : SwapSlate Scalar Scalar :=
  { sampleSlate with
    pubSlate.mw.swapType := .requested
    pubSlate.btc.swapType := .offered
    prvSlate.btc.inputs := [{ sampleBtcInput with value := 100200 }] }

theorem listen_admits_unfundable :
    sampleWithoutFee.pubSlate.status = .initialized ∧
      Admits exponents (btcExponents []) sampleRand 1 sampleWithoutFee ∧
      BuilderLacksValue exponents (btcExponents []) sampleRand sampleWithoutFee := by
  refine ⟨rfl, (admits_iff_covers (by decide) (by decide) (by decide)).mpr (by decide), ?_⟩
  exact ⟨⟨true, 3⟩, ⟨true, 5⟩, ⟨true, 7⟩, ⟨true, 9⟩, 700040,
    (createLockTransaction_lacksValue_iff (by decide)).mpr (.inr ⟨by decide +kernel, by decide⟩)⟩

end MwBtcSwap
