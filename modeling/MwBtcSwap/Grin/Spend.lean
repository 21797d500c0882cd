import MwBtcSwap.Grin.Core
import Mathlib.Data.List.Nodup

/-! The ways through `spend_coins`: what a call that returns went through, and what each error
reports. -/

namespace MwBtcSwap.Grin

open Schnorr Interaction Machine

variable {K P : Type} [CommRing K] [AddCommGroup P] [Module K P] [DecidableEq K] [DecidableEq P]

variable {L : GrinLib K P} {rand : SpendRand K} {inputs : List MWCoin}
  {fundValue timelock numOfOutputs numParticipants : ℕ} {r : SpendCoinsResult K P}

omit [CommRing K] [AddCommGroup P] [Module K P] [DecidableEq K] [DecidableEq P] in
theorem failsOnly_notEnoughValue {S : Failure → Prop}
    (h : S (.panic "attempt to add with overflow")) (inpval : ℕ) {fee : ℕ} :
    Outcome.FailsOnly S (notEnoughValue L numOfOutputs inpval fundValue fee) := by
  unfold notEnoughValue
  split
  · exact (failsOnly_addU64 h _ _ _).bind fun _ => Outcome.failsOnly_ok _
  · exact Outcome.failsOnly_ok _

omit [AddCommGroup P] [Module K P] [DecidableEq K] [DecidableEq P] in
theorem failsOnly_deserializeSecretKey {S : Failure → Prop}
    (h : S (.panic "Failed to deserialize a secret key from hex string")) (text : String) :
    Outcome.FailsOnly S (deserializeSecretKey L text) := by
  unfold deserializeSecretKey
  split
  · exact Outcome.failsOnly_ok _
  · exact (Outcome.failsOnly_unwrap h _).bind fun _ => Outcome.failsOnly_unwrap h _

omit [AddCommGroup P] [Module K P] [DecidableEq K] [DecidableEq P] in
theorem failsOnly_readInput {S : Failure → Prop}
    (hcom : S (.panic "Failed to deserialize pedersen commitment"))
    (hkey : S (.panic "Failed to deserialize a secret key from hex string")) (coin : MWCoin) :
    Outcome.FailsOnly S (readInput L coin) :=
  ((Outcome.failsOnly_unwrap hcom _).bind fun _ => Outcome.failsOnly_ok _).bind fun _ =>
    (failsOnly_deserializeSecretKey hkey _).bind fun _ => Outcome.failsOnly_ok _

omit [DecidableEq K] in
theorem failsOnly_changeOutput {S : Failure → Prop}
    (h : S (.panic "Failed to create change coin commitment")) (value : ℤ) :
    Outcome.FailsOnly S (changeOutput L rand value) := by
  unfold changeOutput
  split
  · exact (Outcome.failsOnly_unwrap h _).bind fun _ => Outcome.failsOnly_ok _
  · exact Outcome.failsOnly_ok _

theorem fillRound1_ne_panic (S : Slate K P) (secKey secNonce : K) (msg : String) :
    S.fillRound1 L secKey secNonce ≠ .error (.panic msg) := by
  intro h
  simp only [Slate.fillRound1, Slate.addParticipantInfo, Outcome.orErr] at h
  split at h
  · split at h <;> cases h
  · cases h

/-- What a `spend_coins` that returns went through. -/
theorem spendCoins_eq_ok
    (h : spendCoins L rand inputs fundValue timelock numOfOutputs numParticipants = .ok r) :
    ∃ inpval coins feeField change data,
      sumU64 L.overflowChecks (inputs.map MWCoin.value) = .ok inpval ∧
      notEnoughValue L numOfOutputs inpval fundValue (L.txFee inputs.length numOfOutputs 1) =
        .ok false ∧
      duplicateInputs inputs = false ∧
      L.feeFieldsNew (L.txFee inputs.length numOfOutputs 1) = some feeField ∧
      inputs.mapM (readInput L) = .ok coins ∧
      inpval < 2 ^ 63 ∧ fundValue < 2 ^ 63 ∧ L.txFee inputs.length numOfOutputs 1 < 2 ^ 63 ∧
      changeOutput L rand ((inpval : ℤ) - fundValue - L.txFee inputs.length numOfOutputs 1) =
        .ok change ∧
      r.changeCoin = change.map Prod.snd ∧
      r.slate = { (Slate.blankWithKernelFeatures numParticipants
          (if (if timelock ≠ 0 then some timelock else none : Option ℕ).isSome then 2 else 0)
          (if timelock ≠ 0 then some timelock else none) : Slate K P) with
        feeFields := feeField, amount := fundValue, offset := rand.offset,
        tx := some ⟨rand.offset, L.sortInputs (coins.map Prod.fst), changeOutputs L change, []⟩,
        participantData := data } := by
  simp only [spendCoins, Outcome.bind_eq_ok, Outcome.unwrap_eq_ok, Outcome.expect_eq_ok,
    Outcome.pure_eq_ok, Outcome.throw_eq_error, Outcome.error_bind, Outcome.error_ite_eq_ok,
    Except.ok.injEq] at h
  obtain ⟨inpval, hsum, -, -, enough, henough, hnot, hdup, feeField, hfield, coins, hcoins, inp, hinp,
    fund, hfund, fee, hfee, change, hchange, S, hround, rfl⟩ := h
  obtain ⟨data, rfl⟩ := fillRound1_keeps hround
  obtain ⟨hinpLt, rfl⟩ := i64OfU64_eq_some hinp
  obtain ⟨hfundLt, rfl⟩ := i64OfU64_eq_some hfund
  obtain ⟨hfeeLt, rfl⟩ := i64OfU64_eq_some hfee
  rw [Bool.not_eq_true] at hnot hdup
  subst hnot
  exact ⟨inpval, coins, feeField, change, data, hsum, henough, hdup, hfield, hcoins, hinpLt, hfundLt, hfeeLt,
    hchange, rfl, rfl⟩

/-- A panic of another kind than the sum that overflows. -/
def OtherPanic : Failure → Prop
  | .err _ => False
  | .panic msg => msg ≠ "attempt to add with overflow"

variable (L rand inputs fundValue timelock numOfOutputs numParticipants) in
/-- The tests of `spend_coins` and their order.  What follows only panics, and adds no values. -/
theorem spendCoins_tests : ∃ rest : ℕ → Outcome (SpendCoinsResult K P),
    (∀ inpval, Outcome.FailsOnly OtherPanic (rest inpval)) ∧
    spendCoins L rand inputs fundValue timelock numOfOutputs numParticipants = (do
      let inpval ← sumU64 L.overflowChecks (inputs.map MWCoin.value)
      if inputs.isEmpty then .error (.err "No inputs provided")
      else if fundValue = 0 then .error (.err "Invalid parameters for fund_value provided")
      else do
        let lacking ← notEnoughValue L numOfOutputs inpval fundValue
          (L.txFee inputs.length numOfOutputs 1)
        if lacking then
          .error (.err "Spend coins function failed, input coins do not have enough value")
        else if duplicateInputs inputs then
          .error (.err "Spend coins function failed, duplicate input coins provided")
        else rest inpval) := by
  refine ⟨?rest, ?fails, ?tests⟩
  case tests =>
    simp only [spendCoins, Outcome.throw_eq_error, Outcome.error_bind]
    rfl
  case fails =>
    intro inpval
    refine (Outcome.failsOnly_unwrap (by simp [OtherPanic]) _).bind fun _ => ?_
    refine (Outcome.failsOnly_mapM (failsOnly_readInput (by simp [OtherPanic])
      (by simp [OtherPanic])) _).bind fun _ => ?_
    refine (Outcome.failsOnly_unwrap (by simp [OtherPanic]) _).bind fun _ => ?_
    refine (Outcome.failsOnly_unwrap (by simp [OtherPanic]) _).bind fun _ => ?_
    refine (Outcome.failsOnly_unwrap (by simp [OtherPanic]) _).bind fun _ => ?_
    refine (failsOnly_changeOutput (by simp [OtherPanic]) _).bind fun _ => ?_
    refine (Outcome.failsOnly_expect (by simp [OtherPanic]) fun m hm => ?_).bind fun _ =>
      Outcome.failsOnly_ok _
    exact (fillRound1_ne_panic _ _ _ m hm).elim

/-- The errors of `spend_coins`, each with what it reports. -/
theorem spendCoins_err {msg : String}
    (h : spendCoins L rand inputs fundValue timelock numOfOutputs numParticipants =
      .error (.err msg)) :
    msg = "No inputs provided" ∧ inputs = [] ∨
    msg = "Invalid parameters for fund_value provided" ∧ fundValue = 0 ∨
    msg = "Spend coins function failed, input coins do not have enough value" ∧
      (∃ inpval, sumU64 L.overflowChecks (inputs.map MWCoin.value) = .ok inpval ∧
        notEnoughValue L numOfOutputs inpval fundValue (L.txFee inputs.length numOfOutputs 1) =
          .ok true) ∨
    msg = "Spend coins function failed, duplicate input coins provided" ∧
      duplicateInputs inputs = true := by
  obtain ⟨rest, hrest, htests⟩ :=
    spendCoins_tests L rand inputs fundValue timelock numOfOutputs numParticipants
  rw [htests] at h
  rcases Outcome.bind_eq_error.mp h with h | ⟨inpval, hsum, h⟩
  · exact (failsOnly_sumU64 (S := Failure.IsPanic) trivial _ _ _ h).elim
  rcases Outcome.error_ite_eq_error.mp h with ⟨hempty, h⟩ | ⟨-, h⟩
  · cases h
    exact .inl ⟨rfl, List.isEmpty_iff.mp hempty⟩
  rcases Outcome.error_ite_eq_error.mp h with ⟨hzero, h⟩ | ⟨-, h⟩
  · cases h
    exact .inr (.inl ⟨rfl, hzero⟩)
  rcases Outcome.bind_eq_error.mp h with h | ⟨enough, henough, h⟩
  · exact (failsOnly_notEnoughValue (S := Failure.IsPanic) trivial _ _ h).elim
  rcases Outcome.error_ite_eq_error.mp h with ⟨htrue, h⟩ | ⟨-, h⟩
  · cases h
    subst htrue
    exact .inr (.inr (.inl ⟨rfl, inpval, hsum, henough⟩))
  rcases Outcome.error_ite_eq_error.mp h with ⟨hdup, h⟩ | ⟨-, h⟩
  · cases h
    exact .inr (.inr (.inr ⟨rfl, hdup⟩))
  · exact (hrest inpval _ h).elim

/-- The test for duplicates compares the texts. -/
theorem duplicateInputs_eq_false :
    duplicateInputs inputs = false ↔ (inputs.map MWCoin.commitment).Nodup := by
  simp only [duplicateInputs, List.any_eq_false, Bool.not_eq_true, Bool.and_eq_false_iff,
    bne_eq_false_iff_eq, beq_eq_false_iff_ne, List.nodup_iff_getElem?_ne_getElem?]
  constructor
  · intro h i j hij hj heq
    rw [List.length_map] at hj
    have hi : i < inputs.length := hij.trans hj
    rcases h (inputs[i], i) (by simp [List.mk_mem_zipIdx_iff_getElem?]) (inputs[j], j)
      (by simp [List.mk_mem_zipIdx_iff_getElem?]) with h | h
    · exact hij.ne h
    · apply h
      simpa [hi, hj] using heq
  · rintro h ⟨c, i⟩ hc ⟨d, j⟩ hd
    rw [List.mk_mem_zipIdx_iff_getElem?] at hc hd
    rcases lt_trichotomy i j with hij | rfl | hij
    · right
      intro htext
      obtain ⟨hj, -⟩ := List.getElem?_eq_some_iff.mp hd
      exact h i j hij (by simpa using hj) (by simpa [hc, hd] using htext)
    · exact .inl rfl
    · right
      intro htext
      obtain ⟨hi, -⟩ := List.getElem?_eq_some_iff.mp hc
      exact h j i hij (by simpa using hi) (by simpa [hc, hd] using htext.symm)

omit [AddCommGroup P] [Module K P] [DecidableEq K] [DecidableEq P] in
/-- The inputs of the coins have the commitments that their texts decode to. -/
theorem decoded_readInput {coins : List (Input × K)} (h : inputs.mapM (readInput L) = .ok coins) :
    coins.map (fun c => (.ok c.1.commit : Outcome Commitment)) =
      (inputs.map MWCoin.commitment).map (deserializeCommitment L) := by
  rw [List.map_map]
  refine Outcome.mapM_map_eq (fun coin input hread => ?_) h
  simp only [readInput, Outcome.bind_eq_ok, Outcome.pure_eq_ok, Except.ok.injEq] at hread
  obtain ⟨commitment, hcom, key, -, rfl⟩ := hread
  exact hcom.symm

omit [CommRing K] [AddCommGroup P] [Module K P] [DecidableEq K] [DecidableEq P] in
/-- Decoded commitments are distinct when the results of decoding their texts are. -/
theorem nodup_decoded_iff {α : Type} {l : List α} {decoded : α → Commitment}
    {texts : List String} (h : l.map (fun a => (.ok (decoded a) : Outcome Commitment)) =
      texts.map (deserializeCommitment L)) :
    (l.map decoded).Nodup ↔ (texts.map (deserializeCommitment L)).Nodup := by
  have hok : Function.Injective (Except.ok : Commitment → Outcome Commitment) :=
    fun _ _ hab => Except.ok.inj hab
  rw [← h, ← List.nodup_map_iff hok, List.map_map]
  rfl

end MwBtcSwap.Grin
