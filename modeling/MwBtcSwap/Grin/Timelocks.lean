import MwBtcSwap.Grin.Completed

/-! Lock heights over the wire.  A slate that was read has a rebuilt kernel, and that kernel never
has a lock height.  The protocols of the shared output and of the shared input restore it before they
finalize; the plain build and the contract do not. -/

namespace MwBtcSwap.Grin

open Schnorr Interaction Machine

variable {K P : Type} [CommRing K] [AddCommGroup P] [Module K P] [DecidableEq K] [DecidableEq P]

variable {L : GrinLib K P}

/-- The transaction of the slate has one kernel, signed, which is plain without a lock height and
carries the lock height otherwise. -/
def Timelocked (L : GrinLib K P) (timelock : ℕ) (S : Slate K P) : Prop :=
  ∃ tx kernel fee, S.tx = some tx ∧ tx.kernels = [kernel] ∧
    kernel.features = (if timelock = 0 then .plain fee else .heightLocked fee timelock) ∧
    L.verifyKernel kernel = true

section Kernels

variable {p : Plan K} {outs : List Output} {kernels : List (TxKernel K P)}
  {data : List (ParticipantData K P)} {S : Slate K P}

omit [DecidableEq K] in
/-- What is finalized with a kernel that was set from the slate carries the lock height. -/
theorem timelocked_of_finalize {kernel : TxKernel K P} (hk : kernel.features = p.features)
    (h : (p.slate outs [kernel] data).finalize L = .ok S) : Timelocked L p.timelock S := by
  obtain ⟨_, kernel', hkernels, rfl, hfeatures, -, hv, -⟩ := Plan.finalize_inv h
  cases hkernels
  exact ⟨_, kernel', p.fee, rfl, rfl, hfeatures.trans hk, hv⟩

omit [DecidableEq K] in
/-- What is finalized with a plain kernel carries no lock height. -/
theorem timelock_eq_zero_of_finalize {kernel : TxKernel K P} {timelock : ℕ} {fee : FeeFields}
    (hk : kernel.features = .plain fee) (h : (p.slate outs [kernel] data).finalize L = .ok S)
    (hlocked : Timelocked L timelock S) : timelock = 0 := by
  obtain ⟨_, kernel', hkernels, rfl, hfeatures, -, -, -⟩ := Plan.finalize_inv h
  cases hkernels
  obtain ⟨tx, kernel₂, fee₂, htx, hkernels₂, hlock, -⟩ := hlocked
  cases htx
  cases hkernels₂
  rw [hfeatures, hk] at hlock
  by_contra hne
  rw [if_neg hne] at hlock
  cases hlock

end Kernels

/-! ### The plain build -/

section Build

variable {rand : SpendRand K} {recv : RecvRand K} {inp : List MWCoin} {coins : List (Input × K)}
  {fundValue timelock value : ℕ} {ff : FeeFields}

/-- The two signers of a plain build. -/
def buildSigners (rand : SpendRand K) (recv : RecvRand K) (coins : List (Input × K)) (value : ℕ) :
    List (Signer K) :=
  [⟨spendKey rand value coins, rand.sigNonce⟩, recvSigner recv]

/-- The outputs of a plain build: the receiver's and the change. -/
def buildOutputs (L : GrinLib K P) (rand : SpendRand K) (recv : RecvRand K) (fundValue value : ℕ) :
    List Output :=
  L.insertOutput (recvOutput L recv fundValue) (changeOutputs L (change L rand value))

/-- The choices of a plain build for which the calls to the library succeed. -/
structure BuildKeys (L : GrinLib K P) (rand : SpendRand K) (recv : RecvRand K)
    (coins : List (Input × K)) (numInputs fundValue value : ℕ) (ff : FeeFields) : Prop where
  fee : L.feeFieldsNew (L.txFee numInputs 2 1) = some ff
  change : 0 < value → L.pedersen value rand.changeCoinKey ≠ 0
  output : L.pedersen fundValue recv.outCoinKey ≠ 0
  signable : Signable L (buildSigners rand recv coins value)
  fresh : (recvOutput L recv fundValue).commit ∉
    (changeOutputs L (Grin.change L rand value)).map Output.commit
  body : L.bodyOk ((spendPlan L rand coins ff fundValue 0 2).tx
    (buildOutputs L rand recv fundValue value)
    [fullKernel L (buildSigners rand recv coins value) (.plain ff)]) = true

omit [DecidableEq K] [DecidableEq P] in
/-- The sums of a plain build balance. -/
theorem build_balance {fee total : ℕ} (htotal : total = fundValue + fee + value) :
    L.pedersen fundValue recv.outCoinKey +
          L.pedersen value (if 0 < value then rand.changeCoinKey else 0) -
        L.pedersen total (coins.map Prod.snd).sum + (fee : K) • L.H =
      keySum L (buildSigners rand recv coins value) + rand.offset • L.G := by
  subst htotal
  simp only [keySum, buildSigners, spendKey, recvSigner, GrinLib.pedersen, List.map_cons,
    List.map_nil, List.sum_cons, List.sum_nil, Nat.cast_add, add_smul, sub_smul]
  abel

omit [DecidableEq K] in
theorem build_validate (hL : L.Lawful)
    (hin : Funding L inp coins fundValue (L.txFee inp.length 2 1) value)
    (h : BuildKeys L rand recv coins inp.length fundValue value ff)
    (hproof : Proven L (buildOutputs L rand recv fundValue value)) :
    L.validate ((spendPlan L rand coins ff fundValue 0 2).tx
      (buildOutputs L rand recv fundValue value)
      [fullKernel L (buildSigners rand recv coins value) (.plain ff)]) = true := by
  have houts : PointSum L ((buildOutputs L rand recv fundValue value).map Output.commit)
      (L.pedersen fundValue recv.outCoinKey +
        L.pedersen value (if 0 < value then rand.changeCoinKey else 0)) :=
    PointSum.perm (pointSum_cons hL h.output (pointSum_changeOutputs hL h.change))
      ((hL.insertOutput_perm (recvOutput L recv fundValue) _ h.fresh).map Output.commit).symm
  exact validate_tx (p := spendPlan L rand coins ff fundValue 0 2) hL h.signable h.body hproof h.fee
    houts (pointSum_inputs hL hin.opens) (build_balance hin.total)

/-- A plain build without a lock height completes. -/
theorem build_completes {σ τ : Type} (s : σ) (s' : τ) (hL : L.Lawful)
    (hin : Funding L inp coins fundValue (L.txFee inp.length 2 1) value)
    (h : BuildKeys L rand recv coins inp.length fundValue value ff) :
    ∃ r, talk L (dbuildmwTxAlice L rand inp fundValue 0 s) (dbuildMwTxBob L recv fundValue s') =
      some r := by
  have htotal := hin.total
  have hlt := hin.bound
  have hu := h.signable.usable
  simp only [buildSigners, List.mem_cons, List.not_mem_nil, or_false, forall_eq_or_imp,
    forall_eq] at hu
  have hchange := proven_changeOutputs hL (by omega) h.change
  have houts : Proven L (buildOutputs L rand recv fundValue value) :=
    hchange.insert hL h.fresh (hL.bulletProof_verifies _ _ _ _ _ (by omega) (commit_of_ne h.output))
  have hlen : (buildSigners rand recv coins value).length ≤
      (spendPlan L rand coins ff fundValue 0 2).numParticipants := by
    simp [spendPlan, buildSigners]
  have hweight : L.txFee (spendPlan L rand coins ff fundValue 0 2).inputs.length
      (buildOutputs L rand recv fundValue value).length 1 ≤ L.txFee inp.length 2 1 :=
    txFee_outputs hL hin.opens h.fresh
  have hspend := spendCoins_eq 0 2 (mapM_of_opens hin.opens) hin.nonempty hin.nodup hin.fund rfl h.fee
    htotal hlt (by omega) h.change hu.1
  have hrecv := fun kernels => recvCoins_eq (L := L) (p := spendPlan L rand coins ff fundValue 0 2)
    (Z := [⟨spendKey rand value coins, rand.sigNonce⟩]) kernels hchange h.output h.signable hlen
  have hfin := fun data => finTx_finalize (p := spendPlan L rand coins ff fundValue 0 2)
    (i := ⟨spendKey rand value coins, rand.sigNonce⟩)
    ((spendPlan L rand coins ff fundValue 0 2).wireKernel L
      (buildOutputs L rand recv fundValue value) data)
    [recvSigner recv] hL houts h.signable (by simp [buildSigners]) hlen (by simp [buildSigners])
    h.fee Plan.wireKernel_features hweight (by simp only [spendPlan]; omega)
    (build_validate hL hin h houts)
  simp only [buildOutputs, buildSigners] at hfin
  simp only [dbuildmwTxAlice, dbuildMwTxBob, receiveSlate, Proc.bind_apply, Prog.bind_assoc, hspend,
    Proc.lift_ok, Prog.bind_ret, talk_send, Msg.render, Plan.deserializeUpgrade_slate hL,
    Outcome.expect_ok, hrecv, List.cons_append, List.nil_append, talk_recv, hfin, Proc.pure_apply,
    talk_ret, Option.map_some]
  exact ⟨_, rfl⟩

/-- The first party finalizes what it read from the wire. -/
theorem build_inv {σ τ : Type} {s : σ} {s' : τ} (hL : L.Lawful)
    {r : List (Msg K P) × DBuildMWTxResult K P × DBuildMWTxResult K P}
    (h : talk L (dbuildmwTxAlice L rand inp fundValue timelock s)
      (dbuildMwTxBob L recv fundValue s') = some r) :
    ∃ (p : Plan K) (outs : List Output) (kernel : TxKernel K P) (data : _),
      p.timelock = timelock ∧ kernel.features = .plain p.fee ∧
        (p.slate outs [kernel] data).finalize L = .ok r.2.1.tx := by
  simp only [dbuildmwTxAlice, dbuildMwTxBob, receiveSlate, Proc.bind_apply, Prog.bind_assoc,
    talk_lift_left, talk_lift_right, talk_send, talk_recv, Option.map_eq_some_iff, Proc.pure_apply,
    talk_ret, Outcome.expect_eq_ok, Msg.render] at h
  obtain ⟨spend, hspend, _, ⟨S₁, hS₁, rcv, hrcv, _, ⟨S₂, hS₂, fin, hfin, _, ⟨S₃, hS₃, hret⟩, rfl⟩,
    rfl⟩, rfl⟩ := h
  cases hret
  obtain ⟨_, _, _, _, coins, ff, c, data, -, -, -, -, -, -, -, -, hplan⟩ :=
    spendCoins_inv (by decide) hspend
  rw [hplan, Plan.deserializeUpgrade_slate hL] at hS₁
  cases hS₁
  obtain ⟨-, data₁, hslate₁⟩ := recvCoins_inv hrcv
  rw [hslate₁, Plan.deserializeUpgrade_slate hL] at hS₂
  cases hS₂
  obtain ⟨data₂, hfin⟩ := finTx_inv hfin
  rw [if_pos rfl] at hfin
  exact ⟨_, _, _, data₂, rfl, Plan.wireKernel_features, hfin⟩

end Build

/-- Lock heights survive the wire in the shared output and the shared input alone.  For all choices for
which the calls to the library succeed, an honest run of these two completes with every lock height,
and what is finalized carries it.  An honest run of the plain build or of the contract completes so
if and only if there is no lock height. -/
theorem timelocks_iff (hL : L.Lawful) (timelock : ℕ) :
    (∀ rand a b inp coins fundValue value ff,
      Funding L inp coins fundValue (L.txFee inp.length 2 1) value →
      SharedOutKeys L rand a b coins inp.length fundValue timelock value ff →
      ∃ r, talk L (dsharedOutMwTxAlice L rand a inp fundValue timelock ())
        (dsharedOutMwTxBob L b fundValue ()) = some r ∧ Timelocked L timelock r.2.1.tx) ∧
    (∀ rand sigNonce recv coinA coinB value shareA shareB fundValue ff,
      SharedCoin L coinA coinB value shareA shareB → SpendsAll L value fundValue →
      SharedInpKeys L rand sigNonce recv value shareA shareB fundValue timelock ff →
      ∃ r, talk L (dsharedInpMwTxAlice L rand coinA fundValue timelock ())
        (dsharedInpMwTxBob L sigNonce recv coinB fundValue timelock ()) = some r ∧
        Timelocked L timelock r.2.1.tx ∧ Timelocked L timelock r.2.2.tx) ∧
    (∀ rand recv inp coins fundValue value ff,
      Funding L inp coins fundValue (L.txFee inp.length 2 1) value →
      BuildKeys L rand recv coins inp.length fundValue value ff →
      ((∃ r, talk L (dbuildmwTxAlice L rand inp fundValue timelock ())
        (dbuildMwTxBob L recv fundValue ()) = some r ∧ Timelocked L timelock r.2.1.tx) ↔
          timelock = 0)) ∧
    (∀ rand sigNonce recv coinA coinB value shareA shareB fundValue x ff,
      SharedCoin L coinA coinB value shareA shareB → SpendsAll L value fundValue →
      ContractKeys L rand sigNonce recv value shareA shareB fundValue x ff →
      ((∃ r, talk L (dcontractMwTxAlice L rand coinA fundValue timelock (x • L.G) ())
        (dcontractMwTxBob L sigNonce recv coinB fundValue timelock x ()) = some r ∧
          Timelocked L timelock r.2.2.tx) ↔ timelock = 0)) := by
  refine ⟨?_, ?_, ?_, ?_⟩
  · intro rand a b inp coins fundValue value ff hin hkeys
    obtain ⟨r, hr⟩ := sharedOut_completes () () hL hin hkeys
    obtain ⟨p, outs, data, rfl, hfin, -⟩ := sharedOut_inv hL hr
    exact ⟨r, hr, timelocked_of_finalize rfl hfin⟩
  · intro rand sigNonce recv coinA coinB value shareA shareB fundValue ff hcoin hval hkeys
    obtain ⟨r, hr⟩ := sharedInp_completes () () hL hcoin hval hkeys
    obtain ⟨ff', data, hfin, htx, -⟩ := sharedInp_inv hL hcoin hval hr
    have hlocked : Timelocked L timelock r.2.1.tx := timelocked_of_finalize rfl hfin
    exact ⟨r, hr, hlocked, htx ▸ hlocked⟩
  · intro rand recv inp coins fundValue value ff hin hkeys
    constructor
    · rintro ⟨r, hr, hlocked⟩
      obtain ⟨p, outs, kernel, data, -, hplain, hfin⟩ := build_inv hL hr
      exact timelock_eq_zero_of_finalize hplain hfin hlocked
    · rintro rfl
      obtain ⟨r, hr⟩ := build_completes () () hL hin hkeys
      obtain ⟨p, outs, kernel, data, htime, hplain, hfin⟩ := build_inv hL hr
      refine ⟨r, hr, htime ▸ timelocked_of_finalize ?_ hfin⟩
      rw [hplain, Plan.features, if_pos htime]
  · intro rand sigNonce recv coinA coinB value shareA shareB fundValue x ff hcoin hval hkeys
    constructor
    · rintro ⟨r, hr, hlocked⟩
      obtain ⟨ff', kernel, data, hplain, hfin, -⟩ := contract_inv hL hcoin hval hr
      exact timelock_eq_zero_of_finalize hplain hfin hlocked
    · rintro rfl
      have hr := contract_run () () hL hcoin hval hkeys
      obtain ⟨ff', kernel, data, hplain, hfin, -⟩ := contract_inv hL hcoin hval hr
      exact ⟨_, hr, timelocked_of_finalize (p := sharedPlan L rand value shareA shareB fundValue 0 ff')
        hplain hfin⟩

theorem sample_buildKeys :
    BuildKeys exponents sampleSpend sampleRecv [sampleOpening] 1 1012500000 964500000
      ⟨23000000⟩ where
  fee := by decide
  change _ := by decide
  output := by decide
  signable := ⟨by decide, by decide, by decide, by decide⟩
  fresh := by decide +kernel
  body := by
    simp only [Plan.tx, exponents_bodyOk, exponents_insertOutput, buildOutputs]
    decide +kernel

/-- The theorem at the sample choices: the shared output and the shared input with the lock height 700000,
the plain build and the contract without one. -/
theorem timelocks_iff_sample :
    exponents.Lawful ∧
    (∃ r, talk exponents
        (dsharedOutMwTxAlice exponents sampleSpend sampleShareA [sampleCoin] 1012500000 700000 ())
        (dsharedOutMwTxBob exponents sampleShareB 1012500000 ()) = some r ∧
      Timelocked exponents 700000 r.2.1.tx) ∧
    (∃ r, talk exponents
        (dsharedInpMwTxAlice exponents sampleSpend (sampleShared 21) 1000000000 700000 ())
        (dsharedInpMwTxBob exponents 51 sampleRecv (sampleShared 31) 1000000000 700000 ()) = some r ∧
      Timelocked exponents 700000 r.2.1.tx ∧ Timelocked exponents 700000 r.2.2.tx) ∧
    (∃ r, talk exponents (dbuildmwTxAlice exponents sampleSpend [sampleCoin] 1012500000 0 ())
        (dbuildMwTxBob exponents sampleRecv 1012500000 ()) = some r ∧
      Timelocked exponents 0 r.2.1.tx) ∧
    ∃ r, talk exponents
        (dcontractMwTxAlice exponents sampleSpend (sampleShared 21) 1000000000 0 61 ())
        (dcontractMwTxBob exponents 51 sampleRecv (sampleShared 31) 1000000000 0 61 ()) = some r ∧
      Timelocked exponents 0 r.2.2.tx := by
  obtain ⟨hout, hinp, -, -⟩ := timelocks_iff exponents_lawful 700000
  obtain ⟨-, -, hbuild, hcon⟩ := timelocks_iff exponents_lawful 0
  refine ⟨exponents_lawful, ?_, ?_, ?_, ?_⟩
  · exact hout sampleSpend sampleShareA sampleShareB _ _ _ _ _ sample_funding (sample_sharedOutKeys 700000)
  · exact hinp sampleSpend 51 sampleRecv _ _ _ _ _ _ _ sample_sharedCoin sample_spendsAll
      (sample_sharedInpKeys 700000)
  · exact (hbuild sampleSpend sampleRecv _ _ _ _ _ sample_funding sample_buildKeys).mpr rfl
  · exact (hcon sampleSpend 51 sampleRecv _ _ _ _ _ _ 61 _ sample_sharedCoin sample_spendsAll
      sample_contractKeys).mpr rfl

/-- With the lock height 700000 the first party starts the plain build, and the run does not end with
a transaction that carries the lock height. -/
theorem build_timelock_lost :
    (∃ r, spendCoins exponents sampleSpend [sampleCoin] 1012500000 700000 2 2 = .ok r) ∧
    Funding exponents [sampleCoin] [sampleOpening] 1012500000 (exponents.txFee 1 2 1) 964500000 ∧
    BuildKeys exponents sampleSpend sampleRecv [sampleOpening] 1 1012500000 964500000 ⟨23000000⟩ ∧
    ¬ ∃ r, talk exponents (dbuildmwTxAlice exponents sampleSpend [sampleCoin] 1012500000 700000 ())
        (dbuildMwTxBob exponents sampleRecv 1012500000 ()) = some r ∧
      Timelocked exponents 700000 r.2.1.tx := by
  refine ⟨?_, sample_funding, sample_buildKeys, ?_⟩
  · exact ⟨_, spendCoins_eq 700000 2 (mapM_of_opens sample_funding.opens) sample_funding.nonempty
      sample_funding.nodup sample_funding.fund rfl sample_buildKeys.fee sample_funding.total
      sample_funding.bound (by decide) sample_buildKeys.change
      (sample_buildKeys.signable.usable _ (by simp [buildSigners]))⟩
  · rintro ⟨r, hr, hlocked⟩
    obtain ⟨p, outs, kernel, data, -, hplain, hfin⟩ := build_inv exponents_lawful hr
    exact absurd (timelock_eq_zero_of_finalize hplain hfin hlocked) (by decide)

end MwBtcSwap.Grin
