import MwBtcSwap.Swap.Executed
import MwBtcSwap.Swap.Funded
import MwBtcSwap.Swap.Results

/-! The Bitcoin owner in the world: whether the coin that its contract spends is there when it reveals the
witness with the final slate. -/

namespace MwBtcSwap

open Interaction Machine Grin Bitcoin Relation

variable {K P : Type} [CommRing K] [AddCommGroup P] [Module K P] [DecidableEq K] [DecidableEq P]

variable {L : GrinLib K P} {B : BtcLib K P}

/-- The peer answered the second slate of the contract, in which the party, which held the coin, had put
an output. -/
def ContractAnswered (L : GrinLib K P) (past : Trace K P (SwapSlate K P)) (coin : MWCoin) (o : Output)
    (S : Slate K P) : Prop :=
  HappenedFor past coin fun past' => OutputAnswered L .contract .ptx2 past' o S

namespace World

variable (L : GrinLib K P) (w : World K P)

/-- The output of a coin is unspent. -/
def CoinUnspent (coin : MWCoin) : Prop :=
  ∀ com, deserializeCommitment L coin.commitment = .ok com → com ∈ w.grin.unspent

/-- The coin was spent by a transaction with the kernel of a final slate, and with an output of the
party. -/
def ContractMined (coin : MWCoin) : Prop :=
  ∃ com S o, deserializeCommitment L coin.commitment = .ok com ∧
    SentFor w.past .contract .tx coin S ∧ OwnOutput L w.past coin o ∧
    ∃ tx ∈ w.grin.mined, tx.Spends com ∧ HasKernel L S tx ∧ tx.Pays o

/-- The transaction of a slate spends unspent outputs. -/
def Spendable (S : Slate K P) : Prop :=
  ∀ tx com, S.tx = some tx → tx.Spends com → com ∈ w.grin.unspent

/-- Every refund of a coin that the Bitcoin owner signed is locked until a later height. -/
def RefundsLocked (coin : MWCoin) : Prop :=
  ∀ S, SentFor w.past .sharedInp .tx coin S →
    ∃ fee lockHeight, S.msgToSign L = .ok (.heightLocked fee lockHeight) ∧ w.grin.height < lockHeight

/-- The contract transaction of every final slate that was sent can be in a block, unless the coin has
gone to the Bitcoin owner already. -/
def ContractsSpendable : Prop :=
  ∀ coin S, SentFor w.past .contract .tx coin S → w.Spendable S ∨ w.ContractMined L coin

/-- What the code does not look at, in a step from this state: whether the coin is there when the
execution starts, the kernels and lock heights of the refunds, and whether the slate with which the peer
answers lists other inputs, or leaves out the output of the party. -/
structure ContractGuard (w' : World K P) : Prop where
  funded : ∀ r coin, w.running = none → w'.running = some r → r.phase = .execution →
    r.start.prvSlate.mw.sharedCoin = some coin → w.CoinUnspent L coin ∨ w.ContractMined L coin
  locked : ∀ coin S, SentFor w'.past .contract .tx coin S →
    w'.RefundsLocked L coin ∨ w'.ContractMined L coin
  listed : ∀ coin o S tx com, ContractAnswered L w'.past coin o S → S.tx = some tx → tx.Spends com →
    deserializeCommitment L coin.commitment = .ok com
  kept : ∀ coin o S tx, ContractAnswered L w'.past coin o S → S.tx = some tx → tx.Pays o

end World

/-! ### The phases -/

/-- What holds of the operations of a phase of the Bitcoin owner: only the execution sends a final slate,
with the inputs and outputs of the peer's answer. -/
def FinalOp (L : GrinLib K P) (phase : Phase) (start : SwapSlate K P) (past : Trace K P (SwapSlate K P))
    (s : SwapSlate K P) (op : Op K P) : Prop :=
  ∀ S, op = .send (.slate .contract .tx S) → phase = .execution ∧
    s.prvSlate.mw.sharedCoin = start.prvSlate.mw.sharedCoin ∧
    (∀ e ∈ past, e.mem.prvSlate.mw.sharedCoin = start.prvSlate.mw.sharedCoin) ∧
    ∃ o S₃ tx₃ tx, OutputAnswered L .contract .ptx2 past o S₃ ∧ S₃.tx = some tx₃ ∧ S.tx = some tx ∧
      tx.inputs = tx₃.inputs ∧ tx.outputs = tx₃.outputs

omit [DecidableEq K] in
theorem finalOp_of_ne {phase : Phase} {start s : SwapSlate K P} {past : Trace K P (SwapSlate K P)}
    {op : Op K P} (h : ∀ S, op ≠ .send (.slate .contract .tx S)) : FinalOp L phase start past s op :=
  fun S hS => (h S hS).elim

theorem execPhaseSwapBtc_finalOp (rand : ExecBtcRand K) (slate : SwapSlate K P) :
    (execPhaseSwapBtc L B rand slate).Sat (FinalOp L .execution slate) (fun _ _ _ => True) [] := by
  refine execPhaseSwapBtc_sat (fun _ => finalOp_of_ne (by simp)) (fun _ => finalOp_of_ne (by simp))
    fun _ _ _ _ _ _ _ => (dcontractMwTxBob_sat _ _).mono ?_ fun _ _ _ _ =>
      ⟨fun _ => finalOp_of_ne (by simp), fun _ => trivial⟩
  rintro past' s op ⟨rfl, hop, hext⟩ S rfl
  refine ⟨rfl, rfl, ?_, hop⟩
  obtain ⟨u, rfl, hext⟩ := hext
  intro e he
  rcases List.mem_append.mp he with he | he
  · obtain rfl | rfl : e = _ ∨ e = _ := by simpa using he
    · rfl
    · rfl
  · rw [(hext e he).1]

theorem phase_finalOp (phase : Phase) (rand : Rand K) (start : SwapSlate K P) :
    (phase.program L B rand .btc start).Sat (FinalOp L phase start) (fun _ _ _ => True) [] := by
  cases phase with
  | locking =>
    refine (lockingPhaseSwapBtc_sat rand.lockBtc start []).mono ?_ fun _ _ _ _ => trivial
    rintro past s op hop
    exact finalOp_of_ne (by rintro S rfl; exact hop)
  | execution => exact execPhaseSwapBtc_finalOp rand.execBtc start
  | refund =>
    exact refundPhaseSwapBtc_sat (fun _ => finalOp_of_ne (by simp)) (fun _ => finalOp_of_ne (by simp))
      (fun _ _ => finalOp_of_ne (by simp)) fun _ _ _ _ _ _ => trivial

/-! ### The invariant -/

variable {w w' w₀ : World K P} {coin : MWCoin} {S : Slate K P}

namespace World

/-- The coin is there, or has gone to the Bitcoin owner, or a refund may have taken it. -/
def Standing (L : GrinLib K P) (w : World K P) (coin : MWCoin) : Prop :=
  w.CoinUnspent L coin ∨ w.ContractMined L coin ∨ ¬ w.RefundsLocked L coin

section

omit [DecidableEq K]

theorem ContractMined.mono (h : w.ContractMined L coin) (hpast : w.past <+: w'.past)
    (hmined : w.grin.mined ⊆ w'.grin.mined) : w'.ContractMined L coin := by
  obtain ⟨com, S, o, hcom, hsent, hown, tx, htx, h⟩ := h
  exact ⟨com, S, o, hcom, hsent.mono hpast, hown.mono hpast, tx, hmined htx, h⟩

omit [CommRing K] [AddCommGroup P] [Module K P] [DecidableEq P] in
theorem RefundsLocked.anti (h : w'.RefundsLocked L coin) (hpast : w.past <+: w'.past)
    (hheight : w.grin.height ≤ w'.grin.height) : w.RefundsLocked L coin := by
  intro S hsent
  obtain ⟨fee, lockHeight, hmsg, hlt⟩ := h S (hsent.mono hpast)
  exact ⟨fee, lockHeight, hmsg, by omega⟩

theorem Standing.mono (h : w.Standing L coin) (hpast : w.past <+: w'.past)
    (hheight : w.grin.height ≤ w'.grin.height) (hmined : w.grin.mined ⊆ w'.grin.mined)
    (hunspent : w'.grin.unspent = w.grin.unspent) : w'.Standing L coin := by
  rcases h with h | h | h
  · left
    intro com hcom
    rw [hunspent]
    exact h com hcom
  · exact .inr (.inl (h.mono hpast hmined))
  · exact .inr (.inr fun hlocked => h (hlocked.anti hpast hheight))

/-- Every final slate for the coin has an output of the party. -/
def FinalsKept (L : GrinLib K P) (w : World K P) (coin : MWCoin) : Prop :=
  ∀ S, SentFor w.past .contract .tx coin S →
    ∃ o tx, OwnOutput L w.past coin o ∧ S.tx = some tx ∧ tx.Pays o

/-- A transaction in a block takes a coin only through a contract that pays the party, or through a refund
that is not locked. -/
theorem Standing.mine {tx : Grin.Transaction K P} (h : w.Standing L coin) (hholds : w.Holds coin)
    (hkept : w.FinalsKept L coin) (haccepts : w.grin.Accepts L tx) (hpeer : w.Assembled L .btc tx) :
    ({ w with grin := w.grin.mine tx } : World K P).Standing L coin := by
  have hmined : w.grin.mined ⊆ (w.grin.mine tx).mined := List.subset_cons_self _ _
  rcases h with h | h | h
  · by_cases hspends : ∃ com, deserializeCommitment L coin.commitment = .ok com ∧ tx.Spends com
    · obtain ⟨com, hcom, hspends⟩ := hspends
      obtain ⟨protocol, stage, S, hsigns, hsent, hkernel, hpays⟩ := hpeer coin com hholds hcom hspends
      match protocol, stage, hsigns with
      | .contract, .tx, _ =>
        obtain ⟨o, signed, hown, hsigned, ho⟩ := hkept S hsent
        exact .inr (.inl ⟨com, S, o, hcom, hsent, hown, tx, List.mem_cons_self, hspends, hkernel,
          hpays o signed hown hsigned ho⟩)
      | .sharedInp, .tx, _ =>
        -- the kernel of a locked refund is not mature
        refine .inr (.inr fun hlocked => ?_)
        obtain ⟨msg, hmsg, k, hk, hfeatures⟩ := hkernel.hasKernelOf
        obtain ⟨fee, lockHeight, hmsg', hlt⟩ := hlocked S hsent
        cases hmsg.symm.trans hmsg'
        have hmatured := (haccepts.kernels k hk).2
        rw [hfeatures] at hmatured
        have hle : lockHeight ≤ w.grin.height := hmatured
        have hlt : w.grin.height < lockHeight := hlt
        omega
    · left
      intro com hcom
      exact .inl ⟨h com hcom, fun hspend => hspends ⟨com, hcom, hspend⟩⟩
  · exact .inr (.inl (h.mono List.prefix_rfl hmined))
  · exact .inr (.inr fun hlocked => h (hlocked.anti List.prefix_rfl le_rfl))

end

/-- The coin of an execution that runs, or of a final slate. -/
def Executes (w : World K P) (coin : MWCoin) : Prop :=
  (∃ r, w.running = some r ∧ r.phase = .execution ∧ r.start.prvSlate.mw.sharedCoin = some coin) ∨
    ∃ S, SentFor w.past .contract .tx coin S

omit [CommRing K] [AddCommGroup P] [Module K P] [DecidableEq K] [DecidableEq P] in
theorem Executes.holds (h : w.Executes coin) : w.Holds coin := by
  rcases h with ⟨r, hr, -, hcoin⟩ | ⟨S, s, ans, hmem, hcoin⟩
  · exact .inr (.inl ⟨r, hr, hcoin⟩)
  · exact .inr (.inr ⟨_, hmem, hcoin⟩)

end World

/-- A final slate for the coin was made of a slate of the peer, which answered one with an output of the
party. -/
def FinalOf (L : GrinLib K P) (past : Trace K P (SwapSlate K P)) (coin : MWCoin) (S : Slate K P) : Prop :=
  ∃ o S₃ tx₃ tx, OwnOutput L past coin o ∧ ContractAnswered L past coin o S₃ ∧ S₃.tx = some tx₃ ∧
    S.tx = some tx ∧ tx.inputs = tx₃.inputs ∧ tx.outputs = tx₃.outputs

omit [DecidableEq K] in
theorem FinalOf.mono {past past' : Trace K P (SwapSlate K P)} (h : FinalOf L past coin S)
    (hpre : past <+: past') : FinalOf L past' coin S := by
  obtain ⟨o, S₃, tx₃, tx, hown, hanswered, h⟩ := h
  exact ⟨o, S₃, tx₃, tx, hown.mono hpre, hanswered.mono hpre, h⟩

omit [DecidableEq K] in
/-- The final slate of an execution that held the coin all along. -/
theorem FinalOp.finalOf {phase : Phase} {start s : SwapSlate K P} {t₀ t : Trace K P (SwapSlate K P)}
    (h : FinalOp L phase start t s (.send (.slate .contract .tx S)))
    (hcoin : s.prvSlate.mw.sharedCoin = some coin) : FinalOf L (t₀ ++ t) coin S := by
  obtain ⟨-, hsame, hmem, o, S₃, tx₃, tx, hanswered, hbody⟩ := h S rfl
  have hheld : ∀ e ∈ t, e.mem.prvSlate.mw.sharedCoin = some coin := fun e he => by
    rw [hmem e he, ← hsame, hcoin]
  have hans := hanswered.append_left t₀
  obtain ⟨pre, s₃, msg, rfl, hput, -⟩ := hanswered
  have hput' := hput.append_left t₀
  obtain ⟨pre, s₁, s₂, ans, S₁, S₂, key, m, rfl, -⟩ := hput
  refine ⟨o, S₃, tx₃, tx, ⟨_, ⟨s₂, .send (.slate .contract .ptx2 S₂), ans⟩, ?_, hput', by simp, ?_⟩,
    ⟨_, ⟨s₃, .recv, .ok msg⟩, List.prefix_rfl, hans, by simp, ?_⟩, hbody⟩
  · exact (List.prefix_append_right_inj t₀).mpr (List.prefix_append _ _)
  · exact hheld _ (by simp)
  · exact hheld _ (by simp)

/-- What holds in every state of a guarded run. -/
structure ContractInv (L : GrinLib K P) (B : BtcLib K P) (w : World K P) : Prop where
  traced : w.Traced L B .btc
  answered : ∀ coin S, SentFor w.past .contract .tx coin S → FinalOf L w.past coin S
  standing : ∀ coin, w.Executes coin → w.Standing L coin

theorem World.Initial.contractInv (h : w.Initial) : ContractInv L B w := by
  have hnone : ∀ coin S, ¬ SentFor w.past .contract .tx coin S := by
    rintro coin S ⟨s, ans, hmem, -⟩
    rw [h.past] at hmem
    cases hmem
  refine ⟨h.traced, fun coin S hsent => (hnone coin S hsent).elim, ?_⟩
  rintro coin (⟨r, hr, -⟩ | ⟨S, hsent⟩)
  · cases h.idle.symm.trans hr
  · exact (hnone coin S hsent).elim

/-- The final slates have an output of the party, when the peer leaves it in. -/
theorem ContractInv.finalsKept (h : ContractInv L B w)
    (hkept : ∀ coin o S tx, ContractAnswered L w.past coin o S → S.tx = some tx → tx.Pays o) :
    w.FinalsKept L coin := by
  intro S hsent
  obtain ⟨o, S₃, tx₃, tx, hown, hanswered, htx₃, htx, -, houtputs⟩ := h.answered coin S hsent
  refine ⟨o, tx, hown, htx, ?_⟩
  rw [Transaction.Pays, houtputs]
  exact hkept coin o S₃ tx₃ hanswered htx₃

theorem ContractInv.step (h : ContractInv L B w)
    (hstep : WorldStep L B .btc (World.Assembled L .btc) w w') (hguard : w.ContractGuard L w') :
    ContractInv L B w' := by
  refine ⟨hstep.traced h.traced, ?_, ?_⟩
  · intro coin S hsent
    cases hstep with
    | @operation phase start s op ans k hrun hans =>
      obtain ⟨t₀, t, hpast, hop⟩ := h.traced.sat hrun fun rand => phase_finalOp phase rand start
      have hpre : w.past <+: w.past ++ [⟨s, op, ans⟩] := List.prefix_append _ _
      rcases hsent.of_append with hsent | ⟨rfl, hcoin⟩
      · exact (h.answered coin S hsent).mono hpre
      · refine FinalOf.mono ?_ hpre
        rw [hpast]
        exact hop.finalOf hcoin
    | _ => exact h.answered coin S hsent
  · intro coin hexec
    cases hstep with
    | @start phase rand hidle hstatus =>
      rcases hexec with ⟨r, hr, hphase, hcoin⟩ | hsent
      · rcases hguard.funded r coin hidle hr hphase hcoin with hunspent | hmined
        · exact .inl hunspent
        · exact .inr (.inl hmined)
      · exact h.standing coin (.inr hsent)
    | @operation phase start s op ans k hrun hans =>
      have hpre : w.past <+: w.past ++ [⟨s, op, ans⟩] := List.prefix_append _ _
      refine World.Standing.mono (h.standing coin ?_) hpre le_rfl (List.Subset.refl _) rfl
      rcases hexec with ⟨r, hr, hphase, hcoin⟩ | ⟨S, hsent⟩
      · obtain rfl := Option.some.inj hr
        exact .inl ⟨_, hrun, hphase, hcoin⟩
      · rcases hsent.of_append with hsent | ⟨rfl, hcoin⟩
        · exact .inr ⟨S, hsent⟩
        · obtain ⟨_, _, _, hop⟩ := h.traced.sat hrun fun rand => phase_finalOp phase rand start
          obtain ⟨hphase, hsame, -⟩ := hop S rfl
          exact .inl ⟨_, hrun, hphase, by rw [← hsame, hcoin]⟩
    | finish hrun =>
      rcases hexec with ⟨r, hr, -⟩ | hsent
      · cases hr
      · exact h.standing coin (.inr hsent)
    | fail =>
      rcases hexec with ⟨r, hr, -⟩ | hsent
      · cases hr
      · exact h.standing coin (.inr hsent)
    | grinGrows hle => exact (h.standing coin hexec).mono List.prefix_rfl hle (List.Subset.refl _) rfl
    | btcGrows => exact h.standing coin hexec
    | grinMines haccepts hpeer =>
      have hkept : w.FinalsKept L coin := h.finalsKept hguard.kept
      exact (h.standing coin hexec).mine (World.Executes.holds hexec) hkept haccepts hpeer
    | btcMines => exact h.standing coin hexec

/-- In the states that the guarded steps lead to, the contract transactions of the final slates can be in
a block. -/
theorem ContractInv.spendable (h : ContractInv L B w') (hguard : w.ContractGuard L w') :
    w'.ContractsSpendable L := by
  intro coin S hsent
  rcases h.standing coin (.inr ⟨S, hsent⟩) with hunspent | hmined | hunlocked
  · left
    intro tx com htx hspends
    obtain ⟨o, S₃, tx₃, signed, -, hanswered, htx₃, hsigned, hinputs, -⟩ := h.answered coin S hsent
    obtain rfl := Option.some.inj (htx.symm.trans hsigned)
    refine hunspent com (hguard.listed coin o S₃ tx₃ com hanswered htx₃ ?_)
    rw [Transaction.Spends, ← hinputs]
    exact hspends
  · exact .inr hmined
  · exact .inr ((hguard.locked coin S hsent).resolve_left hunlocked)

/-- In every run of the Bitcoin owner against any peer and with any chains, in which the coin is there
when an execution starts, its refunds are locked while its contract is open, and the peer lists it as the
input and leaves the output of the Bitcoin owner in, the witness is out only when the contract can be in a
block or is in one that pays the Bitcoin owner. -/
theorem bitcoinOwner_atomic (hstart : w₀.Initial)
    (hrun : GuardedSteps L B .btc (World.Assembled L .btc) (fun w w' => w.ContractGuard L w') w₀ w) :
    w.ContractsSpendable L := by
  have hinv : ∀ {w}, GuardedSteps L B .btc (World.Assembled L .btc) (fun w w' => w.ContractGuard L w') w₀ w →
      ContractInv L B w := by
    intro w hrun
    induction hrun with
    | refl => exact hstart.contractInv
    | tail _ hstep ih => exact ih.step hstep.1 hstep.2
  cases hrun with
  | refl =>
    rintro coin S ⟨s, ans, hmem, -⟩
    rw [hstart.past] at hmem
    cases hmem
  | tail hrun hstep => exact ((hinv hrun).step hstep.1 hstep.2).spendable hstep.2

/-! ### Samples -/

section Sample

variable {t : Trace Scalar Scalar (SwapSlate Scalar Scalar)} {proof : RangeProof} {lock : SignedLock}
  {shared : DSharedOutMwTxResult Scalar Scalar} {coin : MWCoin} {m₁ m₃ : String}
  {S₂ S₃ : Slate Scalar Scalar}

/-- The taker of the sample executes with the slate that it stored, up to its final slate. -/
def sampleExecution (s : SwapSlate Scalar Scalar) (m₁ m₃ : String) (S₂ : Slate Scalar Scalar) :
    Trace Scalar Scalar (SwapSlate Scalar Scalar) :=
  [⟨s, .getBlockHeight, .ok 1500000⟩, ⟨s, .getCurrentBlockHeight, .ok 700000⟩,
    ⟨s.executing, .recv, .ok m₁⟩, ⟨s.executing, .send (.slate .contract .ptx2 S₂), .ok ()⟩,
    ⟨s.executing, .recv, .ok m₃⟩, ⟨s.executing, .send (.slate .contract .tx sampleReveal), .ok ()⟩]

/-- The answer of the offerer of the sample, to a slate of the taker. -/
structure SampleAnswer (m₃ : String) (S₂ S₃ : Slate Scalar Scalar) : Prop where
  read : Slate.deserializeUpgrade exponents m₃ = .ok S₃
  inputs : S₃.tx.map Transaction.inputs = some [sharedInput exponents 1012500000 21 31]
  outputs : S₃.tx.map Transaction.outputs = S₂.tx.map Transaction.outputs

variable (lock) in
theorem sample_reveals (hcoin : SharedCoin exponents coin shared.sharedCoin 1012500000 21 31)
    (hvalue : shared.sharedCoin.value = 1012500000) :
    ∃ m₁ S₂ m₃ S₃ q, SampleAnswer m₃ S₂ S₃ ∧
      Steps (execPhaseSwapBtc exponents (btcExponents []) sampleRand.execBtc (sampleTakerSetup lock shared))
        (sampleExecution (sampleTakerSetup lock shared) m₁ m₃ S₂) q := by
  obtain ⟨m₁, S₂, m₃, S₃, hS₃, hinputs, houtputs, hB⟩ := contract_reveal
    (sampleTakerSetup lock shared).executing exponents_lawful hcoin sample_spendsAll sample_execKeys
  have henough : enoughTime exponents.overflowChecks 1500000 700000 1500400 700040 = .ok true := by decide
  have hsk : deserializePrivKey (btcExponents []) (serializePrivKey (btcExponents [])
      (createPrivateKey 5)) = .ok (createPrivateKey 5) :=
    deserializePrivKey_serialize (btcExponents_lawful []) (by decide)
  have hgrinSk := ((exponents_sameCurve []).privateKey (k := 5) (by decide)).1
  have hfund : subU64 exponents.overflowChecks shared.sharedCoin.value (estimateFees exponents 1 1 1) =
      .ok 1000000000 := by
    rw [hvalue]
    decide
  obtain ⟨u, q, hexec, rfl, -⟩ := execPhaseSwapBtc_steps (.ok ()) rfl rfl henough rfl rfl hsk hgrinSk
    hfund hB rfl
  rw [← List.append_assoc] at hexec
  obtain ⟨q, hexec, -⟩ := hexec.append_inv
  exact ⟨m₁, S₂, m₃, S₃, q, ⟨hS₃, hinputs, houtputs⟩, hexec⟩

theorem sampleExecution_answered (s : SwapSlate Scalar Scalar) (m₁ m₃ : String) (S₂ : Slate Scalar Scalar) :
    ∀ e ∈ sampleExecution s m₁ m₃ S₂, e.op.AnsweredAt 1500000 700000 e.ans := by
  simp [sampleExecution, Op.AnsweredAt]

omit [DecidableEq K] in
/-- Before the contract nothing is asked. -/
theorem contractGuard_of_quiet {w w' : World K P} (hphase : ∀ r, w'.running = some r → r.phase ≠ .execution)
    (hnone : ∀ e ∈ w'.past, ∀ stage S, e.op ≠ .send (.slate .contract stage S)) :
    w.ContractGuard L w' := by
  have hunasked : ∀ coin o S, ¬ ContractAnswered L w'.past coin o S := by
    rintro coin o S ⟨_, e, hpre, ⟨pre, s, msg, rfl, ⟨pre', s₁, s₂, ans, S₁, S₂, key, m, rfl, -⟩, -⟩, -⟩
    exact hnone ⟨s₂, .send (.slate .contract .ptx2 S₂), ans⟩ (hpre.subset (by simp)) _ S₂ rfl
  refine ⟨fun r coin _ hr hexec _ => (hphase r hr hexec).elim, ?_,
    fun coin o S tx com hans => (hunasked coin o S hans).elim,
    fun coin o S tx hans => (hunasked coin o S hans).elim⟩
  rintro coin S ⟨s, ans, hmem, -⟩
  exact (hnone _ hmem _ S rfl).elim

/-- The only answer in the sample, and the output that the taker had put in. -/
theorem sampleExecution_asked {s : SwapSlate Scalar Scalar} {o : Output} {S : Slate Scalar Scalar}
    (ht : ∀ e ∈ t, ∀ stage S, e.op ≠ .send (.slate .contract stage S))
    (h : ContractAnswered exponents (t ++ sampleExecution s m₁ m₃ S₂) coin o S) :
    Slate.deserializeUpgrade exponents m₃ = .ok S ∧ s.prvSlate.mw.sharedCoin = some coin ∧
      ∃ outs, S₂.tx.map Transaction.outputs = some (exponents.insertOutput o outs) := by
  obtain ⟨_, e, ⟨u, hu⟩, ⟨_, s₃, msg₃, rfl, ⟨pre, s₁, s₂, ans, S₁, S₂', key, msg, rfl, -, -, hput⟩, hread⟩,
    hlast, hcoin⟩ := h
  obtain rfl : ⟨s₃, .recv, .ok msg₃⟩ = e := by simpa using hlast
  have hcut : pre ++ (⟨s₁, .recv, .ok msg⟩ :: ⟨s₂, .send (.slate .contract .ptx2 S₂'), ans⟩ ::
      ⟨s₃, .recv, .ok msg₃⟩ :: u) = t ++ sampleExecution s m₁ m₃ S₂ := by
    rw [← hu]
    simp
  rcases List.append_eq_append_iff.mp hcut with ⟨v, rfl, hv⟩ | ⟨v, rfl, hv⟩
  · -- the locking phase has no slate of the contract
    rcases v with _ | ⟨e₁, _ | ⟨e₂, v⟩⟩
    · cases hv
    · simp [sampleExecution] at hv
    · simp only [List.cons_append, List.cons.injEq] at hv
      exact (ht e₂ (by simp) _ S₂' (by rw [← hv.2.1])).elim
  · rcases v with _ | ⟨_, _ | ⟨_, _ | ⟨_, _ | ⟨_, _ | ⟨_, _ | ⟨_, v⟩⟩⟩⟩⟩⟩ <;>
      first | cases hv | simp [sampleExecution] at hv
    exact ⟨hread, hcoin, _, hput⟩

/-- The answer of the offerer of the sample spends the coin and pays the taker. -/
theorem SampleAnswer.fair {s : SwapSlate Scalar Scalar} {o : Output} {S : Slate Scalar Scalar}
    {tx : Grin.Transaction Scalar Scalar} (h : SampleAnswer m₃ S₂ S₃)
    (ht : ∀ e ∈ t, ∀ stage S, e.op ≠ .send (.slate .contract stage S))
    (hanswered : ContractAnswered exponents (t ++ sampleExecution s m₁ m₃ S₂) coin o S)
    (htx : S.tx = some tx) :
    s.prvSlate.mw.sharedCoin = some coin ∧ (∀ com, tx.Spends com → com = sampleCommit) ∧ tx.Pays o := by
  obtain ⟨hS, hcoin, outs, houts⟩ := sampleExecution_asked ht hanswered
  obtain rfl : S₃ = S := Except.ok.inj (h.read.symm.trans hS)
  have hinputs := h.inputs
  have houtputs := h.outputs
  rw [htx, Option.map_some, Option.some.injEq] at hinputs
  rw [htx, houts, Option.map_some, Option.some.injEq] at houtputs
  refine ⟨hcoin, fun com hspends => ?_, ?_⟩
  · rw [Transaction.Spends, hinputs] at hspends
    exact List.mem_singleton.mp hspends
  · rw [Transaction.Pays, houtputs]
    exact exponents_lawful.insertOutput_mem o outs

/-- The taker of the sample after its locking phase. -/
def sampleTakerLocked (t : Trace Scalar Scalar (SwapSlate Scalar Scalar)) (lock : SignedLock)
    (shared : DSharedOutMwTxResult Scalar Scalar) : World Scalar Scalar :=
  (sampleWorld sampleTaker).after (sampleTakerSetup lock shared) t

/-- Then with the funding transaction in a block. -/
def sampleTakerFunded (t : Trace Scalar Scalar (SwapSlate Scalar Scalar)) (lock : SignedLock)
    (shared : DSharedOutMwTxResult Scalar Scalar) (proof : RangeProof) : World Scalar Scalar :=
  { sampleTakerLocked t lock shared with grin := (sampleWorld sampleTaker).grin.mine (sampleFunds proof) }

/-- The locking phase of the sample, in guarded steps. -/
theorem sample_steps_lock (hevents : ∀ e ∈ t, TakerLockEvent shared.sharedCoin e)
    (hlock : Steps (lockingPhaseSwapBtc exponents (btcExponents []) sampleRand.lockBtc sampleTaker) t
      (.ret (sampleTakerSetup lock shared) ())) :
    GuardedSteps exponents (btcExponents []) .btc (World.Assembled exponents .btc)
      (fun w w' => w.ContractGuard exponents w') (sampleWorld sampleTaker)
      (sampleTakerLocked t lock shared) := by
  have hquiet : ∀ e ∈ t, ∀ stage S, e.op ≠ .send (.slate .contract stage S) := fun e he => (hevents e he).quiet
  refine guardedSteps_done .locking sampleRand rfl rfl hlock (fun e he => (hevents e he).answered)
    (fun p => ?_) (fun t₁ p₁ t₂ p₂ hpre => ?_) fun p => ?_
  · refine contractGuard_of_quiet (fun r hr => ?_) fun e he => by cases he
    cases hr
    intro hphase
    cases hphase
  · refine contractGuard_of_quiet (fun r hr => ?_) fun e he => hquiet e (hpre.subset he)
    cases hr
    intro hphase
    cases hphase
  · exact contractGuard_of_quiet (fun r hr => by cases hr) hquiet

variable (lock) in
/-- The funding transaction of the sample comes into a block, in a guarded step. -/
theorem sample_step_fund (hevents : ∀ e ∈ t, TakerLockEvent shared.sharedCoin e)
    (hcoin : SharedCoin exponents coin shared.sharedCoin 1012500000 21 31)
    (hvalid : exponents.validate (sampleFunds proof) = true) :
    WorldStep exponents (btcExponents []) .btc (World.Assembled exponents .btc)
        (sampleTakerLocked t lock shared) (sampleTakerFunded t lock shared proof) ∧
      (sampleTakerLocked t lock shared).ContractGuard exponents (sampleTakerFunded t lock shared proof) := by
  refine ⟨.grinMines (sampleFunds_accepts sampleTaker hvalid) (sampleFunds_assembled ?_), ?_⟩
  · intro coin' com h hcom
    obtain rfl := LockEvent.held_eq rfl rfl (fun e he => (hevents e he).toLockEvent) h
    exact Except.ok.inj (hcom.symm.trans (commitment_of_readInput hcoin.readB))
  · exact contractGuard_of_quiet (fun r hr => by cases hr) fun e he => (hevents e he).quiet

/-- What guards the execution of the sample: the coin is there when it starts, the refund of the locking
phase is locked, and the peer answers as the offerer of the sample. -/
theorem contractGuard_of_sample {w w' : World Scalar Scalar}
    (hevents : ∀ e ∈ t, TakerLockEvent shared.sharedCoin e)
    (hcoin : SharedCoin exponents coin shared.sharedCoin 1012500000 21 31) (hanswer : SampleAnswer m₃ S₂ S₃)
    (hheight : w'.grin.height = 1500000)
    (hpre : w'.past <+: t ++ sampleExecution (sampleTakerSetup lock shared) m₁ m₃ S₂)
    (hstart : ∀ r, w.running = none → w'.running = some r →
      sampleCommit ∈ w.grin.unspent ∧ r.start = sampleTakerSetup lock shared) :
    w.ContractGuard exponents w' := by
  have hcommit : deserializeCommitment exponents shared.sharedCoin.commitment = .ok sampleCommit :=
    commitment_of_readInput hcoin.readB
  have hquiet : ∀ e ∈ t, ∀ stage S, e.op ≠ .send (.slate .contract stage S) := fun e he => (hevents e he).quiet
  refine ⟨?_, ?_, ?_, ?_⟩
  · intro r coin' hidle hr _ hcoin'
    obtain ⟨hunspent, hsame⟩ := hstart r hidle hr
    rw [hsame] at hcoin'
    obtain rfl : shared.sharedCoin = coin' := Option.some.inj hcoin'
    left
    intro com hcom
    rwa [Except.ok.inj (hcom.symm.trans hcommit)]
  · intro coin' S _
    left
    intro S' hsent
    obtain ⟨s, ans, hmem, -⟩ := hsent.mono hpre
    rcases List.mem_append.mp hmem with hmem | hmem
    · obtain ⟨fee, hmsg⟩ := (hevents _ hmem).refund S' rfl
      refine ⟨fee, 1500400, hmsg, ?_⟩
      rw [hheight]
      decide
    · simp [sampleExecution] at hmem
  · intro coin' o S tx com hanswered htx hspends
    obtain ⟨hcoin', hcom, -⟩ := hanswer.fair hquiet (hanswered.mono hpre) htx
    obtain rfl : shared.sharedCoin = coin' := Option.some.inj hcoin'
    rw [hcom com hspends, hcommit]
  · intro coin' o S tx hanswered htx
    exact (hanswer.fair hquiet (hanswered.mono hpre) htx).2.2

/-- The execution of the sample, in guarded steps. -/
theorem sample_steps_execution {q : Program Scalar Scalar (SwapSlate Scalar Scalar) Unit}
    (hevents : ∀ e ∈ t, TakerLockEvent shared.sharedCoin e)
    (hcoin : SharedCoin exponents coin shared.sharedCoin 1012500000 21 31) (hanswer : SampleAnswer m₃ S₂ S₃)
    (hexec : Steps (execPhaseSwapBtc exponents (btcExponents []) sampleRand.execBtc
      (sampleTakerSetup lock shared)) (sampleExecution (sampleTakerSetup lock shared) m₁ m₃ S₂) q) :
    GuardedSteps exponents (btcExponents []) .btc (World.Assembled exponents .btc)
      (fun w w' => w.ContractGuard exponents w') (sampleTakerFunded t lock shared proof)
      ((sampleTakerFunded t lock shared proof).during .execution (sampleTakerSetup lock shared)
        (sampleExecution (sampleTakerSetup lock shared) m₁ m₃ S₂) q) := by
  refine guardedSteps_phase .execution sampleRand rfl rfl hexec (sampleExecution_answered _ _ _ _)
    (fun p => ?_) fun t₁ p₁ t₂ p₂ hpre => ?_
  · refine @contractGuard_of_sample t lock shared coin m₁ m₃ S₂ S₃ _ _ hevents hcoin hanswer rfl
      ((List.prefix_append_right_inj t).mpr List.nil_prefix) fun r _ hr => ?_
    cases hr
    refine ⟨.inr ?_, rfl⟩
    rw [sampleFunds_outputs]
    exact List.mem_cons_self
  · exact contractGuard_of_sample hevents hcoin hanswer rfl ((List.prefix_append_right_inj t).mpr hpre)
      fun r hidle => by cases hidle

theorem sampleExecution_sent (s : SwapSlate Scalar Scalar)
    (hcoin : s.prvSlate.mw.sharedCoin = some coin) :
    SentFor (t ++ sampleExecution s m₁ m₃ S₂) .contract .tx coin sampleReveal :=
  ⟨s.executing, .ok (), List.mem_append_right _ (by simp [sampleExecution]), hcoin⟩

end Sample

/-- The funding transaction of the sample is in a block, and the Bitcoin owner reveals its witness. -/
theorem bitcoinOwner_atomic_sample : ∃ (w : World Scalar Scalar) (coin : MWCoin),
    SentFor w.past .contract .tx coin sampleReveal ∧ w.ContractsSpendable exponents := by
  obtain ⟨t, proof, lock, shared, coin, hlock, hvalid, hvalue, hcoin, hevents⟩ := sample_run_btc
  obtain ⟨m₁, S₂, m₃, S₃, q, hanswer, hexec⟩ := sample_reveals lock hcoin hvalue
  have hlocked := sample_steps_lock hevents hlock
  have hfunded := hlocked.tail (sample_step_fund lock hevents hcoin hvalid)
  have hrun := hfunded.trans (sample_steps_execution hevents hcoin hanswer hexec)
  exact ⟨_, shared.sharedCoin, sampleExecution_sent (sampleTakerSetup lock shared) rfl,
    bitcoinOwner_atomic ⟨rfl, rfl, rfl, rfl, rfl⟩ hrun⟩

/-- The Grin owner does not publish the funding transaction, and the Bitcoin owner reveals its witness. -/
theorem bitcoinOwner_unpaid : ∃ w, (sampleWorld sampleTaker).Initial ∧
    WorldSteps exponents (btcExponents []) .btc (World.Assembled exponents .btc) (sampleWorld sampleTaker) w ∧
    ¬ w.ContractsSpendable exponents := by
  obtain ⟨t, proof, lock, shared, coin, hlock, -, hvalue, hcoin, hevents⟩ := sample_run_btc
  obtain ⟨m₁, S₂, m₃, S₃, q, -, hexec⟩ := sample_reveals lock hcoin hvalue
  have hlocked := WorldSteps.of_guarded (sample_steps_lock hevents hlock)
  have hrun : GuardedSteps exponents (btcExponents []) .btc (World.Assembled exponents .btc) (fun _ _ => True)
      (sampleTakerLocked t lock shared) _ :=
    guardedSteps_phase .execution sampleRand rfl rfl hexec (sampleExecution_answered _ _ _ _)
      (fun _ => trivial) (fun _ _ _ _ _ => trivial)
  refine ⟨_, ⟨rfl, rfl, rfl, rfl, rfl⟩, hlocked.trans (WorldSteps.of_guarded hrun), fun hall => ?_⟩
  rcases hall _ _ (sampleExecution_sent (sampleTakerSetup lock shared) rfl) with
    hspendable | ⟨com, S, o, -, -, -, tx, htx, -⟩
  · have hmem : sampleCommit ∈ ({sampleOpening.1.commit} : Set Commitment) :=
      hspendable _ _ rfl (List.mem_singleton_self _)
    exact absurd (Set.mem_singleton_iff.mp hmem) (by decide +kernel)
  · cases htx

end MwBtcSwap
