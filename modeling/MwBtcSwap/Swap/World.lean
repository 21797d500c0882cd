import MwBtcSwap.Bitcoin.Lock
import MwBtcSwap.Swap.Commands
import Mathlib.Data.Set.Basic
import Mathlib.Logic.Relation

/-! One party of a swap in the world.  Its phases run on the slate that it stored, as its commands allow;
the peer answers anything and publishes what it can assemble; both chains grow at any time. -/

namespace MwBtcSwap

open Interaction Machine Grin Bitcoin Relation

/-- A block of a height can hold a kernel. -/
def Grin.KernelFeatures.Matured (height : ℕ) : KernelFeatures → Prop
  | .heightLocked _ lockHeight => lockHeight ≤ height
  | _ => True

/-- The Grin chain: its height, the commitments of its unspent outputs, and the transactions of its
blocks, the last one first. -/
structure GrinChain (K P : Type) where
  height : ℕ
  unspent : Set Commitment
  mined : List (Grin.Transaction K P)

/-- The Bitcoin chain: its height and median time past, the outputs that it had before the swap, and the
transactions of its blocks since then. -/
structure BtcChain where
  height : ℕ
  mtp : ℕ
  genesis : OutPoint → Option TxOut
  mined : List Bitcoin.Transaction

variable {K P : Type} [CommRing K] [AddCommGroup P] [Module K P] [DecidableEq K] [DecidableEq P]

variable {L : GrinLib K P} {B : BtcLib K P}

/-! ### The chains -/

def Grin.Transaction.Spends (tx : Grin.Transaction K P) (com : Commitment) : Prop :=
  com ∈ tx.inputs.map Input.commit

/-- A transaction has the output, or another one with its commitment. -/
def Grin.Transaction.Pays (tx : Grin.Transaction K P) (o : Output) : Prop :=
  o.commit ∈ tx.outputs.map Output.commit

/-- A block of the Grin chain can hold a transaction. -/
structure GrinChain.Accepts (L : GrinLib K P) (chain : GrinChain K P) (tx : Grin.Transaction K P) :
    Prop where
  unspent : ∀ com, tx.Spends com → com ∈ chain.unspent
  fresh : ∀ o ∈ tx.outputs, o.commit ∉ chain.unspent
  sums : L.kernelSums tx = true
  kernels : ∀ k ∈ tx.kernels, L.verifyKernel k = true ∧ k.features.Matured chain.height

omit [DecidableEq K] in
/-- What `Transaction::validate` accepts can be in a block, if its inputs are there, its outputs are not,
and its kernels are mature. -/
theorem GrinChain.accepts_of_validate {chain : GrinChain K P} {tx : Grin.Transaction K P}
    (hvalid : L.validate tx = true) (hunspent : ∀ com, tx.Spends com → com ∈ chain.unspent)
    (hfresh : ∀ o ∈ tx.outputs, o.commit ∉ chain.unspent)
    (hmatured : ∀ k ∈ tx.kernels, k.features.Matured chain.height) : chain.Accepts L tx := by
  simp only [GrinLib.validate, Bool.and_eq_true, List.all_eq_true] at hvalid
  obtain ⟨⟨-, hkernels⟩, hsums⟩ := hvalid
  exact ⟨hunspent, hfresh, hsums, fun k hk => ⟨hkernels k hk, hmatured k hk⟩⟩

def GrinChain.mine (chain : GrinChain K P) (tx : Grin.Transaction K P) : GrinChain K P where
  height := chain.height
  unspent := {com | com ∈ chain.unspent ∧ ¬ tx.Spends com ∨ com ∈ tx.outputs.map Output.commit}
  mined := tx :: chain.mined

/-- The output of an outpoint. -/
def BtcChain.HasOutput (B : BtcLib K P) (chain : BtcChain) (o : OutPoint) (out : TxOut) : Prop :=
  chain.genesis o = some out ∨
    ∃ tx ∈ chain.mined, B.txid tx = o.txid ∧ tx.output[o.vout]? = some out

/-- An input of a transaction in a block spends an outpoint in some way. -/
def BtcChain.Spent (chain : BtcChain) (o : OutPoint) (how : Bitcoin.Transaction → ℕ → Prop) : Prop :=
  ∃ tx ∈ chain.mined, ∃ ix i, tx.input[ix]? = some i ∧ i.previousOutput = o ∧ how tx ix

/-- A block of the Bitcoin chain can hold a transaction. -/
structure BtcChain.Accepts (B : BtcLib K P) (chain : BtcChain) (tx : Bitcoin.Transaction) : Prop where
  final : tx.IsFinal chain.height chain.mtp
  distinct : (tx.input.map TxIn.previousOutput).Nodup
  unspent : ∀ i ∈ tx.input, ¬ chain.Spent i.previousOutput fun _ _ => True
  satisfied : ∀ ix i, tx.input[ix]? = some i →
    ∃ out, chain.HasOutput B i.previousOutput out ∧ B.satisfies tx ix out.scriptPubkey = true

def BtcChain.mine (chain : BtcChain) (tx : Bitcoin.Transaction) : BtcChain :=
  { chain with mined := tx :: chain.mined }

theorem BtcChain.Spent.mono {chain : BtcChain} {o : OutPoint} {how how' : Bitcoin.Transaction → ℕ → Prop}
    (h : chain.Spent o how) (hhow : ∀ tx ix, how tx ix → how' tx ix) : chain.Spent o how' := by
  obtain ⟨tx, htx, ix, i, hi, ho, hspend⟩ := h
  exact ⟨tx, htx, ix, i, hi, ho, hhow tx ix hspend⟩

theorem BtcChain.spent_mine {chain : BtcChain} {tx : Bitcoin.Transaction} {o : OutPoint}
    {how : Bitcoin.Transaction → ℕ → Prop} :
    (chain.mine tx).Spent o how ↔
      (∃ ix i, tx.input[ix]? = some i ∧ i.previousOutput = o ∧ how tx ix) ∨ chain.Spent o how := by
  simp [BtcChain.Spent, BtcChain.mine]

/-! ### The party -/

/-- A phase that runs: the slate it started on, and what is left of it. -/
structure Running (K P : Type) where
  phase : Phase
  start : SwapSlate K P
  prog : Program K P (SwapSlate K P) Unit

/-- A party with the slate that it stored, what it has done, and the chains. -/
structure World (K P : Type) where
  slate : SwapSlate K P
  running : Option (Running K P)
  past : Trace K P (SwapSlate K P)
  grin : GrinChain K P
  btc : BtcChain

/-- The program of a phase. -/
def Phase.program (L : GrinLib K P) (B : BtcLib K P) (rand : Rand K) (role : Role)
    (slate : SwapSlate K P) : Phase → Program K P (SwapSlate K P) Unit
  | .locking => lockingPhase L B rand role slate
  | .execution => execPhase L B rand role slate
  | .refund => refundPhase B rand role slate

/-- The status in which the commands start a phase. -/
def Phase.startsIn : Phase → SwapStatus
  | .locking => .initialized
  | .execution => .setup
  | .refund => .setup

/-- The stages of the protocols in which a party puts a partial signature under its share of the coin
that is spent. -/
def Role.Signs : Role → Protocol → Stage → Prop
  | .mw, .sharedInp, .ptx2 => True
  | .mw, .contract, .ptx3 => True
  | .btc, .sharedInp, .tx => True
  | .btc, .contract, .tx => True
  | _, _, _ => False

/-- A slate was sent by a party that held the coin. -/
def SentFor (past : Trace K P (SwapSlate K P)) (protocol : Protocol) (stage : Stage) (coin : MWCoin)
    (S : Slate K P) : Prop :=
  ∃ s ans, ⟨s, .send (.slate protocol stage S), ans⟩ ∈ past ∧ s.prvSlate.mw.sharedCoin = some coin

section

omit [CommRing K] [AddCommGroup P] [Module K P] [DecidableEq K] [DecidableEq P]

theorem SentFor.mono {past past' : Trace K P (SwapSlate K P)} {protocol : Protocol} {stage : Stage}
    {coin : MWCoin} {S : Slate K P} (h : SentFor past protocol stage coin S) (hpre : past <+: past') :
    SentFor past' protocol stage coin S := by
  obtain ⟨s, ans, hmem, hcoin⟩ := h
  exact ⟨s, ans, hpre.subset hmem, hcoin⟩

/-- What was sent for a coin was sent by the last operation or before. -/
theorem SentFor.of_append {past : Trace K P (SwapSlate K P)} {s : SwapSlate K P} {op : Op K P}
    {ans : op.Ans} {protocol : Protocol} {stage : Stage} {coin : MWCoin} {S : Slate K P}
    (h : SentFor (past ++ [⟨s, op, ans⟩]) protocol stage coin S) :
    SentFor past protocol stage coin S ∨
      op = .send (.slate protocol stage S) ∧ s.prvSlate.mw.sharedCoin = some coin := by
  obtain ⟨s', ans', hmem, hcoin⟩ := h
  rcases List.mem_append.mp hmem with hmem | hmem
  · exact .inl ⟨s', ans', hmem, hcoin⟩
  · cases List.mem_singleton.mp hmem
    exact .inr ⟨rfl, hcoin⟩

/-- What the nodes answer at the heights of the chains. -/
def Op.AnsweredAt (heightGrin heightBtc : ℕ) : (op : Op K P) → op.Ans → Prop
  | .getBlockHeight, .ok height => height = heightGrin
  | .getCurrentBlockHeight, .ok height => height = heightBtc
  | _, _ => True

/-- Something happened last when the party held the coin, in what happened so far. -/
def HappenedFor (past : Trace K P (SwapSlate K P)) (coin : MWCoin)
    (R : Trace K P (SwapSlate K P) → Prop) : Prop :=
  ∃ past' e, past' <+: past ∧ R past' ∧ past'.getLast? = some e ∧ e.mem.prvSlate.mw.sharedCoin = some coin

theorem HappenedFor.mono {past past' : Trace K P (SwapSlate K P)} {coin : MWCoin}
    {R : Trace K P (SwapSlate K P) → Prop} (h : HappenedFor past coin R) (hpre : past <+: past') :
    HappenedFor past' coin R := by
  obtain ⟨u, e, hu, hR, hlast, hcoin⟩ := h
  exact ⟨u, e, hu.trans hpre, hR, hlast, hcoin⟩

end

/-- The party put an output of its own in a contract for the coin. -/
def OwnOutput (L : GrinLib K P) (past : Trace K P (SwapSlate K P)) (coin : MWCoin) (o : Output) : Prop :=
  HappenedFor past coin fun past' => PutOutput L .contract .ptx2 past' o

/-- A transaction has the kernel that a slate describes. -/
def HasKernel (L : GrinLib K P) (S : Slate K P) (tx : Grin.Transaction K P) : Prop :=
  ∃ k ∈ tx.kernels, S.Describes L k

/-- A transaction has a kernel with the features that a slate describes, its own or another one. -/
def HasKernelOf (L : GrinLib K P) (S : Slate K P) (tx : Grin.Transaction K P) : Prop :=
  ∃ msg, S.msgToSign L = .ok msg ∧ ∃ k ∈ tx.kernels, k.features = msg

omit [DecidableEq K] in
theorem HasKernel.hasKernelOf {S : Slate K P} {tx : Grin.Transaction K P} (h : HasKernel L S tx) :
    HasKernelOf L S tx := by
  obtain ⟨k, hk, hdescribes⟩ := h
  exact ⟨k.features, hdescribes.features, k, hk, rfl⟩

namespace World

variable (w : World K P)

/-- The party holds or has held a share of a coin. -/
def Holds (coin : MWCoin) : Prop :=
  w.slate.prvSlate.mw.sharedCoin = some coin ∨
    (∃ r, w.running = some r ∧ r.start.prvSlate.mw.sharedCoin = some coin) ∨
    ∃ e ∈ w.past, e.mem.prvSlate.mw.sharedCoin = some coin

/-- A transaction that the peer can assemble: if it spends a coin of which the party holds a share, it has
the kernel of a slate that the party signed for this coin.  The party's outputs in the transaction of that
slate cannot be taken out of it, as nobody else has a key to balance them with. -/
def Assembled (L : GrinLib K P) (role : Role) (w : World K P) (tx : Grin.Transaction K P) : Prop :=
  ∀ coin com, w.Holds coin → deserializeCommitment L coin.commitment = .ok com → tx.Spends com →
    ∃ protocol stage S, role.Signs protocol stage ∧ SentFor w.past protocol stage coin S ∧
      HasKernel L S tx ∧
      ∀ o signed, OwnOutput L w.past coin o → S.tx = some signed → signed.Pays o → tx.Pays o

/-- Before the locking phase. -/
structure Initial : Prop where
  status : w.slate.pubSlate.status = .initialized
  idle : w.running = none
  past : w.past = []
  grin : w.grin.mined = []
  btc : w.btc.mined = []

end World

/-- One step of the world, with a peer that can assemble some transactions in a state. -/
inductive WorldStep (L : GrinLib K P) (B : BtcLib K P) (role : Role)
    (peer : World K P → Grin.Transaction K P → Prop) (w : World K P) : World K P → Prop
  | start {phase : Phase} {rand : Rand K} (hidle : w.running = none)
      (hstatus : w.slate.pubSlate.status = phase.startsIn) :
    WorldStep L B role peer w
      { w with running := some ⟨phase, w.slate, phase.program L B rand role w.slate⟩ }
  | operation {phase : Phase} {start s : SwapSlate K P} {op : Op K P} {ans : op.Ans}
      {k : op.Ans → Program K P (SwapSlate K P) Unit}
      (hrun : w.running = some ⟨phase, start, .call s op k⟩)
      (hans : op.AnsweredAt w.grin.height w.btc.height ans) :
    WorldStep L B role peer w
      { w with running := some ⟨phase, start, k ans⟩, past := w.past ++ [⟨s, op, ans⟩] }
  /-- `main` writes the slate. -/
  | finish {phase : Phase} {start s : SwapSlate K P}
      (hrun : w.running = some ⟨phase, start, .ret s ()⟩) :
    WorldStep L B role peer w { w with slate := s, running := none }
  /-- The phase fails, or the process is killed, and nothing is written. -/
  | fail : WorldStep L B role peer w { w with running := none }
  | grinGrows {height : ℕ} (h : w.grin.height ≤ height) :
    WorldStep L B role peer w { w with grin.height := height }
  | btcGrows {height mtp : ℕ} (h : w.btc.height ≤ height) (hmtp : w.btc.mtp ≤ mtp) :
    WorldStep L B role peer w { w with btc.height := height, btc.mtp := mtp }
  | grinMines {tx : Grin.Transaction K P} (h : w.grin.Accepts L tx) (hpeer : peer w tx) :
    WorldStep L B role peer w { w with grin := w.grin.mine tx }
  | btcMines {tx : Bitcoin.Transaction} (h : w.btc.Accepts B tx) :
    WorldStep L B role peer w { w with btc := w.btc.mine tx }

/-- Runs of the world. -/
abbrev WorldSteps (L : GrinLib K P) (B : BtcLib K P) (role : Role)
    (peer : World K P → Grin.Transaction K P → Prop) : World K P → World K P → Prop :=
  ReflTransGen (WorldStep L B role peer)

/-- Runs of the world whose steps all meet a condition. -/
abbrev GuardedSteps (L : GrinLib K P) (B : BtcLib K P) (role : Role)
    (peer : World K P → Grin.Transaction K P → Prop) (G : World K P → World K P → Prop) :
    World K P → World K P → Prop :=
  ReflTransGen fun w w' => WorldStep L B role peer w w' ∧ G w w'

variable {role : Role} {peer : World K P → Grin.Transaction K P → Prop} {w w' w₀ : World K P}

/-! ### What runs -/

/-- What runs is a phase, and the last things that the party did are of its run. -/
def World.Traced (L : GrinLib K P) (B : BtcLib K P) (role : Role) (w : World K P) : Prop :=
  ∀ r, w.running = some r → ∃ rand t₀ t, w.past = t₀ ++ t ∧
    Steps (r.phase.program L B rand role r.start) t r.prog

theorem World.Initial.traced (h : w.Initial) : w.Traced L B role := by
  intro r hr
  cases h.idle.symm.trans hr

theorem WorldStep.traced (hstep : WorldStep L B role peer w w') (h : w.Traced L B role) :
    w'.Traced L B role := by
  cases hstep with
  | @start phase rand hidle hstatus =>
    intro r hr
    obtain rfl := Option.some.inj hr
    exact ⟨rand, w.past, [], (List.append_nil _).symm, .refl _⟩
  | @operation phase start s op ans k hrun hans =>
    intro r hr
    obtain rfl := Option.some.inj hr
    obtain ⟨rand, t₀, t, hpast, hsteps⟩ := h ⟨phase, start, .call s op k⟩ hrun
    have hnext : Steps (.call s op k) [⟨s, op, ans⟩] (k ans) := .step (.refl _)
    refine ⟨rand, t₀, t ++ [⟨s, op, ans⟩], ?_, Steps.trans hsteps hnext⟩
    rw [hpast, List.append_assoc]
  | finish hrun =>
    intro r hr
    cases hr
  | fail =>
    intro r hr
    cases hr
  | grinGrows => exact h
  | btcGrows => exact h
  | grinMines => exact h
  | btcMines => exact h

theorem WorldSteps.traced (h : WorldSteps L B role peer w₀ w) (hstart : w₀.Initial) :
    w.Traced L B role := by
  induction h with
  | refl => exact hstart.traced
  | tail _ hstep ih => exact hstep.traced ih

/-- An operation that is due meets the specification of its phase. -/
theorem World.Traced.sat {phase : Phase} {start s : SwapSlate K P} {op : Op K P}
    {k : op.Ans → Program K P (SwapSlate K P) Unit}
    {R : Trace K P (SwapSlate K P) → SwapSlate K P → Op K P → Prop}
    {Q : Trace K P (SwapSlate K P) → SwapSlate K P → Unit → Prop} (h : w.Traced L B role)
    (hrun : w.running = some ⟨phase, start, .call s op k⟩)
    (hphase : ∀ rand, (phase.program L B rand role start).Sat R Q []) :
    ∃ t₀ t, w.past = t₀ ++ t ∧ R t s op := by
  obtain ⟨rand, t₀, t, hpast, hsteps⟩ := h _ hrun
  have hsat := hsteps.sat (hphase rand)
  exact ⟨t₀, t, hpast, hsat.1⟩

/-! ### Runs of a phase -/

section Runs

variable {G : World K P → World K P → Prop} {phase : Phase} {start : SwapSlate K P} {rand : Rand K}
  {p q : Program K P (SwapSlate K P) Unit} {t : Trace K P (SwapSlate K P)}

/-- A state in which a phase runs. -/
def World.during (w : World K P) (phase : Phase) (start : SwapSlate K P) (t : Trace K P (SwapSlate K P))
    (p : Program K P (SwapSlate K P) Unit) : World K P :=
  { w with running := some ⟨phase, start, p⟩, past := w.past ++ t }

/-- A state after a phase has returned. -/
def World.after (w : World K P) (s : SwapSlate K P) (t : Trace K P (SwapSlate K P)) : World K P :=
  { w with slate := s, past := w.past ++ t }

/-- A phase that runs goes on, when its steps meet the condition. -/
theorem guardedSteps_of_steps (hrun : w.running = some ⟨phase, start, p⟩) (h : Steps p t q)
    (hans : ∀ e ∈ t, e.op.AnsweredAt w.grin.height w.btc.height e.ans)
    (hG : ∀ t₁ p₁ t₂ p₂, t₂ <+: t → G (w.during phase start t₁ p₁) (w.during phase start t₂ p₂)) :
    GuardedSteps L B role peer G w (w.during phase start t q) := by
  induction h generalizing w with
  | refl p =>
    rw [World.during, List.append_nil, ← hrun]
  | @step s op k ans t q _ ih =>
    obtain ⟨hhead, htail⟩ := List.forall_mem_cons.mp hans
    have hw : w.during phase start [] (.call s op k) = w := by
      rw [World.during, List.append_nil, ← hrun]
    have hfirst := hG [] (.call s op k) [⟨s, op, ans⟩] (k ans) (by simp)
    rw [hw] at hfirst
    have hrest := @ih (w.during phase start [⟨s, op, ans⟩] (k ans)) rfl htail ?_
    · refine .head ⟨.operation hrun hhead, hfirst⟩ ?_
      simpa only [World.during, List.append_assoc, List.singleton_append] using hrest
    · intro t₁ p₁ t₂ p₂ hpre
      have hnext := hG (⟨s, op, ans⟩ :: t₁) p₁ (⟨s, op, ans⟩ :: t₂) p₂ (List.prefix_cons_inj _ |>.mpr hpre)
      simpa only [World.during, List.append_assoc, List.singleton_append] using hnext

variable (phase rand) in
/-- A phase is started and runs up to some point. -/
theorem guardedSteps_phase (hidle : w.running = none)
    (hstatus : w.slate.pubSlate.status = phase.startsIn)
    (h : Steps (phase.program L B rand role w.slate) t q)
    (hans : ∀ e ∈ t, e.op.AnsweredAt w.grin.height w.btc.height e.ans)
    (hstart : ∀ p, G w (w.during phase w.slate [] p))
    (hG : ∀ t₁ p₁ t₂ p₂, t₂ <+: t → G (w.during phase w.slate t₁ p₁) (w.during phase w.slate t₂ p₂)) :
    GuardedSteps L B role peer G w (w.during phase w.slate t q) := by
  have hfirst : WorldStep L B role peer w
      (w.during phase w.slate [] (phase.program L B rand role w.slate)) := by
    rw [World.during, List.append_nil]
    exact .start hidle hstatus
  have hrest : GuardedSteps L B role peer G
      (w.during phase w.slate [] (phase.program L B rand role w.slate)) _ :=
    guardedSteps_of_steps rfl h hans (by simpa only [World.during, List.append_nil] using hG)
  simp only [World.during, List.append_nil] at hrest
  refine .head ⟨hfirst, hstart _⟩ ?_
  simpa only [World.during, List.append_nil] using hrest

variable (phase rand) in
/-- A phase that returns is written. -/
theorem guardedSteps_done {s : SwapSlate K P} (hidle : w.running = none)
    (hstatus : w.slate.pubSlate.status = phase.startsIn)
    (h : Steps (phase.program L B rand role w.slate) t (.ret s ()))
    (hans : ∀ e ∈ t, e.op.AnsweredAt w.grin.height w.btc.height e.ans)
    (hstart : ∀ p, G w (w.during phase w.slate [] p))
    (hG : ∀ t₁ p₁ t₂ p₂, t₂ <+: t → G (w.during phase w.slate t₁ p₁) (w.during phase w.slate t₂ p₂))
    (hfinish : ∀ p, G (w.during phase w.slate t p) (w.after s t)) :
    GuardedSteps L B role peer G w (w.after s t) := by
  have hrun : (w.during phase w.slate t (.ret s ())).running = some ⟨phase, w.slate, .ret s ()⟩ := rfl
  have hlast : WorldStep L B role peer (w.during phase w.slate t (.ret s ())) (w.after s t) := by
    have hstep : WorldStep L B role peer _ _ := .finish hrun
    simpa only [World.during, World.after, hidle] using hstep
  exact (guardedSteps_phase phase rand hidle hstatus h hans hstart hG).tail ⟨hlast, hfinish _⟩

/-- Without a condition. -/
theorem WorldSteps.of_guarded (h : GuardedSteps L B role peer G w w') : WorldSteps L B role peer w w' := by
  refine ReflTransGen.mono ?_ w w' h
  exact fun _ _ hstep => hstep.1

end Runs

end MwBtcSwap
