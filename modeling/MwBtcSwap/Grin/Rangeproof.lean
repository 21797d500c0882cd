import MwBtcSwap.Grin.Exponents
import MwBtcSwap.Grin.Honest
import Mathlib.Algebra.BigOperators.Group.List.Basic
import Mathlib.Data.List.Induction

/-! The rangeproof that any number of participants make together: the calls on its context, in any order
in which a participant can make them.  A context adds up shares, so what it ends with is a matter of
which calls were made, as long as no sum on the way is 0: the blank key of `PublicKey::new` and
`ZERO_KEY` are the sums of no shares. -/

namespace MwBtcSwap.Grin

open Schnorr Interaction

/-! ### Sums -/

/-- No beginning of a list has the sum 0, except for the empty one. -/
def NonzeroSums {M : Type} [AddMonoid M] (l : List M) : Prop := ∀ s, s <+: l → s ≠ [] → s.sum ≠ 0

section NonzeroSums

variable {M : Type} [AddMonoid M] {l l' : List M} {x : M}

theorem NonzeroSums.of_prefix (h : NonzeroSums l') (hbegin : l <+: l') : NonzeroSums l :=
  fun s hs hne => h s (hs.trans hbegin) hne

theorem NonzeroSums.add_ne (h : NonzeroSums (l ++ [x])) : l.sum + x ≠ 0 := by
  have hsum := h (l ++ [x]) List.prefix_rfl (by simp)
  rwa [List.sum_append, List.sum_singleton] at hsum

instance [DecidableEq M] : Decidable (NonzeroSums l) :=
  decidable_of_iff (∀ s ∈ l.inits, s ≠ [] → s.sum ≠ 0) (by simp only [List.mem_inits, NonzeroSums])

end NonzeroSums

variable {K P : Type} [CommRing K] [AddCommGroup P] [Module K P] [DecidableEq K] [DecidableEq P]

variable {L : GrinLib K P}

/-! ### Calls -/

/-- The calls on a context. -/
inductive ProofCall (K : Type)
  | addCommit (com : Commitment)
  | round1 (blind nonce : K)
  | round2 (blind nonce : K)
  deriving DecidableEq

namespace ProofCall

variable (L)

def apply (ctx : MPBPContext K P) : ProofCall K → Outcome (MPBPContext K P)
  | addCommit com => ctx.addCommit L com
  | round1 blind nonce => mpBulletProofR1 L ctx blind nonce
  | round2 blind nonce => mpBulletProofR2 L ctx blind nonce

/-- The shares that a call adds to a context: those of `t_1`, of `t_2` and of the commitment for an
amount and a shared nonce, and that of `tau_x` for a context with the final sums of the others. -/
def t1Share? (amount : ℕ) (sharedNonce : K) : ProofCall K → Option P
  | round1 blind nonce => some (L.bulletProofRound1 amount blind sharedNonce nonce).1
  | _ => none

@[inherit_doc t1Share?]
def t2Share? (amount : ℕ) (sharedNonce : K) : ProofCall K → Option P
  | round1 blind nonce => some (L.bulletProofRound1 amount blind sharedNonce nonce).2
  | _ => none

@[inherit_doc t1Share?]
def point? : ProofCall K → Option P
  | addCommit com => L.pointOfCommit com
  | _ => none

@[inherit_doc t1Share?]
def tauShare? (ctx : MPBPContext K P) : ProofCall K → Option K
  | round2 blind nonce => some (L.bulletProofRound2 ctx.amount blind ctx.sharedNonce ctx.t1 ctx.t2
      ctx.commit nonce)
  | _ => none

/-- The calls before the sums are final, on commitments of points. -/
def IsFirst : ProofCall K → Prop
  | addCommit com => (L.pointOfCommit com).isSome
  | round1 _ _ => True
  | round2 _ _ => False

/-- The calls once they are. -/
def IsSecond : ProofCall K → Prop
  | round2 _ _ => True
  | _ => False

end ProofCall

section

omit [Module K P]

/-- What one call can do to a context. -/
theorem ProofCall.apply_cases {ctx ctx' : MPBPContext K P} {call : ProofCall K}
    (h : call.apply L ctx = .ok ctx') :
    (∃ com sum, call = .addCommit com ∧ L.commitSum [ctx.commit, com] = some sum ∧
      ctx' = { ctx with commit := sum }) ∨
    (∃ blind nonce t1 t2, call = .round1 blind nonce ∧
      MPBPContext.addShare ctx.t1
        (L.bulletProofRound1 ctx.amount blind ctx.sharedNonce nonce).1 = .ok t1 ∧
      MPBPContext.addShare ctx.t2
        (L.bulletProofRound1 ctx.amount blind ctx.sharedNonce nonce).2 = .ok t2 ∧
      ctx' = { ctx with t1 := t1, t2 := t2 }) ∨
    (∃ blind nonce tau, call = .round2 blind nonce ∧ ctx' = { ctx with tauX := tau }) := by
  cases call with
  | addCommit com =>
    simp only [apply, MPBPContext.addCommit, Outcome.bind_eq_ok, Outcome.unwrap_eq_ok,
      Outcome.pure_eq_ok, Except.ok.injEq] at h
    obtain ⟨sum, hsum, rfl⟩ := h
    exact .inl ⟨com, sum, rfl, hsum, rfl⟩
  | round1 blind nonce =>
    simp only [apply, mpBulletProofR1, Outcome.bind_eq_ok, Outcome.pure_eq_ok,
      Except.ok.injEq] at h
    obtain ⟨t1, ht1, t2, ht2, rfl⟩ := h
    exact .inr (.inl ⟨blind, nonce, t1, t2, rfl, ht1, ht2, rfl⟩)
  | round2 blind nonce =>
    simp only [apply, mpBulletProofR2, MPBPContext.addTauX, Outcome.bind_eq_ok,
      Outcome.pure_eq_ok, Except.ok.injEq] at h
    obtain ⟨tau, -, rfl⟩ := h
    exact .inr (.inr ⟨blind, nonce, tau, rfl, rfl⟩)

/-- A context after calls. -/
def runCalls (L : GrinLib K P) (ctx : MPBPContext K P) (calls : List (ProofCall K)) :
    Outcome (MPBPContext K P) := calls.foldlM (fun ctx call => call.apply L ctx) ctx

@[simp] theorem runCalls_nil (ctx : MPBPContext K P) : runCalls L ctx [] = .ok ctx := rfl

theorem runCalls_cons (ctx : MPBPContext K P) (call : ProofCall K) (calls : List (ProofCall K)) :
    runCalls L ctx (call :: calls) = call.apply L ctx >>= fun ctx => runCalls L ctx calls := by
  rw [runCalls, List.foldlM_cons]
  rfl

theorem runCalls_append (ctx : MPBPContext K P) (calls calls' : List (ProofCall K)) :
    runCalls L ctx (calls ++ calls') = runCalls L ctx calls >>= fun ctx => runCalls L ctx calls' := by
  rw [runCalls, List.foldlM_append]
  rfl

theorem runCalls_append_of_ok {ctx ctx' : MPBPContext K P} {calls : List (ProofCall K)}
    (h : runCalls L ctx calls = .ok ctx') (calls' : List (ProofCall K)) :
    runCalls L ctx (calls ++ calls') = runCalls L ctx' calls' := by
  rw [runCalls_append, h, Outcome.ok_bind]

theorem runCalls_concat (ctx : MPBPContext K P) (calls : List (ProofCall K)) (call : ProofCall K) :
    runCalls L ctx (calls ++ [call]) = runCalls L ctx calls >>= fun ctx => call.apply L ctx := by
  rw [runCalls_append]
  congr 1
  funext ctx
  rw [runCalls_cons]
  cases call.apply L ctx <;> rfl

end

/-! ### Sums of shares -/

section Sums

variable (L) (amount : ℕ) (sharedNonce : K) (start : P)

/-- What a context holds after calls, when it started with the commitment of a point. -/
def summed (calls : List (ProofCall K)) : MPBPContext K P where
  t1 := (calls.filterMap (ProofCall.t1Share? L amount sharedNonce)).sum
  t2 := (calls.filterMap (ProofCall.t2Share? L amount sharedNonce)).sum
  amount := amount
  sharedNonce := sharedNonce
  tauX := 0
  commit := L.commitOfPoint (start :: calls.filterMap (ProofCall.point? L)).sum

/-- No partial sum of the shares is the point at infinity. -/
structure NonzeroPoints (calls : List (ProofCall K)) : Prop where
  t1 : NonzeroSums (calls.filterMap (ProofCall.t1Share? L amount sharedNonce))
  t2 : NonzeroSums (calls.filterMap (ProofCall.t2Share? L amount sharedNonce))
  commit : NonzeroSums (start :: calls.filterMap (ProofCall.point? L))

variable {L amount sharedNonce start}

omit [CommRing K] [Module K P] [DecidableEq K] [DecidableEq P] in
theorem NonzeroPoints.of_prefix {calls calls' : List (ProofCall K)}
    (h : NonzeroPoints L amount sharedNonce start calls') (hbegin : calls <+: calls') :
    NonzeroPoints L amount sharedNonce start calls where
  t1 := h.t1.of_prefix (hbegin.filterMap _)
  t2 := h.t2.of_prefix (hbegin.filterMap _)
  commit := h.commit.of_prefix (List.cons_prefix_cons.mpr ⟨rfl, hbegin.filterMap _⟩)

section

omit [Module K P] [DecidableEq K] [DecidableEq P]

@[simp] theorem summed_amount (calls : List (ProofCall K)) :
    (summed L amount sharedNonce start calls).amount = amount := rfl

@[simp] theorem summed_sharedNonce (calls : List (ProofCall K)) :
    (summed L amount sharedNonce start calls).sharedNonce = sharedNonce := rfl

theorem summed_addCommit {done : List (ProofCall K)} {com : Commitment} {q : P}
    (hq : L.pointOfCommit com = some q) :
    summed L amount sharedNonce start (done ++ [.addCommit com]) =
      { summed L amount sharedNonce start done with
        commit := L.commitOfPoint ((start :: done.filterMap (ProofCall.point? L)).sum + q) } := by
  simp only [summed, List.filterMap_append, List.filterMap_cons, List.filterMap_nil,
    ProofCall.t1Share?, ProofCall.t2Share?, ProofCall.point?, hq, List.append_nil, ← List.cons_append,
    List.sum_append, List.sum_singleton]

theorem summed_round1 {done : List (ProofCall K)} {blind nonce : K} :
    summed L amount sharedNonce start (done ++ [.round1 blind nonce]) =
      { summed L amount sharedNonce start done with
        t1 := (summed L amount sharedNonce start done).t1 +
          (L.bulletProofRound1 amount blind sharedNonce nonce).1
        t2 := (summed L amount sharedNonce start done).t2 +
          (L.bulletProofRound1 amount blind sharedNonce nonce).2 } := by
  simp only [summed, List.filterMap_append, List.filterMap_cons, List.filterMap_nil,
    ProofCall.t1Share?, ProofCall.t2Share?, ProofCall.point?, List.append_nil, List.sum_append,
    List.sum_singleton]

end

/-- One call adds its shares to what the calls before it left. -/
theorem apply_summed (hL : L.Lawful) {done : List (ProofCall K)} {call : ProofCall K}
    (hcall : call.IsFirst L) (h : NonzeroPoints L amount sharedNonce start (done ++ [call])) :
    call.apply L (summed L amount sharedNonce start done) =
      .ok (summed L amount sharedNonce start (done ++ [call])) := by
  obtain ⟨ht1, ht2, hcommit⟩ := h
  cases call with
  | addCommit com =>
    obtain ⟨q, hq⟩ := Option.isSome_iff_exists.mp hcall
    simp only [List.filterMap_append, List.filterMap_cons, List.filterMap_nil, ProofCall.point?, hq,
      ← List.cons_append] at hcommit
    have hbefore : (start :: done.filterMap (ProofCall.point? L)).sum ≠ 0 :=
      hcommit _ (List.prefix_append _ _) (by simp)
    rw [summed_addCommit hq]
    exact MPBPContext.addCommit_eq hL hbefore rfl hq rfl hcommit.add_ne
  | round1 blind nonce =>
    simp only [List.filterMap_append, List.filterMap_cons, List.filterMap_nil, ProofCall.t1Share?,
      ProofCall.t2Share?] at ht1 ht2
    rw [summed_round1]
    exact mpBulletProofR1_eq rfl rfl ht1.add_ne ht2.add_ne
  | round2 blind nonce => cases hcall

/-- The calls before the sums are final leave the sums of their shares, in any order. -/
theorem runCalls_first (hL : L.Lawful) {calls : List (ProofCall K)}
    (hcalls : ∀ call ∈ calls, call.IsFirst L)
    (h : NonzeroPoints L amount sharedNonce start calls) :
    runCalls L (MPBPContext.new sharedNonce amount (L.commitOfPoint start)) calls =
      .ok (summed L amount sharedNonce start calls) := by
  induction calls using List.reverseRecOn with
  | nil => simp [summed, MPBPContext.new]
  | append_singleton done call ih =>
    have hdone := ih (fun c hc => hcalls c (by simp [hc])) (h.of_prefix (List.prefix_append _ _))
    rw [runCalls_concat, hdone, Outcome.ok_bind]
    exact apply_summed hL (hcalls call (by simp)) h

omit [Module K P] in
/-- The calls of round 2 leave the sum of their shares, in any order. -/
theorem runCalls_second {ctx : MPBPContext K P} {calls : List (ProofCall K)} (htau : ctx.tauX = 0)
    (hcalls : ∀ call ∈ calls, call.IsSecond)
    (h : NonzeroSums (calls.filterMap (ProofCall.tauShare? L ctx))) :
    runCalls L ctx calls =
      .ok { ctx with tauX := (calls.filterMap (ProofCall.tauShare? L ctx)).sum } := by
  induction calls using List.reverseRecOn with
  | nil =>
    rw [runCalls_nil, List.filterMap_nil, List.sum_nil, ← htau]
  | append_singleton done call ih =>
    have hbegin := (List.prefix_append done [call]).filterMap (ProofCall.tauShare? L ctx)
    have hdone := ih (fun c hc => hcalls c (by simp [hc])) (h.of_prefix hbegin)
    rw [runCalls_concat, hdone, Outcome.ok_bind]
    cases call with
    | round2 blind nonce =>
      simp only [List.filterMap_append, List.filterMap_cons, List.filterMap_nil,
        ProofCall.tauShare?] at h ⊢
      rw [List.sum_append, List.sum_singleton]
      exact mpBulletProofR2_eq rfl h.add_ne
    | addCommit com => cases hcalls (.addCommit com) (by simp)
    | round1 blind nonce => cases hcalls (.round1 blind nonce) (by simp)

end Sums

/-! ### Participants -/

/-- A participant with its share of the blinding factor, its nonce, and its share of the commitment,
which is to a part of the amount. -/
structure Participant (L : GrinLib K P) where
  blind : K
  nonce : K
  value : ℕ
  com : Commitment
  committed : L.commit value blind = some com

namespace Participant

variable (p : Participant L)

def addCommit : ProofCall K := .addCommit p.com

def round1 : ProofCall K := .round1 p.blind p.nonce

def round2 : ProofCall K := .round2 p.blind p.nonce

/-- The opened share of the commitment. -/
def point : P := L.pedersen p.value p.blind

omit [DecidableEq K] in
theorem com_eq : p.point ≠ 0 ∧ p.com = L.commitOfPoint p.point :=
  GrinLib.commit_eq_some.mp p.committed

omit [DecidableEq K] in
theorem pointOfCommit_com (hL : L.Lawful) : L.pointOfCommit p.com = some p.point := by
  rw [p.com_eq.2, hL.commit_codec _ p.com_eq.1]

/-- Its shares of `t_1` and `t_2`. -/
def tShares (amount : ℕ) (sharedNonce : K) : P × P :=
  L.bulletProofRound1 amount p.blind sharedNonce p.nonce

/-- Its share of `tau_x`, for a context with the final sums. -/
def tauShare (ctx : MPBPContext K P) : K :=
  L.bulletProofRound2 ctx.amount p.blind ctx.sharedNonce ctx.t1 ctx.t2 ctx.commit p.nonce

end Participant

section Schedule

variable (L) (amount : ℕ) (sharedNonce : K)

/-- The context that holds all shares of round 1 and of the commitment. -/
def joint (ps : List (Participant L)) : MPBPContext K P where
  t1 := (ps.map fun p => (p.tShares amount sharedNonce).1).sum
  t2 := (ps.map fun p => (p.tShares amount sharedNonce).2).sum
  amount := amount
  sharedNonce := sharedNonce
  tauX := 0
  commit := L.commitOfPoint (L.pedersen amount (ps.map Participant.blind).sum)

variable {L amount sharedNonce} {first : Participant L} {others : List (Participant L)}
  {calls calls' : List (ProofCall K)}

section

omit [DecidableEq K]

theorem sum_points (ps : List (Participant L)) :
    (ps.map Participant.point).sum =
      L.pedersen (ps.map Participant.value).sum (ps.map Participant.blind).sum := by
  induction ps with
  | nil => simp [GrinLib.pedersen]
  | cons p ps ih =>
    rw [List.map_cons, List.sum_cons, ih, Participant.point, pedersen_add]
    rfl

/-- What calls add to a sum, when each of one kind adds something and none of the other kind does. -/
theorem sum_filterMap_calls {M : Type} [AddCommMonoid M] {f : ProofCall K → Option M}
    {ps qs : List (Participant L)} {g h : Participant L → ProofCall K} {share : Participant L → M}
    (hcalls : calls.Perm (ps.map g ++ qs.map h)) (hg : ∀ p, f (g p) = some (share p))
    (hh : ∀ q, f (h q) = none) : (calls.filterMap f).sum = (ps.map share).sum := by
  have hps : (ps.map g).filterMap f = ps.map share := by
    rw [List.filterMap_map, ← List.filterMap_eq_map]
    congr 1
    funext p
    exact hg p
  have hqs : (qs.map h).filterMap f = [] := by
    rw [List.filterMap_map, List.filterMap_eq_nil_iff]
    exact fun q _ => hh q
  rw [(hcalls.filterMap f).sum_eq, List.filterMap_append, hps, hqs, List.append_nil]

/-- The sums of the shares do not depend on the order of the calls. -/
theorem summed_schedule (hL : L.Lawful)
    (hvalues : ((first :: others).map Participant.value).sum = amount)
    (hcalls : calls.Perm ((first :: others).map Participant.round1 ++ others.map Participant.addCommit)) :
    summed L amount sharedNonce first.point calls = joint L amount sharedNonce (first :: others) := by
  have ht1 : (calls.filterMap (ProofCall.t1Share? L amount sharedNonce)).sum = _ :=
    sum_filterMap_calls hcalls (fun p => rfl) fun q => rfl
  have ht2 : (calls.filterMap (ProofCall.t2Share? L amount sharedNonce)).sum = _ :=
    sum_filterMap_calls hcalls (fun p => rfl) fun q => rfl
  have hpoint : (calls.filterMap (ProofCall.point? L)).sum = (others.map Participant.point).sum :=
    sum_filterMap_calls (hcalls.trans List.perm_append_comm) (fun p => p.pointOfCommit_com hL)
      fun q => rfl
  have hpoints := sum_points (first :: others)
  rw [List.map_cons, List.sum_cons, hvalues] at hpoints
  rw [summed, joint, ht1, ht2, List.sum_cons, hpoint, hpoints]
  rfl

end

theorem runCalls_round2 (ctx : MPBPContext K P) {ps : List (Participant L)} (htau : ctx.tauX = 0)
    (h : NonzeroSums (ps.map fun p => p.tauShare ctx)) :
    runCalls L ctx (ps.map Participant.round2) =
      .ok { ctx with tauX := (ps.map fun p => p.tauShare ctx).sum } := by
  have hshares : (ps.map Participant.round2).filterMap (ProofCall.tauShare? L ctx) =
      ps.map fun p => p.tauShare ctx := by
    rw [List.filterMap_map, ← List.filterMap_eq_map]
    rfl
  have hsecond : ∀ call ∈ ps.map Participant.round2, call.IsSecond := by
    intro call hmem
    obtain ⟨p, -, rfl⟩ := List.mem_map.mp hmem
    trivial
  rw [runCalls_second htau hsecond (by rwa [hshares]), hshares]

omit [DecidableEq K] in
theorem isFirst_schedule (hL : L.Lawful)
    (hcalls : calls.Perm ((first :: others).map Participant.round1 ++ others.map Participant.addCommit))
    {call : ProofCall K} (hmem : call ∈ calls) : call.IsFirst L := by
  rcases List.mem_append.mp (hcalls.subset hmem) with hmem | hmem
  · obtain ⟨p, -, rfl⟩ := List.mem_map.mp hmem
    trivial
  · obtain ⟨p, -, rfl⟩ := List.mem_map.mp hmem
    exact Option.isSome_iff_exists.mpr ⟨_, p.pointOfCommit_com hL⟩

/-- The participants of a rangeproof, whose commitments together are to the amount, end with the same
context in every order of their calls of `mp_bullet_proof_r1` and `add_commit` and every order of those
of `mp_bullet_proof_r2` after that: it holds the sums of their shares. -/
theorem runCalls_orderIndependent {order : List (Participant L)} (hL : L.Lawful)
    (hvalues : ((first :: others).map Participant.value).sum = amount)
    (hcalls : calls.Perm ((first :: others).map Participant.round1 ++ others.map Participant.addCommit))
    (horder : order.Perm (first :: others))
    (hpoints : NonzeroPoints L amount sharedNonce first.point calls)
    (htau : NonzeroSums (order.map fun p => p.tauShare (joint L amount sharedNonce (first :: others)))) :
    ∃ ctx, runCalls L (MPBPContext.new sharedNonce amount first.com)
        (calls ++ order.map Participant.round2) = .ok ctx ∧
      ctx.t1 = ((first :: others).map fun p => (p.tShares amount sharedNonce).1).sum ∧
      ctx.t2 = ((first :: others).map fun p => (p.tShares amount sharedNonce).2).sum ∧
      ctx.amount = amount ∧ ctx.sharedNonce = sharedNonce ∧
      ctx.commit = L.commitOfPoint (L.pedersen amount ((first :: others).map Participant.blind).sum) ∧
      ctx.tauX = ((first :: others).map fun p => p.tauShare ctx).sum := by
  have hround1 := runCalls_first hL (fun _ hmem => isFirst_schedule hL hcalls hmem) hpoints
  rw [summed_schedule hL hvalues hcalls] at hround1
  have hround2 := runCalls_round2 (joint L amount sharedNonce (first :: others)) rfl htau
  refine ⟨_, (runCalls_append_of_ok ?_ _).trans hround2, rfl, rfl, rfl, rfl, rfl,
    (horder.map fun p : Participant L => p.tauShare (joint L amount sharedNonce (first :: others))).sum_eq⟩
  rw [first.com_eq.2, hround1]

end Schedule

/-- A participant with all of the amount and one with nothing, by exponents. -/
def wholeParticipant : Participant exponents :=
  ⟨5, 11, 100, exponents.commitOfPoint (exponents.pedersen 100 5), commit_of_ne (by decide)⟩

@[inherit_doc wholeParticipant]
def blindParticipant : Participant exponents :=
  ⟨6, 13, 0, exponents.commitOfPoint (exponents.pedersen 0 6), commit_of_ne (by decide)⟩

/-- The order of `drecv_coins_r1` to `drecv_coins_r3`. -/
theorem runCalls_orderIndependent_sample :
    ∃ ctx, runCalls exponents (MPBPContext.new 3 100 wholeParticipant.com)
        ([wholeParticipant.round1, blindParticipant.addCommit, blindParticipant.round1] ++
          [blindParticipant, wholeParticipant].map Participant.round2) = .ok ctx ∧
      ctx.t1 = 11 + 13 ∧ ctx.t2 = 11 + 13 ∧ ctx.amount = 100 ∧ ctx.sharedNonce = 3 ∧
      ctx.commit = exponents.commitOfPoint (exponents.pedersen 100 (5 + 6)) ∧ ctx.tauX = 5 + 6 := by
  have hvalues : ([wholeParticipant, blindParticipant].map Participant.value).sum = 100 := rfl
  have hcalls : [wholeParticipant.round1, blindParticipant.addCommit, blindParticipant.round1].Perm
      ([wholeParticipant, blindParticipant].map Participant.round1 ++
        [blindParticipant].map Participant.addCommit) := .cons _ (.swap _ _ _)
  have hpoints : NonzeroPoints exponents 100 3 wholeParticipant.point
      [wholeParticipant.round1, blindParticipant.addCommit, blindParticipant.round1] :=
    ⟨by decide, by decide, by decide⟩
  obtain ⟨ctx, hrun, h1, h2, hamount, hnonce, hcommit, htau⟩ :=
    runCalls_orderIndependent exponents_lawful hvalues hcalls (.swap _ _ _) hpoints (by decide)
  exact ⟨ctx, hrun, h1, h2, hamount, hnonce, hcommit, htau⟩

/-! ### The calls of the program -/

section Program

variable {a b : DRecvRand K} {slate : Slate K P} {fundValue : ℕ} {ctx : MPBPContext K P}

theorem drecvCoinsR1_calls {r : DRecvCoinsResult K P} (h : drecvCoinsR1 L a slate fundValue = .ok r) :
    r.outKeyBlind = a.outCoinBlind ∧ r.prfNonce = a.prfNonce ∧
      ∃ com, L.commit fundValue a.outCoinBlind = some com ∧
        runCalls L (MPBPContext.new a.sharedNonce fundValue com)
          [.round1 a.outCoinBlind a.prfNonce] = .ok r.prfCtx := by
  simp only [drecvCoinsR1, Outcome.bind_eq_ok, Outcome.unwrap_eq_ok, Outcome.expect_eq_ok,
    Outcome.pure_eq_ok, Except.ok.injEq] at h
  obtain ⟨_, -, _, -, com, hcom, ctx, hround, rfl⟩ := h
  refine ⟨rfl, rfl, com, hcom, ?_⟩
  rw [runCalls_cons, ProofCall.apply, hround, Outcome.ok_bind, runCalls_nil]

theorem drecvCoinsR2_calls {r : RecvCoinsResult K P × MPBPContext K P}
    (h : drecvCoinsR2 L b slate fundValue ctx = .ok r) :
    ∃ com, L.commit 0 b.outCoinBlind = some com ∧
      runCalls L ctx [.addCommit com, .round1 b.outCoinBlind b.prfNonce,
        .round2 b.outCoinBlind b.prfNonce] = .ok r.2 := by
  simp only [drecvCoinsR2, Outcome.bind_eq_ok, Outcome.unwrap_eq_ok, Outcome.expect_eq_ok,
    Outcome.pure_eq_ok, Except.ok.injEq] at h
  obtain ⟨_, -, com, hcom, ctx₁, hadd, ctx₂, hround1, ctx₃, hround2, _, -, _, -, rfl⟩ := h
  refine ⟨com, hcom, ?_⟩
  rw [runCalls_cons, ProofCall.apply, hadd, Outcome.ok_bind, runCalls_cons, ProofCall.apply, hround1,
    Outcome.ok_bind, runCalls_cons, ProofCall.apply, hround2, Outcome.ok_bind, runCalls_nil]

theorem drecvCoinsR3_calls {blind prfNonce sigNonce : K} {r : RecvCoinsResult K P}
    (h : drecvCoinsR3 L slate ctx blind prfNonce sigNonce = .ok r) :
    ∃ ctx' proof, runCalls L ctx [.round2 blind prfNonce] = .ok ctx' ∧
      mpBulletProofFin L ctx' blind prfNonce = .ok proof := by
  simp only [drecvCoinsR3, Outcome.bind_eq_ok, Outcome.expect_eq_ok] at h
  obtain ⟨ctx', hround, proof, hproof, -⟩ := h
  refine ⟨ctx', proof, ?_, hproof⟩
  rw [runCalls_cons, ProofCall.apply, hround, Outcome.ok_bind, runCalls_nil]

/-- The two parties of a shared coin make the calls of two participants, in an order in which the second
one makes its calls at once, and complete the proof with the context after them. -/
theorem drecvCoins_calls {slate₂ slate₃ : Slate K P} {sigNonce : K} {r₁ : DRecvCoinsResult K P}
    {r₂ : RecvCoinsResult K P × MPBPContext K P} {r₃ : RecvCoinsResult K P}
    (h₁ : drecvCoinsR1 L a slate fundValue = .ok r₁)
    (h₂ : drecvCoinsR2 L b slate₂ fundValue r₁.prfCtx = .ok r₂)
    (h₃ : drecvCoinsR3 L slate₃ r₂.2 r₁.outKeyBlind r₁.prfNonce sigNonce = .ok r₃) :
    ∃ p q : Participant L, p.value = fundValue ∧ p.blind = a.outCoinBlind ∧ q.value = 0 ∧
      q.blind = b.outCoinBlind ∧ ∃ ctx proof,
        runCalls L (MPBPContext.new a.sharedNonce fundValue p.com)
          ([p.round1, q.addCommit, q.round1] ++ [q, p].map Participant.round2) = .ok ctx ∧
        mpBulletProofFin L ctx p.blind p.nonce = .ok proof := by
  obtain ⟨hblind, hnonce, com₁, hcom₁, hcalls₁⟩ := drecvCoinsR1_calls h₁
  obtain ⟨com₂, hcom₂, hcalls₂⟩ := drecvCoinsR2_calls h₂
  rw [hblind, hnonce] at h₃
  obtain ⟨ctx, proof, hcalls₃, hproof⟩ := drecvCoinsR3_calls h₃
  refine ⟨⟨_, a.prfNonce, _, com₁, hcom₁⟩, ⟨_, b.prfNonce, _, com₂, hcom₂⟩, rfl, rfl, rfl, rfl, ctx,
    proof, ?_, hproof⟩
  have hrun₁ := runCalls_append_of_ok hcalls₁
  have hrun₂ := runCalls_append_of_ok hcalls₂
  exact (hrun₁ _).trans ((hrun₂ _).trans hcalls₃)

end Program

end MwBtcSwap.Grin
