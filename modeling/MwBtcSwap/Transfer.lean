import MwBtcSwap.Grin.Rangeproof
import MwBtcSwap.Lib.Json
import MwBtcSwap.Tcp

/-! The rangeproof context on the wire.  `from_string` reads what `to_string` wrote when both sums are
valid keys and the commitment has its 33 bytes.  The blank key of `PublicKey::new` is no such sum, and
the first share of round 1 takes its place for good. -/

namespace MwBtcSwap.Grin

open Schnorr Interaction

/-! ### Text -/

namespace SerMPCtx

/-- The value that `serde` writes for the structure. -/
def toJson (v : SerMPCtx) : Json :=
  .object [("t_1", .string v.t1), ("t_2", .string v.t2), ("amount", .number ⟨v.amount, none⟩),
    ("shared_nonce", .string v.sharedNonce), ("commit", .string v.commit), ("tau_x", .string v.tauX)]

/-- The structure that it reads, with an amount of any size. -/
def ofJson (v : Json) : Option SerMPCtx := do
  let f ← v.fields ["t_1", "t_2", "amount", "shared_nonce", "commit", "tau_x"]
  let t1 ← Json.required Json.asString (f "t_1")
  let t2 ← Json.required Json.asString (f "t_2")
  let amount ← Json.required Json.asNat (f "amount")
  let sharedNonce ← Json.required Json.asString (f "shared_nonce")
  let commit ← Json.required Json.asString (f "commit")
  let tauX ← Json.required Json.asString (f "tau_x")
  return { t1, t2, amount, sharedNonce, commit, tauX }

theorem ofJson_toJson (v : SerMPCtx) : ofJson v.toJson = some v := by
  simp [ofJson, toJson, Json.fields, Json.valuesOf, Json.required, Json.asString, Json.asNat]

end SerMPCtx

variable {K P : Type} [CommRing K] [AddCommGroup P] [Module K P] [DecidableEq K] [DecidableEq P]

variable {L : GrinLib K P}

/-- What the text of a context needs of the libraries: `serde_json` writes the compact form, and a
commitment is its 33 bytes. -/
structure GrinLib.WritesContexts (L : GrinLib K P) : Prop where
  json : ∀ v, L.ctxToJson v = v.toJson.text
  commit : ∀ com : Commitment, com.bytes.length = 33 → L.commitFromVec com.bytes = com

omit [CommRing K] [AddCommGroup P] [Module K P] [DecidableEq K] [DecidableEq P] in
theorem newline_not_mem_toText (h : L.WritesContexts) (ctx : MPBPContext K P) :
    '\n' ∉ (ctx.toText L).toList := by
  rw [MPBPContext.toText, h.json]
  exact Json.newline_not_mem_text _

/-! ### Contexts with shares -/

namespace MPBPContext

/-- The keys of both sums are valid. -/
def HasShares (ctx : MPBPContext K P) : Prop := ctx.t1 ≠ 0 ∧ ctx.t2 ≠ 0

/-- `from_string` reads the context from its text. -/
structure Sendable (L : GrinLib K P) (ctx : MPBPContext K P) : Prop where
  shares : ctx.HasShares
  commit : L.commitFromVec ctx.commit.bytes = ctx.commit

theorem Sendable.fromText_toText (hL : L.Lawful) {ctx : MPBPContext K P} (h : ctx.Sendable L) :
    fromText L (ctx.toText L) = .ok ctx :=
  Grin.fromText_toText hL h.shares.1 h.shares.2 h.commit

theorem addShare_ne {t share sum : P} (hshare : share ≠ 0) (h : addShare t share = .ok sum) :
    sum ≠ 0 := by
  unfold addShare at h
  split_ifs at h with ht
  · cases h
    exact hshare
  · rw [Outcome.unwrap_eq_ok, fromCombination] at h
    split_ifs at h with hsum
    cases h
    exact hsum

end MPBPContext

omit [DecidableEq K] in
theorem commitSum_vec (hL : L.Lawful) {coms : List Commitment} {sum : Commitment}
    (h : L.commitSum coms = some sum) : L.commitFromVec sum.bytes = sum := by
  obtain ⟨ps, -, -, rfl⟩ := GrinLib.commitSum_eq_some.mp h
  exact hL.commit_vec _

omit [DecidableEq K] in
theorem commit_vec (hL : L.Lawful) {value : ℕ} {blind : K} {com : Commitment}
    (h : L.commit value blind = some com) : L.commitFromVec com.bytes = com := by
  rw [(GrinLib.commit_eq_some.mp h).2, hL.commit_vec]

/-- The shares of `t_1` and `t_2` that a call adds are valid keys. -/
def ProofCall.SharesValid (L : GrinLib K P) (amount : ℕ) (sharedNonce : K) : ProofCall K → Prop
  | round1 blind nonce =>
    (L.bulletProofRound1 amount blind sharedNonce nonce).1 ≠ 0 ∧
      (L.bulletProofRound1 amount blind sharedNonce nonce).2 ≠ 0
  | _ => True

section Calls

variable {ctx ctx' : MPBPContext K P} {call : ProofCall K} {calls : List (ProofCall K)}

theorem apply_keeps (hL : L.Lawful) (h : call.apply L ctx = .ok ctx') :
    ctx'.amount = ctx.amount ∧ ctx'.sharedNonce = ctx.sharedNonce ∧
      (L.commitFromVec ctx.commit.bytes = ctx.commit →
        L.commitFromVec ctx'.commit.bytes = ctx'.commit) := by
  rcases ProofCall.apply_cases h with ⟨com, sum, -, hsum, rfl⟩ | ⟨_, _, t1, t2, -, -, -, rfl⟩ |
    ⟨_, _, tau, -, rfl⟩
  · exact ⟨rfl, rfl, fun _ => commitSum_vec hL hsum⟩
  · exact ⟨rfl, rfl, id⟩
  · exact ⟨rfl, rfl, id⟩

omit [Module K P] in
/-- A call of round 1 gives a context its shares, and no call takes them. -/
theorem apply_hasShares (hvalid : call.SharesValid L ctx.amount ctx.sharedNonce)
    (h : call.apply L ctx = .ok ctx') (hbefore : ctx.HasShares ∨ ∃ blind nonce, call = .round1 blind nonce) :
    ctx'.HasShares := by
  rcases ProofCall.apply_cases h with ⟨com, sum, rfl, -, rfl⟩ | ⟨_, _, t1, t2, rfl, ht1, ht2, rfl⟩ |
    ⟨_, _, tau, rfl, rfl⟩
  · rcases hbefore with hshares | ⟨_, _, hcall⟩
    · exact hshares
    · cases hcall
  · exact ⟨MPBPContext.addShare_ne hvalid.1 ht1, MPBPContext.addShare_ne hvalid.2 ht2⟩
  · rcases hbefore with hshares | ⟨_, _, hcall⟩
    · exact hshares
    · cases hcall

/-- Calls lead to a context that can be sent, from one with shares or with a call of round 1. -/
theorem runCalls_sendable (hL : L.Lawful)
    (hvalid : ∀ call ∈ calls, call.SharesValid L ctx.amount ctx.sharedNonce)
    (hcommit : L.commitFromVec ctx.commit.bytes = ctx.commit)
    (hround : ctx.HasShares ∨ ∃ blind nonce, .round1 blind nonce ∈ calls)
    (h : runCalls L ctx calls = .ok ctx') : ctx'.Sendable L := by
  induction calls generalizing ctx with
  | nil =>
    obtain rfl : ctx = ctx' := Except.ok.inj h
    rcases hround with hshares | ⟨_, _, hmem⟩
    · exact ⟨hshares, hcommit⟩
    · cases hmem
  | cons call calls ih =>
    rw [runCalls_cons, Outcome.bind_eq_ok] at h
    obtain ⟨ctx₁, hcall, hrun⟩ := h
    obtain ⟨hamount, hnonce, hkeeps⟩ := apply_keeps hL hcall
    have hshares := apply_hasShares (hvalid call List.mem_cons_self) hcall
    refine ih ?_ (hkeeps hcommit) ?_ hrun
    · intro c hc
      rw [hamount, hnonce]
      exact hvalid c (List.mem_cons_of_mem _ hc)
    · rcases hround with hbefore | ⟨blind, nonce, hmem⟩
      · exact .inl (hshares (.inl hbefore))
      · rcases List.mem_cons.mp hmem with hfirst | hmem
        · exact .inl (hshares (.inr ⟨blind, nonce, hfirst.symm⟩))
        · exact .inr ⟨blind, nonce, hmem⟩

end Calls

section Program

variable {slate : Slate K P} {fundValue : ℕ}

/-- `drecv_coins_r1` returns a context that can be sent. -/
theorem drecvCoinsR1_sendable (hL : L.Lawful) {a : DRecvRand K} {r : DRecvCoinsResult K P}
    (hvalid : (ProofCall.round1 a.outCoinBlind a.prfNonce).SharesValid L fundValue a.sharedNonce)
    (h : drecvCoinsR1 L a slate fundValue = .ok r) : r.prfCtx.Sendable L := by
  obtain ⟨-, -, com, hcom, hrun⟩ := drecvCoinsR1_calls h
  refine runCalls_sendable hL ?_ (commit_vec hL hcom) (.inr ⟨_, _, List.mem_singleton_self _⟩) hrun
  intro call hmem
  obtain rfl := List.mem_singleton.mp hmem
  exact hvalid

/-- `drecv_coins_r2` returns one, when it received one. -/
theorem drecvCoinsR2_sendable (hL : L.Lawful) {b : DRecvRand K} {ctx : MPBPContext K P}
    {r : RecvCoinsResult K P × MPBPContext K P}
    (hvalid : (ProofCall.round1 b.outCoinBlind b.prfNonce).SharesValid L ctx.amount ctx.sharedNonce)
    (hctx : ctx.Sendable L) (h : drecvCoinsR2 L b slate fundValue ctx = .ok r) : r.2.Sendable L := by
  obtain ⟨com, -, hrun⟩ := drecvCoinsR2_calls h
  refine runCalls_sendable hL ?_ hctx.commit (.inl hctx.shares) hrun
  intro call hmem
  simp only [List.mem_cons, List.not_mem_nil, or_false] at hmem
  rcases hmem with rfl | rfl | rfl
  · trivial
  · exact hvalid
  · trivial

end Program

/-- A context that was made by `new` and by calls, one of them of round 1, is the same after the wire:
its text is one line, and `from_string` reads it back, also before round 2, when `tau_x` is `ZERO_KEY`. -/
theorem context_roundTrips {sharedNonce : K} {amount : ℕ} {com : Commitment}
    {calls : List (ProofCall K)} {ctx : MPBPContext K P} (hL : L.Lawful) (htext : L.WritesContexts)
    (hcom : com.bytes.length = 33)
    (hvalid : ∀ call ∈ calls, call.SharesValid L amount sharedNonce)
    (hround : ∃ blind nonce, .round1 blind nonce ∈ calls)
    (hrun : runCalls L (MPBPContext.new sharedNonce amount com) calls = .ok ctx) :
    MPBPContext.fromText L (ctx.toText L) = .ok ctx ∧ '\n' ∉ (ctx.toText L).toList ∧
      ∀ checks rest, readFromStream checks (writeToStream (ctx.toText L) ++ rest) =
        .ok (ctx.toText L) := by
  have hline := newline_not_mem_toText htext ctx
  have hsend := runCalls_sendable hL hvalid (htext.commit com hcom) (.inr hround) hrun
  exact ⟨hsend.fromText_toText hL, hline, fun checks rest =>
    readFromStream_writeToStream checks hline rest⟩

/-- The libraries with other texts of contexts. -/
def GrinLib.withContexts (L : GrinLib K P) (write : SerMPCtx → String)
    (read : String → Option SerMPCtx) : GrinLib K P :=
  { L with
    ctxToJson := write
    ctxFromJson := read }

omit [DecidableEq K] in
theorem GrinLib.Lawful.withContexts (h : L.Lawful) {write : SerMPCtx → String}
    {read : String → Option SerMPCtx} (hjson : ∀ v, read (write v) = some v) :
    (L.withContexts write read).Lawful :=
  { h with ctx_json := hjson }

/-- The libraries by exponents, with contexts in JSON. -/
def jsonExponents : GrinLib Scalar Scalar :=
  exponents.withContexts (fun v => v.toJson.text) fun text => (Json.read text).bind SerMPCtx.ofJson

theorem jsonExponents_lawful : jsonExponents.Lawful :=
  exponents_lawful.withContexts fun v => by simp [SerMPCtx.ofJson_toJson]

theorem jsonExponents_writesContexts : jsonExponents.WritesContexts where
  json _ := rfl
  commit com h := by
    have hfill : Exponents.commitFromVec com.bytes = com := by
      simp [Exponents.commitFromVec, h, List.take_of_length_le]
    exact hfill

/-- A context after round 1, with `ZERO_KEY` for `tau_x`. -/
def sampleContext : MPBPContext Scalar Scalar :=
  { t1 := 11, t2 := 11, amount := 100, sharedNonce := 3, tauX := 0, commit := Exponents.commitment 705 }

theorem runCalls_sampleContext :
    runCalls jsonExponents (MPBPContext.new 3 100 (Exponents.commitment 705)) [.round1 5 11] =
      .ok sampleContext := by
  simp only [runCalls_cons, ProofCall.apply, mpBulletProofR1, MPBPContext.new, MPBPContext.addShare,
    if_true, Outcome.ok_bind, Outcome.pure_eq_ok, runCalls_nil]
  rfl

theorem sampleContext_valid : ∀ call ∈ [ProofCall.round1 (5 : Scalar) 11],
    call.SharesValid jsonExponents 100 3 := by
  rw [List.forall_mem_singleton]
  exact ⟨by decide, by decide⟩

theorem context_roundTrips_sample :
    MPBPContext.fromText jsonExponents (sampleContext.toText jsonExponents) = .ok sampleContext ∧
      '\n' ∉ (sampleContext.toText jsonExponents).toList ∧
      ∀ checks rest, readFromStream checks
          (writeToStream (sampleContext.toText jsonExponents) ++ rest) =
        .ok (sampleContext.toText jsonExponents) :=
  context_roundTrips jsonExponents_lawful jsonExponents_writesContexts (by decide)
    sampleContext_valid ⟨5, 11, by decide⟩ runCalls_sampleContext

end MwBtcSwap.Grin
