import MwBtcSwap.Swap.Funds
import MwBtcSwap.Swap.Saved

/-! The amounts of a swap, from the arguments of `init` to the subtractions of the fees in its phases. -/

namespace MwBtcSwap

open Interaction Machine Grin Bitcoin

variable {K P : Type} [CommRing K] [AddCommGroup P] [Module K P] [DecidableEq K] [DecidableEq P]

variable {L : GrinLib K P} {B : BtcLib K P} {σ : Type}

/-! ### The arguments of `init` -/

/-- `BTC_MAX_SATS` -/
def btcMaxSats : ℕ := 21000000 * 100000000

/-- `GRIN_MAX_NANOGRIN` -/
def grinMaxNanogrin : ℕ := 10000000 * 1000000000

/-- `MAX_TIMEOUT`, in minutes. -/
def maxTimeout : ℕ := 60 * 24 * 5

/-- A letter in upper case.  Outside of ASCII only the dotless i becomes a letter of a currency. -/
def upperChar (c : Char) : Char := if c.toNat = 305 then 'I' else c.toUpper

/-- `parse_currency_from_string` -/
def parseCurrencyFromString (cur : String) : Outcome Currency :=
  let upper := cur.toList.map upperChar
  if upper = "BTC".toList ∨ upper = "BITCOIN".toList then .ok .btc
  else if upper = "GRIN".toList then .ok .grin
  else .error (.panic "Invalid Currency provided")

/-- The test of one amount in `parse_arguments`. -/
def amountOverflow (currency : Currency) (amount : ℕ) : Prop :=
  currency = .btc ∧ amount > btcMaxSats ∨ currency = .grin ∧ amount > grinMaxNanogrin

instance (currency : Currency) (amount : ℕ) : Decidable (amountOverflow currency amount) := by
  unfold amountOverflow
  infer_instance

/-- The branch of `parse_arguments` for `init`. -/
def parseArguments (fromCurrencyArg toCurrencyArg fromAmountArg toAmountArg timeoutArg : String) :
    Outcome Init := do
  let fromCurrency ← parseCurrencyFromString fromCurrencyArg
  let toCurrency ← parseCurrencyFromString toCurrencyArg
  let fromAmount ← Outcome.unwrap unwrapErr (parseU64 fromAmountArg)
  let toAmount ← Outcome.unwrap unwrapErr (parseU64 toAmountArg)
  let timeoutMin ← Outcome.unwrap unwrapErr (parseU64 timeoutArg)
  if amountOverflow fromCurrency fromAmount then throw (.panic "From amount is too high!")
  if amountOverflow toCurrency toAmount then throw (.panic "To amount is too high!")
  if timeoutMin > maxTimeout then throw (.panic "Timeout too high! Max timeout is 5 days")
  return Init.new fromCurrency toCurrency fromAmount toAmount timeoutMin

/-- A slate of a swap that `init` accepted, before its locking phase: inputs may have been imported. -/
def OfAccepted (slate : SwapSlate K P) : Prop :=
  ∃ (fromCurrency toCurrency fromAmount toAmount timeout : String) (init : Init) (settings : Settings)
    (slate₀ : SwapSlate K P) (coins : List MWCoin) (outputs : List BTCInput),
    parseArguments fromCurrency toCurrency fromAmount toAmount timeout = .ok init ∧
    init.execute settings = .ok slate₀ ∧
    slate = { slate₀ with prvSlate.mw.inputs := coins, prvSlate.btc.inputs := outputs }

omit [CommRing K] [AddCommGroup P] [Module K P] [DecidableEq K] [DecidableEq P] in
/-- No coin has been made. -/
theorem OfAccepted.fresh {slate : SwapSlate K P} (h : OfAccepted slate) :
    slate.prvSlate.mw.sharedCoin = none ∧ slate.prvSlate.mw.refundCoin = none := by
  obtain ⟨_, _, _, _, _, init, settings, slate₀, coins, outputs, -, hexecute, rfl⟩ := h
  have hblank := Init.execute_blank hexecute
  simp [hblank, SwapSlatePriv.blank]

/-! ### Processes that leave the slate alone -/

omit [DecidableEq K] in
theorem receiveSlate_still : (receiveSlate L : Process K P σ _).Still := .bind .request fun _ => .lift _

omit [CommRing K] [AddCommGroup P] [Module K P] [DecidableEq K] [DecidableEq P] in
theorem receivePubKey_still : (receivePubKey B : Process K P σ _).Still :=
  .bind .request fun _ => .lift _

omit [CommRing K] [AddCommGroup P] [Module K P] [DecidableEq K] [DecidableEq P] in
theorem receiveI64_still : (receiveI64 : Process K P σ ℤ).Still := .bind .request fun _ => .lift _

theorem dsharedOutMwTxAlice_still {rand : SpendRand K} {drand : DRecvRand K} {inp : List MWCoin}
    {fundValue timelock : ℕ} :
    (dsharedOutMwTxAlice L rand drand inp fundValue timelock : Process K P σ _).Still :=
  .bind (.lift _) fun _ => .bind (.lift _) fun _ => .bind .request fun _ => .bind .request fun _ =>
    .bind .request fun _ => .bind .request fun _ => .bind (.lift _) fun _ => .bind (.lift _) fun _ =>
    .bind (.lift _) fun _ => .bind (.lift _) fun _ => .bind .request fun _ => .pure _

theorem dsharedOutMwTxBob_still {drand : DRecvRand K} {fundValue : ℕ} :
    (dsharedOutMwTxBob L drand fundValue : Process K P σ _).Still :=
  .bind .request fun _ => .bind .request fun _ => .bind (.lift _) fun _ => .bind (.lift _) fun _ =>
    .bind (.lift _) fun _ => .bind .request fun _ => .bind .request fun _ =>
    .bind receiveSlate_still fun _ => .pure _

theorem dsharedInpMwTxAlice_still {rand : SpendRand K} {inp : MWCoin} {fundValue timelock : ℕ} :
    (dsharedInpMwTxAlice L rand inp fundValue timelock : Process K P σ _).Still :=
  .bind (.lift _) fun _ => .bind .request fun _ => .bind receiveSlate_still fun _ =>
    .bind (.lift _) fun _ => .bind (.lift _) fun _ => .bind .request fun _ => .pure _

theorem dsharedInpMwTxBob_still {sigNonce : K} {rand : RecvRand K} {inp : MWCoin}
    {fundValue timelock : ℕ} :
    (dsharedInpMwTxBob L sigNonce rand inp fundValue timelock : Process K P σ _).Still :=
  .bind receiveSlate_still fun _ => .bind (.lift _) fun _ => .bind (.lift _) fun _ =>
    .bind (.lift _) fun _ => .bind .request fun _ => .bind receiveSlate_still fun _ =>
    .bind (.lift _) fun _ => .bind (.lift _) fun _ => .pure _

section

omit [CommRing K] [AddCommGroup P] [Module K P] [DecidableEq K] [DecidableEq P]

theorem verifyFunds_still {address : String} {amount attempts : ℕ} :
    (verifyFunds address amount attempts : Process K P σ Bool).Still := by
  induction attempts with
  | zero => exact .pure _
  | succ attempts ih => exact .bind .request fun _ => .ite (.pure _) (.bind .request fun _ => ih)

/-! ### The values of the coins -/

/-- A message is received. -/
theorem receiveMsg_length (s : σ) (past : Trace K P σ) :
    ((receiveMsg : Process K P σ String) s).Sat (fun _ _ _ => True)
      (fun past' _ _ => (received past').length = (received past).length + 1) past := by
  refine ⟨trivial, fun ans => ?_⟩
  match ans with
  | .ok msg =>
    show (received (past ++ [⟨s, .recv, .ok msg⟩])).length = (received past).length + 1
    simp [received?]
  | .error (.err _) => trivial
  | .error (.panic _) => trivial

/-- A message is received and read. -/
theorem receiveRead_length {α : Type} (read : String → Outcome α) (s : σ) (past : Trace K P σ) :
    ((receiveMsg >>= fun msg => Proc.lift (read msg) : Process K P σ α) s).Sat (fun _ _ _ => True)
      (fun past' _ _ => (received past').length = (received past).length + 1) past := by
  refine (receiveMsg_length s past).bind fun past' s' msg hlength => ?_
  cases read msg with
  | error e => trivial
  | ok a => exact hlength

end

/-- The shared coin of the Grin owner has the value of the proof context that the peer sent back. -/
theorem dsharedOutMwTxAlice_value {rand : SpendRand K} {drand : DRecvRand K} {inp : List MWCoin}
    {fundValue timelock : ℕ} (s : σ) (past : Trace K P σ) :
    (dsharedOutMwTxAlice L rand drand inp fundValue timelock s).Sat (fun _ _ _ => True)
      (fun past' _ r => ∃ msg text ctx, received past' = received past ++ [msg, text] ∧
        MPBPContext.fromText L text = .ok ctx ∧ r.sharedCoin.value = ctx.amount) past := by
  refine Prog.sat_lift_bind fun _ _ => Prog.sat_lift_bind fun _ _ =>
    Prog.sat_request_bind trivial fun _ _ _ => Prog.sat_request_bind trivial fun _ _ _ =>
    sat_receiveMsg_bind trivial fun msg => sat_receiveMsg_bind trivial fun text =>
    Prog.sat_lift_bind fun _ _ => Prog.sat_lift_bind fun ctx hctx => Prog.sat_lift_bind fun recv hrecv =>
    Prog.sat_lift_bind fun _ _ => Prog.sat_request_bind trivial fun _ _ _ => ?_
  refine ⟨msg, text, ctx, by simp [received?], hctx, ?_⟩
  simp only [Outcome.expect_eq_ok, drecvCoinsR3, Outcome.bind_eq_ok, Outcome.pure_eq_ok,
    Except.ok.injEq] at hrecv
  obtain ⟨_, -, _, -, _, -, _, -, _, -, rfl⟩ := hrecv
  rfl

/-- The shared coin of the Bitcoin owner has the value that it asked for. -/
theorem dsharedOutMwTxBob_value {drand : DRecvRand K} {fundValue : ℕ} :
    (dsharedOutMwTxBob L drand fundValue : Process K P σ _).Returns fun r =>
      r.sharedCoin.value = fundValue := by
  intro s past
  refine Prog.sat_request_bind trivial fun _ _ _ => Prog.sat_request_bind trivial fun _ _ _ =>
    Prog.sat_lift_bind fun _ _ => Prog.sat_lift_bind fun _ _ => Prog.sat_lift_bind fun recv hrecv =>
    Prog.sat_request_bind trivial fun _ _ _ => Prog.sat_request_bind trivial fun _ _ _ =>
    sat_receiveSlate_bind trivial fun _ _ _ => ?_
  simp only [drecvCoinsR2, Outcome.bind_eq_ok, Outcome.pure_eq_ok, Except.ok.injEq] at hrecv
  obtain ⟨_, -, _, -, _, -, _, -, _, -, _, -, _, -, rfl⟩ := hrecv
  rfl

/-- The refund coin has the fund value. -/
theorem dsharedInpMwTxBob_value {sigNonce : K} {rand : RecvRand K} {inp : MWCoin}
    {fundValue timelock : ℕ} :
    (dsharedInpMwTxBob L sigNonce rand inp fundValue timelock : Process K P σ _).Returns fun r =>
      ∃ coin, r.coin = some coin ∧ coin.value = fundValue := by
  intro s past
  refine sat_receiveSlate_bind trivial fun _ _ _ => Prog.sat_lift_bind fun _ _ =>
    Prog.sat_lift_bind fun recv hrecv => Prog.sat_lift_bind fun _ _ =>
    Prog.sat_request_bind trivial fun _ _ _ => sat_receiveSlate_bind trivial fun _ _ _ =>
    Prog.sat_lift_bind fun _ _ => Prog.sat_lift_bind fun _ _ => ?_
  simp only [recvCoins, Outcome.bind_eq_ok, Outcome.pure_eq_ok, Except.ok.injEq] at hrecv
  obtain ⟨_, -, _, -, rfl⟩ := hrecv
  exact ⟨_, rfl, rfl⟩

/-- The swapped coin has the fund value. -/
theorem dcontractMwTxBob_value {sigNonce x : K} {rand : RecvRand K} {inp : MWCoin}
    {fundValue timelock : ℕ} :
    (dcontractMwTxBob L sigNonce rand inp fundValue timelock x : Process K P σ _).Returns fun r =>
      ∃ coin, r.coin = some coin ∧ coin.value = fundValue := by
  intro s past
  refine sat_receiveSlate_bind trivial fun _ _ _ => Prog.sat_lift_bind fun _ _ =>
    Prog.sat_lift_bind fun recv hrecv => Prog.sat_request_bind trivial fun _ _ _ =>
    sat_receiveSlate_bind trivial fun _ _ _ => Prog.sat_lift_bind fun _ _ =>
    Prog.sat_request_bind trivial fun _ _ _ => ?_
  simp only [aptRecvCoins, Outcome.bind_eq_ok, Outcome.pure_eq_ok, Except.ok.injEq] at hrecv
  obtain ⟨_, -, _, -, _, -, _, -, _, -, rfl⟩ := hrecv
  exact ⟨_, rfl, rfl⟩

/-! ### The locking phases -/

/-- The value that a party gives its shared coin.  The Grin owner takes it from the proof context that the
peer sends back, which is the seventh message it receives. -/
def NamedValue (L : GrinLib K P) (slate : SwapSlate K P) (past : Trace K P (SwapSlate K P)) :
    Role → ℕ → Prop
  | .mw, value => ∃ text ctx, (received past)[6]? = some text ∧
      MPBPContext.fromText L text = .ok ctx ∧ ctx.amount = value
  | .btc, value => value = slate.pubSlate.mw.amount

omit [AddCommGroup P] [Module K P] [DecidableEq K] [DecidableEq P] in
theorem NamedValue.mono {slate : SwapSlate K P} {past past' : Trace K P (SwapSlate K P)} {role : Role}
    {value : ℕ} (h : NamedValue L slate past role value) (hpre : past <+: past') :
    NamedValue L slate past' role value := by
  cases role with
  | mw =>
    obtain ⟨text, ctx, htext, hctx⟩ := h
    obtain ⟨rest, hrest⟩ := received_mono hpre
    refine ⟨text, ctx, ?_, hctx⟩
    rw [← hrest, List.getElem?_append_left (List.getElem?_eq_some_iff.mp htext).1, htext]
  | btc => exact h

omit [AddCommGroup P] [Module K P] [DecidableEq K] [DecidableEq P] in
theorem NamedValue.unique {slate : SwapSlate K P} {past : Trace K P (SwapSlate K P)} {role : Role}
    {value value' : ℕ} (h : NamedValue L slate past role value)
    (h' : NamedValue L slate past role value') : value = value' := by
  cases role with
  | mw =>
    obtain ⟨text, ctx, htext, hctx, rfl⟩ := h
    obtain ⟨text', ctx', htext', hctx', rfl⟩ := h'
    cases htext.symm.trans htext'
    cases hctx.symm.trans hctx'
    rfl
  | btc => exact h.trans h'.symm

/-- What holds throughout a locking phase: the amounts are those of the swap, a shared coin has the value
that was named, and a refund coin has what is left of it. -/
structure CoinsNamed (L : GrinLib K P) (slate : SwapSlate K P) (role : Role)
    (past : Trace K P (SwapSlate K P)) (s : SwapSlate K P) : Prop where
  mw : s.pubSlate.mw.amount = slate.pubSlate.mw.amount
  btc : s.pubSlate.btc.amount = slate.pubSlate.btc.amount
  shared : ∀ c, s.prvSlate.mw.sharedCoin = some c → NamedValue L slate past role c.value
  refund : ∀ r, s.prvSlate.mw.refundCoin = some r → ∃ c, s.prvSlate.mw.sharedCoin = some c ∧
    subU64 L.overflowChecks c.value (estimateFees L 1 1 1) = .ok r.value

variable {slate : SwapSlate K P} {role : Role}

omit [AddCommGroup P] [Module K P] [DecidableEq K] [DecidableEq P] in
theorem CoinsNamed.mono {past past' : Trace K P (SwapSlate K P)} {s : SwapSlate K P}
    (h : CoinsNamed L slate role past s) (hpre : past <+: past') : CoinsNamed L slate role past' s :=
  ⟨h.mw, h.btc, fun c hc => (h.shared c hc).mono hpre, h.refund⟩

theorem lockingGrinMw_coins (rand : LockMwRand K) {past : Trace K P (SwapSlate K P)}
    {s : SwapSlate K P} (h : CoinsNamed L slate .mw past s) (hpast : (received past).length = 5)
    (hrefund : s.prvSlate.mw.refundCoin = none) :
    (lockingGrinMw L rand s).Throughout (CoinsNamed L slate .mw) past := by
  refine Prog.throughout_request_bind h (fun ans => h.mono (List.prefix_append _ _)) fun ans height _ =>
    Prog.throughout_get_bind ?_
  have h₁ := h.mono (List.prefix_append past [⟨s, .getBlockHeight, ans⟩])
  refine Prog.throughout_lift_bind h₁ fun lockHeight _ => Prog.throughout_lift_bind h₁ fun lockTime _ =>
    Prog.throughout_modify_bind ?_
  have h₂ : CoinsNamed L slate .mw (past ++ [⟨s, .getBlockHeight, ans⟩])
      { s with pubSlate.mw.lockTime := some lockTime } := ⟨h₁.mw, h₁.btc, h₁.shared, h₁.refund⟩
  refine Prog.throughout_request_bind h₂ (fun ans => h₂.mono (List.prefix_append _ _)) fun ans' _ _ => ?_
  refine dsharedOutMwTxAlice_still.throughout_bind (dsharedOutMwTxAlice_value _ _)
    (fun past' hpre => h₂.mono ((List.prefix_append _ _).trans hpre)) ?_
  rintro past' r hpre ⟨msg, text, ctx, hreceived, hctx, hvalue⟩
  refine Prog.throughout_modify_bind ?_
  have h₃ : CoinsNamed L slate .mw past' { s with
      pubSlate.mw.lockTime := some lockTime
      prvSlate.mw.sharedCoin := some r.sharedCoin
      prvSlate.mw.changeCoin := r.changeCoin } := by
    refine ⟨h.mw, h.btc, ?_, ?_⟩
    · rintro c ⟨⟩
      refine ⟨text, ctx, ?_, hctx, hvalue.symm⟩
      rw [hreceived]
      simp [received?, hpast]
    · intro r hr
      cases hrefund.symm.trans hr
  refine Prog.throughout_lift_bind h₃ fun _ _ => Prog.throughout_lift_bind h₃ fun fundValue hfund => ?_
  refine dsharedInpMwTxBob_still.throughout_bind (dsharedInpMwTxBob_value _ _)
    (fun past'' hpre => h₃.mono hpre) ?_
  rintro past'' refund hpre' ⟨coin, hcoin, hvalue'⟩
  refine Prog.throughout_modify_bind ?_
  have h₄ : CoinsNamed L slate .mw past'' { s with
      pubSlate.mw.lockTime := some lockTime
      prvSlate.mw.sharedCoin := some r.sharedCoin
      prvSlate.mw.changeCoin := r.changeCoin
      prvSlate.mw.refundCoin := refund.coin
      prvSlate.mw.refundTx := refund.tx.tx } := by
    refine ⟨h.mw, h.btc, (h₃.mono hpre').shared, ?_⟩
    intro r' hr
    cases hcoin.symm.trans hr
    exact ⟨_, rfl, by rw [hfund, hvalue']⟩
  refine Prog.throughout_lift_bind h₄ fun tx _ => ?_
  exact Prog.throughout_request h₄ fun ans => h₄.mono (List.prefix_append _ _)

theorem lockingGrinBtc_coins (rand : LockBtcRand K) {past : Trace K P (SwapSlate K P)}
    {s : SwapSlate K P} (h : CoinsNamed L slate .btc past s) (hrefund : s.prvSlate.mw.refundCoin = none) :
    (lockingGrinBtc L rand s).Throughout (CoinsNamed L slate .btc) past := by
  refine receiveI64_still.throughout_bind (Prog.sat_steps _) (fun past' hpre => h.mono hpre) ?_
  intro past' lockHeight hpre _
  have h₁ : CoinsNamed L slate .btc past' { s with pubSlate.mw.lockTime := some lockHeight } :=
    ⟨h.mw, h.btc, (h.mono hpre).shared, h.refund⟩
  refine Prog.throughout_modify_bind (Prog.throughout_get_bind ?_)
  refine dsharedOutMwTxBob_still.throughout_bind (dsharedOutMwTxBob_value _ _)
    (fun past'' hpre' => h₁.mono hpre') ?_
  intro past'' r hpre' hvalue
  have h₂ : CoinsNamed L slate .btc past'' { s with
      pubSlate.mw.lockTime := some lockHeight
      prvSlate.mw.sharedCoin := some r.sharedCoin } := by
    refine ⟨h.mw, h.btc, ?_, ?_⟩
    · rintro c ⟨⟩
      exact hvalue.trans h.mw
    · intro r' hr
      cases hrefund.symm.trans hr
  refine Prog.throughout_modify_bind ?_
  refine Prog.throughout_lift_bind h₂ fun fundValue _ => Prog.throughout_lift_bind h₂ fun timelock _ => ?_
  refine dsharedInpMwTxAlice_still.throughout_bind (Prog.sat_steps _) (fun _ hpre => h₂.mono hpre) ?_
  intro past₃ _ hpre₃ _
  exact h₂.mono hpre₃

omit [AddCommGroup P] [Module K P] [DecidableEq K] [DecidableEq P] in
/-- A slate that differs in nothing that is said of the coins. -/
theorem CoinsNamed.congr {past : Trace K P (SwapSlate K P)} {s s' : SwapSlate K P}
    (h : CoinsNamed L slate role past s) (hmw : s'.pubSlate.mw = s.pubSlate.mw)
    (hbtc : s'.pubSlate.btc.amount = s.pubSlate.btc.amount) (hprv : s'.prvSlate.mw = s.prvSlate.mw) :
    CoinsNamed L slate role past s' := by
  refine ⟨by rw [hmw, h.mw], by rw [hbtc, h.btc], ?_, ?_⟩
  · rw [hprv]
    exact h.shared
  · rw [hprv]
    exact h.refund

omit [AddCommGroup P] [Module K P] [DecidableEq K] [DecidableEq P] in
theorem CoinsNamed.start {past : Trace K P (SwapSlate K P)} (hnew : OfAccepted slate) :
    CoinsNamed L slate role past slate := by
  refine ⟨rfl, rfl, fun c hc => ?_, fun r hr => ?_⟩
  · cases hnew.fresh.1.symm.trans hc
  · cases hnew.fresh.2.symm.trans hr

/-- What is said of the coins holds in every state of a locking phase. -/
theorem lockingPhaseSwapMw_coins (rand : LockMwRand K) (hnew : OfAccepted slate) :
    (lockingPhaseSwapMw L B rand slate).Throughout (CoinsNamed L slate .mw) [] := by
  have h : ∀ {past : Trace K P (SwapSlate K P)} {s : SwapSlate K P},
      s.pubSlate.mw = slate.pubSlate.mw → s.pubSlate.btc.amount = slate.pubSlate.btc.amount →
      s.prvSlate.mw = slate.prvSlate.mw → CoinsNamed L slate .mw past s :=
    fun hmw hbtc hprv => (CoinsNamed.start hnew).congr hmw hbtc hprv
  refine Prog.throughout_modify_bind <|
    Prog.throughout_request_bind (h rfl rfl rfl) (fun _ => h rfl rfl rfl) fun ans _ hans => ?_
  refine receivePubKey_still.throughout_bind (receiveRead_length _ _ _) (fun _ _ => h rfl rfl rfl) ?_
  intro past₁ pubB _ hlength₁
  refine Prog.throughout_modify_bind <|
    receivePubKey_still.throughout_bind (receiveRead_length _ _ _) (fun _ _ => h rfl rfl rfl) ?_
  intro past₂ pubX _ hlength₂
  refine Prog.throughout_modify_bind <|
    receiveI64_still.throughout_bind (receiveRead_length _ _ _) (fun _ _ => h rfl rfl rfl) ?_
  intro past₃ lockTime _ hlength₃
  refine Prog.throughout_modify_bind <| Prog.throughout_lift_bind (h rfl rfl rfl) fun pubScript _ =>
    Prog.throughout_lift_bind (h rfl rfl rfl) fun addr _ =>
    Prog.throughout_request_bind (h rfl rfl rfl) (fun _ => h rfl rfl rfl) fun ans' _ _ => ?_
  refine Proc.Still.request.throughout_bind (receiveMsg_length _ _) (fun _ _ => h rfl rfl rfl) ?_
  intro past₄ address _ hlength₄
  refine Proc.Still.request.throughout_bind (receiveMsg_length _ _) (fun _ _ => h rfl rfl rfl) ?_
  intro past₅ txid _ hlength₅
  split_ifs
  · exact Prog.throughout_modify_bind (h rfl rfl rfl)
  · refine Prog.throughout_get_bind ?_
    refine verifyFunds_still.throughout_bind
      ((verifyFunds_only _ _).mono (fun _ _ _ _ => trivial) fun _ _ _ hext => hext.2)
      (fun _ _ => h rfl rfl rfl) ?_
    intro past₆ verified _ hext
    cases verified with
    | false => exact Prog.throughout_modify_bind (h rfl rfl rfl)
    | true =>
      refine Prog.throughout_modify_bind (lockingGrinMw_coins rand (h rfl rfl rfl) ?_ hnew.fresh.2)
      rw [received_of_verifiesFunds hext, hlength₅, hlength₄]
      simp [received?, hlength₃, hlength₂, hlength₁]

/-- The same for the Bitcoin owner. -/
theorem lockingPhaseSwapBtc_coins (rand : LockBtcRand K) (hnew : OfAccepted slate) :
    (lockingPhaseSwapBtc L B rand slate).Throughout (CoinsNamed L slate .btc) [] := by
  have h : ∀ {past : Trace K P (SwapSlate K P)} {s : SwapSlate K P},
      s.pubSlate.mw = slate.pubSlate.mw → s.pubSlate.btc.amount = slate.pubSlate.btc.amount →
      s.prvSlate.mw = slate.prvSlate.mw → CoinsNamed L slate .btc past s :=
    fun hmw hbtc hprv => (CoinsNamed.start hnew).congr hmw hbtc hprv
  refine Prog.throughout_modify_bind <|
    receivePubKey_still.throughout_bind (Prog.sat_steps _) (fun _ _ => h rfl rfl rfl) ?_
  intro past₁ pubA _ _
  refine Prog.throughout_modify_bind <|
    Prog.throughout_request_bind (h rfl rfl rfl) (fun _ => h rfl rfl rfl) fun _ _ _ =>
    Prog.throughout_request_bind (h rfl rfl rfl) (fun _ => h rfl rfl rfl) fun _ _ _ =>
    Prog.throughout_request_bind (h rfl rfl rfl) (fun _ => h rfl rfl rfl) fun _ height _ =>
    Prog.throughout_get_bind <| Prog.throughout_lift_bind (h rfl rfl rfl) fun lockHeight _ =>
    Prog.throughout_lift_bind (h rfl rfl rfl) fun lockTime _ =>
    Prog.throughout_request_bind (h rfl rfl rfl) (fun _ => h rfl rfl rfl) fun _ _ _ =>
    Prog.throughout_modify_bind <| Prog.throughout_lift_bind (h rfl rfl rfl) fun lock _ =>
    Prog.throughout_request_bind (h rfl rfl rfl) (fun _ => h rfl rfl rfl) fun _ _ _ =>
    Prog.throughout_modify_bind <|
    Prog.throughout_request_bind (h rfl rfl rfl) (fun _ => h rfl rfl rfl) fun _ _ _ =>
    Prog.throughout_request_bind (h rfl rfl rfl) (fun _ => h rfl rfl rfl) fun _ _ _ =>
    Prog.throughout_modify_bind <| lockingGrinBtc_coins rand (h rfl rfl rfl) hnew.fresh.2

theorem lockingPhase_coins (rand : Rand K) (hnew : OfAccepted slate) (role : Role) :
    (lockingPhase L B rand role slate).Throughout (CoinsNamed L slate role) [] := by
  cases role with
  | mw => exact lockingPhaseSwapMw_coins rand.lockMw hnew
  | btc => exact lockingPhaseSwapBtc_coins rand.lockBtc hnew

/-! ### What is paid out -/

/-- A value that is positive and an amount less a fee. -/
def PaysOut (amount fee value : ℕ) : Prop := value + fee = amount ∧ 0 < value

/-- The subtraction of a fee, as the program does it, is exact and leaves something. -/
def Leaves (checks : Bool) (amount fee : ℕ) : Prop :=
  ∃ rest, subU64 checks amount fee = .ok rest ∧ PaysOut amount fee rest

theorem leaves_iff {checks : Bool} {amount fee : ℕ} : Leaves checks amount fee ↔ fee < amount := by
  constructor
  · rintro ⟨rest, -, hsum, hpos⟩
    omega
  · intro hlt
    exact ⟨amount - fee, subU64_of_le (by omega), by omega, by omega⟩

theorem Leaves.pays {checks : Bool} {amount fee rest : ℕ} (h : Leaves checks amount fee)
    (hsub : subU64 checks amount fee = .ok rest) : PaysOut amount fee rest := by
  obtain ⟨rest', hsub', hpays⟩ := h
  cases hsub.symm.trans hsub'
  exact hpays

/-- The subtractions that the phases do on a slate.  Both locking phases and both execution phases take
the fee off the shared coin, and the transactions that spend the lock take it off the amount. -/
structure FeesPaid (L : GrinLib K P) (B : BtcLib K P) (s : SwapSlate K P) : Prop where
  shared : ∀ c, s.prvSlate.mw.sharedCoin = some c → c.value = s.pubSlate.mw.amount ∧
    Leaves L.overflowChecks c.value (estimateFees L 1 1 1)
  lock : Leaves B.overflowChecks s.pubSlate.btc.amount btcFee

/-- The refund, contract and redeem outputs of a slate and of the phases that run on it. -/
structure OutputsExact (L : GrinLib K P) (B : BtcLib K P) (s : SwapSlate K P) : Prop where
  refundGrin : ∀ r, s.prvSlate.mw.refundCoin = some r →
    PaysOut s.pubSlate.mw.amount (estimateFees L 1 1 1) r.value
  contract : ∀ rand t s', Steps (execPhaseSwapBtc L B rand s) t (.ret s' ()) →
    ∃ coin, s'.prvSlate.mw.swappedCoin = some coin ∧
      PaysOut s.pubSlate.mw.amount (estimateFees L 1 1 1) coin.value
  redeem : ∀ rand t s', Steps (execPhaseSwapMw L B rand s) t (.ret s' ()) →
    ∃ input, s'.prvSlate.btc.swapped = some input ∧ PaysOut s.pubSlate.btc.amount btcFee input.value
  refundBtc : ∀ key t s', Steps (refundPhaseSwapBtc B key s) t (.ret s' ()) →
    ∃ input, s'.prvSlate.btc.refunded = some input ∧ PaysOut s.pubSlate.btc.amount btcFee input.value

omit [CommRing K] [AddCommGroup P] [Module K P] [DecidableEq K] [DecidableEq P] in
/-- The output of a transaction that spends the lock. -/
theorem createSpendLockTransaction_output {recvPk : PublicKey P} {input : BTCInput}
    {amount fee lockTime : ℕ} {tx : Bitcoin.Transaction}
    (h : createSpendLockTransaction B recvPk input amount fee lockTime = .ok tx) :
    ∃ value, subU64 B.overflowChecks amount fee = .ok value ∧
      tx.output = [⟨value, getP2pkhPubScript B recvPk⟩] := by
  simp only [createSpendLockTransaction, Outcome.bind_eq_ok, Outcome.pure_eq_ok] at h
  obtain ⟨_, -, h⟩ := h
  split_ifs at h
  · cases h
  · obtain ⟨value, hvalue, h⟩ := Outcome.bind_eq_ok.mp h
    cases h
    exact ⟨value, hvalue, rfl⟩

omit [CommRing K] [AddCommGroup P] [Module K P] [DecidableEq K] [DecidableEq P] in
theorem signedRedeemTransaction_output {s : SwapSlate K P} {pk : PublicKey P} {x : K}
    {r : Bitcoin.Transaction × List UInt8} (h : signedRedeemTransaction L B s pk x = .ok r) :
    ∃ value, subU64 B.overflowChecks s.pubSlate.btc.amount btcFee = .ok value ∧
      r.1.output = [⟨value, getP2pkhPubScript B pk⟩] := by
  simp only [signedRedeemTransaction, Outcome.bind_eq_ok, Outcome.pure_eq_ok, Except.ok.injEq] at h
  obtain ⟨_, -, _, -, _, -, _, -, _, -, _, -, _, -, _, -, _, -, _, -, tx, htx, _, -, _, -, rfl⟩ := h
  obtain ⟨value, hvalue, hout⟩ := createSpendLockTransaction_output htx
  exact ⟨value, hvalue, hout⟩

omit [DecidableEq K] [DecidableEq P] in
theorem signedRefundTransaction_output {s : SwapSlate K P} {pk : PublicKey P}
    {r : Bitcoin.Transaction × List UInt8} (h : signedRefundTransaction B s pk = .ok r) :
    ∃ value, subU64 B.overflowChecks s.pubSlate.btc.amount btcFee = .ok value ∧
      r.1.output = [⟨value, getP2pkhPubScript B pk⟩] := by
  simp only [signedRefundTransaction, Outcome.bind_eq_ok, Outcome.pure_eq_ok, Except.ok.injEq] at h
  obtain ⟨_, -, _, -, _, -, _, -, _, -, _, -, _, -, _, -, _, -, tx, htx, _, -, rfl⟩ := h
  obtain ⟨value, hvalue, hout⟩ := createSpendLockTransaction_output htx
  exact ⟨value, hvalue, hout⟩

/-- The coin of the contract is the shared coin less the fee. -/
theorem execPhaseSwapBtc_pays (rand : ExecBtcRand K) (s : SwapSlate K P)
    (past : Trace K P (SwapSlate K P)) :
    (execPhaseSwapBtc L B rand s).Sat (fun _ _ _ => True) (fun _ s' _ =>
      ∃ c coin, s.prvSlate.mw.sharedCoin = some c ∧ s'.prvSlate.mw.swappedCoin = some coin ∧
        subU64 L.overflowChecks c.value (estimateFees L 1 1 1) = .ok coin.value) past := by
  refine execPhaseSwapBtc_sat (fun _ => trivial) (fun _ => trivial) fun _ _ c _ fundValue hc hfund =>
    (dcontractMwTxBob_value _ _).mono (fun _ _ _ h => h) ?_
  rintro _ s' result ⟨coin, hcoin, hvalue⟩
  exact ⟨fun _ => trivial, fun _ => ⟨c, coin, hc, hcoin, by rw [hvalue, hfund]⟩⟩

/-- The redeemed output is the amount less the fee. -/
theorem execPhaseSwapMw_pays (rand : ExecMwRand K) (s : SwapSlate K P)
    (past : Trace K P (SwapSlate K P)) :
    (execPhaseSwapMw L B rand s).Sat (fun _ _ _ => True) (fun _ s' _ =>
      ∃ input, s'.prvSlate.btc.swapped = some input ∧
        subU64 B.overflowChecks s.pubSlate.btc.amount btcFee = .ok input.value) past := by
  refine execPhaseSwapMw_sat (fun _ => trivial) (fun _ => trivial) (fun _ _ _ _ _ _ _ _ _ _ => trivial)
    (fun _ _ => trivial) fun _ _ tx _ o htx ho => ?_
  obtain ⟨value, hvalue, hout⟩ := signedRedeemTransaction_output htx
  rw [hout] at ho
  cases ho
  exact ⟨_, rfl, hvalue⟩

omit [DecidableEq K] [DecidableEq P] in
/-- The refunded output is the amount less the fee. -/
theorem refundPhaseSwapBtc_pays (key : K) (s : SwapSlate K P) (past : Trace K P (SwapSlate K P)) :
    (refundPhaseSwapBtc B key s).Sat (fun _ _ _ => True) (fun _ s' _ =>
      ∃ input, s'.prvSlate.btc.refunded = some input ∧
        subU64 B.overflowChecks s.pubSlate.btc.amount btcFee = .ok input.value) past := by
  refine refundPhaseSwapBtc_sat (fun _ => trivial) (fun _ => trivial) (fun _ _ => trivial)
    fun _ tx _ o htx ho => ?_
  obtain ⟨value, hvalue, hout⟩ := signedRefundTransaction_output htx
  rw [hout] at ho
  cases ho
  exact ⟨_, rfl, hvalue⟩

/-- When the fees are paid, so are the outputs. -/
theorem FeesPaid.outputs {past : Trace K P (SwapSlate K P)} {s : SwapSlate K P}
    (h : FeesPaid L B s) (hcoins : CoinsNamed L slate role past s) : OutputsExact L B s where
  refundGrin r hr := by
    obtain ⟨c, hc, hsub⟩ := hcoins.refund r hr
    obtain ⟨hvalue, hleaves⟩ := h.shared c hc
    rw [← hvalue]
    exact hleaves.pays hsub
  contract rand t s' hsteps := by
    obtain ⟨c, coin, hc, hcoin, hsub⟩ := hsteps.sat (execPhaseSwapBtc_pays rand s [])
    obtain ⟨hvalue, hleaves⟩ := h.shared c hc
    rw [← hvalue]
    exact ⟨coin, hcoin, hleaves.pays hsub⟩
  redeem rand t s' hsteps := by
    obtain ⟨input, hinput, hsub⟩ := hsteps.sat (execPhaseSwapMw_pays rand s [])
    exact ⟨input, hinput, h.lock.pays hsub⟩
  refundBtc key t s' hsteps := by
    obtain ⟨input, hinput, hsub⟩ := hsteps.sat (refundPhaseSwapBtc_pays key s [])
    exact ⟨input, hinput, h.lock.pays hsub⟩

/-- The amounts of a swap exceed the fees, and the proof context of the peer, where one has come, names
the amount of the swap. -/
structure CoversFees (L : GrinLib K P) (slate : SwapSlate K P) (role : Role)
    (t : Trace K P (SwapSlate K P)) : Prop where
  btc : btcFee < slate.pubSlate.btc.amount
  mw : estimateFees L 1 1 1 < slate.pubSlate.mw.amount
  named : ∀ value, NamedValue L slate t role value → value = slate.pubSlate.mw.amount

/-- In every state that a locking phase of an accepted swap reaches, the later subtractions do not
underflow and the outputs are the amounts less the fees if the amounts cover them.  From the shared coin
on this is the only way. -/
theorem lockingPhase_feesPaid (rand : Rand K) (hnew : OfAccepted slate)
    {t : Trace K P (SwapSlate K P)} {q : Program K P (SwapSlate K P) Unit}
    (hsteps : Steps (lockingPhase L B rand role slate) t q) :
    (CoversFees L slate role t → FeesPaid L B q.mem ∧ OutputsExact L B q.mem) ∧
    (FeesPaid L B q.mem → btcFee < slate.pubSlate.btc.amount ∧
      (q.mem.prvSlate.mw.sharedCoin.isSome → CoversFees L slate role t)) := by
  have hcoins : CoinsNamed L slate role t q.mem := by
    simpa using hsteps.throughout (lockingPhase_coins rand hnew role)
  constructor
  · intro hcovers
    have hpaid : FeesPaid L B q.mem := by
      refine ⟨fun c hc => ?_, leaves_iff.mpr (by rw [hcoins.btc]; exact hcovers.btc)⟩
      have hvalue := hcovers.named _ (hcoins.shared c hc)
      exact ⟨by rw [hcoins.mw, hvalue], leaves_iff.mpr (by rw [hvalue]; exact hcovers.mw)⟩
    exact ⟨hpaid, hpaid.outputs hcoins⟩
  · intro hpaid
    have hlock := leaves_iff.mp hpaid.lock
    rw [hcoins.btc] at hlock
    refine ⟨hlock, fun hsome => ?_⟩
    obtain ⟨c, hc⟩ := Option.isSome_iff_exists.mp hsome
    obtain ⟨hvalue, hleaves⟩ := hpaid.shared c hc
    rw [hcoins.mw] at hvalue
    rw [hvalue] at hleaves
    exact ⟨hlock, leaves_iff.mp hleaves, fun value hnamed => (hnamed.unique (hcoins.shared c hc)).trans hvalue⟩

theorem sample_accepted {fromAmount toAmount : String} {amount : ℕ}
    (hparse : parseArguments "grin" "btc" fromAmount toAmount "400" =
      .ok (.new .grin .btc 1012500000 amount 400)) (coins : List MWCoin) (outputs : List BTCInput) :
    OfAccepted { sampleSlate with
      pubSlate.btc.amount := amount
      prvSlate.mw.inputs := coins
      prvSlate.btc.inputs := outputs } :=
  ⟨_, _, _, _, _, _, sampleSettings, _, coins, outputs, hparse, rfl, rfl⟩

/-- A locking phase of the Bitcoin owner that returns has broadcast its lock. -/
theorem lockingPhaseSwapBtc_broadcasts (rand : LockBtcRand K) (slate : SwapSlate K P)
    (past : Trace K P (SwapSlate K P)) :
    (lockingPhaseSwapBtc L B rand slate).Sat (fun _ _ _ => True) (fun past' _ _ => Broadcast past')
      past := by
  refine Prog.sat_modify_bind <| sat_receivePubKey_bind trivial fun _ _ _ =>
    Prog.sat_modify_bind <| sat_sendMsg_bind trivial <| sat_sendMsg_bind trivial <|
    Prog.sat_request_bind trivial fun _ _ _ => Prog.sat_get_bind <| Prog.sat_lift_bind fun _ _ =>
    Prog.sat_lift_bind fun _ _ => sat_sendMsg_bind trivial <|
    Prog.sat_modify_bind <| Prog.sat_lift_bind fun lock _ =>
    Prog.sat_request_bind trivial fun ans _ hans => ?_
  obtain rfl : ans = .ok () := hans
  refine (Prog.sat_steps _).mono (fun _ _ _ h => h) ?_
  rintro past' _ _ ⟨t, rfl, -⟩
  exact ⟨_, lock.signedTx, List.mem_append_left _ <| List.mem_append_right _ List.mem_cons_self⟩

/-- After a whole locking phase of the sample the fees are paid on both sides. -/
theorem lockingPhase_feesPaid_sample : ∃ t u mw btc,
    Steps (lockingPhase exponents (btcExponents []) sampleRand .mw sampleFunded) t (.ret mw ()) ∧
    Steps (lockingPhase exponents (btcExponents []) sampleRand .btc sampleTaker) u (.ret btc ()) ∧
    Broadcast u ∧ mw.prvSlate.mw.sharedCoin.isSome ∧ btc.prvSlate.mw.sharedCoin.isSome ∧
    FeesPaid exponents (btcExponents []) mw ∧ OutputsExact exponents (btcExponents []) mw ∧
    FeesPaid exponents (btcExponents []) btc ∧ OutputsExact exponents (btcExponents []) btc := by
  obtain ⟨lock, h⟩ := sample_lockable
  obtain ⟨t, u, sharedA, sharedB, refund, hmw, hbtc, -, hcoin, -, -⟩ :=
    h.runs exponents_lawful (btcExponents_lawful [])
  have hfunded : OfAccepted sampleFunded :=
    @sample_accepted "1012500000" "100000" 100000 (by decide +kernel) [sampleCoin] []
  have htaker : OfAccepted sampleTaker :=
    @sample_accepted "1012500000" "100000" 100000 (by decide +kernel) [] [sampleBtcInput]
  have hcoins : CoinsNamed exponents sampleFunded .mw ([] ++ t) (sampleOffererSetup lock sharedA refund) :=
    hmw.throughout (lockingPhase_coins (B := btcExponents []) sampleRand hfunded .mw)
  obtain ⟨hpaidMw, -⟩ :=
    @lockingPhase_feesPaid _ _ _ _ _ _ _ _ _ _ .mw sampleRand hfunded _ _ hmw
  obtain ⟨hpaidBtc, -⟩ :=
    @lockingPhase_feesPaid _ _ _ _ _ _ _ _ _ _ .btc sampleRand htaker _ _ hbtc
  obtain ⟨hfeesMw, houtsMw⟩ := hpaidMw ⟨by decide, by decide, fun value hnamed =>
    (hnamed.unique (hcoins.shared _ rfl)).trans hcoin.valueA⟩
  obtain ⟨hfeesBtc, houtsBtc⟩ := hpaidBtc ⟨by decide, by decide, fun _ h => h⟩
  exact ⟨t, u, _, _, hmw, hbtc, hbtc.sat (lockingPhaseSwapBtc_broadcasts _ _ []), rfl, rfl, hfeesMw,
    houtsMw, hfeesBtc, houtsBtc⟩

/-- The taker of a swap of 1.0125 Grin for 100 satoshis. -/
def sampleCheap : SwapSlate Scalar Scalar :=
  { sampleSlate with
    pubSlate.btc.amount := 100
    prvSlate.btc.inputs := [sampleBtcInput] }

/-- `init` accepts an amount below the fee, the lock is broadcast, and the subtraction of the fee wraps. -/
theorem lockingPhase_fee_exceeds : ∃ t q, OfAccepted sampleCheap ∧
    Steps (lockingPhase exponents (btcExponents []) sampleRand .btc sampleCheap) t q ∧ Broadcast t ∧
    subU64 (btcExponents []).overflowChecks q.mem.pubSlate.btc.amount btcFee = .ok (2 ^ 64 - 400) ∧
    ¬ FeesPaid exponents (btcExponents []) q.mem := by
  obtain ⟨lock, hlock⟩ : ∃ lock, signedLockTransaction (btcExponents [])
      ((btcExponents []).publicKey (createPrivateKey 3))
      ((btcExponents []).publicKey (createPrivateKey 5))
      ((btcExponents []).publicKey (createPrivateKey 7))
      ((btcExponents []).publicKey (createPrivateKey 9)) [sampleBtcInput] 100 700040 = .ok lock :=
    Outcome.exists_ok (by decide +kernel)
  obtain ⟨t, slate, msg, hsteps, hbroadcast, -⟩ := @lockingPhaseSwapBtc_stops _ _ _ _ _ _ _
    exponents (btcExponents []) sampleCheap sampleRand.lockBtc
    ((btcExponents []).publicKey (createPrivateKey 3)) 700000 700040 700040 lock
    (btcExponents_lawful []) (by decide +kernel) (by decide) (by decide) hlock
  have hnew : OfAccepted sampleCheap :=
    @sample_accepted "1012500000" "100" 100 (by decide +kernel) [] [sampleBtcInput]
  have hcoins : CoinsNamed exponents sampleCheap .btc ([] ++ t) slate :=
    hsteps.throughout (lockingPhase_coins (B := btcExponents []) sampleRand hnew .btc)
  have hamount : slate.pubSlate.btc.amount = 100 := hcoins.btc
  refine ⟨t, _, hnew, hsteps, hbroadcast, ?_, fun hpaid => ?_⟩
  · rw [Prog.mem, hamount]
    decide
  · have hlt := leaves_iff.mp hpaid.lock
    rw [Prog.mem, hamount] at hlt
    exact absurd hlt (by decide)

end MwBtcSwap
