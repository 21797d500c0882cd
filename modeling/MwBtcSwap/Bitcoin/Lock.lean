import MwBtcSwap.Bitcoin.Routines

/-! The lock output and how it is spent: with signatures under the receiver's key and the statement
`pub_x`, or with a signature under the refund key by a transaction that is locked past the refund
time. -/

namespace MwBtcSwap.Bitcoin

open Interaction Machine Script

variable {K P : Type} [CommRing K] [AddCommGroup P] [Module K P] {B : BtcLib K P}

variable {recvPk pubX refundPk : PublicKey P} {refundTime : ℤ} {C : Checker} {script : List Instr}

/-! ### Pushes -/

theorem length_scriptInt (n : ℤ) : (scriptInt n).length ≤ 9 := by
  have hmag : ∀ fuel v, (magnitude fuel v).length ≤ fuel + 1 := by
    intro fuel
    induction fuel with
    | zero => simp [magnitude]
    | succ fuel ih =>
      intro v
      simp only [magnitude]
      split
      · simpa using ih (v / 256)
      · simp
  have hsign : ∀ neg bytes, (withSign neg bytes).length ≤ bytes.length + 1 := by
    intro neg bytes
    induction bytes with
    | nil => simp [withSign]
    | cons b bytes ih =>
      cases bytes with
      | nil => simp only [withSign]; split <;> simp
      | cons b' bytes => simpa [withSign] using ih
  rw [scriptInt]
  split
  · simp
  · exact le_trans (hsign _ _) (Nat.succ_le_succ (hmag 7 _))

/-- A number is pushed as a script number, with its own opcode or without. -/
theorem step_pushInt (s : State) (n : ℤ) :
    step C script s (pushInt n) = s.pushItem (scriptInt n) := by
  unfold pushInt
  split_ifs with h1 h2 h3
  · subst h1
    have hnum : scriptInt (-1) = [0x81] := by decide
    simp only [step, stepOp, Option.map_some, State.pushItem, hnum]
    split <;> simp [maxItem]
  · obtain ⟨hlo, hhi⟩ := h2
    have hnum : scriptInt n = [UInt8.ofNat ((n - 1).toNat + 1)] := by
      interval_cases n <;> decide
    simp only [step, stepOp, Option.map_some, State.pushItem, hnum]
    split <;> simp [maxItem]
  · subst h3
    rfl
  · exact step_pushSlice s _

theorem pushnum_wf : ∀ n : Fin 16, 78 < (Opcode.pushnum n).toByte.toNat ∧
    Opcode.ofByte (Opcode.pushnum n).toByte = .pushnum n := by decide

theorem pushInt_wf (n : ℤ) : (pushInt n).Wf := by
  unfold pushInt
  split_ifs with h1 h2 h3
  · exact ⟨by decide, by decide⟩
  · exact pushnum_wf _
  · simp [Instr.Wf]
  · exact pushSlice_wf (by have := length_scriptInt n; omega)

theorem length_pubKeyToBytes (hB : B.Lawful) (pk : PublicKey P) :
    (B.pubKeyToBytes pk).length ≤ 65 := by
  obtain ⟨b, bytes, hbytes, -, hlen⟩ := hB.pubKey_bytes pk
  rw [hbytes, List.length_cons, hlen]
  split <;> omega

/-! ### The lock script -/

theorem lockScript_wf (hB : B.Lawful) : ∀ i ∈ lockScript B recvPk pubX refundPk refundTime, i.Wf := by
  have hkey : ∀ pk, (pushKey B pk).Wf := fun pk =>
    pushSlice_wf (lt_of_le_of_lt (length_pubKeyToBytes hB pk) (by decide))
  intro i hi
  simp only [lockScript, List.mem_cons, List.not_mem_nil, or_false] at hi
  rcases hi with rfl | rfl | rfl | rfl | rfl | rfl | rfl | rfl | rfl | rfl | rfl | rfl | rfl
  all_goals first
    | exact hkey _
    | exact pushInt_wf _
    | exact ⟨by decide, by decide⟩

theorem length_pushSlice_bytes {data : Item} (h : data.length < 76) :
    (pushSlice data).bytes.length = data.length + 1 := by
  simp [pushSlice, h, Instr.bytes]

theorem length_pushInt_bytes (n : ℤ) : (pushInt n).bytes.length ≤ 10 := by
  unfold pushInt
  split_ifs
  · simp [Instr.bytes]
  · simp [Instr.bytes]
  · simp [Instr.bytes]
  · have := length_scriptInt n
    rw [length_pushSlice_bytes (by omega)]
    omega

/-- The lock script fits into an item. -/
theorem length_lockScript (hB : B.Lawful) :
    (assemble (lockScript B recvPk pubX refundPk refundTime)).length ≤ 217 := by
  have hkey : ∀ pk, (pushKey B pk).bytes.length ≤ 66 := by
    intro pk
    have := length_pubKeyToBytes hB pk
    rw [pushKey, length_pushSlice_bytes (by omega)]
    omega
  have hint := length_pushInt_bytes refundTime
  have h1 := hkey refundPk
  have h2 := hkey recvPk
  have h3 := hkey pubX
  have hop : ∀ code, (Instr.op code).bytes.length = 1 := fun _ => rfl
  simp only [assemble, lockScript, List.flatMap_cons, List.flatMap_nil, List.length_append,
    List.length_nil, hop]
  omega

theorem parse_lockScript (hB : B.Lawful) :
    parse (assemble (lockScript B recvPk pubX refundPk refundTime)) =
      some (lockScript B recvPk pubX refundPk refundTime) := parse_assemble (lockScript_wf hB)

/-- The refund time of a script has been reached: it is read as a number, and the checker accepts
it. -/
def LockTimeReached (C : Checker) (refundTime : ℤ) : Prop :=
  ∃ n, readNum 5 (scriptInt refundTime) = some n ∧ 0 ≤ n ∧ C.checkLockTime n = true

/-- What the refund branch accepts: a true item and a signature under the refund key, once the refund
time is reached. -/
def RefundStack (C : Checker) (script : List Instr) (refundKey : Item) (refundTime : ℤ)
    (stack : List Item) : Prop :=
  ∃ c sig rest, stack = c :: sig :: rest ∧ castToBool c = true ∧ LockTimeReached C refundTime ∧
    checkSigs C script [sig] sig refundKey = true

/-- What the other branch accepts: a false item and the signatures under `pub_x` and the receiver's
key, after an empty one. -/
def RedeemStack (C : Checker) (script : List Instr) (recvKey xKey : Item) (stack : List Item) : Prop :=
  ∃ c sigX sigA rest, stack = c :: sigX :: sigA :: [] :: rest ∧ castToBool c = false ∧
    checkSigs C script [sigX, sigA] sigX xKey = true ∧
    checkSigs C script [sigX, sigA] sigA recvKey = true

/-- What the lock script accepts. -/
def LockStack (C : Checker) (script : List Instr) (recvKey xKey refundKey : Item) (refundTime : ℤ)
    (stack : List Item) : Prop :=
  RefundStack C script refundKey refundTime stack ∨ RedeemStack C script recvKey xKey stack

/-- The branch of the refund. -/
def refundBranch (B : BtcLib K P) (refundPk : PublicKey P) (refundTime : ℤ) : List Instr :=
  [pushInt refundTime, .op .cltv, .op .drop, pushKey B refundPk, .op .checksig]

/-- The branch of the receiver. -/
def redeemBranch (B : BtcLib K P) (recvPk pubX : PublicKey P) : List Instr :=
  [.op (.pushnum 1), pushKey B recvPk, pushKey B pubX, .op (.pushnum 1), .op .checkmultisig]

theorem pushKey_plain (hB : B.Lawful) (pk : PublicKey P) : (pushKey B pk).Plain :=
  pushSlice_plain (le_trans (length_pubKeyToBytes hB pk) (by decide))

theorem pushInt_plain (n : ℤ) : (pushInt n).Plain := by
  unfold pushInt
  split_ifs
  · rfl
  · rfl
  · simp [Instr.Plain]
  · exact pushSlice_plain (le_trans (length_scriptInt n) (by decide))

theorem refundBranch_plain (hB : B.Lawful) : ∀ i ∈ refundBranch B refundPk refundTime, i.Plain := by
  intro i hi
  simp only [refundBranch, List.mem_cons, List.not_mem_nil, or_false] at hi
  rcases hi with rfl | rfl | rfl | rfl | rfl
  all_goals first
    | exact pushKey_plain hB _
    | exact pushInt_plain _
    | rfl

theorem redeemBranch_plain (hB : B.Lawful) : ∀ i ∈ redeemBranch B recvPk pubX, i.Plain := by
  intro i hi
  simp only [redeemBranch, List.mem_cons, List.not_mem_nil, or_false] at hi
  rcases hi with rfl | rfl | rfl | rfl | rfl
  all_goals first
    | exact pushKey_plain hB _
    | rfl

/-- The refund branch checks the lock time, and then a signature under the refund key. -/
theorem foldlM_refundBranch (hB : B.Lawful) {stack : List Item} {s : State} :
    (refundBranch B refundPk refundTime).foldlM (step C script) ⟨stack, [true]⟩ = some s ↔
      LockTimeReached C refundTime ∧ ∃ sig rest, stack = sig :: rest ∧
        s = ⟨boolItem (checkSigs C script [sig] sig (B.pubKeyToBytes refundPk)) :: rest, [true]⟩ := by
  have hkey : (B.pubKeyToBytes refundPk).length ≤ maxItem :=
    le_trans (length_pubKeyToBytes hB refundPk) (by decide)
  have hint : (scriptInt refundTime).length ≤ maxItem :=
    le_trans (length_scriptInt refundTime) (by decide)
  have hdrop : ∀ item st, step C script ⟨item :: st, [true]⟩ (.op .drop) = some ⟨st, [true]⟩ :=
    fun _ _ => rfl
  have hsig : ∀ key sig st, step C script ⟨key :: sig :: st, [true]⟩ (.op .checksig) =
      some ⟨boolItem (checkSigs C script [sig] sig key) :: st, [true]⟩ := fun _ _ _ => rfl
  have hnosig : ∀ key, step C script ⟨[key], [true]⟩ (.op .checksig) = none := fun _ => rfl
  by_cases hreached : LockTimeReached C refundTime
  · have hcltv : ∀ st, step C script ⟨scriptInt refundTime :: st, [true]⟩ (.op .cltv) =
        some ⟨scriptInt refundTime :: st, [true]⟩ := by
      obtain ⟨n, hnum, hn⟩ := hreached
      intro st
      simp [step_executed (show Opcode.cltv.isCondition = false from rfl), stepOp, hnum, hn]
    cases stack with
    | nil =>
      simp [refundBranch, pushKey, step_pushInt, step_pushSlice, pushItem_executed hint,
        pushItem_executed hkey, hcltv, hdrop, hnosig]
    | cons sig rest =>
      simp only [refundBranch, pushKey, List.foldlM_cons, List.foldlM_nil, step_pushInt,
        step_pushSlice, pushItem_executed hint, pushItem_executed hkey, hcltv, hdrop, hsig,
        Option.bind_eq_bind, Option.bind_some, Option.pure_def, Option.some.injEq]
      constructor
      · rintro rfl
        exact ⟨hreached, sig, rest, rfl, rfl⟩
      · rintro ⟨-, _, _, hcons, rfl⟩
        cases hcons
        rfl
  · have hcltv : ∀ st, step C script ⟨scriptInt refundTime :: st, [true]⟩ (.op .cltv) = none := by
      intro st
      rw [step_executed rfl, Option.map_eq_none_iff]
      simp only [stepOp, Option.bind_eq_bind, Option.bind_eq_none_iff]
      intro n hnum
      exact if_neg fun hn => hreached ⟨n, hnum, hn⟩
    simp [refundBranch, step_pushInt, pushItem_executed hint, hcltv, hreached]

theorem matchSigs_two {check : Item → Item → Bool} {s₁ s₂ k₁ k₂ : Item} :
    matchSigs check [s₁, s₂] [k₁, k₂] = (check s₁ k₁ && check s₂ k₂) := by
  cases h₁ : check s₁ k₁ <;> cases h₂ : check s₁ k₂ <;> cases h₃ : check s₂ k₂ <;>
    simp [matchSigs, h₁, h₂, h₃]

theorem popItems_two {bound : ℕ} (h : 2 ≤ bound) (a b : Item) (stack : List Item) :
    popItems bound ([2] :: a :: b :: stack) = some ([a, b], stack) := by
  have hnum : readNum 4 [2] = some 2 := by decide
  have hcond : (0 : ℤ) ≤ 2 ∧ (2 : ℤ).toNat ≤ bound ∧ (2 : ℤ).toNat ≤ (a :: b :: stack).length :=
    ⟨by decide, h, by simp⟩
  simp only [popItems, hnum, Option.bind_eq_bind, Option.bind_some, if_pos hcond]
  rfl

/-- Two of two keys: the two signatures, and an empty item before them. -/
theorem multisig_two {k₁ k₂ : Item} {stack : List Item} {r : Bool × List Item} :
    multisig C script ([2] :: k₁ :: k₂ :: [2] :: stack) = some r ↔
      ∃ s₁ s₂ rest, stack = s₁ :: s₂ :: [] :: rest ∧
        r = (checkSigs C script [s₁, s₂] s₁ k₁ && checkSigs C script [s₁, s₂] s₂ k₂, rest) := by
  have hnum : readNum 4 [2] = some 2 := by decide
  simp only [multisig, popItems_two (show 2 ≤ 20 by decide), Option.bind_eq_bind, Option.bind_some]
  match stack with
  | [] => simp [popItems, hnum]
  | [_] => simp [popItems, hnum]
  | [s₁, s₂] => simp [popItems_two]
  | s₁ :: s₂ :: (b :: dummy) :: rest => simp [popItems_two]
  | s₁ :: s₂ :: [] :: rest =>
    simp only [List.length_cons, List.length_nil, popItems_two le_rfl, Option.bind_some, matchSigs_two,
      Option.some.injEq]
    constructor
    · rintro rfl
      exact ⟨s₁, s₂, rest, rfl, rfl⟩
    · rintro ⟨_, _, _, hcons, rfl⟩
      cases hcons
      rfl

/-- The other branch checks a signature under `pub_x` and one under the receiver's key. -/
theorem foldlM_redeemBranch (hB : B.Lawful) {stack : List Item} {s : State} :
    (redeemBranch B recvPk pubX).foldlM (step C script) ⟨stack, [true]⟩ = some s ↔
      ∃ sigX sigA rest, stack = sigX :: sigA :: [] :: rest ∧
        s = ⟨boolItem (checkSigs C script [sigX, sigA] sigX (B.pubKeyToBytes pubX) &&
          checkSigs C script [sigX, sigA] sigA (B.pubKeyToBytes recvPk)) :: rest, [true]⟩ := by
  have hkey : ∀ pk, (B.pubKeyToBytes pk).length ≤ maxItem := fun pk =>
    le_trans (length_pubKeyToBytes hB pk) (by decide)
  have htwo : ∀ st, step C script ⟨st, [true]⟩ (.op (.pushnum 1)) = some ⟨[2] :: st, [true]⟩ :=
    fun _ => rfl
  have hmulti : ∀ st, step C script ⟨st, [true]⟩ (.op .checkmultisig) =
      (multisig C script st).map fun r => ⟨boolItem r.1 :: r.2, [true]⟩ := by
    intro st
    rw [step_executed rfl]
    cases h : multisig C script st <;> simp [stepOp, h]
  simp only [redeemBranch, pushKey, List.foldlM_cons, List.foldlM_nil, step_pushSlice, htwo,
    pushItem_executed (hkey _), Option.bind_eq_bind, Option.bind_some, hmulti, Option.pure_def,
    Option.bind_fun_some, Option.map_eq_some_iff, multisig_two]
  constructor
  · rintro ⟨_, ⟨sigX, sigA, rest, rfl, rfl⟩, rfl⟩
    exact ⟨sigX, sigA, rest, rfl, rfl⟩
  · rintro ⟨sigX, sigA, rest, rfl, rfl⟩
    exact ⟨_, ⟨sigX, sigA, rest, rfl, rfl⟩, rfl⟩

theorem accepts_boolItem (b : Bool) (stack : List Item) : accepts (boolItem b :: stack) = b :=
  castToBool_boolItem b

/-- The lock script accepts these stacks and no others. -/
theorem eval_lockScript (hB : B.Lawful) (stack : List Item) :
    (eval C (lockScript B recvPk pubX refundPk refundTime) stack).any accepts = true ↔
      LockStack C (lockScript B recvPk pubX refundPk refundTime) (B.pubKeyToBytes recvPk)
        (B.pubKeyToBytes pubX) (B.pubKeyToBytes refundPk) refundTime stack := by
  have hsplit : lockScript B recvPk pubX refundPk refundTime =
      .op .opIf :: (refundBranch B refundPk refundTime ++ .op .opElse ::
        (redeemBranch B recvPk pubX ++ [.op .opEndif])) := rfl
  cases stack with
  | nil => simp [eval, lockScript, step, State.openBranch, State.executed, LockStack, RefundStack,
      RedeemStack]
  | cons c stack =>
    have heval : ∀ S, (List.foldlM (step C S) ⟨c :: stack, []⟩
        (lockScript B recvPk pubX refundPk refundTime)) =
        ((if castToBool c then refundBranch B refundPk refundTime
          else redeemBranch B recvPk pubX).foldlM (step C S) ⟨stack, [true]⟩).map
            fun s => ⟨s.stack, []⟩ := by
      intro S
      rw [hsplit]
      exact foldlM_opIf_opElse (refundBranch_plain hB) (redeemBranch_plain hB)
    generalize lockScript B recvPk pubX refundPk refundTime = S at heval
    have hany : (eval C S (c :: stack)).any accepts = true ↔
        ∃ s, (if castToBool c then refundBranch B refundPk refundTime
          else redeemBranch B recvPk pubX).foldlM (step C S) ⟨stack, [true]⟩ = some s ∧
            accepts s.stack = true := by
      rw [eval, heval]
      cases (if castToBool c then refundBranch B refundPk refundTime
        else redeemBranch B recvPk pubX).foldlM (step C S) ⟨stack, [true]⟩ <;> simp
    rw [hany]
    cases hc : castToBool c with
    | true =>
      simp only [if_true, foldlM_refundBranch hB, LockStack, RefundStack, RedeemStack]
      constructor
      · rintro ⟨_, ⟨hreached, sig, rest, rfl, rfl⟩, hacc⟩
        rw [accepts_boolItem] at hacc
        exact .inl ⟨c, sig, rest, rfl, hc, hreached, hacc⟩
      · rintro (⟨_, sig, rest, hcons, -, hreached, hsig⟩ | ⟨_, _, _, _, hcons, hfalse, -⟩)
        · cases hcons
          exact ⟨_, ⟨hreached, sig, rest, rfl, rfl⟩, by rw [accepts_boolItem, hsig]⟩
        · cases hcons
          rw [hc] at hfalse
          cases hfalse
    | false =>
      simp only [Bool.false_eq_true, if_false, foldlM_redeemBranch hB, LockStack, RefundStack,
        RedeemStack]
      constructor
      · rintro ⟨_, ⟨sigX, sigA, rest, rfl, rfl⟩, hacc⟩
        rw [accepts_boolItem, Bool.and_eq_true] at hacc
        exact .inr ⟨c, sigX, sigA, rest, rfl, hc, hacc⟩
      · rintro (⟨_, _, _, hcons, htrue, -⟩ | ⟨_, sigX, sigA, rest, hcons, -, hX, hA⟩)
        · cases hcons
          rw [hc] at htrue
          cases htrue
        · cases hcons
          exact ⟨_, ⟨sigX, sigA, rest, rfl, rfl⟩, by rw [accepts_boolItem, hX, hA]; rfl⟩

/-! ### Transactions that spend the output -/

theorem evalBytes_lockScript (hB : B.Lawful) (stack : List Item) :
    evalBytes C (assemble (lockScript B recvPk pubX refundPk refundTime)) stack =
      eval C (lockScript B recvPk pubX refundPk refundTime) stack := by
  have hmax : ¬ maxScript < (assemble (lockScript B recvPk pubX refundPk refundTime)).length :=
    not_lt.mpr (le_trans (length_lockScript hB) (by decide))
  simp only [evalBytes, hmax, if_false, parse_lockScript hB, Option.bind_eq_bind, Option.bind_some]

/-- The script of an input pushes the lock script over a stack. -/
def PushesLock (B : BtcLib K P) (recvPk pubX refundPk : PublicKey P) (refundTime : ℤ)
    (tx : Transaction) (ix : ℕ) (stack : List Item) : Prop :=
  ∃ i, tx.input[ix]? = some i ∧ pushOnly i.scriptSig = true ∧
    evalBytes (B.checker tx ix) i.scriptSig [] =
      some (lockPubScript B recvPk pubX refundPk refundTime false :: stack)

/-- An input spends the lock output through the refund branch. -/
def RefundSpend (B : BtcLib K P) (recvPk pubX refundPk : PublicKey P) (refundTime : ℤ)
    (tx : Transaction) (ix : ℕ) : Prop :=
  ∃ stack, PushesLock B recvPk pubX refundPk refundTime tx ix stack ∧
    RefundStack (B.checker tx ix) (lockScript B recvPk pubX refundPk refundTime)
      (B.pubKeyToBytes refundPk) refundTime stack

/-- An input spends the lock output through the branch of the receiver. -/
def RedeemSpend (B : BtcLib K P) (recvPk pubX refundPk : PublicKey P) (refundTime : ℤ)
    (tx : Transaction) (ix : ℕ) : Prop :=
  ∃ stack, PushesLock B recvPk pubX refundPk refundTime tx ix stack ∧
    RedeemStack (B.checker tx ix) (lockScript B recvPk pubX refundPk refundTime)
      (B.pubKeyToBytes recvPk) (B.pubKeyToBytes pubX) stack

/-- Both branches spend the lock output. -/
theorem satisfies_of_spend (hB : B.Lawful) {tx : Transaction} {ix : ℕ}
    (h : RefundSpend B recvPk pubX refundPk refundTime tx ix ∨
      RedeemSpend B recvPk pubX refundPk refundTime tx ix) :
    B.satisfies tx ix (lockPubScript B recvPk pubX refundPk refundTime true) = true := by
  obtain ⟨stack, ⟨i, hi, hpush, hstack⟩, hlock⟩ : ∃ stack,
      PushesLock B recvPk pubX refundPk refundTime tx ix stack ∧
        LockStack (B.checker tx ix) (lockScript B recvPk pubX refundPk refundTime)
          (B.pubKeyToBytes recvPk) (B.pubKeyToBytes pubX) (B.pubKeyToBytes refundPk) refundTime
          stack := by
    obtain ⟨stack, hp, hs⟩ | ⟨stack, hp, hs⟩ := h
    · exact ⟨stack, hp, .inl hs⟩
    · exact ⟨stack, hp, .inr hs⟩
  simp only [lockPubScript, if_true, Bool.false_eq_true, if_false] at hstack ⊢
  rw [BtcLib.satisfies, Option.any_eq_true]
  refine ⟨i, hi, ?_⟩
  rw [p2sh, verifyScript_payToScriptHash (hB.hash160_length _)]
  refine ⟨hpush, _, stack, hstack, rfl, ?_⟩
  rwa [evalBytes_lockScript hB, eval_lockScript hB]

/-- Nothing else spends the lock output, when no other script has the hash of the lock script. -/
theorem spend_of_satisfies (hB : B.Lawful)
    (hbind : B.Binds (lockPubScript B recvPk pubX refundPk refundTime false)) {tx : Transaction}
    {ix : ℕ}
    (h : B.satisfies tx ix (lockPubScript B recvPk pubX refundPk refundTime true) = true) :
    RefundSpend B recvPk pubX refundPk refundTime tx ix ∨
      RedeemSpend B recvPk pubX refundPk refundTime tx ix := by
  simp only [lockPubScript, if_true, Bool.false_eq_true, if_false] at hbind h
  rw [BtcLib.satisfies, Option.any_eq_true] at h
  obtain ⟨i, hi, hverify⟩ := h
  rw [p2sh, verifyScript_payToScriptHash (hB.hash160_length _)] at hverify
  obtain ⟨hpush, redeem, stack, hstack, hhash, haccept⟩ := hverify
  obtain rfl := hbind redeem hhash
  rw [evalBytes_lockScript hB, eval_lockScript hB] at haccept
  obtain hrefund | hredeem := haccept
  · exact .inl ⟨stack, ⟨i, hi, hpush, hstack⟩, hrefund⟩
  · exact .inr ⟨stack, ⟨i, hi, hpush, hstack⟩, hredeem⟩

section

omit [CommRing K] [AddCommGroup P] [Module K P]

/-- The lock time of a transaction has reached the operand of a script: it is a number of at most five
bytes that is not negative. -/
theorem lockTimeReached_iff {tx : Transaction} {ix : ℕ} (h : refundTime.natAbs < 256 ^ 8) :
    LockTimeReached (B.checker tx ix) refundTime ↔
      0 ≤ refundTime ∧ refundTime < 2 ^ 39 ∧ tx.checkLockTime ix refundTime = true := by
  simp only [LockTimeReached, readNum_scriptInt h]
  constructor
  · rintro ⟨n, hn, hpos, hlock⟩
    split at hn
    · cases hn
      exact ⟨hpos, by omega, hlock⟩
    · cases hn
  · rintro ⟨hpos, hlt, hlock⟩
    exact ⟨refundTime, if_pos (by omega), hpos, hlock⟩

/-- What a refund shows of its transaction: its lock time is of the same kind as the refund time and
not below it, and its input looks at it. -/
theorem RefundSpend.lockTime (hrange : refundTime.natAbs < 256 ^ 8) {tx : Transaction} {ix : ℕ}
    (h : RefundSpend B recvPk pubX refundPk refundTime tx ix) :
    (tx.lockTime < lockTimeThreshold ↔ refundTime < lockTimeThreshold) ∧
      refundTime ≤ tx.lockTime ∧ ∃ i, tx.input[ix]? = some i ∧ i.sequence ≠ finalSequence := by
  obtain ⟨_, -, _, _, _, -, -, hreached, -⟩ := h
  obtain ⟨-, -, hcheck⟩ := (lockTimeReached_iff hrange).mp hreached
  simp only [Transaction.checkLockTime, Bool.and_eq_true, decide_eq_true_eq,
    Option.any_eq_true] at hcheck
  exact ⟨hcheck.1.1, hcheck.1.2, hcheck.2⟩

/-- The script of an input pushes an item. -/
def Carries (B : BtcLib K P) (tx : Transaction) (ix : ℕ) (item : Item) : Prop :=
  ∃ i stack, tx.input[ix]? = some i ∧ evalBytes (B.checker tx ix) i.scriptSig [] = some stack ∧
    item ∈ stack

/-- An input carries what the lock asks for: valid signatures under the receiver's key and the
statement, or one under the refund key in a transaction that is locked until the refund time. -/
def Authorized (B : BtcLib K P) (recvPk pubX refundPk : PublicKey P) (refundTime : ℤ)
    (tx : Transaction) (ix : ℕ) : Prop :=
  (∃ sigA sigX, Carries B tx ix sigA ∧ Carries B tx ix sigX ∧
    checkSigs (B.checker tx ix) (lockScript B recvPk pubX refundPk refundTime) [sigX, sigA] sigA
      (B.pubKeyToBytes recvPk) = true ∧
    checkSigs (B.checker tx ix) (lockScript B recvPk pubX refundPk refundTime) [sigX, sigA] sigX
      (B.pubKeyToBytes pubX) = true) ∨
  ∃ sig, Carries B tx ix sig ∧
    checkSigs (B.checker tx ix) (lockScript B recvPk pubX refundPk refundTime) [sig] sig
      (B.pubKeyToBytes refundPk) = true ∧
    (tx.lockTime < lockTimeThreshold ↔ refundTime < lockTimeThreshold) ∧ refundTime ≤ tx.lockTime ∧
    ∃ i, tx.input[ix]? = some i ∧ i.sequence ≠ finalSequence

theorem PushesLock.carries {tx : Transaction} {ix : ℕ} {stack : List Item} {item : Item}
    (h : PushesLock B recvPk pubX refundPk refundTime tx ix stack) (hitem : item ∈ stack) :
    Carries B tx ix item := by
  obtain ⟨i, hi, -, hstack⟩ := h
  exact ⟨i, _, hi, hstack, List.mem_cons_of_mem _ hitem⟩

end

/-- Whatever satisfies the lock output carries this. -/
theorem authorized_of_satisfies (hB : B.Lawful)
    (hbind : B.Binds (lockPubScript B recvPk pubX refundPk refundTime false))
    (hrange : refundTime.natAbs < 256 ^ 8) {tx : Transaction} {ix : ℕ}
    (h : B.satisfies tx ix (lockPubScript B recvPk pubX refundPk refundTime true) = true) :
    Authorized B recvPk pubX refundPk refundTime tx ix := by
  obtain hrefund | hredeem := spend_of_satisfies hB hbind h
  · obtain ⟨hkind, hle, hseq⟩ := hrefund.lockTime hrange
    obtain ⟨_, hpush, c, sig, rest, rfl, -, -, hsig⟩ := hrefund
    exact .inr ⟨sig, hpush.carries (by simp), hsig, hkind, hle, hseq⟩
  · obtain ⟨_, hpush, c, sigX, sigA, rest, rfl, -, hX, hA⟩ := hredeem
    exact .inl ⟨sigA, sigX, hpush.carries (by simp), hpush.carries (by simp), hA, hX⟩

/-- The refund time is in the past of a block: heights are compared with its height, times with its
median time past.  A time of 0 locks nothing. -/
def RefundTimePassed (refundTime : ℤ) (height mtp : ℕ) : Prop :=
  refundTime ≤ 0 ∨ refundTime < if refundTime < lockTimeThreshold then (height : ℤ) else mtp

/-- Time goes on. -/
theorem RefundTimePassed.mono {height height' mtp mtp' : ℕ} (hh : height ≤ height')
    (hm : mtp ≤ mtp') (h : RefundTimePassed refundTime height mtp) :
    RefundTimePassed refundTime height' mtp' := by
  unfold RefundTimePassed at h ⊢
  split at h <;> omega

omit [CommRing K] [AddCommGroup P] [Module K P] in
/-- A refund can be in a block only when the refund time has passed. -/
theorem RefundSpend.timePassed (hrange : refundTime.natAbs < 256 ^ 8) {tx : Transaction}
    {ix height mtp : ℕ} (h : RefundSpend B recvPk pubX refundPk refundTime tx ix)
    (hfinal : tx.IsFinal height mtp) : RefundTimePassed refundTime height mtp := by
  obtain ⟨hkind, hle, i, hi, hseq⟩ := h.lockTime hrange
  obtain hzero | hlt | hall := hfinal
  · exact .inl (by omega)
  · right
    by_cases hheight : refundTime < lockTimeThreshold
    · rw [if_pos hheight]
      rw [if_pos (hkind.mpr hheight)] at hlt
      omega
    · rw [if_neg hheight]
      rw [if_neg fun hn => hheight (hkind.mp hn)] at hlt
      omega
  · exact (hseq (hall i (List.mem_of_getElem? hi))).elim

/-- A number below `2 ^ 39` takes at most five bytes. -/
theorem length_scriptInt_of_lt {n : ℤ} (h : n.natAbs < 2 ^ 39) : (scriptInt n).length < 9 := by
  by_cases h0 : n = 0
  · simp [h0, scriptInt]
  · obtain ⟨k, hlen, -, -, hmin⟩ := withSign_magnitude (decide (n < 0)) (Int.natAbs_pos.mpr h0)
      (show n.natAbs < 256 ^ (7 + 1) by omega)
    rw [scriptInt, if_neg h0, hlen]
    obtain rfl | hle := hmin
    · omega
    · by_contra hk
      have hpow : 256 ^ 6 ≤ 256 ^ (k - 1) := Nat.pow_le_pow_right (by omega) (by omega)
      omega

/-! ### Signatures of the program -/

theorem blank_withScriptSig (tx : Transaction) (ix : ℕ) (scriptSig : List UInt8) :
    (tx.withScriptSig ix scriptSig).blank = tx.blank := by
  have hinput : (tx.input.mapIdx fun i inp => if i = ix then { inp with scriptSig } else inp).map
      (fun i => ({ i with scriptSig := [], witness := [] } : TxIn)) =
      tx.input.map fun i => { i with scriptSig := [], witness := [] } := by
    refine List.ext_getElem (by simp) fun n h₁ h₂ => ?_
    simp only [List.getElem_map, List.getElem_mapIdx]
    split <;> rfl
  simp only [Transaction.blank, Transaction.withScriptSig, hinput]

/-- A signature of the program is valid for the transaction with any input scripts. -/
theorem checkSig_signInput (hB : B.Lawful) {tx tx' : Transaction} {ix : ℕ} {code : List UInt8}
    {sk : PrivateKey K} (hk : sk.key ≠ 0) (hblank : tx'.blank = tx.blank) :
    B.checkSig tx' ix (signInput B tx ix code sk) (B.pubKeyToBytes (B.publicKey sk)) code = true := by
  simp only [BtcLib.checkSig, signInput, serializeSigDerWithSighash, List.getLast?_append,
    List.getLast?_singleton, Option.some_or, List.dropLast_concat, BtcLib.sigHash, hblank]
  exact hB.sign_verifies sk _ hk

/-- The form of a signature of the program. -/
theorem signInput_bytes (hB : B.Lawful) (tx : Transaction) (ix : ℕ) (code : List UInt8)
    (sk : PrivateKey K) :
    ∃ bytes, signInput B tx ix code sk = 0x30 :: bytes ∧ 8 ≤ bytes.length ∧ bytes.length < 73 := by
  obtain ⟨bytes, hsign, hlo, hhi⟩ := hB.sign_bytes (B.sigHash tx ix code sighashAll) sk.key
  refine ⟨bytes ++ [sighashAll], ?_, ?_, ?_⟩
  · rw [signInput, serializeSigDerWithSighash, hsign, List.cons_append]
  · simp
    omega
  · simp
    omega

theorem pushInt_bytes_le (n : ℤ) : (pushInt n).bytes.length ≤ (scriptInt n).length + 1 := by
  unfold pushInt
  split_ifs
  · simp [Instr.bytes]
  · simp [Instr.bytes]
  · simp [Instr.bytes]
  · have := length_scriptInt n
    rw [length_pushSlice_bytes (by omega)]

/-- No signature of the program is a push of the lock script. -/
theorem findAndDelete_lockScript (hB : B.Lawful) (hshort : (scriptInt refundTime).length < 9)
    {sig bytes : List UInt8} (hsig : sig = 0x30 :: bytes) (hlo : 8 ≤ bytes.length)
    (hhi : bytes.length < 73) :
    findAndDelete sig (lockScript B recvPk pubX refundPk refundTime) =
      lockScript B recvPk pubX refundPk refundTime := by
  have hpush : (pushSlice sig).bytes = UInt8.ofNat sig.length :: 0x30 :: bytes := by
    have hlen : sig.length < 76 := by
      rw [hsig, List.length_cons]
      omega
    rw [pushSlice, if_pos hlen, Instr.bytes, hsig]
  have hlength : (pushSlice sig).bytes.length = bytes.length + 2 := by
    rw [hpush]
    simp
  have hop : ∀ code, (Instr.op code).bytes ≠ (pushSlice sig).bytes := by
    intro code heq
    have := congrArg List.length heq
    rw [hlength] at this
    simp only [Instr.bytes, List.length_singleton] at this
    omega
  have hint : (pushInt refundTime).bytes ≠ (pushSlice sig).bytes := by
    intro heq
    have hle := pushInt_bytes_le refundTime
    rw [heq, hlength] at hle
    omega
  have hkey : ∀ pk, (pushKey B pk).bytes ≠ (pushSlice sig).bytes := by
    intro pk heq
    obtain ⟨b, rest, hpk, hb, -⟩ := hB.pubKey_bytes pk
    have hlen := length_pubKeyToBytes hB pk
    rw [pushKey, pushSlice, if_pos (by omega), Instr.bytes, hpush, hpk] at heq
    simp only [List.cons.injEq] at heq
    exact hb heq.2.1
  refine List.filter_eq_self.mpr fun i hi => ?_
  simp only [lockScript, List.mem_cons, List.not_mem_nil, or_false] at hi
  rcases hi with rfl | rfl | rfl | rfl | rfl | rfl | rfl | rfl | rfl | rfl | rfl | rfl | rfl
  all_goals first
    | exact decide_eq_true (hop _)
    | exact decide_eq_true (hkey _)
    | exact decide_eq_true hint

/-! ### Input scripts of the program -/

theorem length_pushSlice_bytes_le {data : Item} (h : data.length ≤ 217) :
    (pushSlice data).bytes.length ≤ 219 := by
  unfold pushSlice
  split_ifs
  · simp only [Instr.bytes, List.length_cons]
    omega
  · simp only [Instr.bytes, List.length_cons, List.length_append, Bytes.length_toLE]
    omega
  · omega
  · omega

theorem pushes_nil : (Instr.push []).Pushes C [] :=
  ⟨by simp [Instr.Wf], rfl, fun _ _ => rfl⟩

theorem pushes_of_length {data : Item} (h : data.length ≤ 217) : (pushSlice data).Pushes C data :=
  pushSlice_pushes (le_trans h (by decide))

/-- The input script of the redeemer leaves its signatures below the lock script. -/
theorem evalBytes_redeemScript {sigA sigX lock : List UInt8} (hA : sigA.length ≤ 217)
    (hX : sigX.length ≤ 217) (hl : lock.length ≤ 217) :
    pushOnly (assemble (redeemScript sigA sigX lock)) = true ∧
      evalBytes C (assemble (redeemScript sigA sigX lock)) [] = some [lock, [], sigX, sigA, []] := by
  have hpushes : List.Forall₂ (Instr.Pushes C) (redeemScript sigA sigX lock)
      [[], sigA, sigX, [], lock] :=
    .cons pushes_nil (.cons (pushes_of_length hA) (.cons (pushes_of_length hX)
      (.cons pushes_nil (.cons (pushes_of_length hl) .nil))))
  refine evalBytes_pushes ?_ hpushes
  have h1 := length_pushSlice_bytes_le hA
  have h2 := length_pushSlice_bytes_le hX
  have h3 := length_pushSlice_bytes_le hl
  have hnil : (Instr.push []).bytes.length = 1 := rfl
  simp only [maxScript, assemble, redeemScript, List.flatMap_cons, List.flatMap_nil,
    List.length_append, List.length_nil, hnil]
  omega

/-- The input script of the refund leaves a true item over the signature. -/
theorem evalBytes_refundScript {sig lock : List UInt8} (hs : sig.length ≤ 217)
    (hl : lock.length ≤ 217) :
    pushOnly (assemble (refundScript sig lock)) = true ∧
      evalBytes C (assemble (refundScript sig lock)) [] = some [lock, [1], sig] := by
  have hone : (pushInt 1).Pushes C [1] := ⟨pushInt_wf 1, rfl, fun _ _ => rfl⟩
  have hpushes : List.Forall₂ (Instr.Pushes C) (refundScript sig lock) [sig, [1], lock] :=
    .cons (pushes_of_length hs) (.cons hone (.cons (pushes_of_length hl) .nil))
  refine evalBytes_pushes ?_ hpushes
  have h1 := length_pushSlice_bytes_le hs
  have h2 := length_pushSlice_bytes_le hl
  have h3 := length_pushInt_bytes 1
  simp only [maxScript, assemble, refundScript, List.flatMap_cons, List.flatMap_nil,
    List.length_append, List.length_nil]
  omega

section Spend

variable {skA x skB : PrivateKey K} {tx : Transaction} {i : TxIn}

/-- The checks of several signatures of the program on the lock script. -/
theorem checkSigs_lockScript (hB : B.Lawful) (hshort : (scriptInt refundTime).length < 9)
    {tx' : Transaction} {ix : ℕ} {sk : PrivateKey K} (hk : sk.key ≠ 0)
    (hblank : tx'.blank = tx.blank) {sigs : List Item}
    (hsigs : ∀ sig ∈ sigs, ∃ code sk, sig = signInput B tx ix code sk) :
    checkSigs (B.checker tx' ix) (lockScript B recvPk pubX refundPk refundTime) sigs
      (signInput B tx ix (lockPubScript B recvPk pubX refundPk refundTime false) sk)
      (B.pubKeyToBytes (B.publicKey sk)) = true := by
  have hcode : sigs.foldl (fun script sig => findAndDelete sig script)
      (lockScript B recvPk pubX refundPk refundTime) =
      lockScript B recvPk pubX refundPk refundTime := by
    induction sigs with
    | nil => rfl
    | cons sig sigs ih =>
      obtain ⟨code, key, rfl⟩ := hsigs sig List.mem_cons_self
      obtain ⟨bytes, hbytes, hlo, hhi⟩ := signInput_bytes hB tx ix code key
      rw [List.foldl_cons, findAndDelete_lockScript hB hshort hbytes hlo hhi]
      exact ih fun sig hsig => hsigs sig (List.mem_cons_of_mem _ hsig)
  rw [checkSigs, hcode]
  exact checkSig_signInput hB hk hblank

theorem length_signInput (hB : B.Lawful) (tx : Transaction) (ix : ℕ) (code : List UInt8)
    (sk : PrivateKey K) : (signInput B tx ix code sk).length ≤ 217 := by
  obtain ⟨bytes, hbytes, -, hhi⟩ := signInput_bytes hB tx ix code sk
  rw [hbytes, List.length_cons]
  omega

theorem withScriptSig_input (htx : tx.input = [i]) (scriptSig : List UInt8) :
    (tx.withScriptSig 0 scriptSig).input[0]? = some { i with scriptSig } := by
  simp [Transaction.withScriptSig, htx]

/-- The receiver's transaction, signed with its key and the witness, spends the lock output. -/
theorem redeemSpend_sign (hB : B.Lawful) (hshort : (scriptInt refundTime).length < 9)
    (hA : skA.key ≠ 0) (hx : x.key ≠ 0) (htx : tx.input = [i]) :
    RedeemSpend B (B.publicKey skA) (B.publicKey x) refundPk refundTime
      (signLockTransactionRedeemer B tx 0
        (lockPubScript B (B.publicKey skA) (B.publicKey x) refundPk refundTime false) skA x) 0 := by
  have hlen : (lockPubScript B (B.publicKey skA) (B.publicKey x) refundPk refundTime
      false).length ≤ 217 := length_lockScript hB
  generalize hlock : lockPubScript B (B.publicKey skA) (B.publicKey x) refundPk refundTime false =
    lock at hlen ⊢
  obtain ⟨hpush, hstack⟩ := evalBytes_redeemScript (C := B.checker
    (signLockTransactionRedeemer B tx 0 lock skA x) 0) (length_signInput hB tx 0 lock skA)
    (length_signInput hB tx 0 lock x) hlen
  have hsigs : ∀ sig ∈ [signInput B tx 0 lock x, signInput B tx 0 lock skA],
      ∃ code sk, sig = signInput B tx 0 code sk := by
    intro sig hsig
    simp only [List.mem_cons, List.not_mem_nil, or_false] at hsig
    rcases hsig with rfl | rfl <;> exact ⟨_, _, rfl⟩
  subst hlock
  exact ⟨_, ⟨_, withScriptSig_input htx _, hpush, hstack⟩, _, _, _, _, rfl, rfl,
    checkSigs_lockScript hB hshort hx (blank_withScriptSig _ _ _) hsigs,
    checkSigs_lockScript hB hshort hA (blank_withScriptSig _ _ _) hsigs⟩

/-- The refund transaction, signed with the refund key, spends the lock output when its lock time is
the refund time and its input looks at it. -/
theorem refundSpend_sign (hB : B.Lawful) (hshort : (scriptInt refundTime).length < 9)
    (hk : skB.key ≠ 0) (htx : tx.input = [i]) (hseq : i.sequence ≠ finalSequence)
    (htime : refundTime = tx.lockTime) (hbound : tx.lockTime < 2 ^ 32) :
    RefundSpend B recvPk pubX (B.publicKey skB) refundTime
      (signLockTransactionRefund B tx 0
        (lockPubScript B recvPk pubX (B.publicKey skB) refundTime false) skB) 0 := by
  have hlen : (lockPubScript B recvPk pubX (B.publicKey skB) refundTime false).length ≤ 217 :=
    length_lockScript hB
  generalize hlock : lockPubScript B recvPk pubX (B.publicKey skB) refundTime false = lock
    at hlen ⊢
  obtain ⟨hpush, hstack⟩ := evalBytes_refundScript (C := B.checker
    (signLockTransactionRefund B tx 0 lock skB) 0) (length_signInput hB tx 0 lock skB) hlen
  subst hlock
  refine ⟨_, ⟨_, withScriptSig_input htx _, hpush, hstack⟩, _, _, _, rfl, rfl, ?_, ?_⟩
  · refine (lockTimeReached_iff (by omega)).mpr ⟨by omega, by omega, ?_⟩
    rw [signLockTransactionRefund, Transaction.checkLockTime, withScriptSig_input htx]
    simp [Transaction.withScriptSig, htime, hseq]
  · refine checkSigs_lockScript hB hshort hk (blank_withScriptSig _ _ _) fun sig hsig => ?_
    rw [List.mem_singleton] at hsig
    exact ⟨_, _, hsig⟩

end Spend

end MwBtcSwap.Bitcoin
