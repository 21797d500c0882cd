import MwBtcSwap.Lib.Bytes
import Mathlib.Data.Int.Notation
import Mathlib.Tactic.IntervalCases

/-! Bitcoin scripts: their bytes, script numbers, and the evaluation of the opcodes that pay to a key, to
a script hash, to several keys or after a lock time.  The signature of a transaction, its lock time and
the hash function come from a `Checker`.  A script with any other opcode fails here, and the limits on
the number of opcodes and of stack items are left out: more scripts are accepted that way, not fewer. -/

namespace Script

/-- A stack item. -/
abbrev Item := List UInt8

/-! ### Script numbers -/

/-- The bytes of a number, lowest first, without leading zeros: the loop of `build_scriptint`, for
numbers of at most `fuel + 1` bytes. -/
def magnitude : ℕ → ℕ → List UInt8
  | 0, v => [UInt8.ofNat v]
  | fuel + 1, v =>
    if 255 < v then UInt8.ofNat (v % 256) :: magnitude fuel (v / 256) else [UInt8.ofNat v]

/-- The sign goes into the highest bit; when that is taken, into a further byte. -/
def withSign (neg : Bool) : List UInt8 → List UInt8
  | [] => []
  | [b] =>
    if 128 ≤ b.toNat then [b, if neg then 0x80 else 0]
    else [if neg then UInt8.ofNat (b.toNat + 128) else b]
  | b :: bytes => b :: withSign neg bytes

/-- The bytes of a script number of at most eight bytes of magnitude. -/
def scriptInt (n : ℤ) : List UInt8 :=
  if n = 0 then [] else withSign (decide (n < 0)) (magnitude 7 n.natAbs)

/-- The number of a byte string: the highest bit is the sign. -/
def numValue : List UInt8 → ℤ
  | [] => 0
  | b :: bytes =>
    let v := Bytes.ofLE (b :: bytes)
    let top := 128 * 256 ^ bytes.length
    if top ≤ v then -((v - top : ℕ) : ℤ) else v

/-- A number operand of at most `size` bytes. -/
def readNum (size : ℕ) (item : Item) : Option ℤ :=
  if item.length ≤ size then some (numValue item) else none

theorem magnitude_ne_nil (fuel v : ℕ) : magnitude fuel v ≠ [] := by
  cases fuel with
  | zero => simp [magnitude]
  | succ fuel => simp only [magnitude]; split <;> simp

theorem toNat_ofNat_of_lt {v : ℕ} (h : v < 256) : (UInt8.ofNat v).toNat = v := by
  rw [UInt8.toNat_ofNat', Nat.mod_eq_of_lt (by simpa using h)]

/-- The last byte of a number, with its sign. -/
theorem withSign_byte (neg : Bool) {v : ℕ} (hpos : 0 < v) (hv : v < 256) :
    ∃ k, (withSign neg [UInt8.ofNat v]).length = k + 1 ∧
      Bytes.ofLE (withSign neg [UInt8.ofNat v]) = v + (if neg then 128 * 256 ^ k else 0) ∧
      v < 128 * 256 ^ k ∧ (k = 0 ∨ 128 * 256 ^ (k - 1) ≤ v) := by
  by_cases h : 128 ≤ v
  · refine ⟨1, ?_, ?_, by omega, .inr (by simpa using h)⟩
    · simp [withSign, toNat_ofNat_of_lt hv, h]
    · cases neg <;> simp [withSign, toNat_ofNat_of_lt hv, h, Bytes.ofLE]
  · refine ⟨0, ?_, ?_, by omega, .inl rfl⟩
    · simp [withSign, toNat_ofNat_of_lt hv, h]
    · cases neg with
      | false => simp [withSign, toNat_ofNat_of_lt hv, h, Bytes.ofLE]
      | true =>
        simp [withSign, toNat_ofNat_of_lt hv, h, Bytes.ofLE]
        omega

/-- The length of a number with its sign, and its value: the sign is above the magnitude, and no byte
is spare. -/
theorem withSign_magnitude (neg : Bool) {fuel v : ℕ} (hpos : 0 < v) (hv : v < 256 ^ (fuel + 1)) :
    ∃ k, (withSign neg (magnitude fuel v)).length = k + 1 ∧
      Bytes.ofLE (withSign neg (magnitude fuel v)) = v + (if neg then 128 * 256 ^ k else 0) ∧
      v < 128 * 256 ^ k ∧ (k = 0 ∨ 128 * 256 ^ (k - 1) ≤ v) := by
  induction fuel generalizing v with
  | zero => exact withSign_byte neg hpos (by simpa using hv)
  | succ fuel ih =>
    by_cases hbig : 255 < v
    · have hdiv : v / 256 < 256 ^ (fuel + 1) := by
        rw [pow_succ] at hv
        exact Nat.div_lt_of_lt_mul (by omega)
      obtain ⟨k, hlen, hval, hlt, hmin⟩ := ih (v := v / 256) (by omega) hdiv
      have hcons : withSign neg (magnitude (fuel + 1) v) =
          UInt8.ofNat (v % 256) :: withSign neg (magnitude fuel (v / 256)) := by
        rw [magnitude, if_pos hbig]
        cases hm : magnitude fuel (v / 256) with
        | nil => exact (magnitude_ne_nil _ _ hm).elim
        | cons b bytes => rfl
      refine ⟨k + 1, by rw [hcons, List.length_cons, hlen], ?_, ?_, .inr ?_⟩
      · rw [hcons, Bytes.ofLE, hval, Bytes.toNat_ofNat_mod]
        cases neg with
        | false => simp only [Bool.false_eq_true, if_false]; omega
        | true => simp only [if_true, pow_succ]; omega
      · rw [pow_succ]
        omega
      · rw [Nat.add_sub_cancel]
        cases k with
        | zero => simp only [pow_zero]; omega
        | succ k =>
          have hk : 128 * 256 ^ k ≤ v / 256 := by simpa using hmin
          rw [pow_succ]
          omega
    · rw [magnitude, if_neg hbig]
      exact withSign_byte neg hpos (by omega)

/-- A number operand is the pushed number when that fits, and is not read otherwise. -/
theorem readNum_scriptInt {size : ℕ} {n : ℤ} (hn : n.natAbs < 256 ^ 8) :
    readNum (size + 1) (scriptInt n) = if n.natAbs < 128 * 256 ^ size then some n else none := by
  by_cases h0 : n = 0
  · simp [h0, scriptInt, readNum, numValue]
  · obtain ⟨k, hlen, hval, hlt, hmin⟩ := withSign_magnitude (decide (n < 0))
      (Int.natAbs_pos.mpr h0) (show n.natAbs < 256 ^ (7 + 1) from hn)
    have hfits : k ≤ size ↔ n.natAbs < 128 * 256 ^ size := by
      constructor
      · intro hk
        exact lt_of_lt_of_le hlt (Nat.mul_le_mul_left _ (Nat.pow_le_pow_right (by omega) hk))
      · intro hv
        by_contra hk
        obtain hk' | hle := hmin
        · omega
        · have hpow : 256 ^ size ≤ 256 ^ (k - 1) := Nat.pow_le_pow_right (by omega) (by omega)
          have := Nat.mul_le_mul_left 128 hpow
          omega
    have hvalue : numValue (scriptInt n) = n := by
      rw [scriptInt, if_neg h0]
      cases hb : withSign (decide (n < 0)) (magnitude 7 n.natAbs) with
      | nil => simp [hb] at hlen
      | cons b bytes =>
        rw [hb, List.length_cons] at hlen
        obtain rfl : bytes.length = k := by omega
        rw [hb] at hval
        simp only [numValue, hval]
        by_cases hneg : n < 0
        · simp only [hneg, decide_true, if_true, Nat.le_add_left, Nat.add_sub_cancel]
          omega
        · simp only [hneg, decide_false, Bool.false_eq_true, if_false, Nat.add_zero,
            not_le.mpr hlt]
          omega
    have hlen' : (scriptInt n).length = k + 1 := by rw [scriptInt, if_neg h0, hlen]
    simp only [readNum, hlen', hvalue, Nat.add_le_add_iff_right, hfits]

/-- The truth of an item: it is neither zero nor negative zero. -/
def castToBool : Item → Bool
  | [] => false
  | [b] => b ≠ 0 && b ≠ 0x80
  | b :: item => b ≠ 0 || castToBool item

/-! ### Instructions -/

instance neZero_sixteen : NeZero 16 := ⟨by decide⟩

inductive Opcode
  | pushnumNeg1
  | pushnum (n : Fin 16)
  | nop
  | opIf
  | opNotif
  | opElse
  | opEndif
  | verify
  | drop
  | dup
  | equal
  | equalverify
  | hash160
  | checksig
  | checksigverify
  | checkmultisig
  | checkmultisigverify
  | cltv
  | other (b : UInt8)
  deriving DecidableEq, Repr

namespace Opcode

def toByte : Opcode → UInt8
  | pushnumNeg1 => 0x4f
  | pushnum n => UInt8.ofNat (0x51 + n)
  | nop => 0x61
  | opIf => 0x63
  | opNotif => 0x64
  | opElse => 0x67
  | opEndif => 0x68
  | verify => 0x69
  | drop => 0x75
  | dup => 0x76
  | equal => 0x87
  | equalverify => 0x88
  | hash160 => 0xa9
  | checksig => 0xac
  | checksigverify => 0xad
  | checkmultisig => 0xae
  | checkmultisigverify => 0xaf
  | cltv => 0xb1
  | other b => b

def ofByte (b : UInt8) : Opcode :=
  match b with
  | 0x4f => pushnumNeg1
  | 0x51 => pushnum 0
  | 0x52 => pushnum 1
  | 0x53 => pushnum 2
  | 0x54 => pushnum 3
  | 0x55 => pushnum 4
  | 0x56 => pushnum 5
  | 0x57 => pushnum 6
  | 0x58 => pushnum 7
  | 0x59 => pushnum 8
  | 0x5a => pushnum 9
  | 0x5b => pushnum 10
  | 0x5c => pushnum 11
  | 0x5d => pushnum 12
  | 0x5e => pushnum 13
  | 0x5f => pushnum 14
  | 0x60 => pushnum 15
  | 0x61 => nop
  | 0x63 => opIf
  | 0x64 => opNotif
  | 0x67 => opElse
  | 0x68 => opEndif
  | 0x69 => verify
  | 0x75 => drop
  | 0x76 => dup
  | 0x87 => equal
  | 0x88 => equalverify
  | 0xa9 => hash160
  | 0xac => checksig
  | 0xad => checksigverify
  | 0xae => checkmultisig
  | 0xaf => checkmultisigverify
  | 0xb1 => cltv
  | b => other b

end Opcode

/-- An instruction: a push of up to 75 bytes, a push with a length of one, two or four bytes, or an
opcode. -/
inductive Instr
  | push (data : Item)
  | pushData1 (data : Item)
  | pushData2 (data : Item)
  | pushData4 (data : Item)
  | op (code : Opcode)
  deriving DecidableEq, Repr

/-- The bytes of an instruction. -/
def Instr.bytes : Instr → List UInt8
  | push data => UInt8.ofNat data.length :: data
  | pushData1 data => 0x4c :: (Bytes.toLE 1 data.length ++ data)
  | pushData2 data => 0x4d :: (Bytes.toLE 2 data.length ++ data)
  | pushData4 data => 0x4e :: (Bytes.toLE 4 data.length ++ data)
  | op code => [code.toByte]

/-- `Builder::push_slice`: the shortest push of a byte string. -/
def pushSlice (data : Item) : Instr :=
  if data.length < 76 then .push data
  else if data.length < 2 ^ 8 then .pushData1 data
  else if data.length < 2 ^ 16 then .pushData2 data
  else .pushData4 data

/-- The bytes of a script. -/
def assemble (script : List Instr) : List UInt8 := script.flatMap Instr.bytes

/-- The first `n` bytes, and the rest. -/
def takeExact (n : ℕ) (bytes : List UInt8) : Option (List UInt8 × List UInt8) :=
  if n ≤ bytes.length then some (bytes.take n, bytes.drop n) else none

/-- The first instruction, and the rest. -/
def readInstr : List UInt8 → Option (Instr × List UInt8)
  | [] => none
  | b :: rest =>
    if b.toNat < 76 then do
      let (data, rest) ← takeExact b.toNat rest
      return (.push data, rest)
    else if b = 0x4c then do
      let (n, rest) ← takeExact 1 rest
      let (data, rest) ← takeExact (Bytes.ofLE n) rest
      return (.pushData1 data, rest)
    else if b = 0x4d then do
      let (n, rest) ← takeExact 2 rest
      let (data, rest) ← takeExact (Bytes.ofLE n) rest
      return (.pushData2 data, rest)
    else if b = 0x4e then do
      let (n, rest) ← takeExact 4 rest
      let (data, rest) ← takeExact (Bytes.ofLE n) rest
      return (.pushData4 data, rest)
    else some (.op (Opcode.ofByte b), rest)

/-- The instructions of at most `fuel` bytes. -/
def readScript : ℕ → List UInt8 → Option (List Instr)
  | _, [] => some []
  | 0, _ :: _ => none
  | fuel + 1, b :: bytes => do
    let (instr, rest) ← readInstr (b :: bytes)
    let script ← readScript fuel rest
    return instr :: script

def parse (bytes : List UInt8) : Option (List Instr) := readScript bytes.length bytes

/-- An instruction whose bytes are read back as it. -/
def Instr.Wf : Instr → Prop
  | push data => data.length < 76
  | pushData1 data => data.length < 2 ^ 8
  | pushData2 data => data.length < 2 ^ 16
  | pushData4 data => data.length < 2 ^ 32
  | op code => 78 < code.toByte.toNat ∧ Opcode.ofByte code.toByte = code

theorem pushSlice_wf {data : Item} (h : data.length < 2 ^ 32) : (pushSlice data).Wf := by
  unfold pushSlice
  split_ifs <;> simp only [Instr.Wf] <;> omega

theorem takeExact_append {n : ℕ} {data : List UInt8} (h : data.length = n) (rest : List UInt8) :
    takeExact n (data ++ rest) = some (data, rest) := by
  subst h
  simp [takeExact]

/-- A push with a length of `width` bytes. -/
theorem takeExact_toLE (width : ℕ) {data : List UInt8} (h : data.length < 256 ^ width)
    (rest : List UInt8) :
    takeExact width (Bytes.toLE width data.length ++ data ++ rest) =
      some (Bytes.toLE width data.length, data ++ rest) ∧
    takeExact (Bytes.ofLE (Bytes.toLE width data.length)) (data ++ rest) = some (data, rest) := by
  rw [List.append_assoc, Bytes.ofLE_toLE h]
  exact ⟨takeExact_append (Bytes.length_toLE _ _) _, takeExact_append rfl _⟩

theorem readInstr_bytes {i : Instr} (h : i.Wf) (rest : List UInt8) :
    readInstr (i.bytes ++ rest) = some (i, rest) := by
  cases i with
  | push data =>
    have hlen : (UInt8.ofNat data.length).toNat = data.length :=
      toNat_ofNat_of_lt (lt_trans h (by decide))
    have hlt : data.length < 76 := h
    simp [Instr.bytes, readInstr, hlen, hlt, takeExact_append]
  | pushData1 data =>
    obtain ⟨hlen, hdata⟩ := takeExact_toLE 1 (by simpa [Instr.Wf] using h) rest
    simp [Instr.bytes, readInstr, -List.append_assoc, hlen, hdata]
  | pushData2 data =>
    obtain ⟨hlen, hdata⟩ := takeExact_toLE 2 (by simpa [Instr.Wf] using h) rest
    simp [Instr.bytes, readInstr, -List.append_assoc, hlen, hdata]
  | pushData4 data =>
    obtain ⟨hlen, hdata⟩ := takeExact_toLE 4 (by simpa [Instr.Wf] using h) rest
    simp [Instr.bytes, readInstr, -List.append_assoc, hlen, hdata]
  | op code =>
    obtain ⟨hlarge, hcode⟩ := h
    have hne : ∀ b : UInt8, b.toNat ≤ 78 → code.toByte ≠ b := by
      intro b hb heq
      rw [heq] at hlarge
      omega
    simp [Instr.bytes, readInstr, show ¬ code.toByte.toNat < 76 by omega, hne 0x4c (by decide),
      hne 0x4d (by decide), hne 0x4e (by decide), hcode]

theorem bytes_ne_nil (i : Instr) : i.bytes ≠ [] := by
  cases i <;> simp [Instr.bytes]

theorem readScript_assemble {script : List Instr} (h : ∀ i ∈ script, i.Wf) {fuel : ℕ}
    (hfuel : (assemble script).length ≤ fuel) : readScript fuel (assemble script) = some script := by
  induction script generalizing fuel with
  | nil => cases fuel <;> rfl
  | cons i script ih =>
    have hassemble : assemble (i :: script) = i.bytes ++ assemble script := List.flatMap_cons
    rw [hassemble] at hfuel ⊢
    obtain ⟨b, bytes, hb⟩ := List.exists_cons_of_ne_nil (bytes_ne_nil i)
    have hread : readInstr (b :: (bytes ++ assemble script)) = some (i, assemble script) := by
      have := readInstr_bytes (h i List.mem_cons_self) (assemble script)
      rwa [hb, List.cons_append] at this
    rw [hb, List.cons_append] at hfuel ⊢
    cases fuel with
    | zero => simp at hfuel
    | succ fuel =>
      have hrest : readScript fuel (assemble script) = some script := by
        refine ih (fun j hj => h j (List.mem_cons_of_mem _ hj)) ?_
        simp only [List.length_cons, List.length_append] at hfuel
        omega
      simp [readScript, hread, hrest]

/-- The bytes of a script are read back. -/
theorem parse_assemble {script : List Instr} (h : ∀ i ∈ script, i.Wf) :
    parse (assemble script) = some script := readScript_assemble h le_rfl

/-! ### Evaluation -/

/-- What a script asks of the transaction that spends it, and the hash function of addresses. -/
structure Checker where
  /-- A signature under a key, for a script code. -/
  checkSig : (sig key : Item) → (scriptCode : List UInt8) → Bool
  /-- Whether the transaction is locked past an operand. -/
  checkLockTime : ℤ → Bool
  hash160 : Item → Item

/-- The stack, top first, and the conditions of the open branches, innermost first. -/
structure State where
  stack : List Item
  conds : List Bool
  deriving DecidableEq, Repr

/-- The longest item that can be pushed. -/
def maxItem : ℕ := 520

def boolItem (b : Bool) : Item := if b then [1] else []

/-- Remove the push of an item from a script. -/
def findAndDelete (item : Item) (script : List Instr) : List Instr :=
  script.filter fun i => i.bytes ≠ (pushSlice item).bytes

/-- A signature in a list of those that are checked together: none of them is signed itself. -/
def checkSigs (C : Checker) (script : List Instr) (sigs : List Item) (sig key : Item) : Bool :=
  C.checkSig sig key (assemble (sigs.foldl (fun script sig => findAndDelete sig script) script))

/-- Every signature matches a key, in order. -/
def matchSigs (check : Item → Item → Bool) : List Item → List Item → Bool
  | [], _ => true
  | _ :: _, [] => false
  | sig :: sigs, key :: keys =>
    if check sig key then matchSigs check sigs keys else matchSigs check (sig :: sigs) keys

/-- A count of at most `bound`, and that many items. -/
def popItems (bound : ℕ) : List Item → Option (List Item × List Item)
  | [] => none
  | count :: stack => do
    let n ← readNum 4 count
    if 0 ≤ n ∧ n.toNat ≤ bound ∧ n.toNat ≤ stack.length then
      some (stack.take n.toNat, stack.drop n.toNat)
    else none

/-- The keys, the signatures and the empty item that comes before them. -/
def multisig (C : Checker) (script : List Instr) (stack : List Item) :
    Option (Bool × List Item) := do
  let (keys, stack) ← popItems 20 stack
  let (sigs, stack) ← popItems keys.length stack
  match stack with
  | [] :: stack => some (matchSigs (checkSigs C script sigs) sigs keys, stack)
  | _ => none

/-- An opcode that is executed and is not a condition. -/
def stepOp (C : Checker) (script : List Instr) : Opcode → List Item → Option (List Item)
  | .pushnumNeg1, stack => some ([0x81] :: stack)
  | .pushnum n, stack => some ([UInt8.ofNat (n + 1)] :: stack)
  | .nop, stack => some stack
  | .verify, item :: stack => if castToBool item then some stack else none
  | .drop, _ :: stack => some stack
  | .dup, item :: stack => some (item :: item :: stack)
  | .equal, a :: b :: stack => some (boolItem (decide (a = b)) :: stack)
  | .equalverify, a :: b :: stack => if a = b then some stack else none
  | .hash160, item :: stack => some (C.hash160 item :: stack)
  | .checksig, key :: sig :: stack => some (boolItem (checkSigs C script [sig] sig key) :: stack)
  | .checksigverify, key :: sig :: stack =>
    if checkSigs C script [sig] sig key then some stack else none
  | .checkmultisig, stack => do
    let (ok, stack) ← multisig C script stack
    return boolItem ok :: stack
  | .checkmultisigverify, stack => do
    let (ok, stack) ← multisig C script stack
    if ok then some stack else none
  | .cltv, item :: stack => do
    let n ← readNum 5 item
    if 0 ≤ n ∧ C.checkLockTime n then some (item :: stack) else none
  | _, _ => none

namespace State

/-- Whether the current branch is executed. -/
def executed (s : State) : Bool := s.conds.all id

def pushItem (s : State) (data : Item) : Option State :=
  if maxItem < data.length then none
  else if s.executed then some { s with stack := data :: s.stack } else some s

/-- Open a branch: a branch within one that is not executed is not executed. -/
def openBranch (s : State) (neg : Bool) : Option State :=
  if s.executed then
    match s.stack with
    | item :: stack => some ⟨stack, (castToBool item != neg) :: s.conds⟩
    | [] => none
  else some { s with conds := false :: s.conds }

end State

/-- One instruction of a script. -/
def step (C : Checker) (script : List Instr) (s : State) : Instr → Option State
  | .push data => s.pushItem data
  | .pushData1 data => s.pushItem data
  | .pushData2 data => s.pushItem data
  | .pushData4 data => s.pushItem data
  | .op .opIf => s.openBranch false
  | .op .opNotif => s.openBranch true
  | .op .opElse =>
    match s.conds with
    | c :: conds => some { s with conds := (!c) :: conds }
    | [] => none
  | .op .opEndif =>
    match s.conds with
    | _ :: conds => some { s with conds := conds }
    | [] => none
  | .op code =>
    if s.executed then (stepOp C script code s.stack).map fun stack => { s with stack := stack }
    else some s

/-- The opcodes that open, turn or close a branch. -/
def Opcode.isCondition : Opcode → Bool
  | opIf => true
  | opNotif => true
  | opElse => true
  | opEndif => true
  | _ => false

/-- An instruction that leaves the branches as they are, and pushes no item that is too long. -/
def Instr.Plain : Instr → Prop
  | push data => data.length ≤ maxItem
  | pushData1 data => data.length ≤ maxItem
  | pushData2 data => data.length ≤ maxItem
  | pushData4 data => data.length ≤ maxItem
  | op code => code.isCondition = false

theorem pushSlice_plain {data : Item} (h : data.length ≤ maxItem) : (pushSlice data).Plain := by
  unfold pushSlice
  split_ifs <;> exact h

section Steps

variable {C : Checker} {script : List Instr} {stack : List Item} {conds : List Bool}

theorem step_opIf (item : Item) :
    step C script ⟨item :: stack, []⟩ (.op .opIf) = some ⟨stack, [castToBool item]⟩ := by
  simp [step, State.openBranch, State.executed]

theorem step_opElse (c : Bool) :
    step C script ⟨stack, c :: conds⟩ (.op .opElse) = some ⟨stack, (!c) :: conds⟩ := rfl

theorem step_opEndif (c : Bool) :
    step C script ⟨stack, c :: conds⟩ (.op .opEndif) = some ⟨stack, conds⟩ := rfl

/-- An opcode in the executed branch. -/
theorem step_executed {code : Opcode} (h : code.isCondition = false) :
    step C script ⟨stack, [true]⟩ (.op code) =
      (stepOp C script code stack).map fun stack => ⟨stack, [true]⟩ := by
  cases code <;> first | rfl | cases h

theorem step_pushSlice (s : State) (data : Item) :
    step C script s (pushSlice data) = s.pushItem data := by
  unfold pushSlice
  split_ifs <;> rfl

theorem pushItem_executed {data : Item} (h : data.length ≤ maxItem) :
    State.pushItem ⟨stack, [true]⟩ data = some ⟨data :: stack, [true]⟩ := by
  simp [State.pushItem, State.executed, Nat.not_lt.mpr h]

theorem pushItem_skipped {data : Item} (h : data.length ≤ maxItem) :
    State.pushItem ⟨stack, [false]⟩ data = some ⟨stack, [false]⟩ := by
  simp [State.pushItem, State.executed, Nat.not_lt.mpr h]

theorem pushItem_nil {data : Item} (h : data.length ≤ maxItem) :
    State.pushItem ⟨stack, []⟩ data = some ⟨data :: stack, []⟩ := by
  simp [State.pushItem, State.executed, Nat.not_lt.mpr h]

theorem pushItem_conds {s s' : State} {data : Item} (h : s.pushItem data = some s') :
    s'.conds = s.conds := by
  simp only [State.pushItem] at h
  split_ifs at h <;> cases h <;> rfl

/-- An instruction in the branch that is not executed is passed over. -/
theorem step_skipped {i : Instr} (h : i.Plain) :
    step C script ⟨stack, [false]⟩ i = some ⟨stack, [false]⟩ := by
  cases i with
  | push data => exact pushItem_skipped h
  | pushData1 data => exact pushItem_skipped h
  | pushData2 data => exact pushItem_skipped h
  | pushData4 data => exact pushItem_skipped h
  | op code => cases code <;> first | rfl | cases h

theorem step_conds {i : Instr} (hi : i.Plain) {s s' : State} (h : step C script s i = some s') :
    s'.conds = s.conds := by
  cases i with
  | push data => exact pushItem_conds h
  | pushData1 data => exact pushItem_conds h
  | pushData2 data => exact pushItem_conds h
  | pushData4 data => exact pushItem_conds h
  | op code =>
    have hstep : step C script s (.op code) = if s.executed then
        (stepOp C script code s.stack).map fun stack => { s with stack := stack } else some s := by
      cases code <;> first | rfl | cases hi
    rw [hstep] at h
    split at h
    · obtain ⟨st, -, rfl⟩ := Option.map_eq_some_iff.mp h
      rfl
    · cases h
      rfl

/-- A branch that is not executed is passed over. -/
theorem foldlM_skipped {branch : List Instr} (h : ∀ i ∈ branch, i.Plain) :
    branch.foldlM (step C script) ⟨stack, [false]⟩ = some ⟨stack, [false]⟩ := by
  induction branch with
  | nil => rfl
  | cons i branch ih =>
    rw [List.foldlM_cons, step_skipped (h i List.mem_cons_self)]
    exact ih fun j hj => h j (List.mem_cons_of_mem _ hj)

theorem foldlM_conds {branch : List Instr} (h : ∀ i ∈ branch, i.Plain) {s s' : State}
    (hrun : branch.foldlM (step C script) s = some s') : s'.conds = s.conds := by
  induction branch generalizing s with
  | nil =>
    cases hrun
    rfl
  | cons i branch ih =>
    rw [List.foldlM_cons, Option.bind_eq_bind, Option.bind_eq_some_iff] at hrun
    obtain ⟨s₁, hstep, hrun⟩ := hrun
    rw [ih (fun j hj => h j (List.mem_cons_of_mem _ hj)) hrun,
      step_conds (h i List.mem_cons_self) hstep]

/-- A script of two branches runs one of them, by the truth of its first item. -/
theorem foldlM_opIf_opElse {yes no : List Instr} {item : Item} (hyes : ∀ i ∈ yes, i.Plain)
    (hno : ∀ i ∈ no, i.Plain) :
    (Instr.op .opIf :: (yes ++ .op .opElse :: (no ++ [.op .opEndif]))).foldlM (step C script)
        ⟨item :: stack, []⟩ =
      ((if castToBool item then yes else no).foldlM (step C script) ⟨stack, [true]⟩).map
        fun s => ⟨s.stack, []⟩ := by
  rw [List.foldlM_cons, step_opIf]
  cases castToBool item with
  | true =>
    cases hrun : yes.foldlM (step C script) ⟨stack, [true]⟩ with
    | none => simp [hrun]
    | some s =>
      obtain ⟨st, conds⟩ := s
      obtain rfl : conds = [true] := foldlM_conds hyes hrun
      simp [hrun, step_opElse, step_opEndif, foldlM_skipped hno]
  | false =>
    cases hrun : no.foldlM (step C script) ⟨stack, [true]⟩ with
    | none => simp [hrun, foldlM_skipped hyes, step_opElse]
    | some s =>
      obtain ⟨st, conds⟩ := s
      obtain rfl : conds = [true] := foldlM_conds hno hrun
      simp [hrun, step_opElse, step_opEndif, foldlM_skipped hyes]

end Steps

/-- Run a script on a stack; all branches are closed at its end. -/
def eval (C : Checker) (script : List Instr) (stack : List Item) : Option (List Item) := do
  let s ← script.foldlM (step C script) ⟨stack, []⟩
  if s.conds = [] then some s.stack else none

/-- The longest script. -/
def maxScript : ℕ := 10000

/-- Run the bytes of a script. -/
def evalBytes (C : Checker) (bytes : List UInt8) (stack : List Item) : Option (List Item) := do
  if maxScript < bytes.length then none
  let script ← parse bytes
  eval C script stack

/-- The script leaves a true item on the top. -/
def accepts (stack : List Item) : Bool :=
  match stack with
  | item :: _ => castToBool item
  | [] => false

/-- The script that pays to a script hash. -/
def payToScriptHash (hash : Item) : List Instr := [.op .hash160, .push hash, .op .equal]

/-- Whether a script pays to a script hash. -/
def isPayToScriptHash (bytes : List UInt8) : Bool :=
  decide (bytes.length = 23 ∧ bytes[0]? = some 0xa9 ∧ bytes[1]? = some 20 ∧ bytes[22]? = some 0x87)

/-- An instruction that only pushes. -/
def Instr.isPush : Instr → Bool
  | op .pushnumNeg1 => true
  | op (.pushnum _) => true
  | op (.other b) => decide (b = 0x50)
  | op _ => false
  | _ => true

/-- Whether a script only pushes. -/
def pushOnly (bytes : List UInt8) : Bool :=
  match parse bytes with
  | some script => script.all Instr.isPush
  | none => false

/-- Whether the script of an input satisfies the script of the output it spends: it is run first, and
the other on the stack it leaves.  When that pays to a script hash, the input's script only pushes, and
its last item is run as a script too. -/
def verifyScript (C : Checker) (scriptSig scriptPubkey : List UInt8) : Bool :=
  match evalBytes C scriptSig [] with
  | none => false
  | some stack =>
    ((evalBytes C scriptPubkey stack).any accepts) &&
      (!isPayToScriptHash scriptPubkey ||
        (pushOnly scriptSig &&
          match stack with
          | redeem :: stack => (evalBytes C redeem stack).any accepts
          | [] => false))

/-- An instruction that pushes an item. -/
def Instr.Pushes (C : Checker) (i : Instr) (item : Item) : Prop :=
  i.Wf ∧ i.isPush = true ∧ ∀ script stack, step C script ⟨stack, []⟩ i = some ⟨item :: stack, []⟩

theorem pushSlice_pushes {C : Checker} {data : Item} (h : data.length ≤ maxItem) :
    (pushSlice data).Pushes C data := by
  refine ⟨pushSlice_wf (lt_of_le_of_lt h (by decide)), ?_, fun S stack => ?_⟩
  · unfold pushSlice
    split_ifs <;> rfl
  · rw [step_pushSlice]
    exact pushItem_nil h

theorem foldlM_pushes {C : Checker} {S script : List Instr} {items stack : List Item}
    (h : List.Forall₂ (Instr.Pushes C) script items) :
    script.foldlM (step C S) ⟨stack, []⟩ = some ⟨items.reverse ++ stack, []⟩ := by
  induction h generalizing stack with
  | nil => rfl
  | cons hi _ ih =>
    rw [List.foldlM_cons, hi.2.2 S stack, Option.bind_eq_bind, Option.bind_some, ih]
    simp

/-- A script that pushes items leaves them, the last one on the top. -/
theorem evalBytes_pushes {C : Checker} {script : List Instr} {items : List Item}
    (hlen : (assemble script).length ≤ maxScript)
    (h : List.Forall₂ (Instr.Pushes C) script items) :
    pushOnly (assemble script) = true ∧ evalBytes C (assemble script) [] = some items.reverse := by
  have hall : ∀ i ∈ script, i.Wf ∧ i.isPush = true := by
    clear hlen
    induction h with
    | nil => simp
    | cons hi _ ih => exact List.forall_mem_cons.mpr ⟨⟨hi.1, hi.2.1⟩, ih⟩
  have hparse : parse (assemble script) = some script := parse_assemble fun i hi => (hall i hi).1
  refine ⟨?_, ?_⟩
  · simp only [pushOnly, hparse, List.all_eq_true]
    exact fun i hi => (hall i hi).2
  · simp [evalBytes, Nat.not_lt.mpr hlen, hparse, eval, foldlM_pushes h]

theorem castToBool_boolItem (b : Bool) : castToBool (boolItem b) = b := by
  cases b <;> decide

section PayToScriptHash

variable {C : Checker} {hash : Item}

theorem payToScriptHash_wf (h : hash.length = 20) : ∀ i ∈ payToScriptHash hash, i.Wf := by
  intro i hi
  simp only [payToScriptHash, List.mem_cons, List.not_mem_nil, or_false] at hi
  rcases hi with rfl | rfl | rfl
  · exact ⟨by decide, by decide⟩
  · simp only [Instr.Wf]
    omega
  · exact ⟨by decide, by decide⟩

theorem isPayToScriptHash_assemble (h : hash.length = 20) :
    isPayToScriptHash (assemble (payToScriptHash hash)) = true := by
  have hbytes : assemble (payToScriptHash hash) = 0xa9 :: 20 :: (hash ++ [0x87]) := by
    simp [assemble, payToScriptHash, Instr.bytes, Opcode.toByte, h]
  simp [isPayToScriptHash, hbytes, h]

/-- The script of a script hash accepts the item with that hash. -/
theorem evalBytes_payToScriptHash (h : hash.length = 20) (stack : List Item) :
    (evalBytes C (assemble (payToScriptHash hash)) stack).any accepts =
      match stack with
      | item :: _ => decide (hash = C.hash160 item)
      | [] => false := by
  have hlen : ¬ maxScript < (assemble (payToScriptHash hash)).length := by
    simp [assemble, payToScriptHash, Instr.bytes, h, maxScript]
  simp only [evalBytes, hlen, if_false, parse_assemble (payToScriptHash_wf h)]
  cases stack with
  | nil => simp [eval, payToScriptHash, step, State.executed, stepOp]
  | cons item stack =>
    have hitem : ¬ maxItem < hash.length := by simp [h, maxItem]
    simp [eval, payToScriptHash, step, State.executed, State.pushItem, hitem, stepOp, accepts,
      castToBool_boolItem]

/-- An output that pays to a script hash is spent by a script that only pushes and whose last item is
an accepting script with that hash. -/
theorem verifyScript_payToScriptHash (h : hash.length = 20) (scriptSig : List UInt8) :
    verifyScript C scriptSig (assemble (payToScriptHash hash)) = true ↔
      pushOnly scriptSig = true ∧ ∃ redeem stack, evalBytes C scriptSig [] = some (redeem :: stack) ∧
        C.hash160 redeem = hash ∧ (evalBytes C redeem stack).any accepts = true := by
  simp only [verifyScript]
  cases hsig : evalBytes C scriptSig [] with
  | none => simp
  | some stack =>
    cases stack with
    | nil => simp [evalBytes_payToScriptHash h]
    | cons item stack =>
      simp only [evalBytes_payToScriptHash h, isPayToScriptHash_assemble h, Bool.not_true,
        Bool.false_or, Bool.and_eq_true, decide_eq_true_eq, Option.some.injEq, List.cons.injEq]
      constructor
      · rintro ⟨hhash, hpush, haccept⟩
        exact ⟨hpush, item, stack, ⟨rfl, rfl⟩, hhash.symm, haccept⟩
      · rintro ⟨hpush, _, _, ⟨rfl, rfl⟩, hhash, haccept⟩
        exact ⟨hhash.symm, hpush, haccept⟩

end PayToScriptHash

/-- The script that pays to a key, by its hash. -/
def payToPubkeyHash (hash : Item) : List Instr :=
  [.op .dup, .op .hash160, .push hash, .op .equalverify, .op .checksig]

section PayToPubkeyHash

variable {C : Checker} {hash : Item}

theorem payToPubkeyHash_wf (h : hash.length = 20) : ∀ i ∈ payToPubkeyHash hash, i.Wf := by
  intro i hi
  simp only [payToPubkeyHash, List.mem_cons, List.not_mem_nil, or_false] at hi
  rcases hi with rfl | rfl | rfl | rfl | rfl
  · exact ⟨by decide, by decide⟩
  · exact ⟨by decide, by decide⟩
  · simp only [Instr.Wf]
    omega
  · exact ⟨by decide, by decide⟩
  · exact ⟨by decide, by decide⟩

theorem length_payToPubkeyHash (h : hash.length = 20) :
    (assemble (payToPubkeyHash hash)).length = 25 := by
  simp [assemble, payToPubkeyHash, Instr.bytes, h]

/-- The script of a key hash checks the signature below the key with that hash. -/
theorem evalBytes_payToPubkeyHash (h : hash.length = 20) {key sig : Item} {stack : List Item}
    (hkey : C.hash160 key = hash) :
    evalBytes C (assemble (payToPubkeyHash hash)) (key :: sig :: stack) =
      some (boolItem (checkSigs C (payToPubkeyHash hash) [sig] sig key) :: stack) := by
  have hlen : ¬ maxScript < (assemble (payToPubkeyHash hash)).length := by
    rw [length_payToPubkeyHash h]
    decide
  have hitem : ¬ maxItem < hash.length := by simp [h, maxItem]
  simp only [evalBytes, hlen, if_false, parse_assemble (payToPubkeyHash_wf h)]
  generalize hscript : payToPubkeyHash hash = script
  simp [← hscript, eval, payToPubkeyHash, step, State.executed, State.pushItem, hitem, stepOp, hkey]

/-- An output that pays to a key hash is spent by a script that leaves the key over a signature. -/
theorem verifyScript_payToPubkeyHash (h : hash.length = 20) {scriptSig : List UInt8} {key sig : Item}
    (hsig : evalBytes C scriptSig [] = some [key, sig]) (hkey : C.hash160 key = hash)
    (hcheck : checkSigs C (payToPubkeyHash hash) [sig] sig key = true) :
    verifyScript C scriptSig (assemble (payToPubkeyHash hash)) = true := by
  have hnot : isPayToScriptHash (assemble (payToPubkeyHash hash)) = false := by
    simp [isPayToScriptHash, length_payToPubkeyHash h]
  simp [verifyScript, hsig, evalBytes_payToPubkeyHash h hkey, hcheck, hnot, accepts, boolItem,
    castToBool]

/-- No push of this script is one of a longer item. -/
theorem findAndDelete_payToPubkeyHash (h : hash.length = 20) {sig : Item} (hsig : 20 < sig.length)
    (hlt : sig.length < 76) : findAndDelete sig (payToPubkeyHash hash) = payToPubkeyHash hash := by
  have hlength : (pushSlice sig).bytes.length = sig.length + 1 := by
    rw [pushSlice, if_pos hlt, Instr.bytes, List.length_cons]
  refine List.filter_eq_self.mpr fun i hi => decide_eq_true fun heq => ?_
  have hi' : i.bytes.length ≤ 21 := by
    simp only [payToPubkeyHash, List.mem_cons, List.not_mem_nil, or_false] at hi
    rcases hi with rfl | rfl | rfl | rfl | rfl <;> simp [Instr.bytes, h]
  rw [heq, hlength] at hi'
  omega

end PayToPubkeyHash

end Script
