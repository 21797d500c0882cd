import MwBtcSwap.Lib.Hex
import Mathlib.Algebra.Group.Int.Defs

/-! JSON values, the compact text that `serde_json` writes for them, and the way in which the code that
`serde` derives for a structure finds its fields in a value.  `read` inverts `text`; it reads the
compact form only, without white space. -/

/-- A number by its literal: without an exponent it is an integer literal, and with one it stands for
`mantissa * 10 ^ exponent`, whatever its form. -/
structure Json.Number where
  mantissa : ℤ
  exponent : Option ℤ
  deriving DecidableEq, Repr

inductive Json
  | null
  | bool (b : Bool)
  | number (n : Json.Number)
  | string (s : String)
  | array (elems : List Json)
  | object (members : List (String × Json))

namespace Json

/-! ### Writing -/

/-- The characters with an escape of their own, and its letter. -/
def escapes : List (Char × Char) :=
  [('"', '"'), ('\\', '\\'), ('\n', 'n'), ('\r', 'r'), ('\t', 't'), (Char.ofNat 8, 'b'),
    (Char.ofNat 12, 'f')]

/-- A character inside a string. -/
def escape (c : Char) : List Char :=
  match escapes.lookup c with
  | some e => ['\\', e]
  | none =>
    if c.toNat < 32 then ['\\', 'u', '0', '0', Hex.digit (c.toNat / 16), Hex.digit (c.toNat % 16)]
    else [c]

def writeString (s : String) : List Char := '"' :: (s.toList.flatMap escape ++ ['"'])

def writeInt (n : ℤ) : List Char :=
  if n < 0 then '-' :: Nat.toDigits 10 n.natAbs else Nat.toDigits 10 n.natAbs

def writeNumber (n : Number) : List Char :=
  writeInt n.mantissa ++
    match n.exponent with
    | none => []
    | some e => 'e' :: writeInt e

mutual

/-- The compact text of a value. -/
def write : Json → List Char
  | .null => ['n', 'u', 'l', 'l']
  | .bool true => ['t', 'r', 'u', 'e']
  | .bool false => ['f', 'a', 'l', 's', 'e']
  | .number n => writeNumber n
  | .string s => writeString s
  | .array [] => ['[', ']']
  | .array (v :: vs) => '[' :: (write v ++ writeElems vs)
  | .object [] => ['{', '}']
  | .object ((k, v) :: ms) => '{' :: (writeString k ++ ':' :: (write v ++ writeMembers ms))

/-- The elements of an array after its first one, up to its end. -/
def writeElems : List Json → List Char
  | [] => [']']
  | v :: vs => ',' :: (write v ++ writeElems vs)

/-- The members of an object after its first one, up to its end. -/
def writeMembers : List (String × Json) → List Char
  | [] => ['}']
  | (k, v) :: ms => ',' :: (writeString k ++ ':' :: (write v ++ writeMembers ms))

end

/-- `serde_json::to_string` -/
def text (v : Json) : String := String.ofList (write v)

/-! ### Reading -/

/-- The rest of a text after a fixed beginning. -/
def skip : List Char → List Char → Option (List Char)
  | [], rest => some rest
  | c :: cs, d :: rest => if c = d then skip cs rest else none
  | _ :: _, [] => none

/-- The character of four hexadecimal digits. -/
def unicode (a b c d : Char) : Option Char := do
  let a ← Hex.value a
  let b ← Hex.value b
  let c ← Hex.value c
  let d ← Hex.value d
  let n := 16 * (16 * (16 * a + b) + c) + d
  if n.isValidChar then some (Char.ofNat n) else none

/-- The characters of a string up to its closing quote, and the rest. -/
def readString : List Char → Option (List Char × List Char)
  | [] => none
  | c :: rest =>
    if c = '"' then some ([], rest)
    else if c = '\\' then
      match rest with
      | [] => none
      | e :: rest =>
        if e = 'u' then
          match rest with
          | a :: b :: c :: d :: rest => do
            let x ← unicode a b c d
            let r ← readString rest
            return (x :: r.1, r.2)
          | _ => none
        else do
          let x ← (escapes.map Prod.swap).lookup e
          let r ← readString rest
          return (x :: r.1, r.2)
    else (readString rest).map fun r => (c :: r.1, r.2)

def readNat (cs : List Char) : Option (ℕ × List Char) :=
  if cs.takeWhile Char.isDigit = [] then none
  else some (Nat.ofDigitChars 10 (cs.takeWhile Char.isDigit) 0, cs.dropWhile Char.isDigit)

def readInt (cs : List Char) : Option (ℤ × List Char) :=
  if cs.head? = some '-' then (readNat cs.tail).map fun r => (-(r.1 : ℤ), r.2)
  else (readNat cs).map fun r => ((r.1 : ℤ), r.2)

def readNumber (cs : List Char) : Option (Number × List Char) := do
  let r ← readInt cs
  if r.2.head? = some 'e' then
    let e ← readInt r.2.tail
    return (⟨r.1, some e.1⟩, e.2)
  else return (⟨r.1, none⟩, r.2)

mutual

/-- A value and the rest of the text. -/
def readValue : ℕ → List Char → Option (Json × List Char)
  | 0, _ => none
  | _ + 1, [] => none
  | fuel + 1, c :: rest =>
    if c = 'n' then (skip ['u', 'l', 'l'] rest).map fun rest => (.null, rest)
    else if c = 't' then (skip ['r', 'u', 'e'] rest).map fun rest => (.bool true, rest)
    else if c = 'f' then (skip ['a', 'l', 's', 'e'] rest).map fun rest => (.bool false, rest)
    else if c = '"' then (readString rest).map fun r => (.string (String.ofList r.1), r.2)
    else if c = '[' then
      (readElems fuel (if rest.head? = some ']' then rest else ',' :: rest)).map
        fun r => (.array r.1, r.2)
    else if c = '{' then
      (readMembers fuel (if rest.head? = some '}' then rest else ',' :: rest)).map
        fun r => (.object r.1, r.2)
    else (readNumber (c :: rest)).map fun r => (.number r.1, r.2)

/-- The elements of an array, each after a comma, up to its end. -/
def readElems : ℕ → List Char → Option (List Json × List Char)
  | 0, _ => none
  | _ + 1, [] => none
  | fuel + 1, c :: rest =>
    if c = ']' then some ([], rest)
    else if c = ',' then do
      let v ← readValue fuel rest
      let vs ← readElems fuel v.2
      return (v.1 :: vs.1, vs.2)
    else none

/-- The members of an object, each after a comma, up to its end. -/
def readMembers : ℕ → List Char → Option (List (String × Json) × List Char)
  | 0, _ => none
  | _ + 1, [] => none
  | fuel + 1, c :: rest =>
    if c = '}' then some ([], rest)
    else if c = ',' then do
      let quoted ← skip ['"'] rest
      let k ← readString quoted
      let rest ← skip [':'] k.2
      let v ← readValue fuel rest
      let ms ← readMembers fuel v.2
      return ((String.ofList k.1, v.1) :: ms.1, ms.2)
    else none

end

/-- The value of a compact text. -/
def read (s : String) : Option Json := do
  let r ← readValue (2 * s.toList.length) s.toList
  if r.2 = [] then some r.1 else none

/-! ### What is written is read -/

/-- The escapes of the table are read back, and none of them is that of a code. -/
theorem escapes_swap : ∀ e ∈ escapes, (escapes.map Prod.swap).lookup e.2 = some e.1 ∧ e.2 ≠ 'u' := by
  decide

theorem mem_escapes {c e : Char} (h : escapes.lookup c = some e) : (c, e) ∈ escapes := by
  obtain ⟨l₁, l₂, heq, -⟩ := List.lookup_eq_some_iff.mp h
  rw [heq]
  simp

theorem unicode_digit {n : ℕ} (h : n < 32) :
    unicode '0' '0' (Hex.digit (n / 16)) (Hex.digit (n % 16)) = some (Char.ofNat n) := by
  have hzero : Hex.value '0' = some 0 := by decide
  have hhigh : Hex.value (Hex.digit (n / 16)) = some (n / 16) := Hex.value_digit _ (by omega)
  have hlow : Hex.value (Hex.digit (n % 16)) = some (n % 16) := Hex.value_digit _ (by omega)
  have hsum : 16 * (n / 16) + n % 16 = n := Nat.div_add_mod n 16
  have hvalid : n.isValidChar := Or.inl (by omega)
  simp [unicode, hzero, hhigh, hlow, hsum, hvalid]

theorem readString_plain {c : Char} (hquote : c ≠ '"') (hslash : c ≠ '\\') (rest : List Char) :
    readString (c :: rest) = (readString rest).map fun r => (c :: r.1, r.2) := by
  rw [readString.eq_def]
  simp only [hquote, hslash, if_false]

theorem readString_table {c e : Char} (h : (c, e) ∈ escapes) (rest : List Char) :
    readString ('\\' :: e :: rest) = (readString rest).map fun r => (c :: r.1, r.2) := by
  obtain ⟨hback, hne⟩ := escapes_swap _ h
  rw [readString.eq_def]
  simp only [Char.reduceEq, if_false, if_true, hne, hback]
  cases readString rest <;> rfl

theorem readString_unicode {a b d e c : Char} (h : unicode a b d e = some c) (rest : List Char) :
    readString ('\\' :: 'u' :: a :: b :: d :: e :: rest) =
      (readString rest).map fun r => (c :: r.1, r.2) := by
  rw [readString.eq_def]
  simp only [Char.reduceEq, if_false, if_true, h]
  cases readString rest <;> rfl

/-- An escaped character is read as one character. -/
theorem readString_escape (c : Char) (rest : List Char) :
    readString (escape c ++ rest) = (readString rest).map fun r => (c :: r.1, r.2) := by
  unfold escape
  split
  · next e he => exact readString_table (mem_escapes he) rest
  · next hnone =>
    split_ifs with hlow
    · have hcode := unicode_digit hlow
      rw [Char.ofNat_toNat] at hcode
      exact readString_unicode hcode rest
    · -- the quote and the backslash are in the table
      apply readString_plain
      · rintro rfl
        cases hnone
      · rintro rfl
        cases hnone

theorem readString_writeString (s : String) (rest : List Char) :
    readString (s.toList.flatMap escape ++ '"' :: rest) = some (s.toList, rest) := by
  induction s.toList with
  | nil =>
    rw [List.flatMap_nil, List.nil_append, readString.eq_def]
    rfl
  | cons c cs ih => rw [List.flatMap_cons, List.append_assoc, readString_escape, ih, Option.map_some]

/-- What may come after a number. -/
def EndsNumber (rest : List Char) : Prop := ∀ c ∈ rest.head?, c.isDigit = false ∧ c ≠ 'e'

theorem endsNumber_nil : EndsNumber [] := by simp [EndsNumber]

theorem endsNumber_cons {c : Char} (rest : List Char) (h : c.isDigit = false ∧ c ≠ 'e') :
    EndsNumber (c :: rest) := by simpa [EndsNumber] using h

theorem isDigit_toDigits (n : ℕ) : ∀ c ∈ Nat.toDigits 10 n, c.isDigit = true :=
  fun _ hc => Nat.isDigit_of_mem_toDigits (by decide) (by decide) hc

theorem readNat_toDigits (n : ℕ) {rest : List Char} (h : ∀ c ∈ rest.head?, c.isDigit = false) :
    readNat (Nat.toDigits 10 n ++ rest) = some (n, rest) := by
  have hstop : rest.takeWhile Char.isDigit = [] ∧ rest.dropWhile Char.isDigit = rest := by
    cases rest with
    | nil => exact ⟨rfl, rfl⟩
    | cons c rest =>
      have hc : c.isDigit = false := h c rfl
      simp [hc]
  have htake : (Nat.toDigits 10 n ++ rest).takeWhile Char.isDigit = Nat.toDigits 10 n := by
    rw [List.takeWhile_append_of_pos (isDigit_toDigits n), hstop.1, List.append_nil]
  have hdrop : (Nat.toDigits 10 n ++ rest).dropWhile Char.isDigit = rest := by
    rw [List.dropWhile_append_of_pos (isDigit_toDigits n), hstop.2]
  rw [readNat, htake, hdrop, if_neg Nat.toDigits_ne_nil, Nat.ofDigitChars_ten_toDigits]

/-- The first character of the digits of a number is a digit. -/
theorem head_toDigits (n : ℕ) (rest : List Char) :
    ∃ c cs, Nat.toDigits 10 n ++ rest = c :: cs ∧ c.isDigit = true := by
  cases hdigits : Nat.toDigits 10 n with
  | nil => exact (Nat.toDigits_ne_nil hdigits).elim
  | cons c cs => exact ⟨c, cs ++ rest, rfl, isDigit_toDigits n c (by simp [hdigits])⟩

theorem readInt_writeInt (n : ℤ) {rest : List Char} (h : ∀ c ∈ rest.head?, c.isDigit = false) :
    readInt (writeInt n ++ rest) = some (n, rest) := by
  unfold writeInt
  split_ifs with hneg
  · have habs : -(n.natAbs : ℤ) = n := by omega
    rw [List.cons_append, readInt, List.head?_cons, if_pos rfl, List.tail_cons,
      readNat_toDigits n.natAbs h, Option.map_some, habs]
  · have habs : (n.natAbs : ℤ) = n := by omega
    obtain ⟨c, cs, heq, hdigit⟩ := head_toDigits n.natAbs rest
    have hsign : (Nat.toDigits 10 n.natAbs ++ rest).head? ≠ some '-' := by
      rw [heq]
      rintro ⟨⟩
      cases hdigit
    rw [readInt, if_neg hsign, readNat_toDigits n.natAbs h, Option.map_some, habs]

/-- An integer begins with its sign or with a digit. -/
theorem head_writeInt (n : ℤ) (rest : List Char) :
    ∃ c cs, writeInt n ++ rest = c :: cs ∧ (c = '-' ∨ c.isDigit = true) := by
  unfold writeInt
  split_ifs with hneg
  · exact ⟨'-', _, rfl, .inl rfl⟩
  · obtain ⟨c, cs, heq, hdigit⟩ := head_toDigits n.natAbs rest
    exact ⟨c, cs, heq, .inr hdigit⟩

theorem readNumber_writeNumber (n : Number) {rest : List Char} (h : EndsNumber rest) :
    readNumber (writeNumber n ++ rest) = some (n, rest) := by
  obtain ⟨m, e⟩ := n
  have hdigit : ∀ c ∈ rest.head?, c.isDigit = false := fun c hc => (h c hc).1
  cases e with
  | none =>
    have hexp : rest.head? ≠ some 'e' := fun heq => (h 'e' heq).2 rfl
    simp [readNumber, writeNumber, readInt_writeInt m hdigit, hexp]
  | some e =>
    have hmantissa : readInt (writeInt m ++ 'e' :: (writeInt e ++ rest)) =
        some (m, 'e' :: (writeInt e ++ rest)) := readInt_writeInt m (by simp)
    simp [readNumber, writeNumber, hmantissa, readInt_writeInt e hdigit]

theorem head_writeNumber (n : Number) (rest : List Char) :
    ∃ c cs, writeNumber n ++ rest = c :: cs ∧ (c = '-' ∨ c.isDigit = true) := by
  unfold writeNumber
  rw [List.append_assoc]
  exact head_writeInt n.mantissa _

/-- No value begins like the end of an array. -/
theorem head_write (v : Json) (rest : List Char) : (write v ++ rest).head? ≠ some ']' := by
  cases v with
  | null => simp [write]
  | bool b => cases b <;> simp [write]
  | number n =>
    obtain ⟨c, cs, heq, hc⟩ := head_writeNumber n rest
    rw [write, heq]
    rintro ⟨⟩
    rcases hc with hc | hc <;> cases hc
  | string s => simp [write, writeString]
  | array elems => cases elems <;> simp [write]
  | object members => rcases members with _ | ⟨⟨k, v⟩, ms⟩ <;> simp [write]

theorem readValue_number (n : Number) (fuel : ℕ) {rest : List Char} (h : EndsNumber rest) :
    readValue (fuel + 1) (writeNumber n ++ rest) = some (.number n, rest) := by
  have hread := readNumber_writeNumber n h
  obtain ⟨c, cs, heq, hc⟩ := head_writeNumber n rest
  have hletters : ∀ d ∈ ['n', 't', 'f', '"', '[', '{'], ¬ (d = '-' ∨ d.isDigit = true) := by simp
  have hother : ∀ d ∈ ['n', 't', 'f', '"', '[', '{'], c ≠ d := by
    rintro d hd rfl
    exact hletters c hd hc
  rw [heq] at hread ⊢
  simp only [List.forall_mem_cons] at hother
  simp only [readValue, hother, if_false, hread, Option.map_some]

mutual

/-- Enough fuel reads a value up to its end. -/
theorem readValue_write (v : Json) (fuel : ℕ) (rest : List Char)
    (hfuel : 2 * (write v).length ≤ fuel) (h : EndsNumber rest) :
    readValue fuel (write v ++ rest) = some (v, rest) := by
  cases fuel with
  | zero =>
    have hhead := head_write v [']']
    rw [List.eq_nil_of_length_eq_zero (l := write v) (by omega)] at hhead
    exact (hhead rfl).elim
  | succ fuel =>
    match v with
    | .null => simp [write, readValue, skip]
    | .bool true => simp [write, readValue, skip]
    | .bool false => simp [write, readValue, skip]
    | .number n => exact readValue_number n fuel h
    | .string s => simp [write, writeString, readValue, readString_writeString]
    | .array [] =>
      have helems := readElems_writeElems [] fuel rest
      simp only [write, writeElems, List.length_cons, List.length_nil, List.cons_append,
        List.nil_append] at hfuel helems
      simp [write, readValue, helems (by omega)]
    | .array (v :: vs) =>
      have hhead := head_write v (writeElems vs ++ rest)
      have helems := readElems_writeElems (v :: vs) fuel rest
      simp only [write, writeElems, List.length_cons, List.length_append, List.cons_append,
        List.append_assoc] at hfuel helems
      simp only [write, List.cons_append, List.append_assoc, readValue, Char.reduceEq, if_false,
        if_true, hhead, helems (by omega), Option.map_some]
    | .object [] =>
      have hmembers := readMembers_writeMembers [] fuel rest
      simp only [write, writeMembers, List.length_cons, List.length_nil, List.cons_append,
        List.nil_append] at hfuel hmembers
      simp [write, readValue, hmembers (by omega)]
    | .object ((k, v) :: ms) =>
      have hmembers := readMembers_writeMembers ((k, v) :: ms) fuel rest
      simp only [write, writeMembers, List.length_cons, List.length_append, List.cons_append,
        List.append_assoc] at hfuel hmembers
      have hhead : (writeString k ++ ':' :: (write v ++ (writeMembers ms ++ rest))).head? ≠
          some '}' := by simp [writeString]
      simp only [write, List.cons_append, List.append_assoc, readValue, Char.reduceEq, if_false,
        if_true, hhead, hmembers (by omega), Option.map_some]

theorem readElems_writeElems (vs : List Json) (fuel : ℕ) (rest : List Char)
    (hfuel : 2 * (writeElems vs).length ≤ fuel + 1) :
    readElems fuel (writeElems vs ++ rest) = some (vs, rest) := by
  cases fuel with
  | zero =>
    have hpos : 0 < (writeElems vs).length := by cases vs <;> simp [writeElems]
    omega
  | succ fuel =>
    match vs with
    | [] => simp [writeElems, readElems]
    | v :: vs =>
      simp only [writeElems, List.length_cons, List.length_append] at hfuel
      have hend : EndsNumber (writeElems vs ++ rest) := by
        cases vs <;> exact endsNumber_cons _ (by decide)
      have hvalue := readValue_write v fuel _ (by omega) hend
      have helems := readElems_writeElems vs fuel rest (by omega)
      simp [writeElems, readElems, hvalue, helems]

theorem readMembers_writeMembers (ms : List (String × Json)) (fuel : ℕ) (rest : List Char)
    (hfuel : 2 * (writeMembers ms).length ≤ fuel + 1) :
    readMembers fuel (writeMembers ms ++ rest) = some (ms, rest) := by
  cases fuel with
  | zero =>
    have hpos : 0 < (writeMembers ms).length := by
      rcases ms with _ | ⟨⟨k, v⟩, ms⟩ <;> simp [writeMembers]
    omega
  | succ fuel =>
    match ms with
    | [] => simp [writeMembers, readMembers]
    | (k, v) :: ms =>
      simp only [writeMembers, List.length_cons, List.length_append] at hfuel
      have hend : EndsNumber (writeMembers ms ++ rest) := by
        rcases ms with _ | ⟨⟨k, v⟩, ms⟩ <;> exact endsNumber_cons _ (by decide)
      have hvalue := readValue_write v fuel _ (by omega) hend
      have hmembers := readMembers_writeMembers ms fuel rest (by omega)
      simp [writeMembers, readMembers, writeString, skip, readString_writeString, hvalue, hmembers]

end

/-- What `text` writes, `read` reads back. -/
@[simp] theorem read_text (v : Json) : read v.text = some v := by
  have hvalue := readValue_write v _ [] (Nat.le_refl _) endsNumber_nil
  rw [List.append_nil] at hvalue
  simp [read, text, hvalue]

/-! ### No text has a control character -/

/-- None of the characters is a control character. -/
def Printable (cs : List Char) : Prop := ∀ c ∈ cs, 32 ≤ c.toNat

@[simp] theorem printable_nil : Printable [] := by simp [Printable]

@[simp] theorem printable_cons {c : Char} {cs : List Char} :
    Printable (c :: cs) ↔ 32 ≤ c.toNat ∧ Printable cs := List.forall_mem_cons

@[simp] theorem printable_append {cs ds : List Char} :
    Printable (cs ++ ds) ↔ Printable cs ∧ Printable ds := List.forall_mem_append

theorem printable_of_isDigit {cs : List Char} (h : ∀ c ∈ cs, c.isDigit = true) : Printable cs := by
  intro c hc
  have hdigit := h c hc
  simp only [Char.isDigit, Bool.and_eq_true, decide_eq_true_eq, ge_iff_le] at hdigit
  have hlow : 48 ≤ c.toNat := UInt32.le_iff_toNat_le.mp hdigit.1
  omega

theorem digit_printable : ∀ n < 16, 32 ≤ (Hex.digit n).toNat := by decide

theorem escape_printable (c : Char) : Printable (escape c) := by
  unfold escape
  split
  · next e he =>
    have hletters : ∀ e ∈ escapes, 32 ≤ e.2.toNat := by decide
    simp [hletters _ (mem_escapes he)]
  · split_ifs with hlow
    · have hhigh := digit_printable (c.toNat / 16) (by omega)
      have hrest := digit_printable (c.toNat % 16) (by omega)
      simp [hhigh, hrest]
    · simp only [printable_cons, printable_nil, and_true]
      omega

theorem writeString_printable (s : String) : Printable (writeString s) := by
  have hchars : Printable (s.toList.flatMap escape) := by
    intro c hc
    obtain ⟨d, -, hd⟩ := List.mem_flatMap.mp hc
    exact escape_printable d c hd
  simp [writeString, hchars]

theorem writeInt_printable (n : ℤ) : Printable (writeInt n) := by
  have hdigits := printable_of_isDigit (isDigit_toDigits n.natAbs)
  unfold writeInt
  split_ifs <;> simp [hdigits]

theorem writeNumber_printable (n : Number) : Printable (writeNumber n) := by
  obtain ⟨m, e⟩ := n
  cases e with
  | none => simp [writeNumber, writeInt_printable]
  | some e => simp [writeNumber, writeInt_printable]

mutual

theorem write_printable (v : Json) : Printable (write v) := by
  match v with
  | .null => simp [write]
  | .bool true => simp [write]
  | .bool false => simp [write]
  | .number n => exact writeNumber_printable n
  | .string s => exact writeString_printable s
  | .array [] => simp [write]
  | .array (v :: vs) => simp [write, write_printable v, writeElems_printable vs]
  | .object [] => simp [write]
  | .object ((k, v) :: ms) =>
    simp [write, writeString_printable k, write_printable v, writeMembers_printable ms]

theorem writeElems_printable (vs : List Json) : Printable (writeElems vs) := by
  match vs with
  | [] => simp [writeElems]
  | v :: vs => simp [writeElems, write_printable v, writeElems_printable vs]

theorem writeMembers_printable (ms : List (String × Json)) : Printable (writeMembers ms) := by
  match ms with
  | [] => simp [writeMembers]
  | (k, v) :: ms =>
    simp [writeMembers, writeString_printable k, write_printable v, writeMembers_printable ms]

end

/-- The text of a value is one line. -/
theorem newline_not_mem_text (v : Json) : '\n' ∉ v.text.toList := by
  intro hmem
  rw [text, String.toList_ofList] at hmem
  have hprintable := write_printable v '\n' hmem
  revert hprintable
  decide

/-! ### Structures -/

/-- The values of the members with a name, in order. -/
def valuesOf (members : List (String × Json)) (name : String) : List Json :=
  members.filterMap fun m => if m.1 = name then some m.2 else none

/-- The fields of a structure: in an object by name, where other names are skipped and a name given
twice is an error, and in an array by place. -/
def fields (names : List String) : Json → Option (String → Option Json)
  | .object members =>
    if ∀ name ∈ names, (valuesOf members name).length ≤ 1 then
      some fun name => (valuesOf members name).head?
    else none
  | .array elems =>
    if elems.length = names.length then some fun name => elems[names.idxOf name]? else none
  | _ => none

/-- A field that has to be there. -/
def required {α : Type} (read : Json → Option α) (field : Option Json) : Option α := field.bind read

/-- A field of an `Option` type: it may be missing or null. -/
def optional {α : Type} (read : Json → Option α) : Option Json → Option (Option α)
  | none => some none
  | some .null => some none
  | some v => (read v).map some

def asUnit : Json → Option Unit
  | .null => some ()
  | _ => none

def asBool : Json → Option Bool
  | .bool b => some b
  | _ => none

def asString : Json → Option String
  | .string s => some s
  | _ => none

theorem asString_eq_some {v : Json} {s : String} : v.asString = some s ↔ v = .string s := by
  cases v <;> simp [asString]

/-- Any number, as a floating point type takes it. -/
def asNumber : Json → Option Number
  | .number n => some n
  | _ => none

/-- An integer literal from `low` up to `high`, without it. -/
def asInt (low high : ℤ) : Json → Option ℤ
  | .number ⟨n, none⟩ => if low ≤ n ∧ n < high then some n else none
  | _ => none

/-- A natural number, without an upper limit. -/
def asNat : Json → Option ℕ
  | .number ⟨n, none⟩ => if 0 ≤ n then some n.toNat else none
  | _ => none

def asU32 (v : Json) : Option ℕ := (asInt 0 (2 ^ 32) v).map Int.toNat

def asU64 (v : Json) : Option ℕ := (asInt 0 (2 ^ 64) v).map Int.toNat

def asI32 : Json → Option ℤ := asInt (-2 ^ 31) (2 ^ 31)

def asI64 : Json → Option ℤ := asInt (-2 ^ 63) (2 ^ 63)

def asList {α : Type} (read : Json → Option α) : Json → Option (List α)
  | .array elems => elems.mapM read
  | _ => none

end Json
