import MwBtcSwap.Lib.Serde

/-! A JSON library for the samples: it writes a value in one line or indented, and its reader skips the
white space between the tokens. -/

namespace Json

/-! ### Writing -/

/-- The white space of JSON. -/
def isSpace (c : Char) : Bool := c = ' ' || c = '\n' || c = '\t' || c = '\r'

/-- Where a text has white space: before the elements of an array or object and before its end, by the
depth, and after a colon. -/
structure Layout where
  gap : ℕ → List Char
  colon : List Char
  gap_space : ∀ depth, ∀ c ∈ gap depth, isSpace c = true
  colon_space : ∀ c ∈ colon, isSpace c = true

mutual

/-- The text of a value at a depth. -/
def Layout.write (l : Layout) : ℕ → Json → List Char
  | depth, .array (v :: vs) => '[' :: (l.gap (depth + 1) ++ (l.write (depth + 1) v ++ l.writeElems depth vs))
  | depth, .object ((k, v) :: ms) =>
    '{' :: (l.gap (depth + 1) ++ (writeString k ++
      ':' :: (l.colon ++ (l.write (depth + 1) v ++ l.writeMembers depth ms))))
  | _, v => Json.write v

/-- The elements of an array after its first one, up to its end. -/
def Layout.writeElems (l : Layout) : ℕ → List Json → List Char
  | depth, [] => l.gap depth ++ [']']
  | depth, v :: vs => ',' :: (l.gap (depth + 1) ++ (l.write (depth + 1) v ++ l.writeElems depth vs))

/-- The members of an object after its first one, up to its end. -/
def Layout.writeMembers (l : Layout) : ℕ → List (String × Json) → List Char
  | depth, [] => l.gap depth ++ ['}']
  | depth, (k, v) :: ms =>
    ',' :: (l.gap (depth + 1) ++ (writeString k ++
      ':' :: (l.colon ++ (l.write (depth + 1) v ++ l.writeMembers depth ms))))

end

/-- Every element on its own line, indented by its depth. -/
def Layout.indented : Layout where
  gap depth := '\n' :: List.replicate (2 * depth) ' '
  colon := [' ']
  gap_space depth c hc := by
    rcases List.mem_cons.mp hc with rfl | hc
    · rfl
    · rw [List.eq_of_mem_replicate hc]
      rfl
  colon_space c hc := by
    rw [List.mem_singleton.mp hc]
    rfl

/-- No white space. -/
def Layout.compact : Layout := ⟨fun _ => [], [], by simp, by simp⟩

@[simp] theorem Layout.compact_gap (depth : ℕ) : compact.gap depth = [] := rfl

@[simp] theorem Layout.compact_colon : compact.colon = [] := rfl

/-- The indented text of a value. -/
def prettyText (v : Json) : String := String.ofList (Layout.indented.write 0 v)

/-! ### Reading -/

/-- A text from its first token on. -/
def trim (cs : List Char) : List Char := cs.dropWhile isSpace

mutual

/-- A value and the rest of the text, with white space before every token. -/
def readSpaced : ℕ → List Char → Option (Json × List Char)
  | 0, _ => none
  | fuel + 1, cs =>
    match trim cs with
    | [] => none
    | c :: rest =>
      if c = '[' then
        (readSpacedElems fuel (if (trim rest).head? = some ']' then rest else ',' :: rest)).map
          fun r => (.array r.1, r.2)
      else if c = '{' then
        (readSpacedMembers fuel (if (trim rest).head? = some '}' then rest else ',' :: rest)).map
          fun r => (.object r.1, r.2)
      else readValue 1 (c :: rest)

/-- The elements of an array, each after a comma, up to its end. -/
def readSpacedElems : ℕ → List Char → Option (List Json × List Char)
  | 0, _ => none
  | fuel + 1, cs =>
    match trim cs with
    | [] => none
    | c :: rest =>
      if c = ']' then some ([], rest)
      else if c = ',' then do
        let v ← readSpaced fuel rest
        let vs ← readSpacedElems fuel v.2
        return (v.1 :: vs.1, vs.2)
      else none

/-- The members of an object, each after a comma, up to its end. -/
def readSpacedMembers : ℕ → List Char → Option (List (String × Json) × List Char)
  | 0, _ => none
  | fuel + 1, cs =>
    match trim cs with
    | [] => none
    | c :: rest =>
      if c = '}' then some ([], rest)
      else if c = ',' then do
        let quoted ← skip ['"'] (trim rest)
        let k ← readString quoted
        let rest ← skip [':'] (trim k.2)
        let v ← readSpaced fuel rest
        let ms ← readSpacedMembers fuel v.2
        return ((String.ofList k.1, v.1) :: ms.1, ms.2)
      else none

end

/-- The value of a text, with white space anywhere between its tokens. -/
def readText (s : String) : Option Json := do
  let r ← readSpaced (2 * s.toList.length) s.toList
  if trim r.2 = [] then some r.1 else none

/-! ### What is written is read -/

theorem trim_append {gap : List Char} (h : ∀ c ∈ gap, isSpace c = true) (cs : List Char) :
    trim (gap ++ cs) = trim cs := List.dropWhile_append_of_pos h

theorem trim_cons {c : Char} (h : isSpace c = false) (cs : List Char) : trim (c :: cs) = c :: cs := by
  simp [trim, h]

theorem isSpace_of_number {c : Char} (h : c = '-' ∨ c.isDigit = true) : isSpace c = false := by
  by_contra hspace
  simp only [isSpace, Bool.or_eq_true, decide_eq_true_eq, Bool.not_eq_false] at hspace
  rcases hspace with ((rfl | rfl) | rfl) | rfl <;> rcases h with h | h <;> cases h

/-- White space ends a number. -/
theorem endsNumber_append {gap : List Char} (h : ∀ c ∈ gap, isSpace c = true) {cs : List Char}
    (hcs : EndsNumber cs) : EndsNumber (gap ++ cs) := by
  cases gap with
  | nil => exact hcs
  | cons c gap =>
    refine endsNumber_cons _ ⟨?_, ?_⟩
    · by_contra hdigit
      rw [Bool.not_eq_false] at hdigit
      exact absurd (h c List.mem_cons_self) (by simp [isSpace_of_number (.inr hdigit)])
    · rintro rfl
      exact absurd (h 'e' List.mem_cons_self) (by decide)

/-- A text is read from its first token on. -/
theorem readSpaced_trim {cs cs' : List Char} (h : trim cs = trim cs') (fuel : ℕ) :
    readSpaced fuel cs = readSpaced fuel cs' := by
  cases fuel with
  | zero => rfl
  | succ fuel => rw [readSpaced, readSpaced, h]

variable {l : Layout}

/-- The text of a value begins with a token, and not with the end of an array. -/
theorem layout_head (depth : ℕ) (v : Json) (rest : List Char) :
    ∃ c cs, l.write depth v ++ rest = c :: cs ∧ isSpace c = false ∧ c ≠ ']' := by
  match v with
  | .null => exact ⟨_, _, rfl, rfl, by decide⟩
  | .bool true => exact ⟨_, _, rfl, rfl, by decide⟩
  | .bool false => exact ⟨_, _, rfl, rfl, by decide⟩
  | .number n =>
    obtain ⟨c, cs, heq, hc⟩ := head_writeNumber n rest
    refine ⟨c, cs, by simpa [Layout.write, write] using heq, isSpace_of_number hc, ?_⟩
    rintro rfl
    rcases hc with hc | hc <;> cases hc
  | .string s => exact ⟨_, _, rfl, rfl, by decide⟩
  | .array [] => exact ⟨_, _, rfl, rfl, by decide⟩
  | .array (v :: vs) => exact ⟨_, _, rfl, rfl, by decide⟩
  | .object [] => exact ⟨_, _, rfl, rfl, by decide⟩
  | .object (m :: ms) => exact ⟨_, _, rfl, rfl, by decide⟩

/-- A value without parts, in one step. -/
theorem readSpaced_scalar {v : Json} {depth fuel : ℕ} {rest : List Char}
    (hread : readValue 1 (l.write depth v ++ rest) = some (v, rest))
    (hscalar : ∀ c cs, l.write depth v ++ rest = c :: cs → c ≠ '[' ∧ c ≠ '{') :
    readSpaced (fuel + 1) (l.write depth v ++ rest) = some (v, rest) := by
  obtain ⟨c, cs, heq, hspace, -⟩ := layout_head depth v rest
  obtain ⟨harray, hobject⟩ := hscalar c cs heq
  rw [heq] at hread ⊢
  simp only [readSpaced, trim_cons hspace, if_neg harray, if_neg hobject, hread]

mutual

/-- Enough fuel reads a value up to its end. -/
theorem readSpaced_write (v : Json) (depth fuel : ℕ) (rest : List Char)
    (hfuel : 2 * (l.write depth v).length ≤ fuel) (h : EndsNumber rest) :
    readSpaced fuel (l.write depth v ++ rest) = some (v, rest) := by
  cases fuel with
  | zero =>
    obtain ⟨c, cs, heq, -⟩ := layout_head (l := l) depth v []
    rw [List.append_nil] at heq
    simp [heq] at hfuel
  | succ fuel =>
    match v with
    | .null =>
      exact readSpaced_scalar (by simp [Layout.write, write, readValue, skip]) (by simp [Layout.write, write])
    | .bool true =>
      exact readSpaced_scalar (by simp [Layout.write, write, readValue, skip]) (by simp [Layout.write, write])
    | .bool false =>
      exact readSpaced_scalar (by simp [Layout.write, write, readValue, skip]) (by simp [Layout.write, write])
    | .number n =>
      refine readSpaced_scalar (readValue_number n 0 h) fun c cs heq => ?_
      obtain ⟨d, ds, heq', hd⟩ := head_writeNumber n rest
      obtain ⟨rfl, -⟩ := List.cons.inj (heq.symm.trans heq')
      constructor <;> rintro rfl <;> rcases hd with hd | hd <;> cases hd
    | .string s =>
      exact readSpaced_scalar (by simp [Layout.write, write, writeString, readValue, readString_writeString])
        (by simp [Layout.write, write, writeString])
    | .array [] =>
      obtain ⟨fuel, rfl⟩ : ∃ n, fuel = n + 1 := ⟨fuel - 1, by simp [Layout.write, write] at hfuel; omega⟩
      simp [Layout.write, write, readSpaced, readSpacedElems, trim, isSpace]
    | .array (v :: vs) =>
      have helems := readSpacedElems_write (v :: vs) depth fuel rest
      simp only [Layout.write, Layout.writeElems, List.length_cons, List.length_append, List.cons_append,
        List.append_assoc] at hfuel helems
      obtain ⟨c, cs, heq, hspace, hc⟩ := layout_head (depth + 1) v (l.writeElems depth vs ++ rest)
      have hhead : (trim (l.gap (depth + 1) ++
          (l.write (depth + 1) v ++ (l.writeElems depth vs ++ rest)))).head? ≠ some ']' := by
        rw [trim_append (l.gap_space _), heq, trim_cons hspace]
        simpa using hc
      simp only [Layout.write, List.cons_append, List.append_assoc, readSpaced, trim_cons (c := '[') rfl,
        if_true, if_neg hhead, helems (by omega), Option.map_some]
    | .object [] =>
      obtain ⟨fuel, rfl⟩ : ∃ n, fuel = n + 1 := ⟨fuel - 1, by simp [Layout.write, write] at hfuel; omega⟩
      simp [Layout.write, write, readSpaced, readSpacedMembers, trim, isSpace]
    | .object ((k, v) :: ms) =>
      have hmembers := readSpacedMembers_write ((k, v) :: ms) depth fuel rest
      simp only [Layout.write, Layout.writeMembers, List.length_cons, List.length_append, List.cons_append,
        List.append_assoc] at hfuel hmembers
      have hhead : ∀ cs, (trim (l.gap (depth + 1) ++ (writeString k ++ cs))).head? ≠ some '}' := by
        intro cs
        rw [trim_append (l.gap_space _), writeString, List.cons_append, trim_cons rfl]
        simp
      simp only [Layout.write, List.cons_append, List.append_assoc, readSpaced, trim_cons (c := '{') rfl,
        Char.reduceEq, if_true, if_false, if_neg (hhead _), hmembers (by omega), Option.map_some]

theorem readSpacedElems_write (vs : List Json) (depth fuel : ℕ) (rest : List Char)
    (hfuel : 2 * (l.writeElems depth vs).length ≤ fuel + 1) :
    readSpacedElems fuel (l.writeElems depth vs ++ rest) = some (vs, rest) := by
  cases fuel with
  | zero =>
    have hpos : 0 < (l.writeElems depth vs).length := by cases vs <;> simp [Layout.writeElems]
    omega
  | succ fuel =>
    match vs with
    | [] =>
      simp [Layout.writeElems, readSpacedElems, trim_append (l.gap_space _), trim_cons (c := ']') rfl]
    | v :: vs =>
      simp only [Layout.writeElems, List.length_cons, List.length_append] at hfuel
      have hend : EndsNumber (l.writeElems depth vs ++ rest) := by
        cases vs with
        | nil =>
          rw [Layout.writeElems, List.append_assoc]
          exact endsNumber_append (l.gap_space _) (endsNumber_cons _ (by decide))
        | cons v vs => exact endsNumber_cons _ (by decide)
      have hvalue := readSpaced_write v (depth + 1) fuel _ (by omega) hend
      have helems := readSpacedElems_write vs depth fuel rest (by omega)
      have hgap := readSpaced_trim (trim_append (l.gap_space (depth + 1))
        (l.write (depth + 1) v ++ (l.writeElems depth vs ++ rest))) fuel
      simp [Layout.writeElems, readSpacedElems, trim_cons (c := ',') rfl, hgap, hvalue, helems]

theorem readSpacedMembers_write (ms : List (String × Json)) (depth fuel : ℕ) (rest : List Char)
    (hfuel : 2 * (l.writeMembers depth ms).length ≤ fuel + 1) :
    readSpacedMembers fuel (l.writeMembers depth ms ++ rest) = some (ms, rest) := by
  cases fuel with
  | zero =>
    have hpos : 0 < (l.writeMembers depth ms).length := by
      rcases ms with _ | ⟨⟨k, v⟩, ms⟩ <;> simp [Layout.writeMembers]
    omega
  | succ fuel =>
    match ms with
    | [] =>
      simp [Layout.writeMembers, readSpacedMembers, trim_append (l.gap_space _), trim_cons (c := '}') rfl]
    | (k, v) :: ms =>
      simp only [Layout.writeMembers, List.length_cons, List.length_append] at hfuel
      have hend : EndsNumber (l.writeMembers depth ms ++ rest) := by
        cases ms with
        | nil =>
          rw [Layout.writeMembers, List.append_assoc]
          exact endsNumber_append (l.gap_space _) (endsNumber_cons _ (by decide))
        | cons m ms => exact endsNumber_cons _ (by decide)
      have hvalue := readSpaced_write v (depth + 1) fuel _ (by omega) hend
      have hmembers := readSpacedMembers_write ms depth fuel rest (by omega)
      have hcolon := readSpaced_trim (trim_append l.colon_space
        (l.write (depth + 1) v ++ (l.writeMembers depth ms ++ rest))) fuel
      simp [Layout.writeMembers, readSpacedMembers, trim_cons (c := ',') rfl, trim_cons (c := ':') rfl,
        trim_append (l.gap_space _), trim_cons (c := '"') rfl, writeString, skip, readString_writeString,
        hcolon, hvalue, hmembers]

end

/-- What is written in any layout is read back. -/
theorem readText_write (l : Layout) (v : Json) : readText (String.ofList (l.write 0 v)) = some v := by
  have hvalue := readSpaced_write (l := l) v 0 _ [] (Nat.le_refl _) endsNumber_nil
  rw [List.append_nil] at hvalue
  rw [readText, String.toList_ofList, hvalue]
  rfl

mutual

theorem compact_write (depth : ℕ) (v : Json) : Layout.compact.write depth v = write v := by
  match v with
  | .null | .bool _ | .number _ | .string _ | .array [] | .object [] => rfl
  | .array (v :: vs) =>
    simp [Layout.write, write, compact_write (depth + 1) v, compact_writeElems depth vs]
  | .object ((k, v) :: ms) =>
    simp [Layout.write, write, compact_write (depth + 1) v, compact_writeMembers depth ms]

theorem compact_writeElems (depth : ℕ) (vs : List Json) :
    Layout.compact.writeElems depth vs = writeElems vs := by
  match vs with
  | [] => rfl
  | v :: vs =>
    simp [Layout.writeElems, writeElems, compact_write (depth + 1) v, compact_writeElems depth vs]

theorem compact_writeMembers (depth : ℕ) (ms : List (String × Json)) :
    Layout.compact.writeMembers depth ms = writeMembers ms := by
  match ms with
  | [] => rfl
  | (k, v) :: ms =>
    simp [Layout.writeMembers, writeMembers, compact_write (depth + 1) v, compact_writeMembers depth ms]

end

/-- The compact text is read, too. -/
theorem readText_text (v : Json) : readText v.text = some v := by
  rw [text, ← compact_write 0 v]
  exact readText_write _ v

def sampleLib : JsonLib where
  toString := text
  toStringPretty := prettyText
  fromStr := readText

theorem sampleLib_lawful : sampleLib.Lawful where
  fromStr_toString v _ := readText_text v
  fromStr_toStringPretty v _ := readText_write .indented v
  line := newline_not_mem_text

end Json
