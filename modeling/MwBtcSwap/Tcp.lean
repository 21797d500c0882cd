import MwBtcSwap.Lib.Wire
import MwBtcSwap.Swap.Handshake

/-! `tcp.rs`: messages as lines of a socket, each of which is read with a buffer of its own. -/

namespace MwBtcSwap

open Interaction Machine Grin Bitcoin Wire

/-- The bytes of a text. -/
def textBytes (text : String) : List UInt8 := text.toList.flatMap String.utf8EncodeChar

/-- The lines that `send_msg` and `receive_msg` exchange; a `BufReader` has 8192 bytes. -/
def tcp : Format UInt8 := ⟨10, textBytes "ACK", 8192⟩

/-- The calls of the parties of a connection: a message with the side that sends it. -/
abbrev Calls := List (Side × String)

/-- What they put on the wire. -/
def wireSession (calls : Calls) : Wire.Session UInt8 := calls.map fun e => (e.1, textBytes e.2)

theorem newline_ne_ofNat {n : ℕ} (hlow : 128 ≤ n) (hhigh : n < 256) : (10 : UInt8) ≠ UInt8.ofNat n := by
  intro heq
  have hnat : 10 = n % 256 := by simpa using congrArg UInt8.toNat heq
  omega

/-- The byte of the newline belongs to no other character. -/
theorem newline_mem_utf8EncodeChar {c : Char} (h : 10 ∈ String.utf8EncodeChar c) : c = '\n' := by
  unfold String.utf8EncodeChar at h
  extract_lets v at h
  split_ifs at h with h₁ h₂ h₃
  · rw [List.mem_singleton] at h
    have hnat : 10 = v % 256 := by simpa using congrArg UInt8.toNat h
    apply Char.ext
    apply UInt32.toNat_inj.mp
    show v = 10
    omega
  -- the bytes of the longer forms are from 128 on
  · simp only [List.mem_cons, List.not_mem_nil, or_false] at h
    rcases h with h | h <;> exact (newline_ne_ofNat (by omega) (by omega) h).elim
  · simp only [List.mem_cons, List.not_mem_nil, or_false] at h
    rcases h with h | h | h <;> exact (newline_ne_ofNat (by omega) (by omega) h).elim
  · simp only [List.mem_cons, List.not_mem_nil, or_false] at h
    rcases h with h | h | h | h <;> exact (newline_ne_ofNat (by omega) (by omega) h).elim

/-- A text without newlines is one line. -/
theorem newline_not_mem_textBytes {text : String} (h : '\n' ∉ text.toList) :
    tcp.newline ∉ textBytes text := by
  intro hmem
  obtain ⟨c, hc, hbyte⟩ := List.mem_flatMap.mp hmem
  rw [newline_mem_utf8EncodeChar hbyte] at hc
  exact h hc

theorem newline_not_mem_ack : tcp.newline ∉ tcp.ack := newline_not_mem_textBytes (by decide)

theorem newline_not_mem_wireSession {calls : Calls} (h : ∀ e ∈ calls, '\n' ∉ e.2.toList) :
    ∀ e ∈ wireSession calls, tcp.newline ∉ e.2 := by
  intro e he
  obtain ⟨call, hcall, rfl⟩ := List.mem_map.mp he
  exact newline_not_mem_textBytes (h call hcall)

theorem ack_length : tcp.ack.length + 2 ≤ tcp.bufSize := by decide

/-- The messages of a connection, none of which has a newline, survive every timing exactly when the
party that sends never changes. -/
theorem messages_lossless_iff {calls : Calls} (h : ∀ e ∈ calls, '\n' ∉ e.2.toList) :
    Lossless tcp (wireSession calls) ↔ calls.IsChain fun a b => a.1 = b.1 := by
  rw [lossless_iff_oneWay newline_not_mem_ack ack_length (newline_not_mem_wireSession h), OneWay,
    wireSession, List.isChain_map]

theorem messages_lossless_sample :
    Lossless tcp (wireSession [(.left, "02ab"), (.left, "03cd")]) :=
  (messages_lossless_iff (by decide)).mpr (by decide)

/-- A key and the key that answers it: a timing in which a byte of the second one is gone. -/
theorem message_lost : ∃ s, Reaches tcp (tcp.start (wireSession [(.left, "02ab"), (.right, "03cd")])) s ∧
    ¬ Sound (wireSession [(.left, "02ab"), (.right, "03cd")]) s := by
  obtain ⟨s, hreach, hlost⟩ : ∃ s, Reaches tcp (tcp.ready (fun _ => []) [(.left, textBytes "02ab"),
      (.right, textBytes "03cd")]) s ∧ (s .left).lost ≠ [] :=
    reaches_lost newline_not_mem_ack ack_length (newline_not_mem_textBytes (by decide))
  exact ⟨s, hreach, fun hsound => hlost (hsound.kept .left)⟩

/-! ### The calls of a phase -/

variable {K P : Type} [CommRing K] [AddCommGroup P] [Module K P] [DecidableEq K] [DecidableEq P]

variable {L : GrinLib K P} {B : BtcLib K P} {σ : Type}

/-- The call of an event on the side `d`. -/
def call? (L : GrinLib K P) (d : Side) : Event σ (@Op.Ans K P) → Option (Side × String)
  | ⟨_, .send msg, .ok _⟩ => some (d, msg.render L)
  | ⟨_, .recv, .ok msg⟩ => some (d.other, msg)
  | _ => none

/-- The messages of a run on the side `d`, in order. -/
def callsOf (L : GrinLib K P) (d : Side) (t : Trace K P σ) : Calls := t.filterMap (call? L d)

/-- `locking_phase_swap_btc` receives a key and sends its own right after the acknowledgement. -/
theorem lockingPhaseSwapBtc_turns {rand : LockBtcRand K} {slate s : SwapSlate K P}
    {t : Trace K P (SwapSlate K P)} {u : Unit} (d : Side)
    (h : Steps (lockingPhaseSwapBtc L B rand slate) t (.ret s u)) :
    ∃ m m' rest, callsOf L d t = (d.other, m) :: (d, m') :: rest := by
  simp only [lockingPhaseSwapBtc, receivePubKey, Proc.bind_apply, Proc.modify_apply, Prog.bind_ret,
    Prog.bind_assoc, steps_receiveMsg_bind, steps_lift_bind, steps_sendMsg_bind] at h
  obtain ⟨m, t₁, rfl, pubA, -, t₂, rfl, -⟩ := h
  exact ⟨m, _, _, rfl⟩

/-- So some timing of the phase loses a byte. -/
theorem lockingPhaseSwapBtc_loses {rand : LockBtcRand K} {slate s : SwapSlate K P}
    {t : Trace K P (SwapSlate K P)} {u : Unit} (d : Side)
    (h : Steps (lockingPhaseSwapBtc L B rand slate) t (.ret s u))
    (hlines : ∀ e ∈ callsOf L d t, '\n' ∉ e.2.toList) :
    ¬ Lossless tcp (wireSession (callsOf L d t)) := by
  rw [lossless_iff_oneWay newline_not_mem_ack ack_length (newline_not_mem_wireSession hlines)]
  obtain ⟨m, m', rest, hcalls⟩ := lockingPhaseSwapBtc_turns d h
  rw [hcalls]
  intro hone
  exact d.other_ne (List.isChain_cons_cons.mp hone).1

/-! ### A stream that ends -/

/-- The text of bytes in UTF-8. -/
def textOfBytes (bytes : List UInt8) : Option String := String.fromUTF8? bytes.toByteArray

/-- The bytes that `read_line` appends: a line with its newline, or all that is left. -/
def readLine (bytes : List UInt8) : List UInt8 :=
  match splitLine tcp.newline bytes with
  | some (line, _) => tcp.line line
  | none => bytes

/-- `String::truncate`: a length that is not at the boundary of a character is a panic. -/
def truncate (text : String) (len : ℕ) : Outcome String :=
  if (textBytes text).length ≤ len then .ok text
  else Outcome.unwrap "assertion failed: self.is_char_boundary(new_len)"
    (textOfBytes ((textBytes text).take len))

/-- `write_to_stream` -/
def writeToStream (msg : String) : List UInt8 := tcp.line (textBytes msg)

/-- `read_from_stream`, for a stream that ends after some bytes. -/
def readFromStream (checks : Bool) (bytes : List UInt8) : Outcome String := do
  let msg ← Outcome.orErr "stream did not contain valid UTF-8" (textOfBytes (readLine bytes))
  let len ← subU64 checks (readLine bytes).length 1
  truncate msg len

/-- What is read was sent as a line, and a stream without a whole line is an error. -/
def FramesExactly (checks : Bool) (bytes : List UInt8) : Prop :=
  (∀ msg, readFromStream checks bytes = .ok msg → writeToStream msg <+: bytes) ∧
    (tcp.newline ∉ bytes → ∃ e, readFromStream checks bytes = .error (.err e))

theorem toByteArray_textBytes (text : String) : (textBytes text).toByteArray = text.toByteArray := by
  obtain ⟨l, rfl⟩ := text.exists_eq_ofList
  rw [textBytes, String.toList_ofList, String.toByteArray_ofList, List.utf8Encode]

theorem textOfBytes_eq_some {bytes : List UInt8} {text : String} :
    textOfBytes bytes = some text ↔ bytes = textBytes text := by
  rw [← List.toByteArray_inj, toByteArray_textBytes, textOfBytes, String.fromUTF8?]
  constructor
  · intro h
    split at h
    · cases h
      rfl
    · cases h
  · intro h
    have hvalid : bytes.toByteArray.IsValidUTF8 := by
      rw [h]
      exact text.isValidUTF8
    rw [dif_pos hvalid, Option.some.injEq, ← String.toByteArray_inj]
    exact h

theorem textOfBytes_textBytes (text : String) : textOfBytes (textBytes text) = some text :=
  textOfBytes_eq_some.mpr rfl

theorem textBytes_append (a b : String) : textBytes (a ++ b) = textBytes a ++ textBytes b := by
  rw [textBytes, String.toList_append, List.flatMap_append]
  rfl

/-- Bytes and a newline are a text exactly when the bytes are one. -/
theorem textOfBytes_line (bytes : List UInt8) :
    textOfBytes (tcp.line bytes) = (textOfBytes bytes).map fun msg => msg ++ "\n" := by
  cases h : textOfBytes bytes with
  | some msg =>
    obtain rfl := textOfBytes_eq_some.mp h
    rw [Option.map_some, textOfBytes_eq_some, textBytes_append]
    rfl
  | none =>
    cases htext : textOfBytes (tcp.line bytes) with
    | none => rfl
    | some text =>
      have heq : bytes ++ [tcp.newline] = textBytes text := textOfBytes_eq_some.mp htext
      -- the last character of the text ends with the newline, so it is one
      rcases List.eq_nil_or_concat text.toList with hnil | ⟨l, c, hl⟩
      · simp [textBytes, hnil] at heq
      rw [textBytes, hl, List.concat_eq_append, List.flatMap_append, List.flatMap_singleton] at heq
      have hlast := congrArg List.getLast? heq
      rw [List.getLast?_concat, List.getLast?_append_of_ne_nil _ String.utf8EncodeChar_ne_nil] at hlast
      obtain rfl := newline_mem_utf8EncodeChar (List.mem_of_getLast? hlast.symm)
      have hbytes : bytes = textBytes (String.ofList l) := by
        rw [textBytes, String.toList_ofList]
        exact List.append_cancel_right heq
      rw [textOfBytes_eq_some.mpr hbytes] at h
      cases h

/-- A line is read without its newline, when it is a text. -/
theorem readFromStream_of_splitLine (checks : Bool) {bytes line rest : List UInt8}
    (h : splitLine tcp.newline bytes = some (line, rest)) :
    readFromStream checks bytes =
      Outcome.orErr "stream did not contain valid UTF-8" (textOfBytes line) := by
  have hlength : (tcp.line line).length = line.length + 1 := by simp [Format.line]
  simp only [readFromStream, readLine, h, textOfBytes_line, hlength]
  cases htext : textOfBytes line with
  | none => rfl
  | some msg =>
    obtain rfl := textOfBytes_eq_some.mp htext
    have hbytes : textBytes (msg ++ "\n") = tcp.line (textBytes msg) := by
      rw [textBytes_append]
      rfl
    rw [Option.map_some, Outcome.orErr_some, Outcome.orErr_some, Outcome.ok_bind,
      subU64_of_le (by omega), Outcome.ok_bind, truncate, hbytes, hlength, if_neg (by omega),
      Nat.add_sub_cancel, Format.line, List.take_left, textOfBytes_textBytes, Outcome.unwrap_some]

/-- What `write_to_stream` wrote is read back, whatever comes after it. -/
theorem readFromStream_writeToStream (checks : Bool) {msg : String} (h : '\n' ∉ msg.toList)
    (rest : List UInt8) : readFromStream checks (writeToStream msg ++ rest) = .ok msg := by
  have hsplit : splitLine tcp.newline (writeToStream msg ++ rest) = some (textBytes msg, rest) := by
    rw [writeToStream, Format.line, List.append_assoc]
    exact splitLine_append (newline_not_mem_textBytes h)
  rw [readFromStream_of_splitLine checks hsplit, textOfBytes_textBytes, Outcome.orErr_some]

/-- A text that no newline ends is never an error. -/
theorem readFromStream_failsOnly (checks : Bool) {bytes : List UInt8} (h : tcp.newline ∉ bytes)
    (htext : (textOfBytes bytes).isSome) :
    Outcome.FailsOnly Failure.IsPanic (readFromStream checks bytes) := by
  obtain ⟨text, htext⟩ := Option.isSome_iff_exists.mp htext
  simp only [readFromStream, readLine, splitLine_eq_none.mpr h, htext, Outcome.orErr_some,
    Outcome.ok_bind]
  refine (failsOnly_subU64 trivial checks _ _).bind fun len => ?_
  unfold truncate
  split
  · exact Outcome.failsOnly_ok _
  · exact Outcome.failsOnly_unwrap trivial _

/-- Framing is exact for the messages that are written, and for bytes that end exactly when they have a
newline or are no text. -/
theorem readFromStream_framesExactly_iff (checks : Bool) :
    (∀ msg : String, '\n' ∉ msg.toList → readFromStream checks (writeToStream msg) = .ok msg) ∧
      ∀ bytes, FramesExactly checks bytes ↔ tcp.newline ∈ bytes ∨ textOfBytes bytes = none := by
  refine ⟨fun msg h => ?_, fun bytes => ⟨?_, ?_⟩⟩
  · simpa using readFromStream_writeToStream checks h []
  · rintro ⟨-, hend⟩
    by_contra! hnot
    obtain ⟨hline, htext⟩ := hnot
    obtain ⟨e, he⟩ := hend hline
    exact readFromStream_failsOnly checks hline (Option.isSome_iff_ne_none.mpr htext) _ he
  · intro h
    rcases hsplit : splitLine tcp.newline bytes with _ | ⟨line, rest⟩
    · have htext := h.resolve_left (splitLine_eq_none.mp hsplit)
      have herr : readFromStream checks bytes =
          .error (.err "stream did not contain valid UTF-8") := by
        simp only [readFromStream, readLine, hsplit, htext]
        rfl
      refine ⟨fun msg hmsg => ?_, fun _ => ⟨_, herr⟩⟩
      rw [herr] at hmsg
      cases hmsg
    · have hbytes := splitLine_some hsplit
      refine ⟨fun msg hmsg => ?_, fun hline => ?_⟩
      · rw [readFromStream_of_splitLine checks hsplit, Outcome.orErr_eq_ok, textOfBytes_eq_some] at hmsg
        refine ⟨rest, ?_⟩
        rw [hbytes, writeToStream, ← hmsg, Format.line, List.append_assoc, List.singleton_append]
      · exact (hline (by rw [hbytes]; simp)).elim

/-- A connection that is closed before the newline of the request to execute: another message is read,
which the listener takes for the request to cancel. -/
theorem readFromStream_unterminated :
    readFromStream true (textBytes "EXECUTE") = .ok "EXECUT" ∧
      ¬ FramesExactly true (textBytes "EXECUTE") := by
  have hline : tcp.newline ∉ textBytes "EXECUTE" := newline_not_mem_textBytes (by decide)
  have hlength : (textBytes "EXECUTE").length = 7 := by decide
  have htake : (textBytes "EXECUTE").take 6 = textBytes "EXECUT" := by decide
  have hread : readFromStream true (textBytes "EXECUTE") = .ok "EXECUT" := by
    simp only [readFromStream, readLine, splitLine_eq_none.mpr hline, textOfBytes_textBytes, hlength,
      Outcome.orErr_some, Outcome.ok_bind]
    rw [subU64_of_le (by decide), Outcome.ok_bind, truncate, hlength, if_neg (by decide), htake,
      textOfBytes_textBytes, Outcome.unwrap_some]
  refine ⟨hread, fun hframes => ?_⟩
  obtain ⟨e, he⟩ := hframes.2 hline
  rw [hread] at he
  cases he

/-- A connection that is closed before any byte: a release build reads an empty message. -/
theorem readFromStream_closed : readFromStream false [] = .ok "" := by
  have htext : textOfBytes [] = some "" := textOfBytes_eq_some.mpr rfl
  simp only [readFromStream, readLine, splitLine, htext, Outcome.orErr_some, Outcome.ok_bind]
  rfl

end MwBtcSwap
