import Mathlib.Algebra.GroupWithZero.Nat
import Mathlib.Data.List.Basic
import Mathlib.Data.List.Chain
import Mathlib.Data.Prod.Basic
import Mathlib.Logic.Relation

/-! Acknowledged messages as lines over two byte streams.  A party writes a line and reads a line in
answer; a read takes any run of the bytes that have arrived, up to the size of its buffer, and what a
buffer holds after the end of the line is gone with it. -/

namespace Wire

/-- The ends of a connection. -/
inductive Side
  | left
  | right
  deriving DecidableEq, Repr

def Side.other : Side → Side
  | left => right
  | right => left

@[simp] theorem Side.other_other (d : Side) : d.other.other = d := by cases d <;> rfl

@[simp] theorem Side.other_ne (d : Side) : d.other ≠ d := by cases d <;> decide

theorem Side.eq_other_of_ne {d d' : Side} (h : d' ≠ d) : d' = d.other := by
  cases d <;> cases d' <;> first | rfl | exact (h rfl).elim

/-- What ends a line, the line that acknowledges a message, and the size of the buffer of a reader. -/
structure Format (α : Type) where
  newline : α
  ack : List α
  bufSize : ℕ

variable {α : Type} [DecidableEq α]

/-- What a party does next with its stream. -/
inductive Instr (α : Type)
  | write (bytes : List α)
  | readAck
  | readMsg
  deriving DecidableEq

/-- The first line of a list, and what comes after it. -/
def splitLine (newline : α) : List α → Option (List α × List α)
  | [] => none
  | b :: bytes =>
    if b = newline then some ([], bytes)
    else (splitLine newline bytes).map fun r => (b :: r.1, r.2)

theorem splitLine_eq_none {newline : α} {bytes : List α} :
    splitLine newline bytes = none ↔ newline ∉ bytes := by
  induction bytes with
  | nil => simp [splitLine]
  | cons b bytes ih =>
    by_cases hb : b = newline
    · simp [splitLine, hb]
    · simp [splitLine, hb, ih, Ne.symm hb]

theorem splitLine_some {newline : α} {bytes l rest : List α}
    (h : splitLine newline bytes = some (l, rest)) : bytes = l ++ newline :: rest := by
  induction bytes generalizing l with
  | nil => cases h
  | cons b bytes ih =>
    by_cases hb : b = newline
    · simp only [splitLine, hb, if_true, Option.some.injEq, Prod.mk.injEq] at h
      obtain ⟨rfl, rfl⟩ := h
      rw [hb, List.nil_append]
    · simp only [splitLine, hb, if_false, Option.map_eq_some_iff] at h
      obtain ⟨⟨l', rest'⟩, hr, hl⟩ := h
      cases hl
      rw [ih hr, List.cons_append]

theorem splitLine_append {newline : α} {l rest : List α} (h : newline ∉ l) :
    splitLine newline (l ++ newline :: rest) = some (l, rest) := by
  induction l with
  | nil => simp [splitLine]
  | cons b l ih =>
    simp only [List.mem_cons, not_or] at h
    simp [splitLine, Ne.symm h.1, ih h.2]

/-- A party: what it has left to do, the part of a line that its reader holds, the messages that it has
received, the bytes that have arrived, and those that it has read and thrown away. -/
structure Party (α : Type) where
  code : List (Instr α)
  line : List α
  got : List (List α)
  inbox : List α
  lost : List α
  failed : Bool

/-- A party that is at the start of an instruction, with nothing to read. -/
def Party.ready (code : List (Instr α)) (got : List (List α)) : Party α := ⟨code, [], got, [], [], false⟩

variable (F : Format α)

/-- The bytes of a line. -/
def Format.line (msg : List α) : List α := msg ++ [F.newline]

/-- A party that sends a message writes it and waits for the acknowledgement. -/
def Format.send (msg : List α) : List (Instr α) := [.write (F.line msg), .readAck]

/-- A party that receives a message acknowledges it. -/
def Format.receive : List (Instr α) := [.readMsg, .write (F.line F.ack)]

/-- The reader has a whole line: a message is received, and another line in place of the
acknowledgement stops the party. -/
def Party.endLine (p : Party α) (line : List α) : Party α :=
  match p.code with
  | .readMsg :: rest => { p with code := rest, line := [], got := p.got ++ [line] }
  | .readAck :: rest =>
    if line = F.ack then { p with code := rest, line := [] }
    else { p with code := [], line := [], failed := true }
  | _ => p

/-- The reader takes a run of the bytes that have arrived, and leaves the others. -/
def Party.read (p : Party α) (chunk tail : List α) : Party α :=
  match splitLine F.newline chunk with
  | none => { p with line := p.line ++ chunk, inbox := tail }
  | some (l, rest) => { p with inbox := tail, lost := p.lost ++ rest }.endLine F (p.line ++ l)

/-- The party waits for a line. -/
def Party.Reading (p : Party α) : Prop := ∃ rest, p.code = .readAck :: rest ∨ p.code = .readMsg :: rest

/-- The two parties of a connection. -/
abbrev State (α : Type) := Side → Party α

/-- The party on a side, and the one on the other side. -/
def conn (d : Side) (p q : Party α) : State α := fun side => if side = d then p else q

section

omit [DecidableEq α]

theorem conn_other (d : Side) (p q : Party α) : conn d.other p q = conn d q p := by
  funext side
  cases d <;> cases side <;> rfl

@[simp] theorem conn_self {d : Side} {p q : Party α} : conn d p q d = p := if_pos rfl

@[simp] theorem conn_at_other {d : Side} {p q : Party α} : conn d p q d.other = q := if_neg d.other_ne

end

/-- One party writes, or reads a run of the bytes that have arrived. -/
inductive Step : State α → State α → Prop
  | write {d : Side} {p q : Party α} {bytes : List α} {rest : List (Instr α)}
      (hcode : p.code = .write bytes :: rest) :
    Step (conn d p q) (conn d { p with code := rest } { q with inbox := q.inbox ++ bytes })
  | read {d : Side} {p q : Party α} {chunk tail : List α} (hcode : p.Reading)
      (hinbox : p.inbox = chunk ++ tail) (hne : chunk ≠ []) (hlen : chunk.length ≤ F.bufSize) :
    Step (conn d p q) (conn d (p.read F chunk tail) q)

/-- Any timing of the two parties. -/
abbrev Reaches : State α → State α → Prop := Relation.ReflTransGen (Step F)

/-- The messages of a connection in order, with their senders. -/
abbrev Session (α : Type) := List (Side × List α)

/-- What a party does in a session. -/
def Format.code (side : Side) (session : Session α) : List (Instr α) :=
  session.flatMap fun e => if e.1 = side then F.send e.2 else F.receive

/-- The two parties at the start of what is left of a session, with the messages received so far. -/
def Format.ready (got : Side → List (List α)) (session : Session α) : State α :=
  fun side => .ready (F.code side session) (got side)

def Format.start (session : Session α) : State α := F.ready (fun _ => []) session

/-- The messages for a party. -/
def messagesTo (side : Side) (session : Session α) : List (List α) :=
  (session.filter fun e => e.1 ≠ side).map Prod.snd

/-- So far every party has received what was sent to it, every acknowledgement has come, and nothing
was thrown away. -/
structure Sound (session : Session α) (s : State α) : Prop where
  got : ∀ side, (s side).got <+: messagesTo side session
  acked : ∀ side, (s side).failed = false
  kept : ∀ side, (s side).lost = []

/-- Both parties are at their ends, and have received everything. -/
def Delivered (session : Session α) (s : State α) : Prop :=
  ∀ side, (s side).code = [] ∧ (s side).got = messagesTo side session

/-- No timing loses a byte, or stops before everything is delivered. -/
def Lossless (session : Session α) : Prop :=
  ∀ s, Reaches F (F.start session) s →
    Sound session s ∧ (Delivered session s ∨ ∃ s', Step F s s')

/-- All messages go in one direction. -/
def OneWay (session : Session α) : Prop := session.IsChain fun a b => a.1 = b.1

variable {F}

/-! ### Every timing ends -/

/-- The bytes that a party has still to write or to read, and its writes. -/
def Party.work (p : Party α) : ℕ :=
  (p.code.map fun
    | .write bytes => bytes.length + 1
    | _ => 0).sum + p.inbox.length

/-- The same for both parties. -/
def work (s : State α) : ℕ := (s .left).work + (s .right).work

omit [DecidableEq α] in
theorem work_conn {d : Side} {p q : Party α} : work (conn d p q) = p.work + q.work := by
  cases d
  · rfl
  · exact Nat.add_comm _ _

theorem endLine_work {p : Party α} {line : List α} : (p.endLine F line).work ≤ p.work := by
  unfold Party.endLine
  split
  · simp_all [Party.work]
  · split_ifs
    · simp_all [Party.work]
    · simp [Party.work]
  · exact Nat.le_refl _

/-- Every step uses up work. -/
theorem Step.work_lt {s s' : State α} (h : Step F s s') : work s' < work s := by
  cases h with
  | write hcode =>
    simp only [work_conn, Party.work, hcode, List.map_cons, List.sum_cons, List.length_append]
    omega
  | @read d p q chunk tail hcode hinbox hne hlen =>
    have hpos : 0 < chunk.length := List.length_pos_iff.mpr hne
    have hread : (p.read F chunk tail).work < p.work := by
      unfold Party.read
      split
      · simp only [Party.work, hinbox, List.length_append]
        omega
      · apply Nat.lt_of_le_of_lt endLine_work
        simp only [Party.work, hinbox, List.length_append]
        omega
    rw [work_conn, work_conn]
    omega

/-- So no timing goes on for ever. -/
theorem step_wellFounded : WellFounded fun s' s : State α => Step F s s' :=
  Subrelation.wf (fun h => h.work_lt) (measure work).wf

/-! ### One direction -/

omit [DecidableEq α] in
theorem conn_inj {d : Side} {p q p' q' : Party α} (h : conn d p q = conn d p' q') : p = p' ∧ q = q' := by
  have hp := congrFun h d
  have hq := congrFun h d.other
  rw [conn_self, conn_self] at hp
  rw [conn_at_other, conn_at_other] at hq
  exact ⟨hp, hq⟩

/-- What a party can do next: write, or read. -/
inductive Moves (F : Format α) (p q : Party α) : Party α → Party α → Prop
  | write {bytes : List α} {rest : List (Instr α)} (hcode : p.code = .write bytes :: rest) :
    Moves F p q { p with code := rest } { q with inbox := q.inbox ++ bytes }
  | read {chunk tail : List α} (hcode : p.Reading) (hinbox : p.inbox = chunk ++ tail) (hne : chunk ≠ []) :
    Moves F p q (p.read F chunk tail) q

/-- A step is a move of one of the two parties. -/
theorem Step.moves {d : Side} {p q : Party α} {s' : State α} (h : Step F (conn d p q) s') :
    (∃ p' q', s' = conn d p' q' ∧ Moves F p q p' q') ∨ ∃ p' q', s' = conn d p' q' ∧ Moves F q p q' p' := by
  generalize hs : conn d p q = s at h
  cases h with
  | @write d' p' q' bytes rest hcode =>
    by_cases hd : d' = d
    · subst hd
      obtain ⟨rfl, rfl⟩ := conn_inj hs
      exact .inl ⟨_, _, rfl, .write hcode⟩
    · obtain rfl := Side.eq_other_of_ne hd
      rw [conn_other] at hs ⊢
      obtain ⟨rfl, rfl⟩ := conn_inj hs
      exact .inr ⟨_, _, rfl, .write hcode⟩
  | @read d' p' q' chunk tail hcode hinbox hne hlen =>
    by_cases hd : d' = d
    · subst hd
      obtain ⟨rfl, rfl⟩ := conn_inj hs
      exact .inl ⟨_, _, rfl, .read hcode hinbox hne⟩
    · obtain rfl := Side.eq_other_of_ne hd
      rw [conn_other] at hs ⊢
      obtain ⟨rfl, rfl⟩ := conn_inj hs
      exact .inr ⟨_, _, rfl, .read hcode hinbox hne⟩

/-- A party that reads and has nothing to read does not move. -/
theorem Moves.not_blocked {p q p' q' : Party α} (hinbox : p.inbox = [])
    (hcode : ∀ bytes rest, p.code ≠ .write bytes :: rest) : ¬ Moves F p q p' q' := by
  intro h
  cases h with
  | write h => exact hcode _ _ h
  | read _ h hne =>
    rw [hinbox] at h
    exact hne (List.append_eq_nil_iff.mp h.symm).1

/-- A read of a line that is all that there is: the reader has a part of the line, or exactly the
line. -/
theorem read_line {p : Party α} {msg chunk tail : List α} (hline : p.line ++ p.inbox = F.line msg)
    (hmsg : F.newline ∉ msg) (hold : F.newline ∉ p.line) (hinbox : p.inbox = chunk ++ tail) :
    (p.read F chunk tail = { p with line := p.line ++ chunk, inbox := tail } ∧
      F.newline ∉ p.line ++ chunk ∧ (p.line ++ chunk) ++ tail = F.line msg) ∨
    p.read F chunk tail = { p with inbox := [] }.endLine F msg := by
  rw [hinbox] at hline
  cases hsplit : splitLine F.newline chunk with
  | none =>
    left
    have hchunk := splitLine_eq_none.mp hsplit
    refine ⟨by simp only [Party.read, hsplit], ?_, ?_⟩
    · rw [List.mem_append]
      exact fun h => h.elim hold hchunk
    · rw [List.append_assoc]
      exact hline
  | some r =>
    obtain ⟨l, rest⟩ := r
    right
    rw [splitLine_some hsplit] at hline
    have hends : msg ++ F.newline :: [] = (p.line ++ l) ++ F.newline :: (rest ++ tail) := by
      rw [Format.line] at hline
      rw [← hline]
      simp
    obtain ⟨hl, -, hrest⟩ := (List.append_cons_inj_of_notMem hmsg List.not_mem_nil).mp hends
    obtain ⟨rfl, rfl⟩ := List.append_eq_nil_iff.mp hrest.symm
    simp only [Party.read, hsplit, List.append_nil, ← hl]

/-- The sender's code for messages that all go in its direction. -/
def Format.sendAll (F : Format α) (msgs : List (List α)) : List (Instr α) := msgs.flatMap F.send

/-- The receiver's. -/
def Format.receiveAll (F : Format α) (msgs : List (List α)) : List (Instr α) :=
  msgs.flatMap fun _ => F.receive

/-- A connection in which the party on the side `d` sends all messages is always in one of four phases:
between two messages, while a line is under way to the receiver, before its acknowledgement is written,
and while that is under way back. -/
inductive Phase (F : Format α) (d : Side) (msgs : List (List α)) : State α → Prop
  | ready {done rest : List (List α)} (h : msgs = done ++ rest) :
    Phase F d msgs (conn d (.ready (F.sendAll rest) []) (.ready (F.receiveAll rest) done))
  | sent {done rest : List (List α)} {m line inbox : List α} (h : msgs = done ++ m :: rest)
      (hline : line ++ inbox = F.line m) (hold : F.newline ∉ line) :
    Phase F d msgs (conn d (.ready (.readAck :: F.sendAll rest) [])
      ⟨.readMsg :: .write (F.line F.ack) :: F.receiveAll rest, line, done, inbox, [], false⟩)
  | answered {done rest : List (List α)} (h : msgs = done ++ rest) :
    Phase F d msgs (conn d (.ready (.readAck :: F.sendAll rest) [])
      (.ready (.write (F.line F.ack) :: F.receiveAll rest) done))
  | acked {done rest : List (List α)} {line inbox : List α} (h : msgs = done ++ rest)
      (hline : line ++ inbox = F.line F.ack) (hold : F.newline ∉ line) :
    Phase F d msgs (conn d ⟨.readAck :: F.sendAll rest, line, [], inbox, [], false⟩
      (.ready (F.receiveAll rest) done))

omit [DecidableEq α] in
theorem receiveAll_not_write (msgs : List (List α)) (bytes : List α) (rest : List (Instr α)) :
    F.receiveAll msgs ≠ .write bytes :: rest := by
  cases msgs <;> simp [Format.receiveAll, Format.receive]

/-- Every step stays in these phases. -/
theorem Phase.step (hack : F.newline ∉ F.ack) {d : Side} {msgs : List (List α)}
    (hmsgs : ∀ m ∈ msgs, F.newline ∉ m) {s s' : State α} (h : Phase F d msgs s) (hstep : Step F s s') :
    Phase F d msgs s' := by
  cases h with
  | @ready done rest h =>
    obtain ⟨p', q', rfl, hmove⟩ | ⟨p', q', rfl, hmove⟩ := hstep.moves
    · cases rest with
      | nil => exact (hmove.not_blocked rfl fun _ _ h => by cases h).elim
      | cons m rest =>
        cases hmove with
        | write hcode =>
          cases hcode
          exact .sent h rfl List.not_mem_nil
        | read hcode =>
          obtain ⟨_, hcode | hcode⟩ := hcode <;> cases hcode
    · exact (hmove.not_blocked rfl (receiveAll_not_write rest)).elim
  | @sent done rest m line inbox h hline hold =>
    obtain ⟨p', q', rfl, hmove⟩ | ⟨p', q', rfl, hmove⟩ := hstep.moves
    · exact (hmove.not_blocked rfl fun _ _ h => by cases h).elim
    · cases hmove with
      | write hcode => cases hcode
      | read hcode hinbox hne =>
        have hm : F.newline ∉ m := hmsgs m (by simp [h])
        obtain ⟨hread, hold', hline'⟩ | hread := read_line hline hm hold hinbox
        · rw [hread]
          exact .sent h hline' hold'
        · rw [hread]
          have hdone : msgs = (done ++ [m]) ++ rest := by simp [h]
          exact .answered hdone
  | @answered done rest h =>
    obtain ⟨p', q', rfl, hmove⟩ | ⟨p', q', rfl, hmove⟩ := hstep.moves
    · exact (hmove.not_blocked rfl fun _ _ h => by cases h).elim
    · cases hmove with
      | write hcode =>
        cases hcode
        exact .acked h rfl List.not_mem_nil
      | read hcode =>
        obtain ⟨_, hcode | hcode⟩ := hcode <;> cases hcode
  | @acked done rest line inbox h hline hold =>
    obtain ⟨p', q', rfl, hmove⟩ | ⟨p', q', rfl, hmove⟩ := hstep.moves
    · cases hmove with
      | write hcode => cases hcode
      | read hcode hinbox hne =>
        obtain ⟨hread, hold', hline'⟩ | hread := read_line hline hack hold hinbox
        · rw [hread]
          exact .acked h hline' hold'
        · rw [hread]
          simp only [Party.endLine, if_true]
          exact .ready h
    · exact (hmove.not_blocked rfl (receiveAll_not_write rest)).elim

/-- A statement about both sides, from a side and the other. -/
theorem forall_side {R : Side → Prop} (d : Side) (h : R d) (h' : R d.other) : ∀ side, R side := by
  intro side
  by_cases hd : side = d
  · rwa [hd]
  · rwa [Side.eq_other_of_ne hd]

section

omit [DecidableEq α]

@[simp] theorem messagesTo_sender (d : Side) (msgs : List (List α)) :
    messagesTo d (msgs.map (Prod.mk d)) = [] := by
  simp [messagesTo, List.filter_map, Function.comp_def]

@[simp] theorem messagesTo_receiver (d : Side) (msgs : List (List α)) :
    messagesTo d.other (msgs.map (Prod.mk d)) = msgs := by
  simp [messagesTo, List.filter_map, Function.comp_def, d.other_ne.symm]

theorem Phase.sound {d : Side} {msgs : List (List α)} {s : State α} (h : Phase F d msgs s) :
    Sound (msgs.map (Prod.mk d)) s := by
  constructor
  · refine forall_side d ?_ ?_
    · rw [messagesTo_sender]
      cases h <;> rw [conn_self] <;> exact List.prefix_rfl
    · rw [messagesTo_receiver]
      cases h <;> rw [conn_at_other] <;> exact ⟨_, Eq.symm ‹_›⟩
  · cases h <;> refine forall_side d ?_ ?_ <;> simp [Party.ready]
  · cases h <;> refine forall_side d ?_ ?_ <;> simp [Party.ready]

end

/-- The next byte can be read. -/
theorem exists_read (hbuf : 0 < F.bufSize) {d : Side} {p q : Party α} (hcode : p.Reading)
    (hinbox : p.inbox ≠ []) : ∃ s', Step F (conn d p q) s' := by
  obtain ⟨b, tail, hcons⟩ := List.exists_cons_of_ne_nil hinbox
  have hchunk : p.inbox = [b] ++ tail := hcons
  exact ⟨_, .read hcode hchunk (by simp) hbuf⟩

omit [DecidableEq α] in
/-- A line of which the end was not read has bytes left. -/
theorem inbox_ne_nil {line inbox msg : List α} (hline : line ++ inbox = F.line msg)
    (hold : F.newline ∉ line) : inbox ≠ [] := by
  rintro rfl
  apply hold
  rw [List.append_nil] at hline
  rw [hline, Format.line]
  simp

/-- In every phase a step is possible, unless everything is delivered. -/
theorem Phase.progress (hbuf : 0 < F.bufSize) {d : Side} {msgs : List (List α)} {s : State α}
    (h : Phase F d msgs s) : Delivered (msgs.map (Prod.mk d)) s ∨ ∃ s', Step F s s' := by
  cases h with
  | @ready done rest h =>
    cases rest with
    | nil =>
      left
      rw [List.append_nil] at h
      subst h
      refine forall_side d ?_ ?_
      · simp [Party.ready, Format.sendAll]
      · simp [Party.ready, Format.receiveAll]
    | cons m rest => exact .inr ⟨_, .write rfl⟩
  | sent h hline hold =>
    right
    rw [← conn_other]
    exact exists_read hbuf ⟨_, .inr rfl⟩ (inbox_ne_nil hline hold)
  | answered h =>
    right
    rw [← conn_other]
    exact ⟨_, .write rfl⟩
  | acked h hline hold => exact .inr (exists_read hbuf ⟨_, .inl rfl⟩ (inbox_ne_nil hline hold))

omit [DecidableEq α] in
/-- A session in one direction has one sender. -/
theorem OneWay.exists_sender {session : Session α} (h : OneWay session) :
    ∃ (d : Side) (msgs : List (List α)), session = msgs.map (Prod.mk d) := by
  induction session with
  | nil => exact ⟨.left, [], rfl⟩
  | cons e session ih =>
    obtain ⟨d, msgs, rfl⟩ := ih h.tail
    cases msgs with
    | nil => exact ⟨e.1, [e.2], rfl⟩
    | cons m msgs =>
      obtain rfl : e.1 = d := (List.isChain_cons_cons.mp h).1
      exact ⟨e.1, e.2 :: m :: msgs, rfl⟩

omit [DecidableEq α] in
theorem start_oneWay (d : Side) (msgs : List (List α)) :
    F.start (msgs.map (Prod.mk d)) =
      conn d (.ready (F.sendAll msgs) []) (.ready (F.receiveAll msgs) []) := by
  funext side
  revert side
  refine forall_side d ?_ ?_
  · simp [Format.start, Format.ready, Format.code, Format.sendAll, List.flatMap_map]
  · simp [Format.start, Format.ready, Format.code, Format.receiveAll, List.flatMap_map, d.other_ne.symm]

/-- A session in one direction loses nothing. -/
theorem lossless_of_oneWay (hack : F.newline ∉ F.ack) (hbuf : 0 < F.bufSize) {session : Session α}
    (hmsgs : ∀ e ∈ session, F.newline ∉ e.2) (h : OneWay session) : Lossless F session := by
  obtain ⟨d, msgs, rfl⟩ := h.exists_sender
  have hnewline : ∀ m ∈ msgs, F.newline ∉ m := fun m hm => hmsgs (d, m) (List.mem_map_of_mem hm)
  intro s hreach
  have hphase : Phase F d msgs s := by
    induction hreach with
    | refl =>
      rw [start_oneWay]
      exact .ready (List.nil_append msgs).symm
    | tail _ hstep ih => exact ih.step hack hnewline hstep
  exact ⟨hphase.sound, hphase.progress hbuf⟩

/-! ### A change of direction -/

/-- A line can be read byte by byte, which leaves what comes after it. -/
theorem reaches_line (hbuf : 0 < F.bufSize) {d : Side} {p q : Party α} {msg tail : List α}
    (hmsg : F.newline ∉ msg) (hcode : p.Reading) (hinbox : p.inbox = msg ++ F.newline :: tail) :
    Reaches F (conn d p q) (conn d ({ p with inbox := tail }.endLine F (p.line ++ msg)) q) := by
  induction msg generalizing p with
  | nil =>
    have hread : p.read F [F.newline] tail = { p with inbox := tail }.endLine F (p.line ++ []) := by
      simp [Party.read, splitLine]
    rw [← hread]
    exact .single (.read hcode hinbox (by simp) hbuf)
  | cons b msg ih =>
    rw [List.mem_cons, not_or] at hmsg
    have hread : p.read F [b] (msg ++ F.newline :: tail) =
        { p with line := p.line ++ [b], inbox := msg ++ F.newline :: tail } := by
      simp [Party.read, splitLine, Ne.symm hmsg.1]
    have hstep : Step F (conn d p q) (conn d (p.read F [b] (msg ++ F.newline :: tail)) q) :=
      .read hcode hinbox (by simp) hbuf
    rw [hread] at hstep
    refine .head hstep ?_
    have hrest := @ih { p with line := p.line ++ [b], inbox := msg ++ F.newline :: tail } hmsg.2 hcode rfl
    obtain ⟨rest, hcode | hcode⟩ := hcode <;> simpa [Party.endLine, hcode] using hrest

section

omit [DecidableEq α]

theorem code_sender (d : Side) (m : List α) (rest : Session α) :
    F.code d ((d, m) :: rest) = .write (F.line m) :: .readAck :: F.code d rest := by
  simp [Format.code, Format.send]

theorem code_receiver (d : Side) (m : List α) (rest : Session α) :
    F.code d.other ((d, m) :: rest) = .readMsg :: .write (F.line F.ack) :: F.code d.other rest := by
  simp [Format.code, Format.receive, d.other_ne.symm]

theorem ready_eq_conn (d : Side) (got : Side → List (List α)) (session : Session α) :
    F.ready got session = conn d (.ready (F.code d session) (got d))
      (.ready (F.code d.other session) (got d.other)) := by
  funext side
  revert side
  refine forall_side d ?_ ?_ <;> simp [Format.ready]

end

/-- The first message can arrive whole. -/
theorem reaches_answered (hbuf : 0 < F.bufSize) {d : Side} {m : List α} {rest : Session α}
    {got : Side → List (List α)} (hm : F.newline ∉ m) :
    Reaches F (F.ready got ((d, m) :: rest)) (conn d (.ready (.readAck :: F.code d rest) (got d))
      (.ready (.write (F.line F.ack) :: F.code d.other rest) (got d.other ++ [m]))) := by
  rw [ready_eq_conn d, code_sender, code_receiver]
  refine .head (.write rfl) ?_
  rw [← conn_other]
  rw [← conn_other d]
  exact reaches_line hbuf hm ⟨_, .inr rfl⟩ rfl

/-- And so can its acknowledgement. -/
theorem reaches_next (hack : F.newline ∉ F.ack) (hbuf : 0 < F.bufSize) {d : Side} {m : List α}
    {rest : Session α} {got : Side → List (List α)} (hm : F.newline ∉ m) :
    ∃ got', Reaches F (F.ready got ((d, m) :: rest)) (F.ready got' rest) := by
  refine ⟨Function.update got d.other (got d.other ++ [m]), (reaches_answered hbuf hm).trans ?_⟩
  rw [← conn_other]
  refine .head (.write rfl) ?_
  rw [conn_other, ready_eq_conn d, Function.update_of_ne d.other_ne.symm, Function.update_self]
  have hend : ({ Party.ready (.readAck :: F.code d rest) (got d) with inbox := [] }).endLine F
      ([] ++ F.ack) = .ready (F.code d rest) (got d) := by
    simp [Party.endLine, Party.ready]
  rw [← hend]
  exact reaches_line hbuf hack ⟨_, .inl rfl⟩ rfl

/-- When the receiver writes its own message right after its acknowledgement, one read can take the
acknowledgement with the start of the message. -/
theorem reaches_lost (hack : F.newline ∉ F.ack) (hbuf : F.ack.length + 2 ≤ F.bufSize) {d : Side}
    {m m' : List α} {rest : Session α} {got : Side → List (List α)} (hm : F.newline ∉ m) :
    ∃ s, Reaches F (F.ready got ((d, m) :: (d.other, m') :: rest)) s ∧ (s d).lost ≠ [] := by
  obtain ⟨b, tail, hcons⟩ : ∃ b tail, F.line m' = b :: tail :=
    List.exists_cons_of_ne_nil (by simp [Format.line])
  have hanswered := @reaches_answered α _ F (by omega) d m ((d.other, m') :: rest) got hm
  have hfirst : F.code d.other ((d.other, m') :: rest) =
      .write (F.line m') :: .readAck :: F.code d.other rest := code_sender _ _ _
  rw [hfirst, ← conn_other] at hanswered
  have hwrites := (hanswered.tail (.write rfl)).tail (.write rfl)
  rw [conn_other] at hwrites
  have hinbox : (F.line F.ack ++ [b]) ++ tail = [] ++ F.line F.ack ++ F.line m' := by
    rw [hcons]
    simp
  have hlen : (F.line F.ack ++ [b]).length ≤ F.bufSize := by
    simp only [Format.line, List.length_append, List.length_singleton]
    omega
  refine ⟨_, hwrites.tail (.read ⟨_, .inl rfl⟩ hinbox.symm (by simp) hlen), ?_⟩
  have hsplit : splitLine F.newline (F.line F.ack ++ [b]) = some (F.ack, [b]) := by
    rw [Format.line, List.append_assoc]
    exact splitLine_append hack
  simp [Party.read, hsplit, Party.endLine, Party.ready]

/-- A connection that loses nothing never changes its direction. -/
theorem oneWay_of_kept (hack : F.newline ∉ F.ack) (hbuf : F.ack.length + 2 ≤ F.bufSize)
    {session : Session α} {got : Side → List (List α)} (hmsgs : ∀ e ∈ session, F.newline ∉ e.2)
    (h : ∀ s, Reaches F (F.ready got session) s → ∀ side, (s side).lost = []) : OneWay session := by
  induction session generalizing got with
  | nil => exact .nil
  | cons e session ih =>
    obtain ⟨d, m⟩ := e
    have hm : F.newline ∉ m := hmsgs _ List.mem_cons_self
    cases session with
    | nil => exact .singleton _
    | cons e' session =>
      obtain ⟨d', m'⟩ := e'
      refine List.isChain_cons_cons.mpr ⟨?_, ?_⟩
      · by_contra hd
        obtain rfl := Side.eq_other_of_ne (Ne.symm hd)
        obtain ⟨s, hreach, hlost⟩ := reaches_lost hack hbuf hm
        exact hlost (h s hreach d)
      · obtain ⟨got', hnext⟩ := reaches_next hack (by omega) hm
        apply ih (fun e he => hmsgs e (List.mem_cons_of_mem _ he))
        exact fun s hs => h s (hnext.trans hs)

/-- Nothing is lost in any timing exactly when the messages all go in one direction. -/
theorem lossless_iff_oneWay (hack : F.newline ∉ F.ack) (hbuf : F.ack.length + 2 ≤ F.bufSize)
    {session : Session α} (hmsgs : ∀ e ∈ session, F.newline ∉ e.2) :
    Lossless F session ↔ OneWay session := by
  constructor
  · intro h
    exact oneWay_of_kept hack hbuf hmsgs fun s hs => (h s hs).1.kept
  · exact lossless_of_oneWay hack (by omega) hmsgs

end Wire
