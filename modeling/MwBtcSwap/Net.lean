import MwBtcSwap.Bitcoin.Types
import MwBtcSwap.Grin.Routines

/-! What the program does outside of itself: the messages on the stream to the peer, the calls to
the two nodes, waiting, and writing the slate files.  An answer is an outcome, so the environment may
let every operation fail.  Messages carry the name of what is sent, which the peer does not see. -/

namespace MwBtcSwap

open Interaction

/-- The two-party protocols of `GrinTx`. -/
inductive Protocol
  | build
  | sharedOut
  | sharedInp
  | contract
  deriving DecidableEq, Repr

/-- The slates of a protocol, by the names of the source. -/
inductive Stage
  | ptx
  | ptx2
  | ptx3
  | tx
  deriving DecidableEq, Repr

/-- A message to the peer. -/
inductive Msg (K P : Type)
  | text (s : String)
  | slate (protocol : Protocol) (stage : Stage) (S : Grin.Slate K P)
  | prfCtx (ctx : Grin.MPBPContext K P)
  deriving DecidableEq

/-- The text of a message on the stream. -/
def Msg.render {K P : Type} (L : Grin.GrinLib K P) : Msg K P → String
  | .text s => s
  | .slate _ _ S => S.toJson L
  | .prfCtx ctx => ctx.toText L

/-- The operations of the program.  `sleep` is the minute between two looks at the balance of an
address; `accept` waits for a client of the listener; `createSlateFile` creates the public or the private
file of the swap if it is missing, and `writeSlateFile` writes the memory to it. -/
inductive Op (K P : Type)
  | send (msg : Msg K P)
  | recv
  | getBlockHeight
  | pushTransaction (tx : Grin.Transaction K P)
  | getCurrentBlockHeight
  | importBtcAddress (address : String)
  | getAddressFinalBalance (address : String)
  | sendRawTransaction (tx : Bitcoin.Transaction)
  | sleep
  | connect (server port : String)
  | bind
  | accept
  | getSlateChecksum
  | createSlateFile (isPublic : Bool)
  | writeSlateFile (isPublic : Bool)

/-- The answers to an operation. -/
@[reducible] def Op.Ans {K P : Type} : Op K P → Type
  | send _ => Outcome Unit
  | recv => Outcome String
  | getBlockHeight => Outcome ℕ
  | pushTransaction _ => Outcome Unit
  | getCurrentBlockHeight => Outcome ℕ
  | importBtcAddress _ => Outcome Unit
  | getAddressFinalBalance _ => Outcome ℕ
  | sendRawTransaction _ => Outcome Unit
  | sleep => Unit
  | connect _ _ => Outcome Unit
  | bind => Outcome Unit
  | accept => Outcome Unit
  | getSlateChecksum => Outcome String
  | createSlateFile _ => Outcome Unit
  | writeSlateFile _ => Outcome Unit

/-- The processes of the program with memory `σ`. -/
abbrev Process (K P σ α : Type) := Proc σ (@Op.Ans K P) α

/-- What is left of such a process. -/
abbrev Program (K P σ α : Type) := Prog σ (@Op.Ans K P) α

/-- The operations that it performed. -/
abbrev Trace (K P σ : Type) := List (Event σ (@Op.Ans K P))

variable {K P σ : Type}

/-- The text of the panics of `unwrap`. -/
def unwrapErr : String := "called `Result::unwrap()` on an `Err` value"

@[inherit_doc unwrapErr]
def unwrapNone : String := "called `Option::unwrap()` on a `None` value"

/-- `send_msg`: it returns when the peer has acknowledged the message. -/
def sendMsg (msg : Msg K P) : Process K P σ Unit :=
  Proc.request (.send msg) (Outcome.expect unwrapErr)

/-- `receive_msg` -/
def receiveMsg : Process K P σ String := Proc.request .recv (Outcome.expect unwrapErr)

/-- A complete run goes through a sent message only when the message was acknowledged. -/
@[simp] theorem steps_sendMsg_bind {α : Type} {msg : Msg K P} {f : Unit → Process K P σ α}
    {t : Trace K P σ} {s s' : σ} {a : α} :
    Steps ((sendMsg msg s).bind f) t (.ret s' a) ↔
      ∃ t', t = ⟨s, .send msg, .ok ()⟩ :: t' ∧ Steps (f () s) t' (.ret s' a) := by
  simp only [sendMsg, steps_request_bind, Outcome.expect_eq_ok]
  constructor
  · rintro ⟨_, _, t', rfl, rfl, h⟩
    exact ⟨t', rfl, h⟩
  · rintro ⟨t', rfl, h⟩
    exact ⟨.ok (), (), t', rfl, rfl, h⟩

/-- A complete run goes through a received message. -/
@[simp] theorem steps_receiveMsg_bind {α : Type} {f : String → Process K P σ α}
    {t : Trace K P σ} {s s' : σ} {a : α} :
    Steps ((receiveMsg s).bind f) t (.ret s' a) ↔
      ∃ m t', t = ⟨s, .recv, .ok m⟩ :: t' ∧ Steps (f m s) t' (.ret s' a) := by
  simp [receiveMsg]

/-- A complete run that receives one message. -/
theorem steps_receiveMsg {t : Trace K P σ} {s s' : σ} {m : String}
    (h : Steps (receiveMsg s) t (.ret s' m)) : t = [⟨s, .recv, .ok m⟩] ∧ s' = s := by
  obtain ⟨ans, t', rfl, hread⟩ := steps_call_ret.mp h
  match ans, hread with
  | .ok msg, hread =>
    obtain ⟨rfl, hret⟩ := steps_ret.mp hread
    cases hret
    exact ⟨rfl, rfl⟩
  | .error (.err e), hread => cases hread
  | .error (.panic e), hread => cases hread

section Reaches

variable {α : Type} {Q : Trace K P σ → Program K P σ α → Prop} {s : σ}

theorem reaches_sendMsg_bind {msg : Msg K P} {f : Unit → Process K P σ α}
    (h : (f () s).Reaches fun t q => Q (⟨s, .send msg, .ok ()⟩ :: t) q) :
    ((sendMsg msg >>= f) s).Reaches Q :=
  Prog.reaches_request_bind (.ok ()) rfl h

theorem reaches_receiveMsg_bind {f : String → Process K P σ α} (msg : String)
    (h : (f msg s).Reaches fun t q => Q (⟨s, .recv, .ok msg⟩ :: t) q) :
    ((receiveMsg >>= f) s).Reaches Q :=
  Prog.reaches_request_bind (.ok msg) rfl h

end Reaches

/-- The message of an event, if it is a received one. -/
def received? : Event σ (@Op.Ans K P) → Option String
  | ⟨_, .recv, .ok msg⟩ => some msg
  | _ => none

/-- The messages that a run received, in order. -/
def received (t : Trace K P σ) : List String := t.filterMap received?

/-- The text of an event, if it is a sent message that was acknowledged. -/
def sent? (L : Grin.GrinLib K P) : Event σ (@Op.Ans K P) → Option String
  | ⟨_, .send msg, .ok _⟩ => some (msg.render L)
  | _ => none

/-- The messages that a run sent, in order. -/
def sent (L : Grin.GrinLib K P) (t : Trace K P σ) : List String := t.filterMap (sent? L)

@[simp] theorem received_nil : received ([] : Trace K P σ) = [] := rfl

@[simp] theorem received_cons (e : Event σ (@Op.Ans K P)) (t : Trace K P σ) :
    received (e :: t) = (received? e).toList ++ received t := by
  cases h : received? e with
  | none => simp [received, h]
  | some msg => simp [received, h]

@[simp] theorem sent_nil (L : Grin.GrinLib K P) : sent L ([] : Trace K P σ) = [] := rfl

@[simp] theorem sent_cons (L : Grin.GrinLib K P) (e : Event σ (@Op.Ans K P)) (t : Trace K P σ) :
    sent L (e :: t) = (sent? L e).toList ++ sent L t := by
  cases h : sent? L e with
  | none => simp [sent, h]
  | some msg => simp [sent, h]

@[simp] theorem received_append (t u : Trace K P σ) : received (t ++ u) = received t ++ received u :=
  List.filterMap_append

@[simp] theorem sent_append (L : Grin.GrinLib K P) (t u : Trace K P σ) :
    sent L (t ++ u) = sent L t ++ sent L u := List.filterMap_append

/-- The text of an event, if it is a message that was sent, acknowledged or not. -/
def posted? (L : Grin.GrinLib K P) : Event σ (@Op.Ans K P) → Option String
  | ⟨_, .send msg, _⟩ => some (msg.render L)
  | _ => none

/-- The messages that a run gave to the stream, in order. -/
def posted (L : Grin.GrinLib K P) (t : Trace K P σ) : List String := t.filterMap (posted? L)

@[simp] theorem posted_nil (L : Grin.GrinLib K P) : posted L ([] : Trace K P σ) = [] := rfl

@[simp] theorem posted_cons (L : Grin.GrinLib K P) (e : Event σ (@Op.Ans K P)) (t : Trace K P σ) :
    posted L (e :: t) = (posted? L e).toList ++ posted L t := by
  cases h : posted? L e with
  | none => simp [posted, h]
  | some msg => simp [posted, h]

@[simp] theorem posted_append (L : Grin.GrinLib K P) (t u : Trace K P σ) :
    posted L (t ++ u) = posted L t ++ posted L u := List.filterMap_append

theorem received_mono {t u : Trace K P σ} (h : t <+: u) : received t <+: received u :=
  h.filterMap received?

theorem sent_mono (L : Grin.GrinLib K P) {t u : Trace K P σ} (h : t <+: u) : sent L t <+: sent L u :=
  h.filterMap (sent? L)

/-- Two runs over one connection: each received what the other sent. -/
def Connected {τ : Type} (L : Grin.GrinLib K P) (t : Trace K P σ) (u : Trace K P τ) : Prop :=
  received t = sent L u ∧ received u = sent L t

theorem Connected.append {τ : Type} {L : Grin.GrinLib K P} {t t' : Trace K P σ} {u u' : Trace K P τ}
    (h : Connected L t u) (h' : Connected L t' u') : Connected L (t ++ t') (u ++ u') := by
  simp only [Connected, received_append, sent_append, h.1, h.2, h'.1, h'.2, and_self]

/-- The operations of a protocol: messages are received, and its own ones are sent. -/
def Op.OfProtocol (protocol : Protocol) : Op K P → Prop
  | .recv => True
  | .send (.slate sent _ _) => sent = protocol
  | .send (.prfCtx _) => protocol = .sharedOut
  | _ => False

/-! ### A peer that sends given messages -/

section Feed

variable {α β : Type}

/-- An environment that acknowledges every message and has no node, disk or other party. -/
def streamOnly : (op : Op K P) → op.Ans
  | .send _ => .ok ()
  | .recv => .error (.err "no message")
  | .getBlockHeight => .error (.err "no node")
  | .pushTransaction _ => .error (.err "no node")
  | .getCurrentBlockHeight => .error (.err "no node")
  | .importBtcAddress _ => .error (.err "no node")
  | .getAddressFinalBalance _ => .error (.err "no node")
  | .sendRawTransaction _ => .error (.err "no node")
  | .sleep => ()
  | .connect _ _ => .error (.err "no peer")
  | .bind => .error (.err "no peer")
  | .accept => .error (.err "no peer")
  | .getSlateChecksum => .error (.err "no disk")
  | .createSlateFile _ => .error (.err "no disk")
  | .writeSlateFile _ => .error (.err "no disk")

/-- Run a program whose peer sends the messages of a list, all of which are received, while `env`
answers the other operations, and check the trace and what is left when the program ends or waits for
one more message.  The events of `past` come before the run. -/
def feed (env : (op : Op K P) → op.Ans)
    (check : Trace K P σ → Program K P σ α → Bool) :
    Program K P σ α → List String → Trace K P σ → Bool
  | .call s .recv k, [], past => check past (.call s .recv k)
  | .call s .recv k, msg :: msgs, past =>
    feed env check (k (.ok msg)) msgs (past ++ [⟨s, .recv, .ok msg⟩])
  | .call s op k, msgs, past => feed env check (k (env op)) msgs (past ++ [⟨s, op, env op⟩])
  | p, [], past => check past p
  | _, _ :: _, _ => false

variable {env : (op : Op K P) → op.Ans}
  {check : Trace K P σ → Program K P σ α → Bool}
  {p : Program K P σ α} {msgs : List String}
  {past : Trace K P σ} {s : σ}

/-- What is checked is a run of the program. -/
theorem steps_of_feed (h : feed env check p msgs past = true) :
    ∃ t q, Steps p t q ∧ received t = msgs ∧ check (past ++ t) q = true := by
  fun_induction feed env check p msgs past with
  | case1 s k past => exact ⟨[], _, .refl _, rfl, by simpa using h⟩
  | case2 s k msg msgs past ih =>
    obtain ⟨t, q, hsteps, hrec, hcheck⟩ := ih h
    exact ⟨⟨s, .recv, .ok msg⟩ :: t, q, .step hsteps, by rw [← hrec]; rfl, by simpa using hcheck⟩
  | case3 s op k msgs past hnil hcons ih =>
    obtain ⟨t, q, hsteps, hrec, hcheck⟩ := ih h
    refine ⟨⟨s, op, env op⟩ :: t, q, .step hsteps, ?_, by simpa using hcheck⟩
    rw [← hrec, received, List.filterMap_cons]
    cases op with
    | recv =>
      -- a message that is received comes from the list
      cases msgs with
      | nil => exact (hnil k rfl rfl HEq.rfl).elim
      | cons msg msgs => exact (hcons k msg msgs rfl rfl HEq.rfl).elim
    | _ => rfl
  | case4 p past _ _ => exact ⟨[], _, .refl _, rfl, by simpa using h⟩
  | case5 => cases h

/-- A run that is checked to return a good value. -/
theorem steps_of_feed_returned {good : α → Bool}
    (h : feed env (fun _ q => q.returned good) p msgs [] = true) :
    ∃ t s a, Steps p t (.ret s a) ∧ received t = msgs ∧ good a = true := by
  obtain ⟨t, q, hsteps, hrec, hgood⟩ := steps_of_feed h
  cases q with
  | ret s a => exact ⟨t, s, a, hsteps, hrec, hgood⟩
  | stop s e => cases hgood
  | call s op k => cases hgood

@[simp] theorem feed_ret {a : α} :
    feed env check (.ret s a) [] past = check past (.ret s a) := rfl

@[simp] theorem feed_recv {f : String → Process K P σ α} {msg : String} :
    feed env check ((receiveMsg s).bind f) (msg :: msgs) past =
      feed env check (f msg s) msgs (past ++ [⟨s, .recv, .ok msg⟩]) := rfl

/-- A sent message that the environment acknowledges. -/
theorem feed_send {f : Unit → Process K P σ α} {msg : Msg K P} (h : env (.send msg) = .ok ()) :
    feed env check ((sendMsg msg s).bind f) msgs past =
      feed env check (f () s) msgs (past ++ [⟨s, .send msg, .ok ()⟩]) := by
  simp only [sendMsg, Proc.request, Prog.bind_call, feed, h]
  rfl

/-- A computation goes on when it succeeds. -/
theorem feed_lift {x : Outcome β} {f : β → Process K P σ α} :
    feed env check ((Proc.lift x s).bind f) msgs past =
      match x with
      | .ok b => feed env check (f b s) msgs past
      | .error e => feed env check (.stop s e) msgs past := by
  cases x <;> rfl

end Feed

/-! ### Two parties on one stream -/

/-- The conversation of two programs whose only operations are those on the stream between them:
what was said, in order, and what each returned.  As `send_msg` waits for the acknowledgement that
`receive_msg` sends, one side sends while the other receives. -/
def talk {τ α β : Type} (L : Grin.GrinLib K P) :
    Program K P σ α → Program K P τ β →
      Option (List (Msg K P) × α × β)
  | .ret _ a, .ret _ b => some ([], a, b)
  | .call _ (.send msg) k, .call _ .recv k' =>
    (talk L (k (.ok ())) (k' (.ok (msg.render L)))).map fun r => (msg :: r.1, r.2)
  | .call _ .recv k, .call _ (.send msg) k' =>
    (talk L (k (.ok (msg.render L))) (k' (.ok ()))).map fun r => (msg :: r.1, r.2)
  | _, _ => none

section Talk

variable {τ α β γ : Type} {L : Grin.GrinLib K P} {s : σ} {s' : τ} {r : List (Msg K P) × α × β}

/-- One message of a conversation, from the first party. -/
@[simp] theorem talk_send {msg : Msg K P} {f : Unit → Process K P σ α}
    {g : String → Process K P τ β} :
    talk L ((sendMsg msg s).bind f) ((receiveMsg s').bind g) =
      (talk L (f () s) (g (msg.render L) s')).map fun r => (msg :: r.1, r.2) := rfl

/-- One message of a conversation, from the second party. -/
@[simp] theorem talk_recv {msg : Msg K P} {f : String → Process K P σ α}
    {g : Unit → Process K P τ β} :
    talk L ((receiveMsg s).bind f) ((sendMsg msg s').bind g) =
      (talk L (f (msg.render L) s) (g () s')).map fun r => (msg :: r.1, r.2) := rfl

@[simp] theorem talk_ret {a : α} {b : β} :
    talk L (.ret s a : Program K P σ α) (.ret s' b) = some ([], a, b) := rfl

/-- A conversation goes on after a computation of the first party that succeeds. -/
theorem talk_lift_left {x : Outcome γ} {f : γ → Process K P σ α}
    {q : Program K P τ β} :
    talk L ((Proc.lift x s).bind f) q = some r ↔ ∃ c, x = .ok c ∧ talk L (f c s) q = some r := by
  cases x with
  | error e =>
    cases q <;> simp [talk]
  | ok c => simp

/-- A conversation goes on after a computation of the second party that succeeds. -/
theorem talk_lift_right {x : Outcome γ} {p : Program K P σ α}
    {g : γ → Process K P τ β} :
    talk L p ((Proc.lift x s').bind g) = some r ↔ ∃ c, x = .ok c ∧ talk L p (g c s') = some r := by
  cases x with
  | error e =>
    cases p with
    | ret s a => simp [talk]
    | stop s e => simp [talk]
    | call s op k => cases op <;> simp [talk]
  | ok c => simp

/-- A computation of the first party, as a case distinction. -/
theorem talk_lift_left_eq {x : Outcome γ} {f : γ → Process K P σ α} {q : Program K P τ β} :
    talk L ((Proc.lift x s).bind f) q =
      match x with
      | .ok c => talk L (f c s) q
      | .error _ => none := by
  cases x with
  | error e => cases q <;> simp [talk]
  | ok c => rfl

/-- A computation of the second party, as a case distinction. -/
theorem talk_lift_right_eq {x : Outcome γ} {p : Program K P σ α} {g : γ → Process K P τ β} :
    talk L p ((Proc.lift x s').bind g) =
      match x with
      | .ok c => talk L p (g c s')
      | .error _ => none := by
  cases x with
  | error e =>
    cases p with
    | ret s a => simp [talk]
    | stop s e => simp [talk]
    | call s op k => cases op <;> simp [talk]
  | ok c => rfl

/-- The parties of a conversation in the other order. -/
theorem talk_swap {p : Program K P σ α} {q : Program K P τ β} (h : talk L p q = some r) :
    talk L q p = some (r.1, r.2.2, r.2.1) := by
  fun_induction talk L p q generalizing r with
  | case1 s a s' b =>
    cases h
    rfl
  | case2 s msg k s' k' ih =>
    obtain ⟨r', hr', rfl⟩ := Option.map_eq_some_iff.mp h
    rw [talk, ih hr']
    rfl
  | case3 s k s' msg k' ih =>
    obtain ⟨r', hr', rfl⟩ := Option.map_eq_some_iff.mp h
    rw [talk, ih hr']
    rfl
  | case4 => cases h

/-- A conversation is a complete run of each party, and each received what the other sent. -/
theorem steps_of_talk {p : Program K P σ α} {q : Program K P τ β} (h : talk L p q = some r) :
    ∃ t u s s', Steps p t (.ret s r.2.1) ∧ Steps q u (.ret s' r.2.2) ∧ Connected L t u := by
  fun_induction talk L p q generalizing r with
  | case1 s a s' b =>
    cases h
    exact ⟨[], [], s, s', .refl _, .refl _, rfl, rfl⟩
  | case2 s msg k s' k' ih =>
    obtain ⟨r', hr', rfl⟩ := Option.map_eq_some_iff.mp h
    obtain ⟨t, u, s₁, s₁', ht, hu, hrecv, hrecv'⟩ := ih hr'
    refine ⟨_, _, s₁, s₁', .step ht, .step hu, hrecv, ?_⟩
    exact congrArg (msg.render L :: ·) hrecv'
  | case3 s k s' msg k' ih =>
    obtain ⟨r', hr', rfl⟩ := Option.map_eq_some_iff.mp h
    obtain ⟨t, u, s₁, s₁', ht, hu, hrecv, hrecv'⟩ := ih hr'
    refine ⟨_, _, s₁, s₁', .step ht, .step hu, ?_, hrecv'⟩
    exact congrArg (msg.render L :: ·) hrecv
  | case4 => cases h

end Talk

end MwBtcSwap
