import MwBtcSwap.Faulty
import MwBtcSwap.Swap.Together

/-! What the handshake lets through.  The listener and the taker may start from any slates, and their nodes,
disks and connection may fail: neither does more than shake hands unless the checksums of their public files
match, and then the two are in the same phase, each in its own part. -/

namespace MwBtcSwap

open Interaction Machine Grin Bitcoin Relation

variable {K P : Type} [CommRing K] [AddCommGroup P] [Module K P] [DecidableEq K] [DecidableEq P]

/-- The operations of a handshake. -/
def Op.Handshake : Op K P → Prop
  | .send (.text _) | .recv | .connect _ _ | .bind | .accept | .getSlateChecksum => True
  | _ => False

/-- A phase in one of its parts. -/
def Phase.process (L : GrinLib K P) (B : BtcLib K P) (rand : Rand K) :
    Phase → Role → Process K P (SwapSlate K P) Unit
  | .locking => lockingPhase L B rand
  | .execution => execPhase L B rand
  | .refund => refundPhase B rand

/-- The command with which the taker asks for a phase. -/
def Phase.command (swapid : ℕ) : Phase → Command
  | .locking => .lock swapid
  | .execution => .execute swapid
  | .refund => .cancel swapid

/-- The status of the slates at the start of a phase. -/
def Phase.status : Phase → SwapStatus
  | .locking => .initialized
  | .execution => .setup
  | .refund => .setup

/-- All that was done is part of a handshake, with the slate of the start. -/
def Shakes (slate : SwapSlate K P) (t : Trace K P (SwapSlate K P)) : Prop :=
  ∀ e ∈ t, e.op.Handshake ∧ e.mem = slate

/-- A party that has only shaken hands. -/
def Greeting (slate : SwapSlate K P) {α : Type} (a : Actor K P (SwapSlate K P) α) : Prop :=
  Shakes slate a.past ∧ a.prog.mem = slate

/-- A party that went from its handshake into a phase. -/
def InPhase (L : GrinLib K P) (B : BtcLib K P) (rand : Rand K) (slate : SwapSlate K P) (phase : Phase)
    (role : Role) (a : Actor K P (SwapSlate K P) (Option Phase)) : Prop :=
  ∃ t u, a.past = t ++ u ∧ Shakes slate t ∧
    Steps ((phase.process L B rand role >>= fun _ => finish phase) slate) u a.prog

variable {L : GrinLib K P} {B : BtcLib K P} {F : FileLib K P} {rand randO randT : Rand K}
  {slate slateO slateT : SwapSlate K P} {files filesO filesT : SlateFiles} {swapid swapid' clients : ℕ}
  {t u : Trace K P (SwapSlate K P)} {q : Program K P (SwapSlate K P) (Option Phase)} {phase : Phase}

section

omit [CommRing K] [AddCommGroup P] [Module K P] [DecidableEq K] [DecidableEq P]

theorem shakes_nil : Shakes slate ([] : Trace K P (SwapSlate K P)) := by simp [Shakes]

theorem shakes_cons {e : Event (SwapSlate K P) (@Op.Ans K P)} :
    Shakes slate (e :: t) ↔ (e.op.Handshake ∧ e.mem = slate) ∧ Shakes slate t := List.forall_mem_cons

theorem Shakes.append (h : Shakes slate t) (h' : Shakes slate u) : Shakes slate (t ++ u) :=
  List.forall_mem_append.mpr ⟨h, h'⟩

theorem Op.Handshake.reads {op : Op K P} (h : op.Handshake) : op.Reads := by
  cases op with
  | createSlateFile isPublic => exact h
  | writeSlateFile isPublic => exact h
  | _ => trivial

/-! ### The taker -/

/-- The message with which the taker names a phase to a listener that has the choice. -/
def Phase.name : Phase → List String
  | .locking => []
  | .execution => ["EXECUTE"]
  | .refund => ["CANCEL"]

/-- A party whose messages are at most its checksum. -/
def Asks (L : GrinLib K P) (slate : SwapSlate K P) (t : Trace K P (SwapSlate K P)) : Prop :=
  posted L t = [] ∨ ∃ sum, posted L t = [sum] ∧ ⟨slate, .getSlateChecksum, .ok sum⟩ ∈ t

/-- One operation of a handshake is the last that is done, or is answered and the program goes on. -/
theorem shakes_request_bind {op : Op K P} {α : Type} {read : op.Ans → Outcome α}
    {f : α → Process K P (SwapSlate K P) (Option Phase)}
    (h : Steps ((Proc.request op read >>= f) slate) u q) (hop : op.Handshake)
    (hnone : ∀ ans, posted? L (⟨slate, op, ans⟩ : Event (SwapSlate K P) (@Op.Ans K P)) = none) :
    (Shakes slate u ∧ q.mem = slate ∧ posted L u = []) ∨
      ∃ ans a u', u = ⟨slate, op, ans⟩ :: u' ∧ read ans = .ok a ∧ Steps (f a slate) u' q := by
  rcases Steps.request_bind_inv h with ⟨rfl, hq⟩ | ⟨ans, u', rfl, ⟨e, he, rfl, rfl⟩ | ⟨a, ha, hrest⟩⟩
  · exact .inl ⟨shakes_nil, hq, rfl⟩
  · exact .inl ⟨shakes_cons.mpr ⟨⟨hop, rfl⟩, shakes_nil⟩, rfl, by simp [hnone ans]⟩
  · exact .inr ⟨ans, a, u', rfl, ha, hrest⟩

/-- A message that is sent may reach the peer, also when the sender stops there. -/
theorem shakes_sendMsg_bind {m : String} {f : Unit → Process K P (SwapSlate K P) (Option Phase)}
    (h : Steps ((sendMsg (.text m) >>= f) slate) u q) :
    (Shakes slate u ∧ q.mem = slate ∧ posted L u = []) ∨
      ∃ ans u', u = ⟨slate, .send (.text m), ans⟩ :: u' ∧
        ((u' = [] ∧ q.mem = slate) ∨ Steps (f () slate) u' q) := by
  rcases Steps.request_bind_inv h with ⟨rfl, hq⟩ | ⟨ans, u', rfl, ⟨e, -, rfl, rfl⟩ | ⟨⟨⟩, -, hrest⟩⟩
  · exact .inl ⟨shakes_nil, hq, rfl⟩
  · exact .inr ⟨ans, [], rfl, .inl ⟨rfl, rfl⟩⟩
  · exact .inr ⟨ans, u', rfl, .inr hrest⟩

theorem shakes_receiveMsg_bind {f : String → Process K P (SwapSlate K P) (Option Phase)}
    (h : Steps ((receiveMsg >>= f) slate) u q) :
    (Shakes slate u ∧ q.mem = slate ∧ posted L u = []) ∨
      ∃ m u', u = ⟨slate, .recv, .ok m⟩ :: u' ∧ Steps (f m slate) u' q := by
  refine (shakes_request_bind (L := L) h trivial fun _ => rfl).imp_right ?_
  rintro ⟨ans, m, u', rfl, hans, hrest⟩
  obtain rfl := Outcome.expect_eq_ok.mp hans
  exact ⟨m, u', rfl, hrest⟩

theorem shakes_checksum_bind {msg : String} {f : String → Process K P (SwapSlate K P) (Option Phase)}
    (h : Steps ((Proc.request .getSlateChecksum (Outcome.expect msg) >>= f) slate) u q) :
    (Shakes slate u ∧ q.mem = slate ∧ posted L u = []) ∨
      ∃ sum u', u = ⟨slate, .getSlateChecksum, .ok sum⟩ :: u' ∧ Steps (f sum slate) u' q := by
  refine (shakes_request_bind (L := L) h trivial fun _ => rfl).imp_right ?_
  rintro ⟨ans, m, u', rfl, hans, hrest⟩
  obtain rfl := Outcome.expect_eq_ok.mp hans
  exact ⟨m, u', rfl, hrest⟩

theorem connectToPeer_shakes {g : String → Process K P (SwapSlate K P) (Option Phase)}
    (h : Steps ((connectToPeer >>= g) slate) u q) :
    (Shakes slate u ∧ q.mem = slate ∧ Asks L slate u) ∨
      ∃ t sum resp u', u = t ++ u' ∧ Shakes slate t ∧ ⟨slate, .getSlateChecksum, .ok sum⟩ ∈ t ∧
        posted L t = [sum] ∧ received t = [resp] ∧ Steps (g resp slate) u' q := by
  simp only [connectToPeer, Proc.bind_assoc] at h
  rcases shakes_request_bind (L := L) h trivial (fun _ => rfl) with
    ⟨hu, hq, hnone⟩ | ⟨ans, -, u₁, rfl, -, h₁⟩
  · exact .inl ⟨hu, hq, .inl hnone⟩
  rcases shakes_checksum_bind (L := L) h₁ with ⟨hu, hq, hnone⟩ | ⟨sum, u₂, rfl, h₂⟩
  · exact .inl ⟨shakes_cons.mpr ⟨⟨trivial, rfl⟩, hu⟩, hq, .inl (by simp [posted?, hnone])⟩
  rcases shakes_sendMsg_bind (L := L) h₂ with ⟨hu, hq, hnone⟩ | ⟨ans, u₃, rfl, h₃⟩
  · refine .inl ⟨?_, hq, .inl (by simp [posted?, hnone])⟩
    exact shakes_cons.mpr ⟨⟨trivial, rfl⟩, shakes_cons.mpr ⟨⟨trivial, rfl⟩, hu⟩⟩
  have hwait : (Shakes slate u₃ ∧ q.mem = slate ∧ posted L u₃ = []) ∨
      ∃ resp u₄, u₃ = ⟨slate, .recv, .ok resp⟩ :: u₄ ∧ Steps (g resp slate) u₄ q := by
    rcases h₃ with ⟨rfl, hq⟩ | h₃
    · exact .inl ⟨shakes_nil, hq, rfl⟩
    · exact shakes_receiveMsg_bind h₃
  rcases hwait with ⟨hu, hq, hnone⟩ | ⟨resp, u₄, rfl, h₄⟩
  · refine .inl ⟨?_, hq, .inr ⟨sum, by simp [posted?, Msg.render, hnone], by simp⟩⟩
    exact shakes_cons.mpr ⟨⟨trivial, rfl⟩, shakes_cons.mpr ⟨⟨trivial, rfl⟩,
      shakes_cons.mpr ⟨⟨trivial, rfl⟩, hu⟩⟩⟩
  refine .inr ⟨[_, _, _, _], sum, resp, u₄, rfl, by simp [Shakes, Op.Handshake], by simp, ?_, ?_, h₄⟩
  · simp [posted?, Msg.render]
  · simp [received?]

/-- The tests that the taker makes before its phase. -/
theorem steps_guards {resp : String} {status : SwapStatus} {e e' : Failure}
    {p : Process K P (SwapSlate K P) Unit} {f : Unit → Process K P (SwapSlate K P) (Option Phase)}
    (h : Steps (((if eqIgnoreAsciiCase resp "OK" = false then Proc.lift (.error e)
      else if slate.pubSlate.status ≠ status then Proc.lift (.error e') else p) >>= f) slate) u q) :
    (u = [] ∧ q.mem = slate) ∨ eqIgnoreAsciiCase resp "OK" = true ∧ slate.pubSlate.status = status ∧
      Steps ((p >>= f) slate) u q := by
  split_ifs at h with hresp hstatus
  · obtain ⟨rfl, rfl⟩ := steps_stop.mp h
    exact .inl ⟨rfl, rfl⟩
  · obtain ⟨rfl, rfl⟩ := steps_stop.mp h
    exact .inl ⟨rfl, rfl⟩
  · exact .inr ⟨by simpa using hresp, not_not.mp hstatus, h⟩

/-- What the taker does with the answer to its checksum. -/
def Phase.answered (L : GrinLib K P) (B : BtcLib K P) (rand : Rand K) (phase : Phase)
    (slate : SwapSlate K P) : Process K P (SwapSlate K P) Unit :=
  match phase with
  | .locking => lockingPhase L B rand slate.taker
  | .execution => sendMsg (.text "EXECUTE") >>= fun _ => execPhase L B rand slate.taker
  | .refund => sendMsg (.text "CANCEL") >>= fun _ => refundPhase B rand slate.taker

theorem steps_named {m : String} {p : Process K P (SwapSlate K P) Unit}
    {f : Unit → Process K P (SwapSlate K P) (Option Phase)}
    (h : Steps (((sendMsg (.text m) >>= fun _ => p) >>= f) slate) u q) :
    (Shakes slate u ∧ q.mem = slate ∧ posted L u = []) ∨ ∃ t u', u = t ++ u' ∧ Shakes slate t ∧
      posted L t = [m] ∧ received t = [] ∧
      ((u' = [] ∧ q.mem = slate) ∨ Steps ((p >>= f) slate) u' q) := by
  rw [Proc.bind_assoc] at h
  refine (shakes_sendMsg_bind (L := L) h).imp_right ?_
  rintro ⟨ans, u', rfl, hrest⟩
  refine ⟨[_], u', rfl, shakes_cons.mpr ⟨⟨trivial, rfl⟩, shakes_nil⟩, ?_, rfl, hrest⟩
  simp [posted?, Msg.render]

end

/-- The taker names its phase and goes into it. -/
theorem answered_shakes
    (h : Steps ((phase.answered L B rand slate >>= fun _ => finish phase) slate) u q) :
    (Shakes slate u ∧ q.mem = slate ∧ posted L u = []) ∨ ∃ t u', u = t ++ u' ∧ Shakes slate t ∧
      posted L t = phase.name ∧ received t = [] ∧ ((u' = [] ∧ q.mem = slate) ∨
        Steps ((phase.process L B rand slate.taker >>= fun _ => finish phase) slate) u' q) := by
  cases phase with
  | locking => exact .inr ⟨[], u, rfl, shakes_nil, rfl, rfl, .inr h⟩
  | execution => exact steps_named h
  | refund => exact steps_named h

theorem command_eq (L : GrinLib K P) (B : BtcLib K P) (rand : Rand K) (swapid : ℕ) (phase : Phase) :
    ∃ e e', main L B rand (phase.command swapid) =
      (connectToPeer >>= fun resp => Proc.get >>= fun slate =>
        (if eqIgnoreAsciiCase resp "OK" = false then Proc.lift (.error e)
        else if slate.pubSlate.status ≠ phase.status then Proc.lift (.error e')
        else phase.answered L B rand slate) >>= fun _ => finish phase) := by
  cases phase with
  | locking => exact ⟨_, _, lock_eq⟩
  | execution => exact ⟨_, _, run_eq⟩
  | refund => exact ⟨_, _, run_eq⟩

/-- The taker goes on when it was answered OK, from the status of its phase. -/
theorem taker_shakes (h : Steps (main L B rand (phase.command swapid) slate) u q) :
    (Shakes slate u ∧ q.mem = slate ∧ Asks L slate u) ∨
      slate.pubSlate.status = phase.status ∧ ∃ t sum resp u', u = t ++ u' ∧ Shakes slate t ∧
        ⟨slate, .getSlateChecksum, .ok sum⟩ ∈ t ∧ received t = [resp] ∧
        eqIgnoreAsciiCase resp "OK" = true ∧ posted L t = sum :: phase.name ∧ ((u' = [] ∧ q.mem = slate) ∨
          Steps ((phase.process L B rand slate.taker >>= fun _ => finish phase) slate) u' q) := by
  obtain ⟨e, e', heq⟩ := command_eq L B rand swapid phase
  rw [heq] at h
  rcases connectToPeer_shakes (L := L) h with hasks | ⟨t, sum, resp, u', rfl, ht, hsum, hsent, hresp, hrest⟩
  · exact .inl hasks
  rcases steps_guards hrest with ⟨rfl, hq⟩ | ⟨hok, hstatus, hrest⟩
  · rw [List.append_nil]
    exact .inl ⟨ht, hq, .inr ⟨sum, hsent, hsum⟩⟩
  rcases answered_shakes hrest with ⟨hu, hq, hnone⟩ | ⟨t', u'', rfl, ht', hname, hnone, hphase⟩
  · exact .inl ⟨ht.append hu, hq, .inr ⟨sum, by simp [hsent, hnone], List.mem_append_left _ hsum⟩⟩
  · refine .inr ⟨hstatus, t ++ t', sum, resp, u'', (List.append_assoc _ _ _).symm, ht.append ht',
      List.mem_append_left _ hsum, ?_, hok, ?_, hphase⟩
    · simp [hresp, hnone]
    · simp [hsent, hname]

/-! ### The listener -/

/-- The answer of the listener to a checksum. -/
def answerTo (m sum : String) : String := if eqIgnoreAsciiCase m sum then "OK" else "FAULT"

/-- One client of the listener. -/
theorem serveClients_shakes
    (h : Steps ((serveClients L B rand clients >>= finish) slate) t q) :
    (Shakes slate t ∧ q.mem = slate ∧ posted L t = []) ∨
      ∃ t₁ m sum t₂ n, t = t₁ ++ t₂ ∧ Shakes slate t₁ ∧ ⟨slate, .getSlateChecksum, .ok sum⟩ ∈ t₁ ∧
        received t₁ = [m] ∧ posted L t₁ = [answerTo m sum] ∧ ((t₂ = [] ∧ q.mem = slate) ∨
          Steps (((if eqIgnoreAsciiCase m sum then serveClient L B rand slate >>= fun served =>
              match served with
              | some phase => pure phase
              | none => serveClients L B rand n
            else serveClients L B rand n) >>= finish) slate) t₂ q) := by
  cases clients with
  | zero =>
    rcases shakes_request_bind (L := L) h trivial (fun _ => rfl) with hgreet | ⟨_, _, _, -, hans, -⟩
    · exact .inl hgreet
    · cases hans
  | succ n =>
    simp only [serveClients, Proc.bind_assoc] at h
    rcases shakes_request_bind (L := L) h trivial (fun _ => rfl) with hgreet | ⟨ans, -, t₁, rfl, -, h₁⟩
    · exact .inl hgreet
    rcases shakes_receiveMsg_bind (L := L) h₁ with ⟨ht, hq, hnone⟩ | ⟨m, t₂, rfl, h₂⟩
    · exact .inl ⟨shakes_cons.mpr ⟨⟨trivial, rfl⟩, ht⟩, hq, by simp [posted?, hnone]⟩
    rcases shakes_checksum_bind (L := L) h₂ with ⟨ht, hq, hnone⟩ | ⟨sum, t₃, rfl, h₃⟩
    · refine .inl ⟨?_, hq, by simp [posted?, hnone]⟩
      exact shakes_cons.mpr ⟨⟨trivial, rfl⟩, shakes_cons.mpr ⟨⟨trivial, rfl⟩, ht⟩⟩
    have hanswered : (Shakes slate t₃ ∧ q.mem = slate ∧ posted L t₃ = []) ∨
        ∃ ans t₄, t₃ = ⟨slate, .send (.text (answerTo m sum)), ans⟩ :: t₄ ∧ ((t₄ = [] ∧ q.mem = slate) ∨
          Steps (((if eqIgnoreAsciiCase m sum then serveClient L B rand slate >>= fun served =>
              match served with
              | some phase => pure phase
              | none => serveClients L B rand n
            else serveClients L B rand n) >>= finish) slate) t₄ q) := by
      by_cases hmatch : eqIgnoreAsciiCase m sum = true
      · rw [answerTo, if_pos hmatch, if_pos hmatch]
        rw [if_pos hmatch] at h₃
        simp only [Proc.bind_assoc] at h₃ ⊢
        exact shakes_sendMsg_bind h₃
      · rw [answerTo, if_neg hmatch, if_neg hmatch]
        rw [if_neg hmatch, Proc.bind_assoc] at h₃
        exact shakes_sendMsg_bind h₃
    rcases hanswered with ⟨ht, hq, hnone⟩ | ⟨ans', t₄, rfl, h₄⟩
    · refine .inl ⟨?_, hq, by simp [posted?, hnone]⟩
      exact shakes_cons.mpr ⟨⟨trivial, rfl⟩, shakes_cons.mpr ⟨⟨trivial, rfl⟩,
        shakes_cons.mpr ⟨⟨trivial, rfl⟩, ht⟩⟩⟩
    · refine .inr ⟨[_, _, _, _], m, sum, t₄, n, rfl, by simp [Shakes, Op.Handshake], by simp, ?_, ?_, h₄⟩
      · simp [received?]
      · simp [posted?, Msg.render]

/-- A listener that gets no message only shakes hands. -/
theorem serveClients_silent (h : Steps ((serveClients L B rand clients >>= finish) slate) t q)
    (hsilent : received t = []) : Shakes slate t ∧ q.mem = slate := by
  rcases serveClients_shakes h with ⟨ht, hq, -⟩ | ⟨t₁, m, sum, t₂, -, rfl, -, -, hm, -⟩
  · exact ⟨ht, hq⟩
  · simp [hm] at hsilent

/-- The phase that the listener goes into at a message. -/
def Phase.named (m : String) : Phase := if m = "EXECUTE" then .execution else .refund

/-- A client whose checksum matched: the listener goes into a phase from the status of it, at a message
where there are two. -/
theorem serveClient_shakes (h : Steps (((serveClient L B rand slate >>= fun served =>
      match served with
      | some phase => pure phase
      | none => serveClients L B rand clients) >>= finish) slate) t q) :
    (slate.pubSlate.status = .initialized ∧
        Steps ((Phase.locking.process L B rand slate.offerer >>= fun _ => finish .locking) slate) t q) ∨
      (slate.pubSlate.status = .setup ∧ ((Shakes slate t ∧ q.mem = slate) ∨
        ∃ m t', t = ⟨slate, .recv, .ok m⟩ :: t' ∧ Steps (((Phase.named m).process L B rand slate.offerer >>=
          fun _ => finish (Phase.named m)) slate) t' q)) ∨
      (slate.pubSlate.status ≠ .initialized ∧ slate.pubSlate.status ≠ .setup ∧
        Steps ((serveClients L B rand clients >>= finish) slate) t q) := by
  rw [serveClient] at h
  split_ifs at h with hinit hsetup
  · simp only [Proc.bind_assoc] at h
    exact .inl ⟨hinit, h⟩
  · simp only [Proc.bind_assoc] at h
    refine .inr (.inl ⟨hsetup, ?_⟩)
    rcases shakes_receiveMsg_bind (L := L) h with ⟨ht, hq, -⟩ | ⟨m, t', rfl, hrest⟩
    · exact .inl ⟨ht, hq⟩
    · refine .inr ⟨m, t', rfl, ?_⟩
      rw [Phase.named]
      split_ifs at hrest ⊢
      · simp only [Proc.bind_assoc] at hrest
        exact hrest
      · simp only [Proc.bind_assoc] at hrest
        exact hrest
  · exact .inr (.inr ⟨hinit, hsetup, h⟩)

theorem listener_shakes (h : Steps (main L B rand (.listen swapid clients) slate) t q) :
    (Shakes slate t ∧ q.mem = slate ∧ posted L t = []) ∨ ∃ ans t', t = ⟨slate, .bind, ans⟩ :: t' ∧
      Steps ((serveClients L B rand clients >>= finish) slate) t' q := by
  rw [listen_eq] at h
  simp only [listenExecute, Proc.bind_assoc] at h
  rcases Steps.lift_bind_inv h with ⟨e, -, rfl, rfl⟩ | ⟨value, -, h₁⟩
  · exact .inl ⟨shakes_nil, rfl, rfl⟩
  split_ifs at h₁
  · obtain ⟨rfl, rfl⟩ := steps_stop.mp h₁
    exact .inl ⟨shakes_nil, rfl, rfl⟩
  · rw [Proc.bind_assoc] at h₁
    refine (shakes_request_bind (L := L) h₁ trivial fun _ => rfl).imp_right ?_
    rintro ⟨ans, -, t', rfl, -, hrest⟩
    exact ⟨ans, t', rfl, hrest⟩

/-! ### Both -/

/-- Public files with the same checksum have the same text: the two are no collision of `Sha256`. -/
def FileLib.Distinguishes (F : FileLib K P) (filesO filesT : SlateFiles) : Prop :=
  ∀ a b, filesO.pub = some a → filesT.pub = some b →
    eqIgnoreAsciiCase (F.sha256 b) (F.sha256 a) = true → a = b

omit [CommRing K] [AddCommGroup P] [Module K P] [DecidableEq K] [DecidableEq P] in
/-- A matching checksum comes from the same public slate. -/
theorem pubSlate_of_match {a b : String} (hF : F.Distinguishes filesO filesT)
    (hO : readSlateFromDisk F filesO = .ok slateO) (hT : readSlateFromDisk F filesT = .ok slateT)
    (hsumO : getSlateChecksum F filesO = .ok a) (hsumT : getSlateChecksum F filesT = .ok b)
    (hmatch : eqIgnoreAsciiCase b a = true) : slateT.pubSlate = slateO.pubSlate := by
  obtain ⟨hpubO, -⟩ := readSlateFromDisk_eq_ok.mp hO
  obtain ⟨hpubT, -⟩ := readSlateFromDisk_eq_ok.mp hT
  obtain ⟨pubO, prvO⟩ := filesO
  obtain ⟨pubT, prvT⟩ := filesT
  cases pubO with
  | none => cases hsumO
  | some textO =>
    cases pubT with
    | none => cases hsumT
    | some textT =>
      cases hsumO
      cases hsumT
      obtain rfl := hF textO textT rfl rfl hmatch
      exact Option.some.inj (hpubT.symm.trans hpubO)

/-- What two connected runs of a listener and a taker have come to. -/
def Agree (L : GrinLib K P) (B : BtcLib K P) (randO randT : Rand K) (slateO slateT : SwapSlate K P)
    (phase : Phase) (a b : Actor K P (SwapSlate K P) (Option Phase)) : Prop :=
  slateT.pubSlate = slateO.pubSlate ∧ ∃ served,
    (Greeting slateO a ∨ InPhase L B randO slateO served slateO.offerer a) ∧
    (Greeting slateT b ∨ served = phase ∧ InPhase L B randT slateT phase slateT.taker b)

theorem eq_ok_of_answerTo {m sum : String} (h : eqIgnoreAsciiCase (answerTo m sum) "OK" = true) :
    eqIgnoreAsciiCase m sum = true := by
  by_contra hmatch
  rw [answerTo, if_neg hmatch] at h
  exact absurd h (by decide)

theorem Phase.eq_locking (h : phase.status = .initialized) : phase = .locking := by
  cases phase with
  | locking => rfl
  | execution => cases h
  | refund => cases h

/-- The name of a phase that has one is understood. -/
theorem Phase.named_eq {m : String} {l l' : List String} (hstatus : phase.status = .setup)
    (h : m :: l = phase.name ++ l') : Phase.named m = phase := by
  cases phase with
  | locking => cases hstatus
  | execution =>
    obtain ⟨rfl, -⟩ := List.cons.inj h
    rfl
  | refund =>
    obtain ⟨rfl, -⟩ := List.cons.inj h
    rfl

theorem Phase.status_cases (phase : Phase) : phase.status = .initialized ∨ phase.status = .setup := by
  cases phase with
  | locking => exact .inl rfl
  | execution => exact .inr rfl
  | refund => exact .inr rfl

/-- A matched taker: the listener is with it in its phase, or in the locking phase while the taker, whose
own phase starts from another status, has done nothing. -/
theorem agree_of_match (hpub : slateT.pubSlate = slateO.pubSlate) {t₁ t₂ : Trace K P (SwapSlate K P)}
    {qO qT : Program K P (SwapSlate K P) (Option Phase)} (ht₁ : Shakes slateO t₁)
    (hO : (t₂ = [] ∧ qO.mem = slateO) ∨ Steps (((serveClient L B randO slateO >>= fun served =>
      match served with
      | some phase => pure phase
      | none => serveClients L B randO clients) >>= finish) slateO) t₂ qO)
    (hT : (Shakes slateT u ∧ qT.mem = slateT) ∧ received t₂ = [] ∨
      slateT.pubSlate.status = phase.status ∧ (Greeting slateT (⟨u, qT⟩ : Actor K P _ _) ∨
        InPhase L B randT slateT phase slateT.taker ⟨u, qT⟩) ∧ ∃ l, received t₂ <+: phase.name ++ l) :
    Agree L B randO randT slateO slateT phase ⟨t₁ ++ t₂, qO⟩ ⟨u, qT⟩ := by
  refine ⟨hpub, ?_⟩
  rw [hpub] at hT
  -- the taker alone agrees with a listener that has only shaken hands
  have hgreeting (ht₂ : Shakes slateO t₂) (hq : qO.mem = slateO) : ∃ served,
      (Greeting slateO (⟨t₁ ++ t₂, qO⟩ : Actor K P _ _) ∨
        InPhase L B randO slateO served slateO.offerer ⟨t₁ ++ t₂, qO⟩) ∧
      (Greeting slateT (⟨u, qT⟩ : Actor K P _ _) ∨
        served = phase ∧ InPhase L B randT slateT phase slateT.taker ⟨u, qT⟩) := by
    refine ⟨phase, .inl ⟨ht₁.append ht₂, hq⟩, ?_⟩
    rcases hT with ⟨hgreet, -⟩ | ⟨-, hgreet | hin, -⟩
    · exact .inl hgreet
    · exact .inl hgreet
    · exact .inr ⟨rfl, hin⟩
  rcases hO with ⟨rfl, hq⟩ | hO
  · exact hgreeting shakes_nil hq
  rcases serveClient_shakes hO with ⟨hstatus, hphase⟩ | ⟨hstatus, hsetup⟩ | ⟨hinit, hsetup, hrest⟩
  · refine ⟨.locking, .inr ⟨t₁, t₂, rfl, ht₁, hphase⟩, ?_⟩
    rcases hT with ⟨hgreet, -⟩ | ⟨hphase, hgreet | hin, -⟩
    · exact .inl hgreet
    · exact .inl hgreet
    · exact .inr ⟨(Phase.eq_locking (hphase.symm.trans hstatus)).symm, hin⟩
  · rcases hsetup with ⟨ht₂, hq⟩ | ⟨m, t', rfl, hphase⟩
    · exact hgreeting ht₂ hq
    · rcases hT with ⟨-, hnone⟩ | ⟨hstart, hin, l, hl⟩
      · simp [received?] at hnone
      · have hnamed : Phase.named m = phase := by
          obtain ⟨l', hl⟩ := hl
          exact Phase.named_eq (hstart.symm.trans hstatus) (by simpa [received?] using hl)
        rw [hnamed] at hphase
        refine ⟨phase, .inr ⟨t₁ ++ [⟨slateO, .recv, .ok m⟩], t', by simp, ?_, hphase⟩, ?_⟩
        · exact ht₁.append (shakes_cons.mpr ⟨⟨trivial, rfl⟩, shakes_nil⟩)
        · exact hin.imp_right fun hin => ⟨rfl, hin⟩
  · rcases hT with ⟨-, hnone⟩ | ⟨hstart, -, -⟩
    · obtain ⟨ht₂, hq⟩ := serveClients_silent hrest hnone
      exact hgreeting ht₂ hq
    · rcases phase.status_cases with hphase | hphase
      · exact (hinit (hstart.trans hphase)).elim
      · exact (hsetup (hstart.trans hphase)).elim

/-- A checksum is that of the public file, and every other operation is answered in any way. -/
def ChecksumRight (F : FileLib K P) (files : SlateFiles) (past : Trace K P (SwapSlate K P)) :
    Event (SwapSlate K P) (@Op.Ans K P) → Prop
  | ⟨_, .getSlateChecksum, ans⟩ => ans = getSlateChecksum F (files.after F past)
  | _ => True

omit [CommRing K] [AddCommGroup P] [Module K P] [DecidableEq K] [DecidableEq P] in
/-- The checksum of a handshake is that of the file at its start. -/
theorem Shakes.checksum {s : SwapSlate K P} {sum : String} (h : Shakes slate t) (ht : t <+: u)
    (hans : AnsweredAs (ChecksumRight F files) u) (hmem : ⟨s, .getSlateChecksum, .ok sum⟩ ∈ t) :
    getSlateChecksum F files = .ok sum := by
  obtain ⟨t₁, t₂, rfl⟩ := List.append_of_mem hmem
  have hsum : Except.ok sum = getSlateChecksum F (files.after F t₁) :=
    (hans t₁ _ ((List.prefix_append_right_inj t₁).mpr (List.prefix_append [_] t₂) |>.trans ht)).resolve_left id
  rw [after_of_reads fun e he => (h e (List.mem_append_left _ he)).1.reads] at hsum
  exact hsum.symm

/-- A listener and a taker that meet with any slates, and with nodes, disks and sockets that answer
anything but a wrong checksum, while a message that arrives is whole: neither does more than shake hands
unless they have the same public slate, and then the phase of the taker is the one of the listener. -/
theorem listener_taker_agree (hO : readSlateFromDisk F filesO = .ok slateO)
    (hT : readSlateFromDisk F filesT = .ok slateT) (hF : F.Distinguishes filesO filesT)
    {c : Meeting K P (SwapSlate K P) (SwapSlate K P) (Option Phase) (Option Phase)}
    (h : MeetingSteps L (ChecksumRight F filesO) (ChecksumRight F filesT)
      (.start (main L B randO (.listen swapid clients) slateO)
        (main L B randT (phase.command swapid') slateT)) c) :
    Greeting slateO c.first ∧ Greeting slateT c.second ∨
      Agree L B randO randT slateO slateT phase c.first c.second := by
  have hruns := h.runs
  obtain ⟨⟨pastO, qO⟩, ⟨pastT, qT⟩, toO, toT⟩ := c
  obtain ⟨hrunO, hrunT, hrecvO, hrecvT, hansO, hansT⟩ := hruns
  have hrecvO : received pastO <+: posted L pastT := ⟨_, hrecvO⟩
  have hrecvT : received pastT <+: posted L pastO := ⟨_, hrecvT⟩
  have htaker := taker_shakes hrunT
  -- a listener that has sent nothing has a taker without an answer
  have hquiet : posted L pastO = [] → Shakes slateO pastO → qO.mem = slateO →
      Greeting slateO (⟨pastO, qO⟩ : Actor K P _ _) ∧ Greeting slateT (⟨pastT, qT⟩ : Actor K P _ _) := by
    intro hnone hshakes hq
    rcases htaker with ⟨hu, hqT, -⟩ | ⟨-, t', sum, resp, u', rfl, -, -, hresp, -⟩
    · exact ⟨⟨hshakes, hq⟩, hu, hqT⟩
    · rw [hnone] at hrecvT
      simp [hresp] at hrecvT
  rcases listener_shakes (L := L) hrunO with ⟨hshakes, hq, hnone⟩ | ⟨ans, t', rfl, hserve⟩
  · exact .inl (hquiet hnone hshakes hq)
  have hbind : Shakes slateO [⟨slateO, .bind, ans⟩] := shakes_cons.mpr ⟨⟨trivial, rfl⟩, shakes_nil⟩
  rcases serveClients_shakes hserve with
    ⟨hshakes, hq, hnone⟩ | ⟨t₁, m, sum, t₂, n, rfl, ht₁, hsum, hm, hans, hrest⟩
  · exact .inl (hquiet (by simp [posted?, hnone]) (hbind.append hshakes) hq)
  have hfirst : Shakes slateO (⟨slateO, .bind, ans⟩ :: t₁) := hbind.append ht₁
  have hmsgs : m :: received t₂ <+: posted L pastT := by simpa [received?, hm] using hrecvO
  have hsumO : getSlateChecksum F filesO = .ok sum :=
    hfirst.checksum (List.prefix_append _ t₂) hansO (List.mem_cons_of_mem _ hsum)
  rcases htaker with ⟨hu, hqT, hasks⟩ | ⟨hstatus, t', sumT, resp, u', rfl, ht', hsumT, hresp, hok, hsent, hin⟩
  · obtain hnone | ⟨sumT, hone, hsumT⟩ := hasks
    · rw [hnone] at hmsgs
      simp at hmsgs
    rw [hone] at hmsgs
    obtain ⟨rfl, hnone⟩ : m = sumT ∧ received t₂ = [] := by simpa using hmsgs
    by_cases hmatch : eqIgnoreAsciiCase m sum = true
    · rw [if_pos hmatch] at hrest
      have hpub := pubSlate_of_match hF hO hT hsumO (hu.checksum List.prefix_rfl hansT hsumT) hmatch
      exact .inr (agree_of_match hpub hfirst hrest (.inl ⟨⟨hu, hqT⟩, hnone⟩))
    · rw [if_neg hmatch] at hrest
      have ht₂ : Shakes slateO t₂ ∧ qO.mem = slateO := by
        rcases hrest with ⟨rfl, hq⟩ | hrest
        · exact ⟨shakes_nil, hq⟩
        · exact serveClients_silent hrest hnone
      exact .inl ⟨⟨hfirst.append ht₂.1, ht₂.2⟩, hu, hqT⟩
  · obtain ⟨rfl, hrestT⟩ : m = sumT ∧ received t₂ <+: phase.name ++ posted L u' := by
      simpa [hsent] using hmsgs
    have hmatch : eqIgnoreAsciiCase m sum = true := by
      obtain ⟨hanswer, -⟩ : resp = answerTo m sum ∧ received u' <+: posted L t₂ := by
        simpa [hresp, hans, posted?] using hrecvT
      exact eq_ok_of_answerTo (hanswer ▸ hok)
    rw [if_pos hmatch] at hrest
    have hpub := pubSlate_of_match hF hO hT hsumO (ht'.checksum (List.prefix_append _ u') hansT hsumT) hmatch
    refine .inr (agree_of_match hpub hfirst hrest (.inr ⟨hstatus, ?_, _, hrestT⟩))
    rcases hin with ⟨rfl, hq⟩ | hin
    · exact .inl ⟨by simpa using ht', hq⟩
    · exact .inr ⟨t', u', rfl, ht', hin⟩

omit [CommRing K] [AddCommGroup P] [Module K P] [DecidableEq K] [DecidableEq P] in
theorem checksumRight_diskNodes (files : SlateFiles) (heightGrin heightBtc amount : ℕ)
    (past : Trace K P (SwapSlate K P)) (s : SwapSlate K P) (op : Op K P) :
    ChecksumRight F files past ⟨s, op, diskNodes F files heightGrin heightBtc amount past op⟩ := by
  cases op <;> first | rfl | trivial

/-- The two parties of the sample, from their handshake to the ends of their locking phases. -/
theorem listener_taker_agree_sample : ∃ c,
    MeetingSteps exponents (ChecksumRight fileExponents (sampleFunded.files fileExponents))
      (ChecksumRight fileExponents (sampleTaker.files fileExponents))
      (.start (main exponents (btcExponents []) sampleRand (.listen 1 1) sampleFunded)
        (main exponents (btcExponents []) sampleRand (Phase.locking.command 1) sampleTaker)) c ∧
    c.first.prog.Ended ∧ c.second.prog.Ended ∧
    Agree exponents (btcExponents []) sampleRand sampleRand sampleFunded sampleTaker .locking c.first
      c.second := by
  obtain ⟨lock, h⟩ := sample_lockable
  have hvalue : (offeredValue exponents (offered sampleFunded sampleTaker)).1 = .ok 2000000000 := by
    decide +kernel
  have hmw := diskNodes_hosted (F := fileExponents) (sampleFunded.files fileExponents) 1500000 700000 100000
  have hbtc := diskNodes_hosted (F := fileExponents) (sampleTaker.files fileExponents) 1500000 700000 100000
  obtain ⟨_, hsteps, t, mw', u, btc', rfl, hlocked, -⟩ : JointReaches exponents
      (diskNodes fileExponents (sampleFunded.files fileExponents) 1500000 700000 100000)
      (diskNodes fileExponents (sampleTaker.files fileExponents) 1500000 700000 100000)
      (fun c => ∃ t mw' u btc', c = (⟨t, .ret mw' (some .locking)⟩, ⟨u, .ret btc' (some .locking)⟩) ∧
        (samplePlan lock).EndsLocked exponents (btcExponents []) sampleFunded sampleRand sampleRand t mw' u
          btc')
      (commandStart exponents (btcExponents []) sampleFunded sampleTaker sampleRand sampleRand
        (.listen 1 1, .lock 1)) := lock_reaches exponents_lawful (btcExponents_lawful []) h
    (sample_bounded lock) rfl hvalue (by decide +kernel) hmw hbtc
    ⟨fun _ => rfl, fun _ _ => rfl, fun _ _ => rfl, 0, by decide, fun _ _ => rfl⟩
    ⟨fun _ => rfl, fun _ _ => rfl⟩
  have hO : readSlateFromDisk fileExponents (sampleFunded.files fileExponents) = .ok sampleFunded :=
    readSlateFromDisk_files fileExponents_lawful
  have hT : readSlateFromDisk fileExponents (sampleTaker.files fileExponents) = .ok sampleTaker :=
    readSlateFromDisk_files fileExponents_lawful
  have hF : fileExponents.Distinguishes (sampleFunded.files fileExponents)
      (sampleTaker.files fileExponents) := fun a b ha hb _ => Option.some.inj (ha.symm.trans hb)
  have hmeeting : MeetingSteps exponents _ _
      (.start (main exponents (btcExponents []) sampleRand (.listen 1 1) sampleFunded)
        (main exponents (btcExponents []) sampleRand (Phase.locking.command 1) sampleTaker)) _ :=
    hsteps.meeting (checksumRight_diskNodes (sampleFunded.files fileExponents) 1500000 700000 100000)
      (checksumRight_diskNodes (sampleTaker.files fileExponents) 1500000 700000 100000)
  refine ⟨_, hmeeting, trivial, trivial, ?_⟩
  rcases listener_taker_agree hO hT hF hmeeting with ⟨⟨-, hmem⟩, -⟩ | hagree
  · have hstatus := hlocked.status
    rw [show mw' = sampleFunded from hmem] at hstatus
    cases hstatus
  · exact hagree

end MwBtcSwap
