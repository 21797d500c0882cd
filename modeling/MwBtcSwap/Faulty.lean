import MwBtcSwap.Joint

/-! Two parties whose nodes, disks and connection may fail.  A message is under way from when it is sent, also
by a sender that gets an error, until it is received; what is received arrives whole and in order. -/

namespace MwBtcSwap

open Interaction Relation

variable {K P σ τ α β : Type}

/-- One step of a party with the messages under way to it and from it.  The operations that are not on the
stream are answered as `C` says, by what was done before. -/
inductive FaultyStep (L : Grin.GrinLib K P) (C : Trace K P σ → Event σ (@Op.Ans K P) → Prop) :
    Actor K P σ α → List String → List String → Actor K P σ α → List String → List String → Prop
  | node {past : Trace K P σ} {s : σ} {op : Op K P} {ans : op.Ans} {k : op.Ans → Program K P σ α}
      {i o : List String} (hop : ¬ op.OnStream) (hans : C past ⟨s, op, ans⟩) :
      FaultyStep L C ⟨past, .call s op k⟩ i o ⟨past ++ [⟨s, op, ans⟩], k ans⟩ i o
  | send {past : Trace K P σ} {s : σ} {msg : Msg K P} {ans : Outcome Unit}
      {k : Outcome Unit → Program K P σ α} {i o : List String} :
      FaultyStep L C ⟨past, .call s (.send msg) k⟩ i o
        ⟨past ++ [⟨s, .send msg, ans⟩], k ans⟩ i (o ++ [msg.render L])
  | recv {past : Trace K P σ} {s : σ} {msg : String} {k : Outcome String → Program K P σ α}
      {i o : List String} :
      FaultyStep L C ⟨past, .call s .recv k⟩ (msg :: i) o
        ⟨past ++ [⟨s, .recv, .ok msg⟩], k (.ok msg)⟩ i o
  | lost {past : Trace K P σ} {s : σ} {e : Failure} {k : Outcome String → Program K P σ α}
      {i o : List String} :
      FaultyStep L C ⟨past, .call s .recv k⟩ i o
        ⟨past ++ [⟨s, .recv, .error e⟩], k (.error e)⟩ i o

/-- Two parties and the messages under way between them. -/
structure Meeting (K P σ τ α β : Type) where
  first : Actor K P σ α
  second : Actor K P τ β
  toFirst : List String
  toSecond : List String

/-- One step of one of them. -/
inductive MeetingStep (L : Grin.GrinLib K P) (C : Trace K P σ → Event σ (@Op.Ans K P) → Prop)
    (C' : Trace K P τ → Event τ (@Op.Ans K P) → Prop) : Meeting K P σ τ α β → Meeting K P σ τ α β → Prop
  | left {a a' : Actor K P σ α} {b : Actor K P τ β} {i i' o o' : List String}
      (h : FaultyStep L C a i o a' i' o') : MeetingStep L C C' ⟨a, b, i, o⟩ ⟨a', b, i', o'⟩
  | right {a : Actor K P σ α} {b b' : Actor K P τ β} {i i' o o' : List String}
      (h : FaultyStep L C' b o i b' o' i') : MeetingStep L C C' ⟨a, b, i, o⟩ ⟨a, b', i', o'⟩

abbrev MeetingSteps (L : Grin.GrinLib K P) (C : Trace K P σ → Event σ (@Op.Ans K P) → Prop)
    (C' : Trace K P τ → Event τ (@Op.Ans K P) → Prop) : Meeting K P σ τ α β → Meeting K P σ τ α β → Prop :=
  ReflTransGen (MeetingStep L C C')

/-- Two programs with a new connection. -/
def Meeting.start (p : Program K P σ α) (q : Program K P τ β) : Meeting K P σ τ α β :=
  ⟨⟨[], p⟩, ⟨[], q⟩, [], []⟩

variable {L : Grin.GrinLib K P} {C : Trace K P σ → Event σ (@Op.Ans K P) → Prop}
  {C' : Trace K P τ → Event τ (@Op.Ans K P) → Prop} {p : Program K P σ α} {q : Program K P τ β}
  {c d : Meeting K P σ τ α β}

/-! ### The run of each party -/

/-- Every operation off the stream was answered as `C` says. -/
def AnsweredAs (C : Trace K P σ → Event σ (@Op.Ans K P) → Prop) (t : Trace K P σ) : Prop :=
  ∀ past e, past ++ [e] <+: t → e.op.OnStream ∨ C past e

theorem answeredAs_nil : AnsweredAs C [] := by
  intro past e h
  simp at h

theorem AnsweredAs.concat {t : Trace K P σ} {e : Event σ (@Op.Ans K P)} (h : AnsweredAs C t)
    (he : e.op.OnStream ∨ C t e) : AnsweredAs C (t ++ [e]) := by
  intro past e' hprefix
  obtain heq | hprefix := List.prefix_concat_iff.mp hprefix
  · obtain ⟨rfl, ⟨⟩⟩ := List.append_inj' heq rfl
    exact he
  · exact h past e' hprefix

/-- What has happened: runs of the two programs, and of what each of them sent the other has received the
first messages. -/
structure Meeting.Runs (L : Grin.GrinLib K P) (C : Trace K P σ → Event σ (@Op.Ans K P) → Prop)
    (C' : Trace K P τ → Event τ (@Op.Ans K P) → Prop) (p : Program K P σ α) (q : Program K P τ β)
    (c : Meeting K P σ τ α β) : Prop where
  first : Steps p c.first.past c.first.prog
  second : Steps q c.second.past c.second.prog
  toFirst : received c.first.past ++ c.toFirst = posted L c.second.past
  toSecond : received c.second.past ++ c.toSecond = posted L c.first.past
  answered : AnsweredAs C c.first.past
  answered' : AnsweredAs C' c.second.past

theorem posted?_of_not_onStream {s : σ} {op : Op K P} {ans : op.Ans} (hop : ¬ op.OnStream) :
    posted? L (⟨s, op, ans⟩ : Event σ (@Op.Ans K P)) = none := by
  cases op <;> first | rfl | exact (hop trivial).elim

/-- A step is one operation of the program; what it receives was first under way, and what it sends is last. -/
theorem FaultyStep.event {a a' : Actor K P σ α} {i i' o o' : List String} (h : FaultyStep L C a i o a' i' o') :
    ∃ e, a'.past = a.past ++ [e] ∧ Steps a.prog [e] a'.prog ∧ (e.op.OnStream ∨ C a.past e) ∧
      (received? e).toList ++ i' = i ∧ o' = o ++ (posted? L e).toList := by
  cases h with
  | node hop hans =>
    refine ⟨_, rfl, .step (.refl _), .inr hans, ?_, ?_⟩
    · rw [received?_of_not_onStream hop, Option.toList_none, List.nil_append]
    · rw [posted?_of_not_onStream hop, Option.toList_none, List.append_nil]
  | send => exact ⟨_, rfl, .step (.refl _), .inl trivial, rfl, rfl⟩
  | recv => exact ⟨_, rfl, .step (.refl _), .inl trivial, rfl, (List.append_nil _).symm⟩
  | lost => exact ⟨_, rfl, .step (.refl _), .inl trivial, rfl, (List.append_nil _).symm⟩

theorem MeetingStep.runs (h : MeetingStep L C C' c d) (hc : c.Runs L C C' p q) : d.Runs L C C' p q := by
  cases h with
  | left hstep =>
    obtain ⟨e, hpast, hsteps, hans, hin, hout⟩ := hstep.event
    refine ⟨?_, hc.second, ?_, ?_, ?_, hc.answered'⟩
    · rw [hpast]
      exact hc.first.trans hsteps
    · rw [← hc.toFirst, hpast, ← hin]
      simp
    · rw [hpast, posted_append, ← hc.toSecond, hout]
      simp
    · rw [hpast]
      exact hc.answered.concat hans
  | right hstep =>
    obtain ⟨e, hpast, hsteps, hans, hin, hout⟩ := hstep.event
    refine ⟨hc.first, ?_, ?_, ?_, hc.answered, ?_⟩
    · rw [hpast]
      exact hc.second.trans hsteps
    · rw [hpast, posted_append, ← hc.toFirst, hout]
      simp
    · rw [← hc.toSecond, hpast, ← hin]
      simp
    · rw [hpast]
      exact hc.answered'.concat hans

theorem MeetingSteps.runs (h : MeetingSteps L C C' (.start p q) c) : c.Runs L C C' p q := by
  induction h with
  | refl => exact ⟨.refl _, .refl _, rfl, rfl, answeredAs_nil, answeredAs_nil⟩
  | tail _ hstep ih => exact hstep.runs ih

/-! ### A connection without failures -/

/-- A joint run is a run of this kind, with nodes that answer as they have to. -/
theorem JointSteps.meeting {nodes : Nodes K P σ} {nodes' : Nodes K P τ} {a b : Actors K P σ τ α β}
    (h : JointSteps L nodes nodes' a b) (hC : ∀ past s op, C past ⟨s, op, nodes past op⟩)
    (hC' : ∀ past s op, C' past ⟨s, op, nodes' past op⟩) :
    MeetingSteps L C C' ⟨a.1, a.2, [], []⟩ ⟨b.1, b.2, [], []⟩ := by
  induction h with
  | refl => exact .refl
  | tail _ hstep ih =>
    refine ih.trans ?_
    cases hstep with
    | left hop => exact .single (.left (.node hop (hC _ _ _)))
    | right hop => exact .single (.right (.node hop (hC' _ _ _)))
    | send => exact .tail (.single (.left .send)) (.right .recv)
    | recv => exact .tail (.single (.right .send)) (.left .recv)

end MwBtcSwap
