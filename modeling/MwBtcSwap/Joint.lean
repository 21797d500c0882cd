import MwBtcSwap.Lib.Confluence
import MwBtcSwap.Net

/-! Two parties that run together over one connection, each with its own nodes.  A message is sent and
received in one step, as `send_msg` waits for the acknowledgement of `receive_msg`; the other operations
of a party are answered by its nodes, at any time.  The order does not matter: the steps commute. -/

namespace MwBtcSwap

open Interaction Relation

variable {K P σ τ α β α' β' γ : Type}

/-- The operations on the stream to the peer. -/
def Op.OnStream : Op K P → Prop
  | .send _ => True
  | .recv => True
  | _ => False

/-- How the nodes and the disk of a party answer, by what it has done. -/
abbrev Nodes (K P σ : Type) := Trace K P σ → (op : Op K P) → op.Ans

/-- A party: what it has done, and what is left of its program. -/
structure Actor (K P σ α : Type) where
  past : Trace K P σ
  prog : Program K P σ α

/-- The state of two parties. -/
abbrev Actors (K P σ τ α β : Type) := Actor K P σ α × Actor K P τ β

/-- One step of two parties. -/
inductive JointStep (L : Grin.GrinLib K P) (nodes : Nodes K P σ) (nodes' : Nodes K P τ) :
    Actors K P σ τ α β → Actors K P σ τ α β → Prop
  | left {past : Trace K P σ} {s : σ} {op : Op K P} {k : op.Ans → Program K P σ α}
      {b : Actor K P τ β} (hop : ¬ op.OnStream) :
      JointStep L nodes nodes' (⟨past, .call s op k⟩, b)
        (⟨past ++ [⟨s, op, nodes past op⟩], k (nodes past op)⟩, b)
  | right {a : Actor K P σ α} {past : Trace K P τ} {s : τ} {op : Op K P}
      {k : op.Ans → Program K P τ β} (hop : ¬ op.OnStream) :
      JointStep L nodes nodes' (a, ⟨past, .call s op k⟩)
        (a, ⟨past ++ [⟨s, op, nodes' past op⟩], k (nodes' past op)⟩)
  | send {past : Trace K P σ} {past' : Trace K P τ} {s : σ} {s' : τ} {msg : Msg K P}
      {k : Outcome Unit → Program K P σ α} {k' : Outcome String → Program K P τ β} :
      JointStep L nodes nodes' (⟨past, .call s (.send msg) k⟩, ⟨past', .call s' .recv k'⟩)
        (⟨past ++ [⟨s, .send msg, .ok ()⟩], k (.ok ())⟩,
          ⟨past' ++ [⟨s', .recv, .ok (msg.render L)⟩], k' (.ok (msg.render L))⟩)
  | recv {past : Trace K P σ} {past' : Trace K P τ} {s : σ} {s' : τ} {msg : Msg K P}
      {k : Outcome String → Program K P σ α} {k' : Outcome Unit → Program K P τ β} :
      JointStep L nodes nodes' (⟨past, .call s .recv k⟩, ⟨past', .call s' (.send msg) k'⟩)
        (⟨past ++ [⟨s, .recv, .ok (msg.render L)⟩], k (.ok (msg.render L))⟩,
          ⟨past' ++ [⟨s', .send msg, .ok ()⟩], k' (.ok ())⟩)

/-- Joint runs. -/
abbrev JointSteps (L : Grin.GrinLib K P) (nodes : Nodes K P σ) (nodes' : Nodes K P τ) :
    Actors K P σ τ α β → Actors K P σ τ α β → Prop :=
  ReflTransGen (JointStep L nodes nodes')

variable {L : Grin.GrinLib K P} {nodes : Nodes K P σ} {nodes' : Nodes K P τ}
  {a b c : Actors K P σ τ α β}

/-! ### The order of the steps -/

/-- Two steps are the same, or can be done in either order. -/
theorem jointStep_diamond (hb : JointStep L nodes nodes' a b) (hc : JointStep L nodes nodes' a c) :
    b = c ∨ ∃ d, JointStep L nodes nodes' b d ∧ JointStep L nodes nodes' c d := by
  cases hb with
  | left hop =>
    cases hc with
    | left => exact .inl rfl
    | right hop' => exact .inr ⟨_, .right hop', .left hop⟩
    | send => exact (hop trivial).elim
    | recv => exact (hop trivial).elim
  | right hop =>
    cases hc with
    | left hop' => exact .inr ⟨_, .left hop', .right hop⟩
    | right => exact .inl rfl
    | send => exact (hop trivial).elim
    | recv => exact (hop trivial).elim
  | send =>
    cases hc with
    | left hop => exact (hop trivial).elim
    | right hop => exact (hop trivial).elim
    | send => exact .inl rfl
  | recv =>
    cases hc with
    | left hop => exact (hop trivial).elim
    | right hop => exact (hop trivial).elim
    | recv => exact .inl rfl

theorem not_jointStep_ret {past : Trace K P σ} {past' : Trace K P τ} {s : σ} {s' : τ} {x : α} {y : β}
    (d : Actors K P σ τ α β) :
    ¬ JointStep L nodes nodes' (⟨past, .ret s x⟩, ⟨past', .ret s' y⟩) d := nofun

/-! ### The run of each party -/

/-- The second state is reached by runs of the two programs, over one connection. -/
def JointExtends (L : Grin.GrinLib K P) (a b : Actors K P σ τ α β) : Prop :=
  ∃ t u, b.1.past = a.1.past ++ t ∧ b.2.past = a.2.past ++ u ∧ Steps a.1.prog t b.1.prog ∧
    Steps a.2.prog u b.2.prog ∧ Connected L t u

theorem JointExtends.trans (h : JointExtends L a b) (h' : JointExtends L b c) :
    JointExtends L a c := by
  obtain ⟨t, u, ht, hu, hsteps, hsteps', hconn⟩ := h
  obtain ⟨t', u', ht', hu', hsteps₂, hsteps₂', hconn'⟩ := h'
  refine ⟨t ++ t', u ++ u', ?_, ?_, hsteps.trans hsteps₂, hsteps'.trans hsteps₂', hconn.append hconn'⟩
  · rw [ht', ht, List.append_assoc]
  · rw [hu', hu, List.append_assoc]

/-- An operation that is not on the stream is no message. -/
theorem received?_of_not_onStream {s : σ} {op : Op K P} {ans : op.Ans} (hop : ¬ op.OnStream) :
    received? (⟨s, op, ans⟩ : Event σ (@Op.Ans K P)) = none := by
  cases op <;> first | rfl | exact (hop trivial).elim

theorem sent?_of_not_onStream {s : σ} {op : Op K P} {ans : op.Ans} (hop : ¬ op.OnStream) :
    sent? L (⟨s, op, ans⟩ : Event σ (@Op.Ans K P)) = none := by
  cases op <;> first | rfl | exact (hop trivial).elim

theorem JointStep.extends (h : JointStep L nodes nodes' a b) : JointExtends L a b := by
  cases h with
  | left hop =>
    refine ⟨_, [], rfl, (List.append_nil _).symm, .step (.refl _), .refl _, ?_⟩
    simp [Connected, received?_of_not_onStream hop, sent?_of_not_onStream hop]
  | right hop =>
    refine ⟨[], _, (List.append_nil _).symm, rfl, .refl _, .step (.refl _), ?_⟩
    simp [Connected, received?_of_not_onStream hop, sent?_of_not_onStream hop]
  | send => exact ⟨_, _, rfl, rfl, .step (.refl _), .step (.refl _), rfl, rfl⟩
  | recv => exact ⟨_, _, rfl, rfl, .step (.refl _), .step (.refl _), rfl, rfl⟩

/-- What one party does in a joint run is a run of its program, and the parties are connected. -/
theorem JointSteps.extends (h : JointSteps L nodes nodes' a b) : JointExtends L a b := by
  induction h with
  | refl => exact ⟨[], [], by simp, by simp, .refl _, .refl _, rfl, rfl⟩
  | tail _ hstep ih => exact ih.trans hstep.extends

/-! ### Some joint run -/

/-- Some joint run leads to a state with `Q`. -/
def JointReaches (L : Grin.GrinLib K P) (nodes : Nodes K P σ) (nodes' : Nodes K P τ)
    (Q : Actors K P σ τ α β → Prop) (a : Actors K P σ τ α β) : Prop :=
  ∃ b, JointSteps L nodes nodes' a b ∧ Q b

section Reaches

variable {Q : Actors K P σ τ α β → Prop} {past : Trace K P σ} {past' : Trace K P τ} {s : σ} {s' : τ}
  {p : Actor K P σ α} {q : Actor K P τ β}

theorem JointReaches.head (hstep : JointStep L nodes nodes' a b)
    (h : JointReaches L nodes nodes' Q b) : JointReaches L nodes nodes' Q a := by
  obtain ⟨c, hsteps, hQ⟩ := h
  exact ⟨c, .head hstep hsteps, hQ⟩

/-- The second party sends a message. -/
theorem jointReaches_recv {msg : Msg K P} {f : String → Process K P σ α} {g : Unit → Process K P τ β}
    (h : JointReaches L nodes nodes' Q (⟨past ++ [⟨s, .recv, .ok (msg.render L)⟩], f (msg.render L) s⟩,
      ⟨past' ++ [⟨s', .send msg, .ok ()⟩], g () s'⟩)) :
    JointReaches L nodes nodes' Q (⟨past, (receiveMsg >>= f) s⟩, ⟨past', (sendMsg msg >>= g) s'⟩) :=
  .head .recv h

/-- The first party sends a message. -/
theorem jointReaches_send {msg : Msg K P} {f : Unit → Process K P σ α} {g : String → Process K P τ β}
    (h : JointReaches L nodes nodes' Q (⟨past ++ [⟨s, .send msg, .ok ()⟩], f () s⟩,
      ⟨past' ++ [⟨s', .recv, .ok (msg.render L)⟩], g (msg.render L) s'⟩)) :
    JointReaches L nodes nodes' Q (⟨past, (sendMsg msg >>= f) s⟩, ⟨past', (receiveMsg >>= g) s'⟩) :=
  .head .send h

/-- The first party sends a message that the second reads. -/
theorem jointReaches_send_read {msg : Msg K P} {f : Unit → Process K P σ α} {read : String → Outcome γ}
    {g : γ → Process K P τ β} {c : γ} (hread : read (msg.render L) = .ok c)
    (h : JointReaches L nodes nodes' Q (⟨past ++ [⟨s, .send msg, .ok ()⟩], f () s⟩,
      ⟨past' ++ [⟨s', .recv, .ok (msg.render L)⟩], g c s'⟩)) :
    JointReaches L nodes nodes' Q (⟨past, (sendMsg msg >>= f) s⟩,
      ⟨past', ((receiveMsg >>= fun m => Proc.lift (read m)) >>= g) s'⟩) := by
  refine .head .send ?_
  show JointReaches L nodes nodes' Q (_, ⟨_, (Proc.lift (read (msg.render L)) s').bind g⟩)
  rw [hread]
  exact h

/-- The second party sends a message that the first reads. -/
theorem jointReaches_recv_read {msg : Msg K P} {read : String → Outcome γ} {f : γ → Process K P σ α}
    {g : Unit → Process K P τ β} {c : γ} (hread : read (msg.render L) = .ok c)
    (h : JointReaches L nodes nodes' Q (⟨past ++ [⟨s, .recv, .ok (msg.render L)⟩], f c s⟩,
      ⟨past' ++ [⟨s', .send msg, .ok ()⟩], g () s'⟩)) :
    JointReaches L nodes nodes' Q (⟨past, ((receiveMsg >>= fun m => Proc.lift (read m)) >>= f) s⟩,
      ⟨past', (sendMsg msg >>= g) s'⟩) := by
  refine .head .recv ?_
  show JointReaches L nodes nodes' Q (⟨_, (Proc.lift (read (msg.render L)) s).bind f⟩, _)
  rw [hread]
  exact h

/-- The nodes answer the first party. -/
theorem jointReaches_left {op : Op K P} {read : op.Ans → Outcome γ} {f : γ → Process K P σ α} {c : γ}
    (hop : ¬ op.OnStream) (hread : read (nodes past op) = .ok c)
    (h : JointReaches L nodes nodes' Q (⟨past ++ [⟨s, op, nodes past op⟩], f c s⟩, q)) :
    JointReaches L nodes nodes' Q (⟨past, (Proc.request op read >>= f) s⟩, q) := by
  refine .head (.left hop) ?_
  show JointReaches L nodes nodes' Q (⟨_, (Proc.lift (read (nodes past op)) s).bind f⟩, q)
  rw [hread]
  exact h

/-- The nodes answer the second party. -/
theorem jointReaches_right {op : Op K P} {read : op.Ans → Outcome γ} {f : γ → Process K P τ β} {c : γ}
    (hop : ¬ op.OnStream) (hread : read (nodes' past' op) = .ok c)
    (h : JointReaches L nodes nodes' Q (p, ⟨past' ++ [⟨s', op, nodes' past' op⟩], f c s'⟩)) :
    JointReaches L nodes nodes' Q (p, ⟨past', (Proc.request op read >>= f) s'⟩) := by
  refine .head (.right hop) ?_
  show JointReaches L nodes nodes' Q (p, ⟨_, (Proc.lift (read (nodes' past' op)) s').bind f⟩)
  rw [hread]
  exact h

theorem jointReaches_left_get {f : σ → Process K P σ α}
    (h : JointReaches L nodes nodes' Q (⟨past, f s s⟩, q)) :
    JointReaches L nodes nodes' Q (⟨past, (Proc.get >>= f) s⟩, q) := h

theorem jointReaches_right_get {f : τ → Process K P τ β}
    (h : JointReaches L nodes nodes' Q (p, ⟨past', f s' s'⟩)) :
    JointReaches L nodes nodes' Q (p, ⟨past', (Proc.get >>= f) s'⟩) := h

theorem jointReaches_left_modify {m : σ → σ} {f : Unit → Process K P σ α}
    (h : JointReaches L nodes nodes' Q (⟨past, f () (m s)⟩, q)) :
    JointReaches L nodes nodes' Q (⟨past, (Proc.modify m >>= f) s⟩, q) := h

theorem jointReaches_right_modify {m : τ → τ} {f : Unit → Process K P τ β}
    (h : JointReaches L nodes nodes' Q (p, ⟨past', f () (m s')⟩)) :
    JointReaches L nodes nodes' Q (p, ⟨past', (Proc.modify m >>= f) s'⟩) := h

theorem jointReaches_left_lift {x : Outcome γ} {f : γ → Process K P σ α} {c : γ} (hx : x = .ok c)
    (h : JointReaches L nodes nodes' Q (⟨past, f c s⟩, q)) :
    JointReaches L nodes nodes' Q (⟨past, (Proc.lift x >>= f) s⟩, q) := by
  rw [hx]
  exact h

theorem jointReaches_left_then {c : Prop} [Decidable c] {f g : Process K P σ α} (hc : c)
    (h : JointReaches L nodes nodes' Q (⟨past, f s⟩, q)) :
    JointReaches L nodes nodes' Q (⟨past, (if c then f else g) s⟩, q) := by
  rw [if_pos hc]
  exact h

theorem jointReaches_left_else {c : Prop} [Decidable c] {f g : Process K P σ α} (hc : ¬ c)
    (h : JointReaches L nodes nodes' Q (⟨past, g s⟩, q)) :
    JointReaches L nodes nodes' Q (⟨past, (if c then f else g) s⟩, q) := by
  rw [if_neg hc]
  exact h

theorem jointReaches_right_lift {x : Outcome γ} {f : γ → Process K P τ β} {c : γ} (hx : x = .ok c)
    (h : JointReaches L nodes nodes' Q (p, ⟨past', f c s'⟩)) :
    JointReaches L nodes nodes' Q (p, ⟨past', (Proc.lift x >>= f) s'⟩) := by
  rw [hx]
  exact h

/-- A joint run goes on where both programs return. -/
theorem JointStep.bind {a b : Actors K P σ τ α' β'} (f : α' → Process K P σ α) (g : β' → Process K P τ β)
    (h : JointStep L nodes nodes' a b) :
    JointStep L nodes nodes' (⟨a.1.past, a.1.prog.bind f⟩, ⟨a.2.past, a.2.prog.bind g⟩)
      (⟨b.1.past, b.1.prog.bind f⟩, ⟨b.2.past, b.2.prog.bind g⟩) := by
  cases h with
  | left hop => exact .left hop
  | right hop => exact .right hop
  | send => exact .send
  | recv => exact .recv

theorem jointReaches_bind {p : Process K P σ α'} {q : Process K P τ β'} {f : α' → Process K P σ α}
    {g : β' → Process K P τ β} {t : Trace K P σ} {u : Trace K P τ} {x : α'} {y : β'} {r : σ} {r' : τ}
    (hsteps : JointSteps L nodes nodes' (⟨past, p s⟩, ⟨past', q s'⟩) (⟨t, .ret r x⟩, ⟨u, .ret r' y⟩))
    (h : JointReaches L nodes nodes' Q (⟨t, f x r⟩, ⟨u, g y r'⟩)) :
    JointReaches L nodes nodes' Q (⟨past, (p >>= f) s⟩, ⟨past', (q >>= g) s'⟩) := by
  obtain ⟨c, hc, hQ⟩ := h
  have hbind := ReflTransGen.lift _ (fun _ _ hstep => JointStep.bind f g hstep) _ _ hsteps
  exact ⟨c, hbind.trans hc, hQ⟩

end Reaches

/-! ### Conversations -/

/-- A conversation is a joint run, with any nodes. -/
theorem jointSteps_of_talk {p : Program K P σ α} {q : Program K P τ β} {r : List (Msg K P) × α × β}
    (past : Trace K P σ) (past' : Trace K P τ) (h : talk L p q = some r) :
    ∃ t u s s', JointSteps L nodes nodes' (⟨past, p⟩, ⟨past', q⟩)
      (⟨t, .ret s r.2.1⟩, ⟨u, .ret s' r.2.2⟩) := by
  fun_induction talk L p q generalizing r past past' with
  | case1 s a s' b =>
    cases h
    exact ⟨past, past', s, s', .refl⟩
  | case2 s msg k s' k' ih =>
    obtain ⟨r, hr, rfl⟩ := Option.map_eq_some_iff.mp h
    obtain ⟨t, u, m, m', hsteps⟩ := ih _ _ hr
    exact ⟨t, u, m, m', .head .send hsteps⟩
  | case3 s k s' msg k' ih =>
    obtain ⟨r, hr, rfl⟩ := Option.map_eq_some_iff.mp h
    obtain ⟨t, u, m, m', hsteps⟩ := ih _ _ hr
    exact ⟨t, u, m, m', .head .recv hsteps⟩
  | case4 => cases h

/-- Two processes that leave their memory alone converse, and the parties go on. -/
theorem jointReaches_talk_bind {p : Process K P σ α'} {q : Process K P τ β'} {f : α' → Process K P σ α}
    {g : β' → Process K P τ β} {Q : Actors K P σ τ α β → Prop} {past : Trace K P σ} {past' : Trace K P τ}
    {s : σ} {s' : τ} {ops ops' : Op K P → Prop} {r : List (Msg K P) × α' × β'} (hp : p.Only ops)
    (hq : q.Only ops') (htalk : talk L (p s) (q s') = some r)
    (h : ∀ t u, Steps (p s) t (.ret s r.2.1) →
      JointReaches L nodes nodes' Q (⟨past ++ t, f r.2.1 s⟩, ⟨past' ++ u, g r.2.2 s'⟩)) :
    JointReaches L nodes nodes' Q (⟨past, (p >>= f) s⟩, ⟨past', (q >>= g) s'⟩) := by
  obtain ⟨_, _, m, m', hsteps⟩ := jointSteps_of_talk past past' htalk
  obtain ⟨t, u, rfl, rfl, hA, hB, -⟩ := hsteps.extends
  obtain ⟨rfl, -⟩ := hA.sat (hp s [])
  obtain ⟨rfl, -⟩ := hB.sat (hq s' [])
  exact jointReaches_bind hsteps (h t u hA)

/-! ### Every joint run -/

/-- Both parties have returned, in a state with `Q`. -/
def BothReturned (Q : Trace K P σ → σ → α → Trace K P τ → τ → β → Prop)
    (c : Actors K P σ τ α β) : Prop :=
  ∃ t s x u s' y, c = (⟨t, .ret s x⟩, ⟨u, .ret s' y⟩) ∧ Q t s x u s' y

/-- When two parties can return together, they do so in every order of their steps. -/
theorem JointReaches.inevitable {Q : Trace K P σ → σ → α → Trace K P τ → τ → β → Prop}
    (h : JointReaches L nodes nodes' (BothReturned Q) a) :
    Confluence.Inevitable (JointStep L nodes nodes') (BothReturned Q) a := by
  obtain ⟨c, hsteps, hQ⟩ := h
  have hdiamond : Confluence.Diamond (JointStep (α := α) (β := β) L nodes nodes') :=
    fun _ _ _ hb hc => jointStep_diamond hb hc
  obtain ⟨t, s, x, u, s', y, rfl, -⟩ := id hQ
  exact hdiamond.inevitable hsteps hQ not_jointStep_ret

/-! ### The sides of the connection -/

theorem JointStep.swap (h : JointStep L nodes nodes' a b) : JointStep L nodes' nodes a.swap b.swap := by
  cases h with
  | left hop => exact .right hop
  | right hop => exact .left hop
  | send => exact .recv
  | recv => exact .send

theorem JointSteps.swap (h : JointSteps L nodes nodes' a b) :
    JointSteps L nodes' nodes a.swap b.swap :=
  ReflTransGen.lift _ (fun _ _ hstep => hstep.swap) _ _ h

/-- Which party is the first does not matter. -/
theorem JointReaches.swap {Q : Actors K P τ σ β α → Prop} {p : Actor K P σ α} {q : Actor K P τ β}
    (h : JointReaches L nodes nodes' (fun c => Q c.swap) (p, q)) :
    JointReaches L nodes' nodes Q (q, p) := by
  obtain ⟨c, hsteps, hQ⟩ := h
  exact ⟨c.swap, hsteps.swap, hQ⟩

end MwBtcSwap
