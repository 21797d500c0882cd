import Mathlib.Data.List.Basic

/-! Interactive programs: trees of operations that an environment answers.  A program carries a
memory, ends with a value, an error or a panic, and leaves a trace of the operations it performed.
`Steps` is one partial run with any answers, and `Sat` a Hoare style specification of the operations
that a program performs and of the values it returns. -/

namespace Interaction

/-- How a computation ends without a value. -/
inductive Failure
  | err (msg : String)
  | panic (msg : String)
  deriving Repr, DecidableEq

/-- The failure is a panic. -/
def Failure.IsPanic : Failure → Prop
  | err _ => False
  | panic _ => True

/-- The result of a computation that performs no operation. -/
abbrev Outcome (α : Type) := Except Failure α

namespace Outcome

/-- The value of a fallible result, or a panic in place of its error. -/
def expect {α : Type} (msg : String) : Outcome α → Outcome α
  | .ok a => .ok a
  | .error (.err _) => .error (.panic msg)
  | .error (.panic m) => .error (.panic m)

/-- The value of an optional result, or a panic. -/
def unwrap {α : Type} (msg : String) : Option α → Outcome α
  | some a => .ok a
  | none => .error (.panic msg)

/-- The value of an optional result, or an error. -/
def orErr {α : Type} (msg : String) : Option α → Outcome α
  | some a => .ok a
  | none => .error (.err msg)

@[simp] theorem ok_bind {α β : Type} (a : α) (f : α → Outcome β) :
    ((Except.ok a : Outcome α) >>= f) = f a := rfl

@[simp] theorem error_bind {α β : Type} (e : Failure) (f : α → Outcome β) :
    ((Except.error e : Outcome α) >>= f) = .error e := rfl

@[simp] theorem pure_eq_ok {α : Type} (a : α) : (pure a : Outcome α) = .ok a := rfl

@[simp] theorem throw_eq_error {α : Type} (e : Failure) : (throw e : Outcome α) = .error e := rfl

/-- A sequence returns a value exactly when both of its parts do. -/
theorem bind_eq_ok {α β : Type} {x : Outcome α} {f : α → Outcome β} {b : β} :
    (x >>= f) = .ok b ↔ ∃ a, x = .ok a ∧ f a = .ok b := by
  cases x with
  | error e => simp
  | ok a => simp

/-- A sequence fails exactly when one of its parts does. -/
theorem bind_eq_error {α β : Type} {x : Outcome α} {f : α → Outcome β} {e : Failure} :
    (x >>= f) = .error e ↔ x = .error e ∨ ∃ a, x = .ok a ∧ f a = .error e := by
  cases x with
  | error e => simp
  | ok a => simp

@[simp] theorem expect_ok {α : Type} (msg : String) (a : α) :
    expect msg (.ok a) = .ok a := rfl

@[simp] theorem expect_eq_ok {α : Type} {msg : String} {x : Outcome α} {a : α} :
    expect msg x = .ok a ↔ x = .ok a := by
  match x with
  | .ok b => simp
  | .error (.err _) => simp [expect]
  | .error (.panic _) => simp [expect]

/-- The error text goes with the part that fails. -/
theorem expect_bind {α β : Type} {msg : String} {x : Outcome α} {f : α → Outcome β} :
    expect msg (x >>= f) = expect msg x >>= fun a => expect msg (f a) := by
  match x with
  | .ok a => rfl
  | .error (.err _) => rfl
  | .error (.panic _) => rfl

@[simp] theorem unwrap_some {α : Type} (msg : String) (a : α) :
    unwrap msg (some a) = .ok a := rfl

@[simp] theorem unwrap_eq_ok {α : Type} {msg : String} {x : Option α} {a : α} :
    unwrap msg x = .ok a ↔ x = some a := by
  cases x with
  | none => simp [unwrap]
  | some b => simp

@[simp] theorem orErr_some {α : Type} (msg : String) (a : α) :
    orErr msg (some a) = .ok a := rfl

@[simp] theorem orErr_eq_ok {α : Type} {msg : String} {x : Option α} {a : α} :
    orErr msg x = .ok a ↔ x = some a := by
  cases x with
  | none => simp [orErr]
  | some b => simp

/-- A guarded value is returned when the guard holds. -/
@[simp] theorem ite_error_eq_ok {α : Type} {c : Prop} [Decidable c] {a b : α} {e : Failure} :
    (if c then Except.ok a else Except.error e : Outcome α) = .ok b ↔ c ∧ a = b := by
  by_cases h : c <;> simp [h]

/-- A computation behind a guard returns when the guard does not stop it. -/
@[simp] theorem error_ite_eq_ok {α : Type} {c : Prop} [Decidable c] {x : Outcome α} {b : α}
    {e : Failure} : (if c then Except.error e else x : Outcome α) = .ok b ↔ ¬ c ∧ x = .ok b := by
  by_cases h : c <;> simp [h]

/-- A computation behind a guard fails with the error of the guard or with its own. -/
theorem error_ite_eq_error {α : Type} {c : Prop} [Decidable c] {x : Outcome α} {e e' : Failure} :
    (if c then Except.error e else x : Outcome α) = .error e' ↔ c ∧ e = e' ∨ ¬ c ∧ x = .error e' := by
  by_cases h : c <;> simp [h]

/-- A loop over a list returns when its body returns for every element. -/
@[simp] theorem forM_eq_ok {α : Type} {l : List α} {f : α → Outcome Unit} {u : Unit} :
    l.forM f = .ok u ↔ ∀ a ∈ l, f a = .ok () := by
  induction l with
  | nil => simp [List.forM]
  | cons a l ih =>
    rw [List.forM, bind_eq_ok, List.forall_mem_cons, ← ih]
    constructor
    · rintro ⟨u, h, h'⟩
      exact ⟨h, h'⟩
    · rintro ⟨h, h'⟩
      exact ⟨(), h, h'⟩

/-- A fallible map returns when its body returns for every element, and keeps the places. -/
theorem exists_mapM {α β : Type} {f : α → Outcome β} {R : α → β → Prop} {l : List α}
    (h : ∀ a ∈ l, ∃ b, f a = .ok b ∧ R a b) :
    ∃ l', l.mapM f = .ok l' ∧ l'.length = l.length ∧
      ∀ (i : ℕ) (b : β), l'[i]? = some b → ∃ a, l[i]? = some a ∧ R a b := by
  induction l with
  | nil => exact ⟨[], rfl, rfl, by simp⟩
  | cons a l ih =>
    obtain ⟨b, hb, hR⟩ := h a List.mem_cons_self
    obtain ⟨l', hl, hlength, hall⟩ := ih fun c hc => h c (List.mem_cons_of_mem a hc)
    refine ⟨b :: l', by rw [List.mapM_cons, hb, hl]; rfl, by simp [hlength], fun i c hc => ?_⟩
    cases i with
    | zero =>
      cases hc
      exact ⟨a, rfl, hR⟩
    | succ i => exact hall i c hc

/-- A fallible map that returns does so for every element. -/
theorem ok_of_mapM {α β : Type} {f : α → Outcome β} {l : List α} {l' : List β}
    (h : l.mapM f = .ok l') : ∀ a ∈ l, ∃ b, f a = .ok b := by
  induction l generalizing l' with
  | nil => simp
  | cons a l ih =>
    rw [List.mapM_cons, bind_eq_ok] at h
    obtain ⟨b, hb, h⟩ := h
    obtain ⟨bs, hbs, -⟩ := bind_eq_ok.mp h
    exact List.forall_mem_cons.mpr ⟨⟨b, hb⟩, ih hbs⟩

/-- What holds of every result of the body holds of the results of a fallible map. -/
theorem forall_of_mapM {α β : Type} {f : α → Outcome β} {R : β → Prop} {l : List α} {l' : List β}
    (hf : ∀ a b, f a = .ok b → R b) (h : l.mapM f = .ok l') : ∀ b ∈ l', R b := by
  induction l generalizing l' with
  | nil =>
    cases h
    simp
  | cons a l ih =>
    rw [List.mapM_cons, bind_eq_ok] at h
    obtain ⟨b, hb, h⟩ := h
    obtain ⟨bs, hbs, h⟩ := bind_eq_ok.mp h
    cases h
    exact List.forall_mem_cons.mpr ⟨hf a b hb, ih hbs⟩

theorem exists_ok {α : Type} {x : Outcome α} (h : x.toBool = true) : ∃ a, x = .ok a := by
  cases x with
  | ok a => exact ⟨a, rfl⟩
  | error e => cases h

/-- The computation returns a good value. -/
def returns {α : Type} (good : α → Bool) : Outcome α → Bool
  | .ok a => good a
  | .error _ => false

theorem exists_of_returns {α : Type} {good : α → Bool} {x : Outcome α} (h : x.returns good = true) :
    ∃ a, x = .ok a ∧ good a = true := by
  cases x with
  | error e => cases h
  | ok a => exact ⟨a, rfl, h⟩

/-! ### Kinds of failures -/

section FailsOnly

variable {α β : Type} {S : Failure → Prop}

/-- A computation whose failures are all of one kind. -/
def FailsOnly (S : Failure → Prop) (x : Outcome α) : Prop := ∀ e, x = .error e → S e

theorem failsOnly_ok (a : α) : FailsOnly S (.ok a) := fun _ h => by cases h

theorem failsOnly_unwrap {msg : String} (hmsg : S (.panic msg)) (x : Option α) :
    FailsOnly S (unwrap msg x) := by
  intro e h
  cases x with
  | none =>
    cases h
    exact hmsg
  | some a => cases h

/-- The panic of `expect`, when its argument does not panic itself. -/
theorem failsOnly_expect {msg : String} {x : Outcome α} (hmsg : S (.panic msg))
    (hx : ∀ m, x = .error (.panic m) → S (.panic m)) : FailsOnly S (expect msg x) := by
  intro e h
  match x, h with
  | .error (.err _), h =>
    cases h
    exact hmsg
  | .error (.panic m), h =>
    cases h
    exact hx m rfl

theorem FailsOnly.bind {x : Outcome α} {f : α → Outcome β} (hx : FailsOnly S x)
    (hf : ∀ a, FailsOnly S (f a)) : FailsOnly S (x >>= f) := by
  intro e h
  rcases bind_eq_error.mp h with h | ⟨a, -, h⟩
  · exact hx e h
  · exact hf a e h

theorem failsOnly_mapM {f : α → Outcome β} (hf : ∀ a, FailsOnly S (f a)) (l : List α) :
    FailsOnly S (l.mapM f) := by
  induction l with
  | nil => exact failsOnly_ok _
  | cons a l ih =>
    rw [List.mapM_cons]
    exact (hf a).bind fun b => ih.bind fun bs => failsOnly_ok _

end FailsOnly

section ReturnsOnlyIf

variable {α : Type}

/-- A computation that returns only under a condition, and else reports an error. -/
def ReturnsOnlyIf (x : Outcome α) (c : Prop) : Prop :=
  (∀ a, x = .ok a → c) ∧ ∀ e, x = .error e → ∃ msg, e = .err msg

variable {c : Prop}

@[simp] theorem returnsOnlyIf_ok {a : α} : ReturnsOnlyIf (.ok a : Outcome α) c ↔ c := by
  simp [ReturnsOnlyIf]

@[simp] theorem returnsOnlyIf_err {msg : String} :
    ReturnsOnlyIf (.error (.err msg) : Outcome α) c := by
  simp [ReturnsOnlyIf]

@[simp] theorem returnsOnlyIf_panic {msg : String} :
    ¬ ReturnsOnlyIf (.error (.panic msg) : Outcome α) c := by
  simp [ReturnsOnlyIf]

end ReturnsOnlyIf

/-- What a fallible map takes from its input is what its results show. -/
theorem mapM_map_eq {α β γ : Type} {f : α → Outcome β} {g : β → γ} {h : α → γ} {l : List α}
    {l' : List β} (hf : ∀ a b, f a = .ok b → g b = h a) (hl : l.mapM f = .ok l') :
    l'.map g = l.map h := by
  induction l generalizing l' with
  | nil =>
    cases hl
    rfl
  | cons a l ih =>
    simp only [List.mapM_cons, bind_eq_ok, pure_eq_ok] at hl
    obtain ⟨b, hb, rest, hrest, hl⟩ := hl
    cases hl
    rw [List.map_cons, List.map_cons, hf a b hb, ih hrest]

end Outcome

section Programs

variable {Op : Type}

/-- Programs with memory `σ` whose operations `op` are answered by values of type `Ans op`.  Every
node holds the memory at that point. -/
inductive Prog (σ : Type) (Ans : Op → Type) (α : Type) : Type
  | ret (s : σ) (a : α)
  | stop (s : σ) (f : Failure)
  | call (s : σ) (op : Op) (k : Ans op → Prog σ Ans α)

/-- Programs that start from a memory. -/
def Proc (σ : Type) (Ans : Op → Type) (α : Type) : Type := σ → Prog σ Ans α

/-- One operation of a run: the memory when it was performed, and its answer. -/
structure Event (σ : Type) (Ans : Op → Type) where
  mem : σ
  op : Op
  ans : Ans op

variable {σ : Type} {Ans : Op → Type} {α β γ : Type}

/-- The memory of a program at its root. -/
def Prog.mem : Prog σ Ans α → σ
  | ret s _ => s
  | stop s _ => s
  | call s _ _ => s

/-- The program has returned a good value. -/
def Prog.returned (good : α → Bool) : Prog σ Ans α → Bool
  | ret _ a => good a
  | _ => false

/-- Continue a program where it returns. -/
def Prog.bind : Prog σ Ans α → (α → Proc σ Ans β) → Prog σ Ans β
  | ret s a, f => f a s
  | stop s e, _ => stop s e
  | call s op k, f => call s op fun a => (k a).bind f

instance : Monad (Proc σ Ans) where
  pure a s := .ret s a
  bind p f s := (p s).bind f

namespace Proc

/-- The current memory. -/
def get : Proc σ Ans σ := fun s => .ret s s

/-- Change the memory. -/
def modify (f : σ → σ) : Proc σ Ans Unit := fun s => .ret (f s) ()

/-- The outcome of a computation that performs no operation. -/
def lift : Outcome α → Proc σ Ans α
  | .ok a => fun s => .ret s a
  | .error e => fun s => .stop s e

/-- Perform one operation, and take what `read` makes of its answer. -/
def request (op : Op) (read : Ans op → Outcome α) : Proc σ Ans α :=
  fun s => .call s op fun a => lift (read a) s

@[simp] theorem pure_apply (a : α) (s : σ) :
    (pure a : Proc σ Ans α) s = .ret s a := rfl

@[simp] theorem bind_apply (p : Proc σ Ans α) (f : α → Proc σ Ans β) (s : σ) :
    (p >>= f) s = (p s).bind f := rfl

@[simp] theorem get_apply (s : σ) : (get : Proc σ Ans σ) s = .ret s s := rfl

@[simp] theorem modify_apply (f : σ → σ) (s : σ) :
    (modify f : Proc σ Ans Unit) s = .ret (f s) () := rfl

@[simp] theorem lift_ok (a : α) (s : σ) : (lift (.ok a) : Proc σ Ans α) s = .ret s a := rfl

@[simp] theorem lift_error (e : Failure) (s : σ) :
    (lift (.error e) : Proc σ Ans α) s = .stop s e := rfl

/-- A computation in two parts is one after the other. -/
theorem lift_bind (x : Outcome α) (f : α → Outcome β) :
    (lift (x >>= f) : Proc σ Ans β) = lift x >>= fun a => lift (f a) := by
  cases x <;> rfl

end Proc

@[simp] theorem Prog.bind_ret (s : σ) (a : α) (f : α → Proc σ Ans β) :
    (Prog.ret s a).bind f = f a s := rfl

@[simp] theorem Prog.bind_stop (s : σ) (e : Failure) (f : α → Proc σ Ans β) :
    (Prog.stop s e).bind f = .stop s e := rfl

@[simp] theorem Prog.bind_call (s : σ) (op : Op) (k : Ans op → Prog σ Ans α)
    (f : α → Proc σ Ans β) :
    (Prog.call s op k).bind f = .call s op fun a => (k a).bind f := rfl

theorem Prog.bind_assoc (p : Prog σ Ans α) (f : α → Proc σ Ans β) (g : β → Proc σ Ans γ) :
    (p.bind f).bind g = p.bind fun a => f a >>= g := by
  induction p with
  | ret s a => rfl
  | stop s e => rfl
  | call s op k ih => simp only [bind_call, ih]

theorem Proc.bind_assoc (p : Proc σ Ans α) (f : α → Proc σ Ans β) (g : β → Proc σ Ans γ) :
    (p >>= f) >>= g = p >>= fun a => f a >>= g := funext fun s => Prog.bind_assoc (p s) f g

/-! ### Runs -/

/-- `Steps p t q`: with the answers in the trace `t`, the program `p` has become `q`. -/
inductive Steps : Prog σ Ans α → List (Event σ Ans) → Prog σ Ans α → Prop
  | refl (p : Prog σ Ans α) : Steps p [] p
  | step {s : σ} {op : Op} {k : Ans op → Prog σ Ans α} {a : Ans op} {t : List (Event σ Ans)}
      {q : Prog σ Ans α} : Steps (k a) t q → Steps (.call s op k) (⟨s, op, a⟩ :: t) q

theorem steps_ret {s : σ} {a : α} {t : List (Event σ Ans)} {q : Prog σ Ans α} :
    Steps (.ret s a) t q ↔ t = [] ∧ q = .ret s a := by
  constructor
  · rintro ⟨⟩
    exact ⟨rfl, rfl⟩
  · rintro ⟨rfl, rfl⟩
    exact .refl _

theorem steps_stop {s : σ} {e : Failure} {t : List (Event σ Ans)} {q : Prog σ Ans α} :
    Steps (.stop s e) t q ↔ t = [] ∧ q = .stop s e := by
  constructor
  · rintro ⟨⟩
    exact ⟨rfl, rfl⟩
  · rintro ⟨rfl, rfl⟩
    exact .refl _

/-- A program that starts with an operation returns only through an answer to it. -/
theorem steps_call_ret {s s' : σ} {op : Op} {k : Ans op → Prog σ Ans α} {r : α}
    {t : List (Event σ Ans)} :
    Steps (.call s op k) t (.ret s' r) ↔
      ∃ a t', t = ⟨s, op, a⟩ :: t' ∧ Steps (k a) t' (.ret s' r) := by
  constructor
  · intro h
    cases h with
    | step h => exact ⟨_, _, rfl, h⟩
  · rintro ⟨a, t', rfl, h⟩
    exact .step h

theorem Steps.trans {p q r : Prog σ Ans α} {t u : List (Event σ Ans)} (h : Steps p t q)
    (h' : Steps q u r) : Steps p (t ++ u) r := by
  induction h with
  | refl p => simpa using h'
  | step _ ih => exact .step (ih h')

/-- A run in two parts. -/
theorem Steps.append_inv {p r : Prog σ Ans α} {t u : List (Event σ Ans)} (h : Steps p (t ++ u) r) :
    ∃ q, Steps p t q ∧ Steps q u r := by
  induction t generalizing p with
  | nil => exact ⟨p, .refl p, h⟩
  | cons e t ih =>
    cases h with
    | step h =>
      obtain ⟨q, hq, hr⟩ := ih h
      exact ⟨q, .step hq, hr⟩

/-- A run of a sequence is a run of its first part, or a complete run of the first part followed by
a run of the second. -/
theorem Steps.bind_inv {p : Prog σ Ans α} {f : α → Proc σ Ans β} {t : List (Event σ Ans)}
    {q : Prog σ Ans β} (h : Steps (p.bind f) t q) :
    (∃ p', Steps p t p' ∧ q = p'.bind f) ∨
      ∃ t₁ t₂ s a, t = t₁ ++ t₂ ∧ Steps p t₁ (.ret s a) ∧ Steps (f a s) t₂ q := by
  induction p generalizing t with
  | ret s a => exact .inr ⟨[], t, s, a, rfl, .refl _, h⟩
  | stop s e =>
    obtain ⟨rfl, rfl⟩ := steps_stop.mp h
    exact .inl ⟨_, .refl _, rfl⟩
  | call s op k ih =>
    cases h with
    | refl => exact .inl ⟨_, .refl _, rfl⟩
    | @step _ _ _ a t _ h =>
      obtain ⟨p', hp, rfl⟩ | ⟨t₁, t₂, s', b, rfl, hp, hf⟩ := ih a h
      · exact .inl ⟨p', .step hp, rfl⟩
      · exact .inr ⟨⟨s, op, a⟩ :: t₁, t₂, s', b, rfl, .step hp, hf⟩

/-- A complete run of a sequence is a complete run of each part. -/
theorem Steps.bind_ret_inv {p : Prog σ Ans α} {f : α → Proc σ Ans β} {t : List (Event σ Ans)}
    {s : σ} {b : β} (h : Steps (p.bind f) t (.ret s b)) :
    ∃ t₁ t₂ s' a, t = t₁ ++ t₂ ∧ Steps p t₁ (.ret s' a) ∧ Steps (f a s') t₂ (.ret s b) := by
  obtain ⟨p', hp, hq⟩ | h := h.bind_inv
  · cases p' with
    | ret s' a => exact ⟨t, [], s', a, by simp, hp, by rw [← Prog.bind_ret s' a f, ← hq]; exact .refl _⟩
    | stop s' e => cases hq
    | call s' op k => cases hq
  · exact h

/-- A sequence goes on as far as its first part does. -/
theorem Steps.bind_left {p q : Prog σ Ans α} {f : α → Proc σ Ans β} {t : List (Event σ Ans)}
    (h : Steps p t q) : Steps (p.bind f) t (q.bind f) := by
  induction h with
  | refl p => exact .refl _
  | step _ ih => exact .step ih

theorem Steps.bind {p : Prog σ Ans α} {f : α → Proc σ Ans β} {t u : List (Event σ Ans)} {s : σ}
    {a : α} {q : Prog σ Ans β} (h : Steps p t (.ret s a)) (h' : Steps (f a s) u q) :
    Steps (p.bind f) (t ++ u) q := by
  have hleft : Steps (p.bind f) t ((Prog.ret s a).bind f) := h.bind_left
  exact hleft.trans h'

/-- A sequence stops where its first part does. -/
theorem Steps.bind_stop {p : Prog σ Ans α} {f : α → Proc σ Ans β} {t : List (Event σ Ans)} {s : σ}
    {e : Failure} (h : Steps p t (.stop s e)) : Steps (p.bind f) t (.stop s e) := h.bind_left

/-- A complete run, and the value that is made of the returned one. -/
theorem Steps.bind_pure {p : Prog σ Ans α} {f : α → β} {t : List (Event σ Ans)} {s : σ} {a : α}
    (h : Steps p t (.ret s a)) :
    Steps (p.bind fun a => (pure (f a) : Proc σ Ans β)) t (.ret s (f a)) := by
  have hbind : Steps (p.bind fun a => (pure (f a) : Proc σ Ans β)) (t ++ []) (.ret s (f a)) :=
    h.bind (.refl _)
  rwa [List.append_nil] at hbind

/-- A run through a computation that performs no operation, complete or not. -/
theorem Steps.lift_bind_inv {x : Outcome α} {f : α → Proc σ Ans β} {t : List (Event σ Ans)} {s : σ}
    {q : Prog σ Ans β} (h : Steps ((Proc.lift x s).bind f) t q) :
    (∃ e, x = .error e ∧ t = [] ∧ q = .stop s e) ∨ ∃ a, x = .ok a ∧ Steps (f a s) t q := by
  cases x with
  | error e =>
    obtain ⟨rfl, rfl⟩ := steps_stop.mp h
    exact .inl ⟨e, rfl, rfl, rfl⟩
  | ok a => exact .inr ⟨a, rfl, h⟩

/-- A run through one operation, complete or not. -/
theorem Steps.request_bind_inv {op : Op} {read : Ans op → Outcome α} {f : α → Proc σ Ans β}
    {t : List (Event σ Ans)} {s : σ} {q : Prog σ Ans β}
    (h : Steps ((Proc.request op read s).bind f) t q) :
    (t = [] ∧ q.mem = s) ∨ ∃ ans t', t = ⟨s, op, ans⟩ :: t' ∧
      ((∃ e, read ans = .error e ∧ t' = [] ∧ q = .stop s e) ∨
        ∃ a, read ans = .ok a ∧ Steps (f a s) t' q) := by
  cases h with
  | refl => exact .inl ⟨rfl, rfl⟩
  | step h => exact .inr ⟨_, _, rfl, h.lift_bind_inv⟩

/-- The program has nothing left to do. -/
def Prog.Ended : Prog σ Ans α → Prop
  | call _ _ _ => False
  | _ => True

/-- A program ends in every environment. -/
theorem Prog.exists_ended (env : (op : Op) → Ans op) (p : Prog σ Ans α) :
    ∃ t q, Steps p t q ∧ q.Ended ∧ ∀ e ∈ t, e.ans = env e.op := by
  induction p with
  | ret s a => exact ⟨[], _, .refl _, trivial, by simp⟩
  | stop s e => exact ⟨[], _, .refl _, trivial, by simp⟩
  | call s op k ih =>
    obtain ⟨t, q, hsteps, hq, henv⟩ := ih (env op)
    refine ⟨⟨s, op, env op⟩ :: t, q, .step hsteps, hq, ?_⟩
    rintro e he
    rcases List.mem_cons.mp he with rfl | he
    · rfl
    · exact henv e he

/-- A run that ended inside a sequence stopped in its first part or went on with the second. -/
theorem Steps.bind_ended {p : Prog σ Ans α} {f : α → Proc σ Ans β} {t : List (Event σ Ans)}
    {q : Prog σ Ans β} (h : Steps (p.bind f) t q) (hq : q.Ended) :
    (∃ s e, Steps p t (.stop s e)) ∨
      ∃ t₁ t₂ s a, t = t₁ ++ t₂ ∧ Steps p t₁ (.ret s a) ∧ Steps (f a s) t₂ q := by
  rcases h.bind_inv with ⟨p', hp, rfl⟩ | h
  · cases p' with
    | ret s a => exact .inr ⟨t, [], s, a, by simp, hp, .refl _⟩
    | stop s e => exact .inl ⟨s, e, hp⟩
    | call s op k => exact hq.elim
  · exact .inr h

/-- A run that ended got an answer to its first operation. -/
theorem Steps.request_bind_ended {op : Op} {read : Ans op → Outcome α} {f : α → Proc σ Ans β}
    {t : List (Event σ Ans)} {s : σ} {q : Prog σ Ans β}
    (h : Steps ((Proc.request op read s).bind f) t q) (hq : q.Ended) :
    ∃ ans t', t = ⟨s, op, ans⟩ :: t' ∧ ((∃ e, read ans = .error e ∧ t' = []) ∨
      ∃ a, read ans = .ok a ∧ Steps (f a s) t' q) := by
  cases h with
  | refl => exact hq.elim
  | step h =>
    rcases h.lift_bind_inv with ⟨e, he, rfl, -⟩ | h
    · exact ⟨_, _, rfl, .inl ⟨e, he, rfl⟩⟩
    · exact ⟨_, _, rfl, .inr h⟩

/-- A complete run through a computation that performs no operation. -/
@[simp] theorem steps_lift_bind {x : Outcome α} {f : α → Proc σ Ans β} {t : List (Event σ Ans)}
    {s s' : σ} {b : β} :
    Steps ((Proc.lift x s).bind f) t (.ret s' b) ↔ ∃ a, x = .ok a ∧ Steps (f a s) t (.ret s' b) := by
  cases x with
  | error e =>
    constructor
    · intro h
      cases (steps_stop.mp h).2
    · rintro ⟨a, ha, -⟩
      cases ha
  | ok a => simp

/-- A complete run through one operation. -/
@[simp] theorem steps_request_bind {op : Op} {read : Ans op → Outcome α} {f : α → Proc σ Ans β}
    {t : List (Event σ Ans)} {s s' : σ} {b : β} :
    Steps ((Proc.request op read s).bind f) t (.ret s' b) ↔
      ∃ ans a t', read ans = .ok a ∧ t = ⟨s, op, ans⟩ :: t' ∧ Steps (f a s) t' (.ret s' b) := by
  simp only [Proc.request, Prog.bind_call, steps_call_ret, steps_lift_bind]
  constructor
  · rintro ⟨ans, t', rfl, a, ha, h⟩
    exact ⟨ans, a, t', ha, rfl, h⟩
  · rintro ⟨ans, a, t', ha, rfl, h⟩
    exact ⟨ans, t', rfl, a, ha, h⟩

/-! ### Some run -/

/-- Some run of the program has a trace and a rest with `Q`. -/
def Prog.Reaches (Q : List (Event σ Ans) → Prog σ Ans α → Prop) (p : Prog σ Ans α) : Prop :=
  ∃ t q, Steps p t q ∧ Q t q

section Reaches

variable {Q : List (Event σ Ans) → Prog σ Ans α → Prop} {s : σ}

theorem Prog.reaches_here {p : Prog σ Ans α} (h : Q [] p) : p.Reaches Q := ⟨[], p, .refl p, h⟩

theorem Prog.reaches_get_bind {f : σ → Proc σ Ans α} (h : (f s s).Reaches Q) :
    ((Proc.get >>= f) s).Reaches Q := h

theorem Prog.reaches_modify_bind {g : σ → σ} {f : Unit → Proc σ Ans α}
    (h : (f () (g s)).Reaches Q) : ((Proc.modify g >>= f) s).Reaches Q := h

theorem Prog.reaches_lift_bind {x : Outcome β} {f : β → Proc σ Ans α} {b : β} (hx : x = .ok b)
    (h : (f b s).Reaches Q) : ((Proc.lift x >>= f) s).Reaches Q := by
  rw [hx]
  exact h

/-- One operation, with the answer that some environment gives. -/
theorem Prog.reaches_request_bind {op : Op} {read : Ans op → Outcome β} {f : β → Proc σ Ans α} {b : β}
    (ans : Ans op) (hread : read ans = .ok b)
    (h : (f b s).Reaches fun t q => Q (⟨s, op, ans⟩ :: t) q) :
    ((Proc.request op read >>= f) s).Reaches Q := by
  obtain ⟨t, q, hsteps, hQ⟩ := h
  refine ⟨⟨s, op, ans⟩ :: t, q, .step ?_, hQ⟩
  show Steps ((Proc.lift (read ans) s).bind f) t q
  rw [hread]
  exact hsteps

/-- A complete run of the first part, and then one of the second. -/
theorem Prog.reaches_bind {p : Prog σ Ans β} {f : β → Proc σ Ans α} {t : List (Event σ Ans)} {b : β}
    (hp : Steps p t (.ret s b)) (h : (f b s).Reaches fun u q => Q (t ++ u) q) :
    (p.bind f).Reaches Q := by
  obtain ⟨u, q, hsteps, hQ⟩ := h
  exact ⟨t ++ u, q, hp.bind hsteps, hQ⟩

end Reaches

/-! ### Specifications -/

/-- After the operations of `past`, every operation that the program performs satisfies `P` at the past
and the memory it is performed in, and every value it returns satisfies `Q`. -/
def Prog.Sat (P : List (Event σ Ans) → σ → Op → Prop) (Q : List (Event σ Ans) → σ → α → Prop) :
    List (Event σ Ans) → Prog σ Ans α → Prop
  | past, ret s a => Q past s a
  | _, stop _ _ => True
  | past, call s op k => P past s op ∧ ∀ a, (k a).Sat P Q (past ++ [⟨s, op, a⟩])

variable {P P' : List (Event σ Ans) → σ → Op → Prop} {Q Q' : List (Event σ Ans) → σ → α → Prop}
  {past : List (Event σ Ans)}

theorem Prog.Sat.mono {p : Prog σ Ans α} (h : p.Sat P Q past)
    (hP : ∀ past s op, P past s op → P' past s op) (hQ : ∀ past s a, Q past s a → Q' past s a) :
    p.Sat P' Q' past := by
  induction p generalizing past with
  | ret s a => exact hQ past s a h
  | stop s e => trivial
  | call s op k ih => exact ⟨hP past s op h.1, fun a => ih a (h.2 a)⟩

/-- A sequence meets its specification when its first part does and, from every value that the
first part may return, so does the second. -/
theorem Prog.Sat.bind {p : Prog σ Ans α} {f : α → Proc σ Ans β}
    {R : List (Event σ Ans) → σ → β → Prop} (h : p.Sat P Q past)
    (hf : ∀ past s a, Q past s a → (f a s).Sat P R past) : (p.bind f).Sat P R past := by
  induction p generalizing past with
  | ret s a => exact hf past s a h
  | stop s e => trivial
  | call s op k ih => exact ⟨h.1, fun a => ih a (h.2 a)⟩

theorem Prog.sat_get_bind {f : σ → Proc σ Ans α} {s : σ} (h : (f s s).Sat P Q past) :
    ((Proc.get >>= f) s).Sat P Q past := h

theorem Prog.sat_modify_bind {g : σ → σ} {f : Unit → Proc σ Ans α} {s : σ}
    (h : (f () (g s)).Sat P Q past) : ((Proc.modify g >>= f) s).Sat P Q past := h

theorem Prog.sat_lift_bind {x : Outcome β} {f : β → Proc σ Ans α} {s : σ}
    (h : ∀ b, x = .ok b → (f b s).Sat P Q past) : ((Proc.lift x >>= f) s).Sat P Q past := by
  cases x with
  | error e => trivial
  | ok b => exact h b rfl

theorem Prog.sat_request_bind {op : Op} {read : Ans op → Outcome β} {f : β → Proc σ Ans α} {s : σ}
    (hop : P past s op)
    (h : ∀ ans b, read ans = .ok b → (f b s).Sat P Q (past ++ [⟨s, op, ans⟩])) :
    ((Proc.request op read >>= f) s).Sat P Q past :=
  ⟨hop, fun ans => Prog.sat_lift_bind fun b hb => h ans b hb⟩

theorem Prog.Sat.and {p : Prog σ Ans α} (h : p.Sat P Q past) (h' : p.Sat P' Q' past) :
    p.Sat (fun past s op => P past s op ∧ P' past s op) (fun past s a => Q past s a ∧ Q' past s a)
      past := by
  induction p generalizing past with
  | ret s a => exact ⟨h, h'⟩
  | stop s e => trivial
  | call s op k ih => exact ⟨⟨h.1, h'.1⟩, fun a => ih a (h.2 a) (h'.2 a)⟩

/-- What a program returns, it returns after a complete run. -/
theorem Prog.sat_steps (p : Prog σ Ans α) :
    p.Sat (fun _ _ _ => True) (fun past' s a => ∃ t, past' = past ++ t ∧ Steps p t (.ret s a)) past := by
  induction p generalizing past with
  | ret s a => exact ⟨[], by simp, .refl _⟩
  | stop s e => trivial
  | call s op k ih =>
    refine ⟨trivial, fun ans => (ih ans).mono (fun _ _ _ h => h) ?_⟩
    rintro past' s' a ⟨t, rfl, ht⟩
    exact ⟨⟨s, op, ans⟩ :: t, by simp, .step ht⟩

/-- Along a run, what is left still meets the specification. -/
theorem Steps.sat {p q : Prog σ Ans α} {t : List (Event σ Ans)} (h : Steps p t q)
    (hp : p.Sat P Q past) : q.Sat P Q (past ++ t) := by
  induction h generalizing past with
  | refl p => simpa using hp
  | @step s op k a t q _ ih => simpa using ih (hp.2 a)

/-- Every operation of a run satisfied `P` when it was performed. -/
theorem Steps.sat_event {p q : Prog σ Ans α} {t₁ t₂ : List (Event σ Ans)} {e : Event σ Ans}
    (h : Steps p (t₁ ++ e :: t₂) q) (hp : p.Sat P Q past) : P (past ++ t₁) e.mem e.op := by
  induction t₁ generalizing p past with
  | nil =>
    cases h with
    | step _ => simpa using hp.1
  | cons e' t₁ ih =>
    cases h with
    | step h => simpa using ih h (hp.2 _)

/-- What holds of every operation of the program holds of those of a run. -/
theorem Steps.forall_op {p q : Prog σ Ans α} {t : List (Event σ Ans)} {R : Op → Prop} (h : Steps p t q)
    (hp : p.Sat (fun _ _ op => R op) Q past) : ∀ e ∈ t, R e.op := by
  intro e he
  obtain ⟨t₁, t₂, rfl⟩ := List.append_of_mem he
  exact h.sat_event hp

/-! ### Processes that leave the memory alone -/

/-- A past goes on with operations in `ops` at the memory `s`. -/
def Extends (ops : Op → Prop) (s : σ) (past past' : List (Event σ Ans)) : Prop :=
  ∃ t, past' = past ++ t ∧ ∀ e ∈ t, e.mem = s ∧ ops e.op

variable {ops : Op → Prop} {s : σ} {past' past'' : List (Event σ Ans)}

theorem Extends.refl : Extends ops s past past := ⟨[], by simp, by simp⟩

theorem Extends.isPrefix (h : Extends ops s past past') : past <+: past' := by
  obtain ⟨t, rfl, -⟩ := h
  exact List.prefix_append past t

theorem Extends.trans (h : Extends ops s past past') (h' : Extends ops s past' past'') :
    Extends ops s past past'' := by
  obtain ⟨t, rfl, ht⟩ := h
  obtain ⟨t', rfl, ht'⟩ := h'
  exact ⟨t ++ t', by simp, fun e he => (List.mem_append.mp he).elim (ht e) (ht' e)⟩

/-- What was in the past stays there. -/
theorem Extends.mem {e : Event σ Ans} (h : Extends ops s past past') (he : e ∈ past) :
    e ∈ past' := by
  obtain ⟨t, rfl, -⟩ := h
  exact List.mem_append_left t he

namespace Proc

/-- A process that only performs operations in `ops`, and leaves the memory as it is. -/
def Only (ops : Op → Prop) (p : Proc σ Ans α) : Prop :=
  ∀ s past, (p s).Sat (fun past' s' op => s' = s ∧ ops op ∧ Extends ops s past past')
    (fun past' s' _ => s' = s ∧ Extends ops s past past') past

theorem Only.pure (a : α) : (Pure.pure a : Proc σ Ans α).Only ops := fun _ _ => ⟨rfl, .refl⟩

theorem Only.lift (x : Outcome α) : (Proc.lift x : Proc σ Ans α).Only ops := by
  intro s past
  cases x with
  | error e => trivial
  | ok a => exact ⟨rfl, .refl⟩

theorem Only.request {op : Op} {read : Ans op → Outcome α} (h : ops op) :
    (Proc.request op read : Proc σ Ans α).Only ops := by
  intro s past
  refine ⟨⟨rfl, h, .refl⟩, fun a => ?_⟩
  dsimp only
  cases read a with
  | error e => trivial
  | ok b => exact ⟨rfl, [_], rfl, by simpa using h⟩

theorem Only.bind {p : Proc σ Ans α} {f : α → Proc σ Ans β} (h : p.Only ops)
    (hf : ∀ a, (f a).Only ops) : (p >>= f).Only ops := by
  intro s past
  refine (h s past).bind fun past' s' a hq => ?_
  obtain ⟨rfl, hext⟩ := hq
  refine (hf a s' past').mono ?_ ?_
  · rintro past'' s'' op ⟨rfl, hop, hext'⟩
    exact ⟨rfl, hop, hext.trans hext'⟩
  · rintro past'' s'' b ⟨rfl, hext'⟩
    exact ⟨rfl, hext.trans hext'⟩

theorem Only.ite {c : Prop} [Decidable c] {p q : Proc σ Ans α} (hp : p.Only ops) (hq : q.Only ops) :
    (if c then p else q).Only ops := by
  split
  · exact hp
  · exact hq

/-- All that such a process does, it does in the same memory. -/
theorem Only.events {p : Proc σ Ans α} (h : p.Only ops) {s' : σ} {t : List (Event σ Ans)} {a : α}
    (hsteps : Steps (p s) t (.ret s' a)) : s' = s ∧ ∀ e ∈ t, e.mem = s ∧ ops e.op := by
  obtain ⟨hmem, u, hu, hall⟩ := hsteps.sat (h s [])
  rw [List.nil_append, List.nil_append] at hu
  subst hu
  exact ⟨hmem, hall⟩

/-- After such a process, the rest goes on with the same memory. -/
theorem Only.sat_bind {p : Proc σ Ans α} {f : α → Proc σ Ans β}
    {R : List (Event σ Ans) → σ → β → Prop} (h : p.Only ops)
    (hP : ∀ past' op, ops op → Extends ops s past past' → P past' s op)
    (hf : ∀ past' a, Extends ops s past past' → (f a s).Sat P R past') :
    ((p >>= f) s).Sat P R past := by
  refine Prog.Sat.bind (Q := fun past' s' _ => s' = s ∧ Extends ops s past past')
    ((h s past).mono ?_ fun _ _ _ hq => hq) ?_
  · rintro past' s' op ⟨rfl, hop, hext⟩
    exact hP past' op hop hext
  · rintro past' s' a ⟨rfl, hext⟩
    exact hf past' a hext

/-- Every value that a process returns satisfies `Q`. -/
def Returns (Q : α → Prop) (p : Proc σ Ans α) : Prop :=
  ∀ s past, (p s).Sat (fun _ _ _ => True) (fun _ _ a => Q a) past

/-- The same, with what is known of the value. -/
theorem Only.sat_bind_returns {p : Proc σ Ans α} {f : α → Proc σ Ans β}
    {R : List (Event σ Ans) → σ → β → Prop} {Q : α → Prop} (h : p.Only ops) (hr : p.Returns Q)
    (hP : ∀ past' op, ops op → Extends ops s past past' → P past' s op)
    (hf : ∀ past' a, Extends ops s past past' → Q a → (f a s).Sat P R past') :
    ((p >>= f) s).Sat P R past := by
  refine Prog.Sat.bind (Q := fun past' s' a => (s' = s ∧ Extends ops s past past') ∧ Q a)
    (((h s past).and (hr s past)).mono ?_ fun _ _ _ hq => hq) ?_
  · rintro past' s' op ⟨⟨rfl, hop, hext⟩, -⟩
    exact hP past' op hop hext
  · rintro past' s' a ⟨⟨rfl, hext⟩, hQ⟩
    exact hf past' a hext hQ

theorem Returns.and {Q Q' : α → Prop} {p : Proc σ Ans α} (h : p.Returns Q) (h' : p.Returns Q') :
    p.Returns fun a => Q a ∧ Q' a := fun s past =>
  ((h s past).and (h' s past)).mono (fun _ _ _ _ => trivial) fun _ _ _ hQ => hQ

/-- From a state with `I`, a process performs only operations with `P` and returns in a state with `I`. -/
def Maintains (P : List (Event σ Ans) → σ → Op → Prop) (I : List (Event σ Ans) → σ → Prop)
    (p : Proc σ Ans α) : Prop :=
  ∀ s past, I past s → (p s).Sat P (fun past' s' _ => I past' s') past

section Maintains

variable {I : List (Event σ Ans) → σ → Prop} {p : Proc σ Ans α} {f : α → Proc σ Ans β}

theorem Maintains.bind (h : p.Maintains P I) (hf : ∀ a, (f a).Maintains P I) :
    (p >>= f).Maintains P I := fun s past hI => (h s past hI).bind fun past' s' a hI' => hf a s' past' hI'

theorem Maintains.pure (a : α) : (Pure.pure a : Proc σ Ans α).Maintains P I := fun _ _ hI => hI

theorem Maintains.lift (x : Outcome α) : (Proc.lift x : Proc σ Ans α).Maintains P I := by
  intro s past hI
  cases x with
  | error e => trivial
  | ok a => exact hI

/-- The rest only starts from a value that the computation returns. -/
theorem Maintains.lift_bind {x : Outcome α} (h : ∀ a, x = .ok a → (f a).Maintains P I) :
    (Proc.lift x >>= f).Maintains P I := fun s past hI => Prog.sat_lift_bind fun a ha => h a ha s past hI

theorem Maintains.get : (Proc.get : Proc σ Ans σ).Maintains P I := fun _ _ hI => hI

/-- An operation that the invariant allows, and that does not break it. -/
theorem Maintains.request {op : Op} {read : Ans op → Outcome α} (hP : ∀ past s, I past s → P past s op)
    (hI : ∀ past s ans, I past s → I (past ++ [⟨s, op, ans⟩]) s) :
    (Proc.request op read : Proc σ Ans α).Maintains P I := by
  intro s past hpast
  refine ⟨hP past s hpast, fun ans => ?_⟩
  dsimp only
  cases read ans with
  | error e => trivial
  | ok a => exact hI past s ans hpast

theorem Maintains.ite {c : Prop} [Decidable c] {q : Proc σ Ans α} (hp : p.Maintains P I)
    (hq : q.Maintains P I) : (if c then p else q).Maintains P I := by
  split
  · exact hp
  · exact hq

end Maintains

end Proc

/-! ### Every state -/

/-- Every state of the program after the operations of `past`, where it waits, stops or returns,
satisfies `I`. -/
def Prog.Throughout (I : List (Event σ Ans) → σ → Prop) : List (Event σ Ans) → Prog σ Ans α → Prop
  | past, ret s _ => I past s
  | past, stop s _ => I past s
  | past, call s op k => I past s ∧ ∀ a, (k a).Throughout I (past ++ [⟨s, op, a⟩])

section Throughout

variable {I J : List (Event σ Ans) → σ → Prop}

/-- Along a run, the state that is reached satisfies the invariant. -/
theorem Steps.throughout {p q : Prog σ Ans α} {t : List (Event σ Ans)} (h : Steps p t q)
    (hp : p.Throughout I past) : I (past ++ t) q.mem := by
  induction h generalizing past with
  | refl p =>
    rw [List.append_nil]
    cases p with
    | ret s a => exact hp
    | stop s e => exact hp
    | call s op k => exact hp.1
  | @step s op k a t q _ ih => simpa using ih (hp.2 a)

theorem Prog.Throughout.mono {p : Prog σ Ans α} (h : p.Throughout I past)
    (hIJ : ∀ past' s, I past' s → J past' s) : p.Throughout J past := by
  induction p generalizing past with
  | ret s a => exact hIJ past s h
  | stop s e => exact hIJ past s h
  | call s op k ih => exact ⟨hIJ past s h.1, fun a => ih a (h.2 a)⟩

/-- A sequence whose first part meets a specification. -/
theorem Prog.Throughout.bind {p : Prog σ Ans α} {f : α → Proc σ Ans β} (hp : p.Throughout I past)
    (hs : p.Sat (fun _ _ _ => True) Q past) (hIJ : ∀ past' s, I past' s → J past' s)
    (hf : ∀ past' s a, I past' s → Q past' s a → (f a s).Throughout J past') :
    (p.bind f).Throughout J past := by
  induction p generalizing past with
  | ret s a => exact hf past s a hp hs
  | stop s e => exact hIJ past s hp
  | call s op k ih => exact ⟨hIJ past s hp.1, fun a => ih a (hp.2 a) (hs.2 a)⟩

theorem Prog.throughout_get_bind {f : σ → Proc σ Ans α} (h : (f s s).Throughout I past) :
    ((Proc.get >>= f) s).Throughout I past := h

theorem Prog.throughout_modify_bind {g : σ → σ} {f : Unit → Proc σ Ans α}
    (h : (f () (g s)).Throughout I past) : ((Proc.modify g >>= f) s).Throughout I past := h

theorem Prog.throughout_lift_bind {x : Outcome β} {f : β → Proc σ Ans α} (hI : I past s)
    (h : ∀ b, x = .ok b → (f b s).Throughout I past) :
    ((Proc.lift x >>= f) s).Throughout I past := by
  cases x with
  | error e => exact hI
  | ok b => exact h b rfl

theorem Prog.throughout_request_bind {op : Op} {read : Ans op → Outcome β} {f : β → Proc σ Ans α}
    (hI : I past s) (hI' : ∀ ans, I (past ++ [⟨s, op, ans⟩]) s)
    (h : ∀ ans b, read ans = .ok b → (f b s).Throughout I (past ++ [⟨s, op, ans⟩])) :
    ((Proc.request op read >>= f) s).Throughout I past :=
  ⟨hI, fun ans => Prog.throughout_lift_bind (hI' ans) fun b hb => h ans b hb⟩

/-- One operation at the end. -/
theorem Prog.throughout_request {op : Op} {read : Ans op → Outcome α} (hI : I past s)
    (hI' : ∀ ans, I (past ++ [⟨s, op, ans⟩]) s) :
    ((Proc.request op read : Proc σ Ans α) s).Throughout I past := by
  refine ⟨hI, fun ans => ?_⟩
  show (Proc.lift (read ans) s).Throughout _ _
  cases read ans with
  | error e => exact hI' ans
  | ok a => exact hI' ans

/-- A process that leaves the memory as it is, also where it stops. -/
def Proc.Still (p : Proc σ Ans α) : Prop :=
  ∀ s past, (p s).Throughout (fun past' s' => s' = s ∧ past <+: past') past

namespace Proc

theorem Still.pure (a : α) : (Pure.pure a : Proc σ Ans α).Still :=
  fun _ past => ⟨rfl, List.prefix_refl past⟩

theorem Still.lift (x : Outcome α) : (Proc.lift x : Proc σ Ans α).Still := by
  intro s past
  cases x with
  | error e => exact ⟨rfl, List.prefix_refl past⟩
  | ok a => exact ⟨rfl, List.prefix_refl past⟩

theorem Still.request {op : Op} {read : Ans op → Outcome α} :
    (Proc.request op read : Proc σ Ans α).Still := by
  intro s past
  exact Prog.throughout_request ⟨rfl, List.prefix_refl past⟩ fun _ => ⟨rfl, List.prefix_append past _⟩

theorem Still.bind {p : Proc σ Ans α} {f : α → Proc σ Ans β} (h : p.Still) (hf : ∀ a, (f a).Still) :
    (p >>= f).Still := by
  intro s past
  refine (h s past).bind (Prog.sat_steps _) (fun _ _ hI => hI) ?_
  rintro past' s' a ⟨rfl, hpre⟩ -
  refine (hf a s' past').mono ?_
  rintro past'' s'' ⟨rfl, hpre'⟩
  exact ⟨rfl, hpre.trans hpre'⟩

theorem Still.ite {c : Prop} [Decidable c] {p q : Proc σ Ans α} (hp : p.Still) (hq : q.Still) :
    (if c then p else q).Still := by
  split
  · exact hp
  · exact hq

/-- After such a process, an invariant that the past does not break still holds. -/
theorem Still.throughout_bind {p : Proc σ Ans α} {f : α → Proc σ Ans β} (h : p.Still)
    (hs : (p s).Sat (fun _ _ _ => True) Q past) (hI : ∀ past', past <+: past' → I past' s)
    (hf : ∀ past' a, past <+: past' → Q past' s a → (f a s).Throughout I past') :
    ((p >>= f) s).Throughout I past := by
  refine (h s past).bind hs ?_ ?_
  · rintro past' s' ⟨rfl, hpre⟩
    exact hI past' hpre
  · rintro past' s' a ⟨rfl, hpre⟩ hQ
    exact hf past' a hpre hQ

end Proc

end Throughout

end Programs

end Interaction
