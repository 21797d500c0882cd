import Mathlib.Data.Nat.Notation
import Mathlib.Logic.Relation

/-! Relations of which any two steps from a state are the same or can be done in either order.  When one
run of such a relation ends, every run does, after the same number of steps and in the same state. -/

namespace Confluence

variable {α : Type*} {r : α → α → Prop} {a b c : α} {n m : ℕ} {Q : α → Prop}

/-- Two steps from one state are the same, or meet after one more step each. -/
def Diamond (r : α → α → Prop) : Prop :=
  ∀ ⦃a b c⦄, r a b → r a c → b = c ∨ ∃ d, r b d ∧ r c d

/-- A number of steps leads from one state to another. -/
inductive StepsIn (r : α → α → Prop) : ℕ → α → α → Prop
  | refl (a : α) : StepsIn r 0 a a
  | head {n : ℕ} {a b c : α} : r a b → StepsIn r n b c → StepsIn r (n + 1) a c

/-- No step leaves the state. -/
def Terminal (r : α → α → Prop) (c : α) : Prop := ∀ d, ¬ r c d

theorem exists_stepsIn (h : Relation.ReflTransGen r a c) : ∃ n, StepsIn r n a c := by
  induction h using Relation.ReflTransGen.head_induction_on with
  | refl => exact ⟨0, .refl c⟩
  | head hstep _ ih =>
    obtain ⟨n, hn⟩ := ih
    exact ⟨n + 1, .head hstep hn⟩

/-- After any first step, the end of a run is one step closer. -/
theorem Diamond.strip (hr : Diamond r) (hc : Terminal r c) (h : StepsIn r n a c) (hb : r a b) :
    ∃ m, n = m + 1 ∧ StepsIn r m b c := by
  induction h generalizing b with
  | refl a => exact (hc b hb).elim
  | @head n a a' c ha hrest ih =>
    rcases hr hb ha with rfl | ⟨d, hbd, had⟩
    · exact ⟨n, rfl, hrest⟩
    · obtain ⟨m, rfl, hm⟩ := ih hc had
      exact ⟨m + 1, rfl, .head hbd hm⟩

/-- Every run is a part of one of the length of a run that ends, with the same end. -/
theorem Diamond.descent (hr : Diamond r) (hc : Terminal r c) (h : StepsIn r n a c)
    (hb : StepsIn r m a b) : m ≤ n ∧ StepsIn r (n - m) b c := by
  induction hb generalizing n with
  | refl a => exact ⟨Nat.zero_le n, h⟩
  | head hstep _ ih =>
    obtain ⟨k, rfl, hk⟩ := hr.strip hc h hstep
    obtain ⟨hle, hrest⟩ := ih hk
    refine ⟨by omega, ?_⟩
    rwa [Nat.add_sub_add_right]

/-- Every run from a state ends, after the same number of steps in the same state, which has `Q`: no run
is longer, and none gets stuck before. -/
def Inevitable (r : α → α → Prop) (Q : α → Prop) (a : α) : Prop :=
  ∃ n c, Q c ∧ Terminal r c ∧ ∀ m b, StepsIn r m a b → m ≤ n ∧ StepsIn r (n - m) b c

/-- What one run reaches in the end, every run does. -/
theorem Diamond.inevitable (hr : Diamond r) (h : Relation.ReflTransGen r a c) (hQ : Q c)
    (hc : Terminal r c) : Inevitable r Q a := by
  obtain ⟨n, hn⟩ := exists_stepsIn h
  exact ⟨n, c, hQ, hc, fun m b hb => hr.descent hc hn hb⟩

end Confluence
