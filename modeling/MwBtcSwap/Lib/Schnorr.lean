import Mathlib.Algebra.BigOperators.Group.List.Basic
import Mathlib.Algebra.Module.Basic
import Mathlib.Tactic.Abel

/-! Schnorr signatures that several signers add up, over any module.  A partial signature answers
one challenge with a nonce and a key; it may carry an extra secret, whose public part then enters the
verification equation.  The equation is linear, so partial signatures for one challenge add up to a
signature under the sum of the keys, and a signature with its extra secret determines that secret
together with the same signature without it. -/

namespace Schnorr

variable {K P : Type} [CommRing K] [AddCommGroup P] [Module K P]

/-- A signature: the public nonce, and the answer to the challenge. -/
structure Signature (K P : Type) where
  nonce : P
  s : K
  deriving DecidableEq

/-- The signature of the key `sk` with nonce `k` for the challenge `e`, with `extra` added. -/
def sign (G : P) (e sk k extra : K) : Signature K P := ⟨k • G, k + e * sk + extra⟩

/-- The verification equation for the challenge `e`, the key `pk` and the extra key `extra`. -/
def Valid (G : P) (e : K) (pk extra : P) (sig : Signature K P) : Prop :=
  sig.s • G = sig.nonce + e • pk + extra

instance [DecidableEq P] (G : P) (e : K) (pk extra : P) (sig : Signature K P) :
    Decidable (Valid G e pk extra sig) :=
  inferInstanceAs (Decidable (_ = _))

@[simp] theorem sign_nonce (G : P) (e sk k extra : K) : (sign G e sk k extra).nonce = k • G := rfl

@[simp] theorem sign_s (G : P) (e sk k extra : K) :
    (sign G e sk k extra).s = k + e * sk + extra := rfl

theorem sign_valid (G : P) (e sk k extra : K) :
    Valid G e (sk • G) (extra • G) (sign G e sk k extra) := by
  simp only [Valid, sign, add_smul, mul_smul]

/-- A signature without an extra secret is valid without an extra key. -/
theorem sign_valid_zero (G : P) (e sk k : K) : Valid G e (sk • G) 0 (sign G e sk k 0) := by
  simpa using sign_valid G e sk k 0

/-- Valid signatures for one challenge add up to a valid signature under the sum of their keys. -/
theorem sum_valid {ι : Type} (G : P) (e : K) (key : ι → P) (sig : ι → Signature K P) :
    ∀ signers : List ι, (∀ i ∈ signers, Valid G e (key i) 0 (sig i)) →
      Valid G e (signers.map key).sum 0
        ⟨(signers.map fun i => (sig i).nonce).sum, (signers.map fun i => (sig i).s).sum⟩ := by
  intro signers h
  induction signers with
  | nil => simp [Valid]
  | cons i signers ih =>
    have hi : (sig i).s • G = (sig i).nonce + e • key i + 0 := h i (by simp)
    have hs := ih fun j hj => h j (by simp [hj])
    simp only [Valid, List.map_cons, List.sum_cons, add_smul, smul_add] at hs ⊢
    rw [hi, hs]
    abel

/-- Of a valid signature that carries an extra key, the part that answers the key alone is what is
left of it after a scalar whose public part is the extra key. -/
theorem extra_iff {G : P} {e : K} {pk extra : P} {sig : Signature K P}
    (h : Valid G e pk extra sig) (s : K) :
    (sig.s - s) • G = extra ↔ Valid G e pk 0 ⟨sig.nonce, s⟩ := by
  simp only [Valid] at h ⊢
  rw [sub_smul, h, add_zero]
  constructor
  · intro hx
    have hsum : sig.nonce + e • pk + extra = extra + s • G := sub_eq_iff_eq_add.mp hx
    rw [add_comm extra (s • G)] at hsum
    exact (add_right_cancel hsum).symm
  · intro hs
    rw [hs]
    abel

/-- The extra secret is the difference of the signature that carries it and the one that does
not. -/
theorem sign_sub_sign (G : P) (e sk k extra : K) :
    (sign G e sk k extra).s - (sign G e sk k 0).s = extra := by
  simp only [sign]
  abel

end Schnorr
