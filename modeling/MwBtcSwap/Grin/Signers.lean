import MwBtcSwap.Grin.Slate
import Mathlib.Data.List.Pairwise

/-! Slates whose participants are honest signers.  The participants of a slate are the entries of a
list of signers, each with its signature or without; the functions of a slate then act on this list,
and a slate that all of them signed is finalized. -/

namespace MwBtcSwap.Grin

open Schnorr Interaction Machine

variable {K P : Type} [CommRing K] [AddCommGroup P] [Module K P] [DecidableEq K] [DecidableEq P]

/-- A party's key and nonce in a slate. -/
structure Signer (K : Type) where
  key : K
  nonce : K
  deriving DecidableEq

namespace Signer

variable (L : GrinLib K P)

/-- The entry of a signer, with its signature if it signed. -/
def entry (i : Signer K) (sig : Option (Signature K P)) : ParticipantData K P :=
  ⟨i.key • L.G, i.nonce • L.G, sig⟩

/-- Two signers have the same entry. -/
def Same (i j : Signer K) : Prop := i.key • L.G = j.key • L.G ∧ i.nonce • L.G = j.nonce • L.G

/-- A signer that the library accepts: its key and its nonce are secret keys. -/
def Usable (i : Signer K) : Prop := i.key ≠ 0 ∧ i.nonce ≠ 0

instance (i j : Signer K) : Decidable (i.Same L j) := inferInstanceAs (Decidable (_ ∧ _))

instance (i : Signer K) : Decidable i.Usable := inferInstanceAs (Decidable (_ ∧ _))

end Signer

variable (L : GrinLib K P)

/-- The entries of a list of signers. -/
def entries (Z : List (Signer K)) (sig : Signer K → Option (Signature K P)) :
    List (ParticipantData K P) :=
  Z.map fun i => i.entry L (sig i)

/-- The nonces of the signers, in sum. -/
def nonceSum (Z : List (Signer K)) : P := (Z.map fun i => i.nonce • L.G).sum

/-- The keys of the signers, in sum. -/
def keySum (Z : List (Signer K)) : P := (Z.map fun i => i.key • L.G).sum

/-- The signature of one of the signers on a kernel message. -/
def signature (Z : List (Signer K)) (msg : KernelFeatures) (i : Signer K) : Signature K P :=
  L.signSingle msg i.key i.nonce none (nonceSum L Z) (keySum L Z)

/-- The sum of the signatures of all signers. -/
def fullSignature (Z : List (Signer K)) (msg : KernelFeatures) : Signature K P :=
  ⟨nonceSum L Z, (Z.map fun i => (signature L Z msg i).s).sum⟩

/-- The signatures on a kernel message when those of `done` have signed. -/
def signedBy (Z : List (Signer K)) (msg : KernelFeatures) (done : List (Signer K)) (i : Signer K) :
    Option (Signature K P) :=
  if i ∈ done then some (signature L Z msg i) else none

/-- Signers that can sign together: they are usable, their entries differ, and their keys and their
nonces do not sum up to 0. -/
structure Signable (Z : List (Signer K)) : Prop where
  usable : ∀ i ∈ Z, i.Usable
  distinct : Z.Pairwise fun i j => ¬ i.Same L j
  nonces : nonceSum L Z ≠ 0
  keys : keySum L Z ≠ 0

variable {L} {Z : List (Signer K)} {sig : Signer K → Option (Signature K P)} {i j : Signer K}
  {msg : KernelFeatures} {S : Slate K P}

omit [DecidableEq K] [DecidableEq P] in
theorem signature_valid :
    Valid L.G (L.challenge (nonceSum L Z) (keySum L Z) msg) (i.key • L.G) 0 (signature L Z msg i) :=
  sign_valid_zero _ _ _ _

omit [DecidableEq K] [DecidableEq P] in
/-- The sum of the signatures is a signature under the sum of the keys. -/
theorem fullSignature_valid :
    Valid L.G (L.challenge (nonceSum L Z) (keySum L Z) msg) (keySum L Z) 0
      (fullSignature L Z msg) :=
  sum_valid L.G _ (fun i : Signer K => i.key • L.G) (signature L Z msg) Z fun _ _ => signature_valid

section

omit [DecidableEq P]

theorem signedBy_nil : signedBy L Z msg [] = fun _ => none := by
  funext i
  simp [signedBy]

/-- One more signature. -/
theorem update_signedBy {done : List (Signer K)} :
    Function.update (signedBy L Z msg done) i (some (signature L Z msg i)) =
      signedBy L Z msg (i :: done) := by
  funext j
  by_cases h : j = i
  · simp [h, signedBy]
  · simp [h, signedBy]

theorem signedBy_valid {done : List (Signer K)} :
    ∀ i ∈ Z, ∀ s, signedBy L Z msg done i = some s →
      Valid L.G (L.challenge (nonceSum L Z) (keySum L Z) msg) (i.key • L.G) 0 s := by
  intro i _ s hs
  simp only [signedBy] at hs
  split at hs
  · cases hs
    exact signature_valid
  · cases hs

/-! ### Round 1 -/

@[simp] theorem fromSecretKey_of_ne {k : K} (h : k ≠ 0) :
    L.fromSecretKey k = some (k • L.G) := by
  simp [GrinLib.fromSecretKey, h]

end

omit [DecidableEq K] in
/-- Without an entry of the same signer, no signature is held. -/
theorem heldSig_entries (h : ∀ j ∈ Z, ¬ j.Same L i) :
    Slate.heldSig (i.key • L.G) (i.nonce • L.G) (entries L Z sig) = none := by
  induction Z with
  | nil => rfl
  | cons j Z ih =>
    have hj : ¬ (j.nonce • L.G = i.nonce • L.G ∧ j.key • L.G = i.key • L.G) := fun hs =>
      h j (by simp) ⟨hs.2, hs.1⟩
    simp only [entries, List.map_cons, Signer.entry, Slate.heldSig, hj, if_false]
    exact ih fun k hk => h k (by simp [hk])

/-- A signer without an entry gets the last one. -/
theorem addParticipantInfo_entries (hdata : S.participantData = entries L Z fun _ => none)
    (hi : i.Usable) (h : ∀ j ∈ Z, ¬ j.Same L i) :
    S.fillRound1 L i.key i.nonce =
      .ok { S with participantData := entries L (Z ++ [i]) fun _ => none } := by
  have hothers : (entries L Z fun _ => none).filter (fun v : ParticipantData K P =>
      v.publicNonce ≠ i.nonce • L.G ∨ v.publicBlindExcess ≠ i.key • L.G) =
        entries L Z fun _ => none := by
    rw [List.filter_eq_self]
    intro v hv
    obtain ⟨j, hj, rfl⟩ := List.mem_map.mp hv
    have hs : ¬ (j.nonce • L.G = i.nonce • L.G ∧ j.key • L.G = i.key • L.G) := fun hs =>
      h j hj ⟨hs.2, hs.1⟩
    exact decide_eq_true (Decidable.not_and_iff_not_or_not.mp hs)
  simp only [Slate.fillRound1, Slate.addParticipantInfo, fromSecretKey_of_ne hi.1,
    fromSecretKey_of_ne hi.2, Outcome.orErr_some, Outcome.ok_bind, hdata, hothers,
    heldSig_entries h, Outcome.pure_eq_ok]
  simp [entries, Signer.entry]

/-! ### Round 2 -/

section

omit [DecidableEq K]

theorem pubNonceSum_entries (hdata : S.participantData = entries L Z sig) (h : nonceSum L Z ≠ 0) :
    S.pubNonceSum = .ok (nonceSum L Z) := by
  have hne : S.participantData ≠ [] := by
    intro hnil
    have hZ : Z = [] := by simpa [entries, hnil] using hdata.symm
    exact h (by simp [nonceSum, hZ])
  have hsum : (S.participantData.map (·.publicNonce)) = Z.map fun i => i.nonce • L.G := by
    simp [hdata, entries, Signer.entry]
  rw [nonceSum] at h
  simp [Slate.pubNonceSum, hne, hsum, fromCombination, nonceSum, h]

theorem pubBlindSum_entries (hdata : S.participantData = entries L Z sig) (h : keySum L Z ≠ 0) :
    S.pubBlindSum = .ok (keySum L Z) := by
  have hne : S.participantData ≠ [] := by
    intro hnil
    have hZ : Z = [] := by simpa [entries, hnil] using hdata.symm
    exact h (by simp [keySum, hZ])
  have hsum : (S.participantData.map (·.publicBlindExcess)) = Z.map fun i => i.key • L.G := by
    simp [hdata, entries, Signer.entry]
  rw [keySum] at h
  simp [Slate.pubBlindSum, hne, hsum, fromCombination, keySum, h]

/-- Valid signatures pass. -/
theorem verifyPartSigs_entries (hdata : S.participantData = entries L Z sig)
    (hn : nonceSum L Z ≠ 0) (hk : keySum L Z ≠ 0) (hmsg : S.msgToSign L = .ok msg)
    (h : ∀ i ∈ Z, ∀ s, sig i = some s →
      Valid L.G (L.challenge (nonceSum L Z) (keySum L Z) msg) (i.key • L.G) 0 s) :
    S.verifyPartSigs L = .ok () := by
  rw [Slate.verifyPartSigs, Outcome.forM_eq_ok, hdata]
  intro p hp
  obtain ⟨i, hi, rfl⟩ := List.mem_map.mp hp
  cases hs : sig i with
  | none => rfl
  | some s =>
    simp [Signer.entry, pubNonceSum_entries hdata hn, pubBlindSum_entries hdata hk, hmsg,
      GrinLib.verifySingle, h i hi s hs]

end

omit [DecidableEq K] [DecidableEq P] in
/-- Signers with different entries are different. -/
theorem Signable.nodup (hZ : Signable L Z) : Z.Nodup := by
  refine hZ.distinct.imp ?_
  rintro i j h rfl
  exact h ⟨rfl, rfl⟩

omit [DecidableEq P] in
/-- A signature is stored in the one entry that is looked for, and nowhere else. -/
theorem setPartSig_entries {s : Signature K P} (mine : ParticipantData K P → Bool) (hi : i ∈ Z)
    (hZ : Z.Nodup) (hmine : ∀ j ∈ Z, mine (j.entry L (sig j)) = true ↔ j = i) {n : ℕ}
    (hn : Z.length ≤ n) :
    Slate.setPartSig mine s n (entries L Z sig) =
      .ok (entries L Z (Function.update sig i (some s))) := by
  induction Z generalizing n with
  | nil => simp at hi
  | cons j Z ih =>
    obtain ⟨n, rfl⟩ : ∃ m, n = m + 1 := ⟨n - 1, by simp at hn; omega⟩
    rw [List.nodup_cons] at hZ
    by_cases hij : i = j
    · subst hij
      have htail : Z.map (fun k => k.entry L (Function.update sig i (some s) k)) =
          Z.map fun k => k.entry L (sig k) := by
        refine List.map_congr_left fun k hk => ?_
        have hki : k ≠ i := fun hki => hZ.1 (hki ▸ hk)
        rw [Function.update_of_ne hki]
      have hhead : mine (i.entry L (sig i)) = true := (hmine i (by simp)).mpr rfl
      simp only [entries, List.map_cons, htail, Function.update_self, Slate.setPartSig, hhead,
        if_true]
      rfl
    · have hmem : i ∈ Z := by simpa [hij] using hi
      have hskip : ¬ mine (j.entry L (sig j)) = true := fun h =>
        hij ((hmine j (by simp)).mp h).symm
      have hrest := ih hmem hZ.2 (fun k hk => hmine k (by simp [hk])) (n := n)
        (by simp at hn; omega)
      simp only [entries, List.map_cons] at hrest ⊢
      rw [Slate.setPartSig, if_neg hskip, hrest, Outcome.ok_bind,
        Function.update_of_ne (Ne.symm hij)]
      rfl

/-- Among signers with different entries, the entry of one is its own. -/
theorem isEntry_iff (hZ : Signable L Z) (hi : i ∈ Z) (hj : j ∈ Z) :
    Slate.isEntry (i.key • L.G) (i.nonce • L.G) (j.entry L (sig j)) = true ↔ j = i := by
  rw [Slate.isEntry, ← Bool.decide_and, decide_eq_true_iff]
  constructor
  · intro hs
    by_contra hne
    have : Std.Symm fun i j : Signer K => ¬ i.Same L j :=
      ⟨fun _ _ h hs => h ⟨hs.1.symm, hs.2.symm⟩⟩
    exact hZ.distinct.forall hj hi hne hs
  · rintro rfl
    exact ⟨rfl, rfl⟩

/-- A signer stores its signature in its entry. -/
theorem storeSig_entries {s : Signature K P} (hZ : Signable L Z)
    (hdata : S.participantData = entries L Z sig) (hi : i ∈ Z) (hlen : Z.length ≤ S.participants) :
    S.storeSig L i.key i.nonce s =
      .ok { S with participantData := entries L Z (Function.update sig i (some s)) } := by
  obtain ⟨hkey, hnonce⟩ := hZ.usable i hi
  simp [Slate.storeSig, hkey, hnonce, hdata,
    setPartSig_entries _ hi hZ.nodup (fun j hj => isEntry_iff hZ hi hj) hlen]

/-- Round 2 adds the signature of one signer. -/
theorem fillRound2_entries {done : List (Signer K)} (hZ : Signable L Z)
    (hdata : S.participantData = entries L Z (signedBy L Z msg done)) (hi : i ∈ Z)
    (hlen : Z.length ≤ S.participants) (hmsg : S.msgToSign L = .ok msg) :
    S.fillRound2 L i.key i.nonce =
      .ok { S with participantData := entries L Z (signedBy L Z msg (i :: done)) } := by
  rw [Slate.fillRound2, verifyPartSigs_entries hdata hZ.nonces hZ.keys hmsg signedBy_valid,
    Outcome.ok_bind, pubNonceSum_entries hdata hZ.nonces, Outcome.ok_bind,
    pubBlindSum_entries hdata hZ.keys, Outcome.ok_bind, hmsg, Outcome.ok_bind, ← update_signedBy]
  exact storeSig_entries hZ hdata hi hlen

/-! ### Finalization -/

/-- The signatures of all signers add up to the signature of the kernel. -/
theorem finalizeSignature_entries {done : List (Signer K)}
    (hdata : S.participantData = entries L Z (signedBy L Z msg done))
    (hn : nonceSum L Z ≠ 0) (hk : keySum L Z ≠ 0) (hmsg : S.msgToSign L = .ok msg)
    (h : ∀ i ∈ Z, i ∈ done) : S.finalizeSignature L = .ok (fullSignature L Z msg) := by
  have hparts : S.partSigs = Z.map (signature L Z msg) := by
    rw [Slate.partSigs, hdata, entries, List.filterMap_map, ← List.filterMap_eq_map]
    refine List.filterMap_congr fun i hi => ?_
    simp [Signer.entry, signedBy, h i hi]
  have hsum : addSignatures S.partSigs (nonceSum L Z) = fullSignature L Z msg := by
    simp [addSignatures, fullSignature, hparts, Function.comp_def]
  have hcomplete : L.verifyCompletedSig (fullSignature L Z msg) (keySum L Z) msg = true :=
    decide_eq_true fullSignature_valid
  simp only [Slate.finalizeSignature, verifyPartSigs_entries hdata hn hk hmsg signedBy_valid,
    pubNonceSum_entries hdata hn, pubBlindSum_entries hdata hk, hmsg, Outcome.ok_bind, hsum,
    hcomplete, if_true, Outcome.pure_eq_ok]

/-- The kernel of all signers. -/
def fullKernel (L : GrinLib K P) (Z : List (Signer K)) (msg : KernelFeatures) : TxKernel K P :=
  ⟨msg, L.commitOfPoint (keySum L Z), fullSignature L Z msg⟩

omit [DecidableEq K] in
theorem verifyKernel_fullKernel (hL : L.Lawful) (hk : keySum L Z ≠ 0) :
    L.verifyKernel (fullKernel L Z msg) = true := by
  simp only [GrinLib.verifyKernel, fullKernel, hL.commit_codec _ hk]
  exact decide_eq_true fullSignature_valid

omit [DecidableEq K] in
/-- It is the kernel that a slate of the signers describes. -/
theorem describes_fullKernel (hL : L.Lawful) (hZ : Signable L Z)
    (hdata : S.participantData = entries L Z sig) (hmsg : S.msgToSign L = .ok msg) :
    S.Describes L (fullKernel L Z msg) where
  features := hmsg
  excess := by
    rw [Slate.calcExcess, pubBlindSum_entries hdata hZ.keys]
    rfl
  nonce := pubNonceSum_entries hdata hZ.nonces
  verified := verifyKernel_fullKernel hL hZ.keys

/-- A slate that all signers signed, with a balanced transaction that pays its fee, is finalized. -/
theorem finalize_entries {done : List (Signer K)} (hL : L.Lawful) (hZ : Signable L Z)
    (hdata : S.participantData = entries L Z (signedBy L Z msg done))
    (hmsg : S.msgToSign L = .ok msg) (hsigs : ∀ i ∈ Z, i ∈ done) {tx : Transaction K P}
    {kernel : TxKernel K P} (htx : S.tx = some tx) (hkernel : tx.kernels = [kernel])
    (hfeatures : kernel.features = msg) (hfees : S.checkFees L = .ok ())
    (hvalid : L.validate (tx.replaceKernel (fullKernel L Z msg)) = true) :
    S.finalize L = .ok { S with tx := some (tx.replaceKernel (fullKernel L Z msg)) } := by
  have hker : ({ kernel with excess := L.commitOfPoint (keySum L Z),
                             excessSig := fullSignature L Z msg } : TxKernel K P) =
      fullKernel L Z msg := by
    rw [fullKernel, ← hfeatures]
  simp only [Slate.finalize, finalizeSignature_entries hdata hZ.nonces hZ.keys hmsg hsigs,
    Outcome.ok_bind, Slate.finalizeTransaction, hfees, Slate.calcExcess,
    pubBlindSum_entries hdata hZ.keys, Slate.txOrErr, htx, Outcome.orErr_some, Outcome.pure_eq_ok,
    hkernel, hker, verifyKernel_fullKernel hL hZ.keys, hvalid, Bool.not_true, Bool.false_eq_true,
    if_false, if_true]

end MwBtcSwap.Grin
