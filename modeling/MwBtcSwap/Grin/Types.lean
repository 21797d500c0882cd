import MwBtcSwap.Lib.Schnorr

/-! The data of the Grin side: coins, transactions, the slate that the parties pass around, and the
two forms in which a slate and a rangeproof context travel.  Scalars are elements of `K` and curve
points elements of `P`.  A `SecretKey` is a scalar, a `PublicKey` a point, and the blank key that
`PublicKey::new` makes is the point 0, which no valid key is. -/

namespace MwBtcSwap.Grin

open Schnorr

/-- A Pedersen commitment, by its bytes. -/
structure Commitment where
  bytes : List UInt8
  deriving DecidableEq, Repr

structure RangeProof where
  bytes : List UInt8
  deriving DecidableEq, Repr

/-- `FeeFields`: the fee and its shift, in one word. -/
structure FeeFields where
  raw : ℕ
  deriving DecidableEq, Repr

inductive OutputFeatures
  | plain
  | coinbase
  deriving DecidableEq, Repr

inductive KernelFeatures
  | plain (fee : FeeFields)
  | coinbase
  | heightLocked (fee : FeeFields) (lockHeight : ℕ)
  | noRecentDuplicate (fee : FeeFields) (relativeHeight : ℕ)
  deriving DecidableEq, Repr

structure Input where
  features : OutputFeatures
  commit : Commitment
  deriving DecidableEq, Repr

structure Output where
  features : OutputFeatures
  commit : Commitment
  proof : RangeProof
  deriving DecidableEq, Repr

structure TxKernel (K P : Type) where
  features : KernelFeatures
  excess : Commitment
  excessSig : Signature K P
  deriving DecidableEq

structure Transaction (K P : Type) where
  offset : K
  inputs : List Input
  outputs : List Output
  kernels : List (TxKernel K P)
  deriving DecidableEq

/-- `MWCoin`: what a party stores of a coin, with the commitment and its share of the blinding
factor in hexadecimal. -/
structure MWCoin where
  commitment : String
  blindingFactor : String
  value : ℕ
  deriving DecidableEq, Repr

structure ParticipantData (K P : Type) where
  publicBlindExcess : P
  publicNonce : P
  partSig : Option (Signature K P)
  deriving DecidableEq

structure KernelFeaturesArgs where
  lockHeight : ℕ
  deriving DecidableEq, Repr

/-- `Slate`, with the fields that the swap reads. -/
structure Slate (K P : Type) where
  numParticipants : ℕ
  tx : Option (Transaction K P)
  amount : ℕ
  feeFields : FeeFields
  kernelFeatures : ℕ
  offset : K
  participantData : List (ParticipantData K P)
  kernelFeaturesArgs : Option KernelFeaturesArgs
  deriving DecidableEq

/-- `CommitsV4`: an output when it has a proof, and otherwise an input. -/
structure CommitsV4 where
  f : ℕ
  c : Commitment
  p : Option RangeProof
  deriving DecidableEq, Repr

/-- `SlateV4`: a slate on the wire.  It has no kernel. -/
structure SlateV4 (K P : Type) where
  numParts : ℕ
  coms : Option (List CommitsV4)
  amt : ℕ
  fee : FeeFields
  feat : ℕ
  off : K
  sigs : List (ParticipantData K P)
  featArgs : Option KernelFeaturesArgs
  deriving DecidableEq

/-- `MPBPContext`: the state of a rangeproof that several parties make together. -/
structure MPBPContext (K P : Type) where
  t1 : P
  t2 : P
  amount : ℕ
  sharedNonce : K
  tauX : K
  commit : Commitment
  deriving DecidableEq

/-- `SerMPCtx`: the context as the wire carries it. -/
structure SerMPCtx where
  t1 : String
  t2 : String
  amount : ℕ
  sharedNonce : String
  commit : String
  tauX : String
  deriving DecidableEq, Repr

end MwBtcSwap.Grin
