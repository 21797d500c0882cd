import MwBtcSwap.Bitcoin.Types
import MwBtcSwap.Grin.Types

/-! `swap_types.rs`: the slate of a swap.  Its public part is the same for both parties, its private
part holds the keys and the coins of one party. -/

namespace MwBtcSwap

open Grin Bitcoin

inductive SwapStatus
  | initialized
  | setup
  | executing
  | finished
  | failed
  deriving DecidableEq, Repr

inductive SwapType
  | offered
  | requested
  deriving DecidableEq, Repr

/-- `Meta`: where the offerer listens. -/
structure SwapMeta where
  server : String
  port : String
  deriving DecidableEq, Repr

structure MWPub where
  amount : ℕ
  timelock : ℕ
  lockTime : Option ℤ
  swapType : SwapType
  deriving DecidableEq, Repr

structure MWPriv (K P : Type) where
  inputs : List MWCoin
  sharedCoin : Option MWCoin
  changeCoin : Option MWCoin
  refundCoin : Option MWCoin
  swappedCoin : Option MWCoin
  refundTx : Option (Grin.Transaction K P)
  deriving DecidableEq

structure BTCPub where
  amount : ℕ
  timelock : ℕ
  swapType : SwapType
  lockTime : Option ℤ
  pubA : Option String
  pubB : Option String
  pubX : Option String
  deriving DecidableEq, Repr

structure BTCPriv where
  inputs : List BTCInput
  sk : Option String
  x : Option String
  rSk : Option String
  change : Option BTCInput
  swapped : Option BTCInput
  lock : Option BTCInput
  refunded : Option BTCInput
  deriving DecidableEq, Repr

structure SwapSlatePub where
  status : SwapStatus
  mw : MWPub
  btc : BTCPub
  peer : SwapMeta
  deriving DecidableEq, Repr

structure SwapSlatePriv (K P : Type) where
  mw : MWPriv K P
  btc : BTCPriv
  deriving DecidableEq

structure SwapSlate (K P : Type) where
  pubSlate : SwapSlatePub
  prvSlate : SwapSlatePriv K P
  deriving DecidableEq

end MwBtcSwap
