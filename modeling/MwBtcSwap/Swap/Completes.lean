import MwBtcSwap.Swap.Funding

/-! The locking phase of the Grin owner with an honest peer: it completes when its inputs leave a change. -/

namespace MwBtcSwap

open Interaction Machine Grin Bitcoin

variable {K P : Type} [CommRing K] [AddCommGroup P] [Module K P] [DecidableEq K] [DecidableEq P]

variable {L : GrinLib K P} {B : BtcLib K P} {mw btc : SwapSlate K P} {ra : LockMwRand K}
  {rb : LockBtcRand K} {p : LockPlan K} {nodes nodes' : Nodes K P (SwapSlate K P)}

/-- The two parties at the start of the locking phase. -/
def lockingStart (L : GrinLib K P) (B : BtcLib K P) (mw btc : SwapSlate K P) (ra : LockMwRand K)
    (rb : LockBtcRand K) : Actors K P (SwapSlate K P) (SwapSlate K P) Unit Unit :=
  (⟨[], lockingPhaseSwapMw L B ra mw⟩, ⟨[], lockingPhaseSwapBtc L B rb btc⟩)

end MwBtcSwap
