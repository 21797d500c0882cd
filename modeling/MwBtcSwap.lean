import MwBtcSwap.Bitcoin.Lock
import MwBtcSwap.Bitcoin.Signed
import MwBtcSwap.Bitcoin.Values
import MwBtcSwap.Grin.Accepted
import MwBtcSwap.Grin.Peer
import MwBtcSwap.Grin.Signed
import MwBtcSwap.Grin.Timelocks
import MwBtcSwap.Swap.Admitted
import MwBtcSwap.Swap.Amounts
import MwBtcSwap.Swap.Broadcast
import MwBtcSwap.Swap.Completes
import MwBtcSwap.Swap.Funding
import MwBtcSwap.Swap.Funds
import MwBtcSwap.Swap.Locked
import MwBtcSwap.Swap.Refund
import MwBtcSwap.Swap.Released
import MwBtcSwap.Swap.Revealed
import MwBtcSwap.Swap.Saved
import MwBtcSwap.Swap.Witness
import MwBtcSwap.Tcp
import MwBtcSwap.Lib.Json
import MwBtcSwap.Grin.Rangeproof
import MwBtcSwap.Http
import MwBtcSwap.Nodes
import MwBtcSwap.Transfer
import MwBtcSwap.Swap.Matched
import MwBtcSwap.Swap.Whole
import MwBtcSwap.Swap.History
import MwBtcSwap.Swap.Balance
import MwBtcSwap.Swap.Readable
import MwBtcSwap.Swap.Delivered
