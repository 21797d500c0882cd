import MwBtcSwap.Grin.Tx
import MwBtcSwap.Swap.Keys
import MwBtcSwap.Swap.Types

/-! `protocol.rs`: the locking, execution and refund phases of the two parties.  A phase is a process
whose memory is the slate of the swap.  It takes the random keys that it draws. -/

namespace MwBtcSwap

open Interaction Machine Grin Bitcoin

variable {K P : Type} [CommRing K] [AddCommGroup P] [Module K P] [DecidableEq K] [DecidableEq P]

/-! ### Constants -/

/-- `BTC_BLOCK_TIME`, in minutes. -/
def btcBlockTime : ℕ := 10

/-- `GRIN_BLOCK_TIME`, in minutes. -/
def grinBlockTime : ℕ := 1

/-- `MAX_ATTEMPTS_VERF_FUNDS` -/
def maxAttemptsVerfFunds : ℕ := 120

/-! ### Operations -/

section Operations

variable {σ α : Type}

/-- A field of the slate that is unwrapped. -/
def unwrapField (field : Option α) : Process K P σ α := Proc.lift (Outcome.unwrap unwrapNone field)

/-- `get_block_height` of the Grin node, unwrapped. -/
def getBlockHeight : Process K P σ ℕ := Proc.request .getBlockHeight (Outcome.expect unwrapErr)

/-- `push_transaction` -/
def pushTransaction (tx : Grin.Transaction K P) : Process K P σ Unit :=
  Proc.request (.pushTransaction tx) id

/-- `send_raw_transaction` -/
def sendRawTransaction (tx : Bitcoin.Transaction) : Process K P σ Unit :=
  Proc.request (.sendRawTransaction tx) id

/-- An answer of the node, or 0 in place of an error. -/
def unwrapOrZero : Outcome ℕ → Outcome ℕ
  | .error (.err _) => .ok 0
  | answer => answer

/-- The loop that verifies the locked funds, with the attempts that are left.  A balance other than the
amount ends it. -/
def verifyFunds (address : String) (amount : ℕ) : ℕ → Process K P σ Bool
  | 0 => return false
  | attempts + 1 => do
    let balance ← Proc.request (.getAddressFinalBalance address) unwrapOrZero
    if 0 < balance then
      return decide (balance = amount)
    else
      Proc.request .sleep fun _ => .ok ()
      verifyFunds address amount attempts

/-- A received public key. -/
def receivePubKey (B : BtcLib K P) : Process K P σ (PublicKey P) := do
  let msg ← receiveMsg
  Proc.lift (deserializePubKey B msg)

/-- A received number. -/
def receiveI64 : Process K P σ ℤ := do
  let msg ← receiveMsg
  Proc.lift (Outcome.unwrap unwrapErr (parseI64 msg))

end Operations

/-! ### Times -/

/-- The comparison of `check_if_enough_time`: an hour is left on both chains. -/
def enoughTime (checks : Bool) (heightGrin heightBtc : ℕ) (locktimeGrin locktimeBtc : ℤ) :
    Outcome Bool := do
  let endGrin ← addU64 checks heightGrin (60 / grinBlockTime)
  let limitGrin ← Outcome.unwrap unwrapErr (u64OfI64 locktimeGrin)
  if endGrin ≤ limitGrin then
    let endBtc ← addU64 checks heightBtc (60 / btcBlockTime)
    let limitBtc ← Outcome.unwrap unwrapErr (u64OfI64 locktimeBtc)
    return decide (endBtc ≤ limitBtc)
  else
    return false

/-- The comparison of `can_refund`: both lock times have passed. -/
def bothPassed (heightGrin heightBtc : ℕ) (locktimeGrin locktimeBtc : ℤ) : Outcome Bool := do
  let limitGrin ← Outcome.unwrap unwrapErr (u64OfI64 locktimeGrin)
  if heightGrin > limitGrin then
    let limitBtc ← Outcome.unwrap unwrapErr (u64OfI64 locktimeBtc)
    return decide (heightBtc > limitBtc)
  else
    return false

variable (L : GrinLib K P) (B : BtcLib K P)

/-- The lock times of the slate and the heights of the two chains, as a comparison reads them. -/
def compareTimes (compare : ℕ → ℕ → ℤ → ℤ → Outcome Bool) : Process K P (SwapSlate K P) Bool := do
  let slate ← Proc.get
  let locktimeGrin ← unwrapField slate.pubSlate.mw.lockTime
  let locktimeBtc ← unwrapField slate.pubSlate.btc.lockTime
  let blockHeightGrin ← getBlockHeight
  let blockHeightBtc ← Proc.request .getCurrentBlockHeight (Outcome.expect unwrapErr)
  Proc.lift (compare blockHeightGrin blockHeightBtc locktimeGrin locktimeBtc)

/-- `check_if_enough_time` -/
def checkIfEnoughTime : Process K P (SwapSlate K P) Bool :=
  compareTimes (enoughTime L.overflowChecks)

/-- `can_refund` -/
def canRefund : Process K P (SwapSlate K P) Bool := compareTimes bothPassed

/-! ### Locking -/

/-- The keys that `locking_phase_swap_mw` draws. -/
structure LockMwRand (K : Type) where
  skA : K
  spend : SpendRand K
  drecv : DRecvRand K
  sigNonce : K
  recv : RecvRand K

/-- The Grin part of `locking_phase_swap_mw`: the shared coin, its refund, and the publication of the
funding transaction. -/
def lockingGrinMw (rand : LockMwRand K) : Process K P (SwapSlate K P) Unit := do
  let grinHeight ← getBlockHeight
  let slate ← Proc.get
  let grinLockHeight ← Proc.lift (addU64 L.overflowChecks grinHeight slate.pubSlate.mw.timelock)
  let lockTime ← Proc.lift (Outcome.unwrap unwrapErr (i64OfU64 grinLockHeight))
  Proc.modify fun s => { s with pubSlate.mw.lockTime := some lockTime }
  sendMsg (.text (toString grinLockHeight))
  let sharedOut ← dsharedOutMwTxAlice L rand.spend rand.drecv slate.prvSlate.mw.inputs
    slate.pubSlate.mw.amount 0
  Proc.modify fun s => { s with
    prvSlate.mw.sharedCoin := some sharedOut.sharedCoin
    prvSlate.mw.changeCoin := sharedOut.changeCoin }
  -- the change coin is unwrapped to be printed
  let _ ← unwrapField sharedOut.changeCoin
  let fundValue ← Proc.lift
    (subU64 L.overflowChecks sharedOut.sharedCoin.value (estimateFees L 1 1 1))
  let refund ← dsharedInpMwTxBob L rand.sigNonce rand.recv sharedOut.sharedCoin fundValue
    grinLockHeight
  Proc.modify fun s => { s with
    prvSlate.mw.refundCoin := refund.coin
    prvSlate.mw.refundTx := refund.tx.tx }
  let fundingTx ← unwrapField sharedOut.tx.tx
  pushTransaction fundingTx

/-- `locking_phase_swap_mw` -/
def lockingPhaseSwapMw (rand : LockMwRand K) : Process K P (SwapSlate K P) Unit := do
  let skA := createPrivateKey rand.skA
  let pubA := B.publicKey skA
  Proc.modify fun s => { s with
    pubSlate.status := .setup
    prvSlate.btc.sk := some (serializePrivKey B skA)
    pubSlate.btc.pubA := some (serializePubKey B pubA) }
  sendMsg (.text (serializePubKey B pubA))
  let pubB ← receivePubKey B
  Proc.modify fun s => { s with pubSlate.btc.pubB := some (serializePubKey B pubB) }
  let pubX ← receivePubKey B
  Proc.modify fun s => { s with pubSlate.btc.pubX := some (serializePubKey B pubX) }
  let lockTimeBtc ← receiveI64
  Proc.modify fun s => { s with pubSlate.btc.lockTime := some lockTimeBtc }
  let pubScript ← Proc.lift (getLockPubScript B pubA pubX pubB lockTimeBtc true)
  let addr ← Proc.lift (scriptToAddress B pubScript)
  Proc.request (.importBtcAddress addr) (Outcome.expect unwrapErr)
  let address ← receiveMsg
  let txid ← receiveMsg
  if addr ≠ address then
    Proc.modify fun s => { s with pubSlate.status := .failed }
    Proc.lift (.error (.err
      "Lock address sent by Bob doesn't match what we have calculated, stopping swap"))
  else
    let slate ← Proc.get
    let verifiedFunds ← verifyFunds addr slate.pubSlate.btc.amount maxAttemptsVerfFunds
    if verifiedFunds then
      Proc.modify fun s => { s with
        prvSlate.btc.lock := some (BTCInput.new2 B txid 0 s.pubSlate.btc.amount skA pubA pubScript) }
      lockingGrinMw L rand
    else
      Proc.modify fun s => { s with pubSlate.status := .failed }
      Proc.lift (.error (.err "Failed to verify that btc funds are correctly locked"))

/-- The keys that `locking_phase_swap_btc` draws. -/
structure LockBtcRand (K : Type) where
  skB : K
  skR : K
  x : K
  drecv : DRecvRand K
  spend : SpendRand K

/-- The Grin part of `locking_phase_swap_btc`: the shared coin and the peer's refund. -/
def lockingGrinBtc (rand : LockBtcRand K) : Process K P (SwapSlate K P) Unit := do
  let lockHeightGrin ← receiveI64
  Proc.modify fun s => { s with pubSlate.mw.lockTime := some lockHeightGrin }
  let slate ← Proc.get
  let sharedOut ← dsharedOutMwTxBob L rand.drecv slate.pubSlate.mw.amount
  Proc.modify fun s => { s with prvSlate.mw.sharedCoin := some sharedOut.sharedCoin }
  let fundValue ← Proc.lift
    (subU64 L.overflowChecks sharedOut.sharedCoin.value (estimateFees L 1 1 1))
  let timelock ← Proc.lift (Outcome.unwrap unwrapErr (u64OfI64 lockHeightGrin))
  let _ ← dsharedInpMwTxAlice L rand.spend sharedOut.sharedCoin fundValue timelock

/-- The lock transaction of `locking_phase_swap_btc`, and what the phase uses of it. -/
structure SignedLock where
  signedTx : Bitcoin.Transaction
  lockOut : TxOut
  chOut : TxOut
  address : String

/-- The lock transaction, signed with the key of the first input. -/
def signedLockTransaction (pubA pubX pubB pubR : PublicKey P) (inputs : List BTCInput) (amount : ℕ)
    (lockHeight : ℤ) : Outcome SignedLock := do
  let txLock ← createLockTransaction B pubA pubX pubB pubR inputs amount btcFee lockHeight
  let lockOut ← Outcome.unwrap unwrapNone txLock.output[0]?
  let chOut ← Outcome.unwrap unwrapNone txLock.output[1]?
  let address ← scriptToAddress B lockOut.scriptPubkey
  let inp ← Outcome.unwrap unwrapNone inputs[0]?
  let inpPubScript ← deserializeScript inp.pubScript
  let inpSk ← deserializePrivKey B inp.secret
  let signedTx ← signP2pkhTransaction B txLock [inpPubScript] [inpSk] [B.publicKey inpSk]
  return ⟨signedTx, lockOut, chOut, address⟩

/-- `locking_phase_swap_btc` -/
def lockingPhaseSwapBtc (rand : LockBtcRand K) : Process K P (SwapSlate K P) Unit := do
  let skB := createPrivateKey rand.skB
  let pubB := B.publicKey skB
  let skR := createPrivateKey rand.skR
  let pubR := B.publicKey skR
  let x := createPrivateKey rand.x
  let pubX := B.publicKey x
  Proc.modify fun s => { s with
    pubSlate.status := .setup
    pubSlate.btc.pubB := some (serializePubKey B pubB)
    prvSlate.btc.sk := some (serializePrivKey B skB)
    prvSlate.btc.rSk := some (serializePrivKey B skR)
    prvSlate.btc.x := some (serializePrivKey B x)
    pubSlate.btc.pubX := some (serializePubKey B pubX) }
  let pubA ← receivePubKey B
  Proc.modify fun s => { s with pubSlate.btc.pubA := some (serializePubKey B pubA) }
  sendMsg (.text (serializePubKey B pubB))
  sendMsg (.text (serializePubKey B pubX))
  let btcCurrentHeight ← Proc.request .getCurrentBlockHeight id
  let slate ← Proc.get
  let lockHeight ← Proc.lift (addU64 L.overflowChecks btcCurrentHeight slate.pubSlate.btc.timelock)
  let btcLockHeight ← Proc.lift (Outcome.unwrap unwrapErr (i64OfU64 lockHeight))
  sendMsg (.text (toString btcLockHeight))
  Proc.modify fun s => { s with pubSlate.btc.lockTime := some btcLockHeight }
  let lock ← Proc.lift (signedLockTransaction B pubA pubX pubB pubR slate.prvSlate.btc.inputs
    slate.pubSlate.btc.amount btcLockHeight)
  let txid := (B.txid lock.signedTx).toText
  sendRawTransaction lock.signedTx
  Proc.modify fun s => { s with
    prvSlate.btc.change := some
      (BTCInput.new2 B txid 1 lock.chOut.value skR pubR lock.chOut.scriptPubkey) }
  sendMsg (.text lock.address)
  sendMsg (.text txid)
  Proc.modify fun s => { s with
    prvSlate.btc.lock := some
      (BTCInput.new2 B txid 0 slate.pubSlate.btc.amount skB pubB lock.lockOut.scriptPubkey) }
  lockingGrinBtc L rand

/-! ### Execution -/

/-- The keys that `exec_phase_swap_mw` draws. -/
structure ExecMwRand (K : Type) where
  spend : SpendRand K
  skA2 : K

/-- The redeem transaction of `exec_phase_swap_mw` with the witness that the contract revealed, and the
lock script that it rebuilds from its slate. -/
def signedRedeemTransaction (slate : SwapSlate K P) (pubA2 : PublicKey P) (x : K) :
    Outcome (Bitcoin.Transaction × List UInt8) := do
  let pubA ← Outcome.unwrap unwrapNone slate.pubSlate.btc.pubA
  let pubA ← deserializePubKey B pubA
  let pubB ← Outcome.unwrap unwrapNone slate.pubSlate.btc.pubB
  let pubB ← deserializePubKey B pubB
  let pubX ← Outcome.unwrap unwrapNone slate.pubSlate.btc.pubX
  let pubX ← deserializePubKey B pubX
  let xBtc ← privateKeyFromGrinSk B (L.secretToBytes x)
  let skA ← Outcome.unwrap unwrapNone slate.prvSlate.btc.sk
  let skA ← deserializePrivKey B skA
  let lock ← Outcome.unwrap unwrapNone slate.prvSlate.btc.lock
  let redeemTx ← createSpendLockTransaction B pubA2 lock slate.pubSlate.btc.amount btcFee 0
  let lockTime ← Outcome.unwrap unwrapNone slate.pubSlate.btc.lockTime
  let lockScript ← getLockPubScript B pubA pubX pubB lockTime false
  return (signLockTransactionRedeemer B redeemTx 0 lockScript skA xBtc, lockScript)

/-- `exec_phase_swap_mw` -/
def execPhaseSwapMw (rand : ExecMwRand K) : Process K P (SwapSlate K P) Unit := do
  if ← checkIfEnoughTime L then
    Proc.modify fun s => { s with pubSlate.status := .executing }
    let slate ← Proc.get
    let sharedCoin ← unwrapField slate.prvSlate.mw.sharedCoin
    let pubX ← unwrapField slate.pubSlate.btc.pubX
    let pubX ← Proc.lift (deserializePubKey B pubX)
    let pubXGrin ← Proc.lift (grinPkFromBtcPk L B pubX)
    let fundValue ← Proc.lift (subU64 L.overflowChecks sharedCoin.value (estimateFees L 1 1 1))
    let result ← dcontractMwTxAlice L rand.spend sharedCoin fundValue 0 pubXGrin
    let skA2 := createPrivateKey rand.skA2
    let pubA2 := B.publicKey skA2
    let (signedRedeemTx, _) ← Proc.lift (signedRedeemTransaction L B slate pubA2 result.x)
    let o ← unwrapField signedRedeemTx.output[0]?
    sendRawTransaction signedRedeemTx
    Proc.modify fun s => { s with
      prvSlate.btc.swapped := some
        (BTCInput.new2 B (B.txid signedRedeemTx).toText 0 o.value skA2 pubA2 o.scriptPubkey)
      pubSlate.status := .finished }
  else
    Proc.lift (.error (.err "Not enough time left to execute atomic swap"))

/-- The keys that `exec_phase_swap_btc` draws. -/
structure ExecBtcRand (K : Type) where
  sigNonce : K
  recv : RecvRand K

/-- `exec_phase_swap_btc` -/
def execPhaseSwapBtc (rand : ExecBtcRand K) : Process K P (SwapSlate K P) Unit := do
  if ← checkIfEnoughTime L then
    Proc.modify fun s => { s with pubSlate.status := .executing }
    let slate ← Proc.get
    let sharedCoin ← unwrapField slate.prvSlate.mw.sharedCoin
    let x ← unwrapField slate.prvSlate.btc.x
    let x ← Proc.lift (deserializePrivKey B x)
    let xGrin ← Proc.lift (grinSkFromBtcSk L B x)
    let fundValue ← Proc.lift (subU64 L.overflowChecks sharedCoin.value (estimateFees L 1 1 1))
    let result ← dcontractMwTxBob L rand.sigNonce rand.recv sharedCoin fundValue 0 xGrin
    Proc.modify fun s => { s with prvSlate.mw.swappedCoin := result.coin }
    let tx ← unwrapField result.tx.tx
    pushTransaction tx
    Proc.modify fun s => { s with pubSlate.status := .finished }
  else
    Proc.lift (.error (.err "Not enough time left to execute atomic swap"))

/-! ### Refund -/

/-- `refund_phase_swap_mw` -/
def refundPhaseSwapMw : Process K P (SwapSlate K P) Unit := do
  if ← canRefund then
    let slate ← Proc.get
    let refundTx ← unwrapField slate.prvSlate.mw.refundTx
    pushTransaction refundTx
    Proc.modify fun s => { s with pubSlate.status := .failed }
  else
    Proc.lift (.error (.err "Can't refund yet, too early"))

/-- The refund transaction of `refund_phase_swap_btc`, which pays to the key `pk`, with the lock script
that it rebuilds from its slate. -/
def signedRefundTransaction (slate : SwapSlate K P) (pk : PublicKey P) :
    Outcome (Bitcoin.Transaction × List UInt8) := do
  let pubA ← Outcome.unwrap unwrapNone slate.pubSlate.btc.pubA
  let pubA ← deserializePubKey B pubA
  let skB ← Outcome.unwrap unwrapNone slate.prvSlate.btc.sk
  let skB ← deserializePrivKey B skB
  let x ← Outcome.unwrap unwrapNone slate.prvSlate.btc.x
  let x ← deserializePrivKey B x
  let lockTime ← Outcome.unwrap unwrapNone slate.pubSlate.btc.lockTime
  let lock ← Outcome.unwrap unwrapNone slate.prvSlate.btc.lock
  let time ← Outcome.unwrap unwrapErr (u32OfI64 lockTime)
  let refundTx ← createSpendLockTransaction B pk lock slate.pubSlate.btc.amount btcFee time
  let lockScript ← getLockPubScript B pubA (B.publicKey x) (B.publicKey skB) lockTime false
  return (signLockTransactionRefund B refundTx 0 lockScript skB, lockScript)

/-- `refund_phase_swap_btc`, with the key that it draws. -/
def refundPhaseSwapBtc (key : K) : Process K P (SwapSlate K P) Unit := do
  if ← canRefund then
    let sk := createPrivateKey key
    let pk := B.publicKey sk
    let slate ← Proc.get
    let (signedTx, _) ← Proc.lift (signedRefundTransaction B slate pk)
    sendRawTransaction signedTx
    let o ← unwrapField signedTx.output[0]?
    Proc.modify fun s => { s with
      prvSlate.btc.refunded := some
        (BTCInput.new2 B (B.txid signedTx).toText 0 o.value sk pk o.scriptPubkey)
      pubSlate.status := .failed }
  else
    Proc.lift (.error (.err "Can't refund yet, too early"))

end MwBtcSwap
