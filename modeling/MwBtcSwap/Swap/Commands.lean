import MwBtcSwap.Swap.Disk
import MwBtcSwap.Swap.Locked

/-! The commands and `main`.  A command starts from a slate that it reads from the files or creates, and
is a process on that slate; `main` writes the slate to the files when the command returns.  Commands
take the random keys that they draw, and return the phase of the swap that they completed. -/

namespace MwBtcSwap

open Interaction Machine Grin Bitcoin

variable {K P : Type} [CommRing K] [AddCommGroup P] [Module K P] [DecidableEq K] [DecidableEq P]

inductive Currency
  | btc
  | grin
  deriving DecidableEq, Repr

/-- The settings that the commands use. -/
structure Settings where
  tcpAddr : String
  tcpPort : String

/-- The keys that a command draws for the phase that it runs. -/
structure Rand (K : Type) where
  lockMw : LockMwRand K
  lockBtc : LockBtcRand K
  execMw : ExecMwRand K
  execBtc : ExecBtcRand K
  refund : K

inductive Phase
  | locking
  | execution
  | refund
  deriving DecidableEq, Repr

/-- What a party of the swap owns before it. -/
inductive Role
  | mw
  | btc
  deriving DecidableEq, Repr

/-- `eq_ignore_ascii_case` -/
def eqIgnoreAsciiCase (a b : String) : Bool :=
  decide (a.toList.map Char.toLower = b.toList.map Char.toLower)

/-- The part that the offerer plays. -/
def SwapSlate.offerer (slate : SwapSlate K P) : Role :=
  if slate.pubSlate.btc.swapType = .offered then .btc else .mw

/-- The part that the taker plays. -/
def SwapSlate.taker (slate : SwapSlate K P) : Role :=
  if slate.pubSlate.btc.swapType = .offered then .mw else .btc

/-! ### Init -/

structure Init where
  fromCurrency : Currency
  toCurrency : Currency
  fromAmount : ℕ
  toAmount : ℕ
  timeoutBtc : ℕ
  timeoutGrin : ℕ
  deriving DecidableEq, Repr

/-- `Init::new` -/
def Init.new (fromCurrency toCurrency : Currency) (fromAmount toAmount timeoutMinutes : ℕ) : Init :=
  ⟨fromCurrency, toCurrency, fromAmount, toAmount, timeoutMinutes / btcBlockTime,
    timeoutMinutes / grinBlockTime⟩

/-- `Init::execute`, but for the id that it draws. -/
def Init.execute (init : Init) (settings : Settings) : Outcome (SwapSlate K P) :=
  if init.fromCurrency = .btc ∧ init.toCurrency = .grin ∨
      init.fromCurrency = .grin ∧ init.toCurrency = .btc then
    let swapType (currency : Currency) : SwapType :=
      if init.fromCurrency = currency then .offered else .requested
    .ok {
      pubSlate := {
        status := .initialized
        mw := {
          amount := if init.fromCurrency = .grin then init.fromAmount else init.toAmount
          timelock := init.timeoutGrin
          lockTime := none
          swapType := swapType .grin }
        btc := {
          amount := if init.fromCurrency = .btc then init.fromAmount else init.toAmount
          timelock := init.timeoutBtc
          swapType := swapType .btc
          lockTime := none
          pubA := none
          pubB := none
          pubX := none }
        peer := ⟨settings.tcpAddr, settings.tcpPort⟩ }
      prvSlate := .blank }
  else .error (.err "Swapped currency setup not supported")

variable (L : GrinLib K P) (B : BtcLib K P) (F : FileLib K P)

/-! ### The phases by role -/

def lockingPhase (rand : Rand K) : Role → Process K P (SwapSlate K P) Unit
  | .mw => lockingPhaseSwapMw L B rand.lockMw
  | .btc => lockingPhaseSwapBtc L B rand.lockBtc

def execPhase (rand : Rand K) : Role → Process K P (SwapSlate K P) Unit
  | .mw => execPhaseSwapMw L B rand.execMw
  | .btc => execPhaseSwapBtc L B rand.execBtc

def refundPhase (rand : Rand K) : Role → Process K P (SwapSlate K P) Unit
  | .mw => refundPhaseSwapMw
  | .btc => refundPhaseSwapBtc B rand.refund

/-! ### The taker -/

/-- The start of `lock`, `execute` and `cancel`: the taker connects, sends the checksum of its public
file and waits for the answer. -/
def connectToPeer : Process K P (SwapSlate K P) String := do
  let slate ← Proc.get
  Proc.request (.connect slate.pubSlate.peer.server slate.pubSlate.peer.port)
    (Outcome.expect "Failed to connect to peer via TCP")
  let checksum ← Proc.request .getSlateChecksum (Outcome.expect unwrapErr)
  sendMsg (.text checksum)
  receiveMsg

/-- `Lock::execute` -/
def lockExecute (rand : Rand K) : Process K P (SwapSlate K P) Unit := do
  let resp ← connectToPeer
  let slate ← Proc.get
  if eqIgnoreAsciiCase resp "OK" = false then
    Proc.lift (.error (.err "Checksums didn't match!"))
  else if slate.pubSlate.status ≠ .initialized then
    Proc.lift (.error (.err "Slate is not in initialized state!"))
  else lockingPhase L B rand slate.taker

/-- `Execute::execute` and `Cancel::execute`: the taker names the phase and runs it. -/
def runExecute (name : String) (phase : Role → Process K P (SwapSlate K P) Unit) :
    Process K P (SwapSlate K P) Unit := do
  let resp ← connectToPeer
  let slate ← Proc.get
  if eqIgnoreAsciiCase resp "OK" = false then
    Proc.lift (.error (.err "Checksums didn't match"))
  else if slate.pubSlate.status ≠ .setup then
    Proc.lift (.error (.err "Slate must be in state SETUP to be executed"))
  else
    sendMsg (.text name)
    phase slate.taker

/-- `Execute::execute` -/
def executeExecute (rand : Rand K) : Process K P (SwapSlate K P) Unit :=
  runExecute "EXECUTE" (execPhase L B rand)

/-- `Cancel::execute` -/
def cancelExecute (rand : Rand K) : Process K P (SwapSlate K P) Unit :=
  runExecute "CANCEL" (refundPhase B rand)

/-! ### The offerer -/

/-- The value of the imported inputs of the offered currency, and the offered amount. -/
def offeredValue (slate : SwapSlate K P) : Outcome ℕ × ℕ :=
  if slate.pubSlate.mw.swapType = .offered then
    (sumU64 L.overflowChecks (slate.prvSlate.mw.inputs.map (·.value)), slate.pubSlate.mw.amount)
  else
    (sumU64 L.overflowChecks (slate.prvSlate.btc.inputs.map (·.value)), slate.pubSlate.btc.amount)

/-- A client of the listener whose checksum matched, when there is a phase for it to run. -/
def serveClient (rand : Rand K) (slate : SwapSlate K P) :
    Process K P (SwapSlate K P) (Option Phase) := do
  if slate.pubSlate.status = .initialized then
    lockingPhase L B rand slate.offerer
    return some .locking
  else if slate.pubSlate.status = .setup then
    let msg ← receiveMsg
    if msg = "EXECUTE" then
      execPhase L B rand slate.offerer
      return some .execution
    else
      refundPhase B rand slate.offerer
      return some .refund
  else return none

/-- The loop over the clients of the listener, of which the first `clients` are served.  A phase that
returns ends it; a client without a phase, or with another checksum, is followed by the next one. -/
def serveClients (rand : Rand K) : ℕ → Process K P (SwapSlate K P) Phase
  | 0 => Proc.request .accept fun _ => .error (.panic "no more clients")
  | clients + 1 => do
    Proc.request .accept (Outcome.expect unwrapErr)
    let msg ← receiveMsg
    let checksum ← Proc.request .getSlateChecksum (Outcome.expect unwrapErr)
    if eqIgnoreAsciiCase msg checksum then
      sendMsg (.text "OK")
      let slate ← Proc.get
      match ← serveClient L B rand slate with
      | some phase => return phase
      | none => serveClients rand clients
    else
      sendMsg (.text "FAULT")
      serveClients rand clients

/-- `Listen::execute` -/
def listenExecute (rand : Rand K) (clients : ℕ) : Process K P (SwapSlate K P) Phase := do
  let slate ← Proc.get
  let value ← Proc.lift (offeredValue L slate).1
  if slate.pubSlate.status ≠ .setup ∧ value < (offeredValue L slate).2 then
    Proc.lift (.error (.err "Not enough value in inputs, please import more Coins"))
  else
    Proc.request .bind (Outcome.expect unwrapErr)
    serveClients L B rand clients

/-! ### Commands -/

/-- The commands with their arguments.  `init` has the id that it draws, and `listen` the number of
clients that it serves. -/
inductive Command
  | init (swapid : ℕ) (args : Init)
  | accept (swapid : ℕ)
  | importBtc (swapid : ℕ) (txid : String) (vout value : ℕ) (sk pubScript : String)
  | importGrin (swapid : ℕ) (coin : MWCoin)
  | listen (swapid clients : ℕ)
  | lock (swapid : ℕ)
  | execute (swapid : ℕ)
  | cancel (swapid : ℕ)
  deriving DecidableEq

/-- The swap of a command. -/
def Command.swapid : Command → ℕ
  | init swapid _ | accept swapid | importBtc swapid .. | importGrin swapid _ | listen swapid _
  | lock swapid | execute swapid | cancel swapid => swapid

/-- The slate that a command starts from. -/
def Command.loadSlate (settings : Settings) (files : SlateFiles) : Command → Outcome (SwapSlate K P)
  | init _ args => args.execute settings
  | accept _ => Outcome.expect "Unable to locate public slate file" (createPrivFromPub F files)
  | importBtc .. => Outcome.expect "Failed to read SwapSlate" (readSlateFromDisk F files)
  | importGrin .. | listen .. =>
    Outcome.expect "Failed to read SwapSlate from file" (readSlateFromDisk F files)
  | lock _ | execute _ | cancel _ =>
    Outcome.expect "Unable to read slate files from disk" (readSlateFromDisk F files)

/-- `ImportBtc::execute` on the slate that it read. -/
def importBtcExecute (txid : String) (vout value : ℕ) (sk pubScript : String) :
    Process K P (SwapSlate K P) Unit := do
  let secKey ← Proc.lift (Outcome.unwrap
    "Unable to parse private key, please provide in WIF format" (B.fromWif sk))
  let input : BTCInput :=
    ⟨txid, vout, value, B.toWif secKey, serializePubKey B (B.publicKey secKey), pubScript⟩
  Proc.modify fun s => { s with prvSlate.btc.inputs := s.prvSlate.btc.inputs ++ [input] }

/-- `ImportGrin::execute` on the slate that it read. -/
def importGrinExecute (coin : MWCoin) : Process K P (SwapSlate K P) Unit :=
  Proc.modify fun s => { s with prvSlate.mw.inputs := s.prvSlate.mw.inputs ++ [coin] }

/-- `Command::execute`, with the phase that it completed. -/
def Command.run (rand : Rand K) : Command → Process K P (SwapSlate K P) (Option Phase)
  | init .. => return none
  | accept _ => do
    writeSlateToDisk true false
    return none
  | importBtc _ txid vout value sk pubScript => do
    importBtcExecute B txid vout value sk pubScript
    return none
  | importGrin _ coin => do
    importGrinExecute coin
    return none
  | listen _ clients => some <$> listenExecute L B rand clients
  | lock _ => do
    lockExecute L B rand
    return some .locking
  | execute _ => do
    executeExecute L B rand
    return some .execution
  | cancel _ => do
    cancelExecute B rand
    return some .refund

/-- `main` after the command has its slate: an error of the command is a panic, and what a command
returns is written to both files. -/
def main (rand : Rand K) (command : Command) : Process K P (SwapSlate K P) (Option Phase) := do
  let phase ← command.run L B rand
  writeSlateToDisk true true
  return phase

end MwBtcSwap
