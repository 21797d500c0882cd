import MwBtcSwap.Bitcoin.Core
import MwBtcSwap.Http
import MwBtcSwap.Lib.Json
import MwBtcSwap.Net

/-! The calls to the two nodes, of `bitcoin_core.rs` and `grin_core.rs`: the requests, the response types
as `serde` reads them, and what the program makes of a reply. -/

namespace MwBtcSwap

open Interaction Machine

/-- What the calls use of other crates: the HTTP client, the reader of JSON text, the bytes of a
transaction, and the arithmetic of `f32` that makes satoshis of the amount of an output. -/
structure RpcLib (K P : Type) where
  overflowChecks : Bool
  send : HttpRequest K P → Exchange
  parse : String → Option Json
  serialize : Bitcoin.Transaction → List UInt8
  satoshis : Json.Number → ℕ

/-- `BtcNodeSettings` and `GrinNodeSettings` -/
structure NodeSettings where
  url : String
  user : String
  pass : String
  port : ℕ
  id : String
  deriving DecidableEq, Repr

/-- `BitcoinCore`, and what `GrinCore` uses to ask its node. -/
structure NodeCore where
  settings : NodeSettings
  reqFactory : RequestFactory
  deriving DecidableEq, Repr

/-! ### Responses -/

/-- `Error`, whose code is an `i32` from the Bitcoin node and an `i64` from the Grin node. -/
structure RpcError where
  code : ℤ
  message : String
  deriving DecidableEq, Repr

def readError (readCode : Json → Option ℤ) (v : Json) : Option RpcError := do
  let f ← v.fields ["code", "message"]
  let code ← Json.required readCode (f "code")
  let message ← Json.required Json.asString (f "message")
  return ⟨code, message⟩

/-- A response with a result of any type. -/
structure RpcResponse (ρ : Type) where
  result : ρ
  error : Option RpcError
  id : String
  deriving DecidableEq, Repr

variable {ρ : Type}

/-- The response types of the Bitcoin node, by the type of their result. -/
def readBtcResponse (readResult : Option Json → Option ρ) (v : Json) : Option (RpcResponse ρ) := do
  let f ← v.fields ["result", "error", "id"]
  let result ← readResult (f "result")
  let error ← Json.optional (readError Json.asI32) (f "error")
  let id ← Json.required Json.asString (f "id")
  return ⟨result, error, id⟩

/-- `JSONRPCResponse`, of the Grin node. -/
def readGrinResponse (read : Json → Option ρ) (v : Json) : Option (RpcResponse (Option ρ)) := do
  let f ← v.fields ["id", "jsonrpc", "result", "error"]
  let id ← Json.required Json.asString (f "id")
  let _ ← Json.required Json.asString (f "jsonrpc")
  let result ← Json.optional read (f "result")
  let error ← Json.optional (readError Json.asI64) (f "error")
  return ⟨result, error, id⟩

/-- `NetworkInfoResult`, with the literals of its fees. -/
structure NetworkInfoResult where
  version : ℕ
  subversion : String
  localservices : String
  localservicesnames : List String
  localrelay : Bool
  timeoffset : ℕ
  networkactive : Bool
  connections : ℕ
  relayfee : Json.Number
  incrementalfee : Json.Number
  warnings : String
  deriving DecidableEq, Repr

def readNetworkInfoResult (v : Json) : Option NetworkInfoResult := do
  let f ← v.fields ["version", "subversion", "localservices", "localservicesnames", "localrelay",
    "timeoffset", "networkactive", "connections", "relayfee", "incrementalfee", "warnings"]
  let version ← Json.required Json.asU32 (f "version")
  let subversion ← Json.required Json.asString (f "subversion")
  let localservices ← Json.required Json.asString (f "localservices")
  let localservicesnames ← Json.required (Json.asList Json.asString) (f "localservicesnames")
  let localrelay ← Json.required Json.asBool (f "localrelay")
  let timeoffset ← Json.required Json.asU32 (f "timeoffset")
  let networkactive ← Json.required Json.asBool (f "networkactive")
  let connections ← Json.required Json.asU32 (f "connections")
  let relayfee ← Json.required Json.asNumber (f "relayfee")
  let incrementalfee ← Json.required Json.asNumber (f "incrementalfee")
  let warnings ← Json.required Json.asString (f "warnings")
  return { version, subversion, localservices, localservicesnames, localrelay, timeoffset,
           networkactive, connections, relayfee, incrementalfee, warnings }

/-- `UTXO`, whose other fields are read and not used. -/
def readUTXO (satoshis : Json.Number → ℕ) (v : Json) : Option Bitcoin.UTXO := do
  let f ← v.fields ["txid", "vout", "address", "label", "scriptPubKey", "amount", "confirmations",
    "spendable", "solvable", "safe"]
  let txid ← Json.required Json.asString (f "txid")
  let vout ← Json.required Json.asU32 (f "vout")
  let address ← Json.required Json.asString (f "address")
  let _ ← Json.required Json.asString (f "label")
  let scriptPubKey ← Json.required Json.asString (f "scriptPubKey")
  let amount ← Json.required Json.asNumber (f "amount")
  let _ ← Json.required Json.asU32 (f "confirmations")
  let _ ← Json.required Json.asBool (f "spendable")
  let _ ← Json.required Json.asBool (f "solvable")
  let _ ← Json.required Json.asBool (f "safe")
  return { txid, vout, address, scriptPubKey, amount := satoshis amount }

/-- `PushTransactionResult` -/
def readPushTransactionResult (v : Json) : Option Unit := do
  let f ← v.fields ["Ok"]
  Json.required Json.asUnit (f "Ok")

/-- `GetTipResult`, of which the height is used. -/
def readGetTipResult (v : Json) : Option ℕ := do
  let f ← v.fields ["Ok"]
  Json.required (fun tip => do
    let g ← tip.fields ["height", "last_block_pushed", "prev_block_to_last", "total_difficulty"]
    let height ← Json.required Json.asU64 (g "height")
    let _ ← Json.required Json.asString (g "last_block_pushed")
    let _ ← Json.required Json.asString (g "prev_block_to_last")
    let _ ← Json.required Json.asU64 (g "total_difficulty")
    return height) (f "Ok")

/-- `NetworkInfo` -/
def readNetworkInfo : Json → Option (RpcResponse (Option NetworkInfoResult)) :=
  readBtcResponse (Json.optional readNetworkInfoResult)

/-- `JsonRpcResponse` -/
def readJsonRpcResponse (read : Json → Option ρ) : Json → Option (RpcResponse (Option ρ)) :=
  readBtcResponse (Json.optional read)

/-- `ListUnspentResponse` -/
def readListUnspentResponse (satoshis : Json.Number → ℕ) :
    Json → Option (RpcResponse (Option (List Bitcoin.UTXO))) :=
  readBtcResponse (Json.optional (Json.asList (readUTXO satoshis)))

/-- `BlockCountResponse`: the only one whose result is no `Option`. -/
def readBlockCountResponse : Json → Option (RpcResponse ℕ) :=
  readBtcResponse (Json.required Json.asU64)

/-- `SendRawTxResponse` -/
def readSendRawTxResponse : Json → Option (RpcResponse (Option String)) :=
  readBtcResponse (Json.optional Json.asString)

/-! ### Calls -/

/-- The calls to the nodes: five of `BitcoinCore` and two of `GrinCore`. -/
inductive NodeCall (K P : Type)
  | getNetworkInfo
  | importBtcAddress (addr : String)
  | getAddressFinalBalance (addr : String)
  | getCurrentBlockHeight
  | sendRawTransaction (tx : Bitcoin.Transaction)
  | getBlockHeight
  | pushTransaction (tx : Grin.Transaction K P)

variable {K P α : Type}

/-- What a call returns. -/
@[reducible] def NodeCall.Ret : NodeCall K P → Type
  | getNetworkInfo => NetworkInfoResult
  | importBtcAddress _ => Unit
  | getAddressFinalBalance _ => ℕ
  | getCurrentBlockHeight => ℕ
  | sendRawTransaction _ => Unit
  | getBlockHeight => ℕ
  | pushTransaction _ => Unit

/-- The path of a node. -/
def NodeCall.path : NodeCall K P → String
  | getBlockHeight => "/v2/foreign"
  | pushTransaction _ => "/v2/foreign"
  | _ => ""

variable (R : RpcLib K P) (core : NodeCore)

/-- The `JsonRpc` of a call. -/
def NodeCall.rpc : NodeCall K P → JsonRpc K P
  | getNetworkInfo => ⟨"1.0", core.settings.id, "getnetworkinfo", []⟩
  | importBtcAddress addr =>
    ⟨"1.0", core.settings.id, "importaddress", [.string addr, .string "", .bool false]⟩
  | getAddressFinalBalance addr =>
    ⟨"1.0", core.settings.id, "listunspent", [.int 0, .int 9999999, .vec [addr]]⟩
  | getCurrentBlockHeight => ⟨"1.0", core.settings.id, "getblockcount", []⟩
  | sendRawTransaction tx =>
    ⟨"1.0", core.settings.id, "sendrawtransaction", [.string (Hex.encode (R.serialize tx))]⟩
  | getBlockHeight => ⟨"2.0", core.settings.id, "get_tip", []⟩
  | pushTransaction tx => ⟨"2.0", core.settings.id, "push_transaction", [.tx tx, .bool true]⟩

/-- The request of a call. -/
def NodeCall.request (call : NodeCall K P) : HttpRequest K P :=
  core.reqFactory.newJsonRpcRequest
    ("http://" ++ core.settings.url ++ ":" ++ toString core.settings.port ++ call.path)
    (call.rpc R core) core.settings.user core.settings.pass

/-- A call of `BitcoinCore`: the id of the reply is looked at before its error. -/
def BitcoinCore.call (call : NodeCall K P) (parseErr idErr : String)
    (read : Json → Option (RpcResponse ρ)) (finish : ρ → Outcome α) : Outcome α := do
  let x ← (call.request R core).execute R.send
  let parsed ← Outcome.unwrap parseErr ((R.parse x.content).bind read)
  if parsed.id ≠ core.settings.id then .error (.err idErr)
  else
    match parsed.error with
    | some error => .error (.err error.message)
    | none => finish parsed.result

/-- A call of `GrinCore`: the error of the reply is looked at before its id. -/
def GrinCore.call (call : NodeCall K P) (read : Json → Option (RpcResponse ρ))
    (finish : ρ → Outcome α) : Outcome α := do
  let x ← (call.request R core).execute R.send
  let parsed ← Outcome.unwrap unwrapErr ((R.parse x.content).bind read)
  match parsed.error with
  | some error => .error (.err error.message)
  | none =>
    if parsed.id ≠ core.settings.id then .error (.err "Invalid JRPC response id")
    else finish parsed.result

namespace BitcoinCore

/-- `get_network_info` -/
def getNetworkInfo : Outcome NetworkInfoResult :=
  call R core .getNetworkInfo "Failed to parse networkinfo Json response"
    "RPC Request and Response id didn't match!" readNetworkInfo
    (Outcome.unwrap "GetNetworkInfo result was empty")

/-- `import_btc_address` -/
def importBtcAddress (addr : String) : Outcome Unit :=
  call R core (.importBtcAddress addr) "Failed to parse import_btc_address response"
    "RPC Request and Response id didn't match" (readJsonRpcResponse Json.asUnit) fun _ => .ok ()

/-- `get_address_final_balance` -/
def getAddressFinalBalance (addr : String) : Outcome ℕ :=
  call R core (.getAddressFinalBalance addr) "Failed to parse listunspent rpc response"
    "RPC Request and Response id didn't match!" (readListUnspentResponse R.satoshis) fun result => do
      let result ← Outcome.unwrap "GetAddressFinalBalance Result was empty" result
      sumU64 R.overflowChecks (result.map Bitcoin.UTXO.amount)

/-- `get_current_block_height` -/
def getCurrentBlockHeight : Outcome ℕ :=
  call R core .getCurrentBlockHeight unwrapErr "RPC Request and Response id mismacht"
    readBlockCountResponse Except.ok

/-- `send_raw_transaction` -/
def sendRawTransaction (tx : Bitcoin.Transaction) : Outcome Unit :=
  call R core (.sendRawTransaction tx) "Failed to parse sendrawtx rpc response"
    "RPC Request and Response id didn't match" readSendRawTxResponse fun _ => .ok ()

end BitcoinCore

namespace GrinCore

/-- `get_block_height` -/
def getBlockHeight : Outcome ℕ :=
  call R core .getBlockHeight (readGrinResponse readGetTipResult) (Outcome.unwrap unwrapNone)

/-- `push_transaction` -/
def pushTransaction (tx : Grin.Transaction K P) : Outcome Unit :=
  call R core (.pushTransaction tx) (readGrinResponse readPushTransactionResult) fun _ => .ok ()

end GrinCore

/-- What a call makes of the reply to its request. -/
def NodeCall.run : (call : NodeCall K P) → Outcome call.Ret
  | getNetworkInfo => BitcoinCore.getNetworkInfo R core
  | importBtcAddress addr => BitcoinCore.importBtcAddress R core addr
  | getAddressFinalBalance addr => BitcoinCore.getAddressFinalBalance R core addr
  | getCurrentBlockHeight => BitcoinCore.getCurrentBlockHeight R core
  | sendRawTransaction tx => BitcoinCore.sendRawTransaction R core tx
  | getBlockHeight => GrinCore.getBlockHeight R core
  | pushTransaction tx => GrinCore.pushTransaction R core tx

/-! ### Replies -/

/-- A reply that carries an id, a null or absent result and an error object with a message; it may have
other members, and so may its error. -/
structure ErrorReply (id message : String) where
  members : List (String × Json)
  error : List (String × Json)
  id_eq : Json.valuesOf members "id" = [.string id]
  result_eq : Json.valuesOf members "result" = [] ∨ Json.valuesOf members "result" = [.null]
  error_eq : Json.valuesOf members "error" = [.object error]
  message_eq : Json.valuesOf error "message" = [.string message]

namespace ErrorReply

variable {id message : String} (r : ErrorReply id message)

def json : Json := .object r.members

/-- The code of the error, if it has one that can be read. -/
def code? (readCode : Json → Option ℤ) : Option ℤ :=
  match Json.valuesOf r.error "code" with
  | [v] => readCode v
  | _ => none

/-- The version text of the reply. -/
def jsonrpc? : Option String :=
  match Json.valuesOf r.members "jsonrpc" with
  | [v] => v.asString
  | _ => none

/-! What the response types read of it. -/

theorem readError_eq (readCode : Json → Option ℤ) :
    readError readCode (.object r.error) = (r.code? readCode).map fun code => ⟨code, message⟩ := by
  rcases hcode : Json.valuesOf r.error "code" with _ | ⟨v, _ | ⟨w, vs⟩⟩
  · simp [readError, Json.fields, code?, hcode, r.message_eq, Json.required]
  · cases hread : readCode v <;>
      simp [readError, Json.fields, code?, hcode, r.message_eq, Json.required, Json.asString, hread]
  · simp [readError, Json.fields, code?, hcode]

theorem optional_error (readCode : Json → Option ℤ) :
    Json.optional (readError readCode) (some (.object r.error)) =
      (r.code? readCode).map fun code => some ⟨code, message⟩ := by
  show (readError readCode (.object r.error)).map some = _
  rw [r.readError_eq, Option.map_map]
  rfl

theorem result_length : (Json.valuesOf r.members "result").length ≤ 1 := by
  rcases r.result_eq with h | h <;> simp [h]

/-- Any result may be missing. -/
theorem optional_result {read : Json → Option ρ} :
    Json.optional read (Json.valuesOf r.members "result").head? = some none := by
  rcases r.result_eq with h | h <;> simp [h, Json.optional]

/-- No block count is missing. -/
theorem required_result : Json.required Json.asU64 (Json.valuesOf r.members "result").head? = none := by
  rcases r.result_eq with h | h <;> simp [h, Json.required, Json.asU64, Json.asInt]

theorem readBtcResponse_eq (readResult : Option Json → Option ρ) :
    readBtcResponse readResult r.json =
      (readResult (Json.valuesOf r.members "result").head?).bind fun result =>
        (r.code? Json.asI32).map fun code => ⟨result, some ⟨code, message⟩, id⟩ := by
  have herror := r.optional_error Json.asI32
  cases hresult : readResult (Json.valuesOf r.members "result").head? with
  | none => simp [readBtcResponse, json, Json.fields, r.id_eq, r.error_eq, r.result_length, hresult]
  | some result =>
    cases hcode : r.code? Json.asI32 <;>
      simp [readBtcResponse, json, Json.fields, r.id_eq, r.error_eq, r.result_length, hresult, herror,
        hcode, Json.required, Json.asString]

theorem readGrinResponse_eq (read : Json → Option ρ) :
    readGrinResponse read r.json =
      r.jsonrpc?.bind fun _ =>
        (r.code? Json.asI64).map fun code => ⟨none, some ⟨code, message⟩, id⟩ := by
  have herror := r.optional_error Json.asI64
  rcases hjsonrpc : Json.valuesOf r.members "jsonrpc" with _ | ⟨v, _ | ⟨w, vs⟩⟩
  · simp [readGrinResponse, json, Json.fields, jsonrpc?, hjsonrpc, r.id_eq, r.error_eq,
      r.result_length, Json.required]
  · cases hv : v.asString with
    | none =>
      simp [readGrinResponse, json, Json.fields, jsonrpc?, hjsonrpc, r.id_eq, r.error_eq,
        r.result_length, Json.required, hv]
    | some version =>
      obtain rfl := Json.asString_eq_some.mp hv
      cases hcode : r.code? Json.asI64 <;>
        simp [readGrinResponse, json, Json.fields, jsonrpc?, hjsonrpc, r.id_eq, r.error_eq,
          r.result_length, r.optional_result, Json.required, Json.asString, herror, hcode]
  · simp [readGrinResponse, json, Json.fields, jsonrpc?, hjsonrpc]

end ErrorReply

/-- The value names an id, and no other one. -/
def CarriesId (id : String) : Json → Prop
  | .object members => Json.valuesOf members "id" = [.string id]
  | .array elems => .string id ∈ elems
  | _ => False

/-- The body comes back with HTTP 200 when a call is made. -/
def Replied (call : NodeCall K P) (body : String) : Prop :=
  (call.request R core).execute R.send = .ok ⟨200, body⟩

/-- What a body is to make of a call: an error reply returns its message as an error, and without the
id of the request nothing is returned. -/
def ReportsErrors (call : NodeCall K P) (body : String) : Prop :=
  (∀ message (r : ErrorReply core.settings.id message), R.parse body = some r.json →
    call.run R core = .error (.err message)) ∧
  ((∀ v, R.parse body = some v → ¬ CarriesId core.settings.id v) →
    ∀ a, call.run R core ≠ .ok a)

/-- The response type of a call reads an error reply. -/
def NodeCall.Reads {id message : String} (r : ErrorReply id message) : NodeCall K P → Prop
  | getCurrentBlockHeight => False
  | getBlockHeight => (r.code? Json.asI64).isSome ∧ r.jsonrpc?.isSome
  | pushTransaction _ => (r.code? Json.asI64).isSome ∧ r.jsonrpc?.isSome
  | _ => (r.code? Json.asI32).isSome

theorem carriesId_of_fields {names : List String} {v : Json} {f : String → Option Json} {id : String}
    (hmem : "id" ∈ names) (hfields : v.fields names = some f) (hid : f "id" = some (.string id)) :
    CarriesId id v := by
  cases v with
  | object members =>
    simp only [Json.fields, Option.ite_none_right_eq_some, Option.some.injEq] at hfields
    obtain ⟨hlength, rfl⟩ := hfields
    have hone := hlength "id" hmem
    dsimp only at hid
    rcases hvalues : Json.valuesOf members "id" with _ | ⟨w, _ | ⟨x, vs⟩⟩
    · rw [hvalues] at hid
      cases hid
    · rw [hvalues] at hid
      cases hid
      exact hvalues
    · rw [hvalues] at hone
      simp at hone
  | array elems =>
    simp only [Json.fields, Option.ite_none_right_eq_some, Option.some.injEq] at hfields
    obtain ⟨-, rfl⟩ := hfields
    exact List.mem_of_getElem? hid
  | null => cases hfields
  | bool b => cases hfields
  | number n => cases hfields
  | string s => cases hfields

section Calls

variable {R core} {call : NodeCall K P} {body message parseErr idErr : String} {finish : ρ → Outcome α}

theorem BitcoinCore.call_eq (h : Replied R core call body) (read : Json → Option (RpcResponse ρ)) :
    BitcoinCore.call R core call parseErr idErr read finish =
      match (R.parse body).bind read with
      | none => .error (.panic parseErr)
      | some parsed =>
        if parsed.id ≠ core.settings.id then .error (.err idErr)
        else
          match parsed.error with
          | some error => .error (.err error.message)
          | none => finish parsed.result := by
  rw [Replied] at h
  cases hparse : (R.parse body).bind read <;>
    simp [BitcoinCore.call, h, hparse, Outcome.unwrap]

theorem GrinCore.call_eq (h : Replied R core call body) (read : Json → Option (RpcResponse ρ)) :
    GrinCore.call R core call read finish =
      match (R.parse body).bind read with
      | none => .error (.panic unwrapErr)
      | some parsed =>
        match parsed.error with
        | some error => .error (.err error.message)
        | none =>
          if parsed.id ≠ core.settings.id then .error (.err "Invalid JRPC response id")
          else finish parsed.result := by
  rw [Replied] at h
  cases hparse : (R.parse body).bind read <;>
    simp [GrinCore.call, h, hparse, Outcome.unwrap]

/-- On a response that is read, the balance is that of `Bitcoin.getAddressFinalBalance`. -/
theorem BitcoinCore.getAddressFinalBalance_eq {addr : String}
    (h : Replied R core (.getAddressFinalBalance addr) body)
    {parsed : RpcResponse (Option (List Bitcoin.UTXO))}
    (hread : (R.parse body).bind (readListUnspentResponse R.satoshis) = some parsed) :
    BitcoinCore.getAddressFinalBalance R core addr =
      Bitcoin.getAddressFinalBalance R.overflowChecks core.settings.id
        ⟨parsed.result, parsed.error.map RpcError.message, parsed.id⟩ := by
  rw [BitcoinCore.getAddressFinalBalance, BitcoinCore.call_eq h, hread]
  dsimp only [Bitcoin.getAddressFinalBalance]
  cases parsed.error <;> rfl

/-- An error reply is reported when its code can be read and the result may be missing. -/
theorem BitcoinCore.call_reply (h : Replied R core call body) {read : Json → Option ρ}
    {finish : Option ρ → Outcome α} (r : ErrorReply core.settings.id message)
    (hparse : R.parse body = some r.json) :
    BitcoinCore.call R core call parseErr idErr (readBtcResponse (Json.optional read)) finish =
      .error (.err message) ↔ (r.code? Json.asI32).isSome := by
  rw [BitcoinCore.call_eq h, hparse, Option.bind_some, r.readBtcResponse_eq, r.optional_result]
  cases r.code? Json.asI32 <;> simp

theorem GrinCore.call_reply (h : Replied R core call body) {read : Json → Option ρ}
    {finish : Option ρ → Outcome α} (r : ErrorReply core.settings.id message)
    (hparse : R.parse body = some r.json) :
    GrinCore.call R core call (readGrinResponse read) finish = .error (.err message) ↔
      (r.code? Json.asI64).isSome ∧ r.jsonrpc?.isSome := by
  rw [GrinCore.call_eq h, hparse, Option.bind_some, r.readGrinResponse_eq]
  cases r.jsonrpc? <;> cases r.code? Json.asI64 <;> simp

/-- What a call of `BitcoinCore` returns comes from a reply with its id. -/
theorem BitcoinCore.call_returns (h : Replied R core call body)
    {readResult : Option Json → Option ρ} {a : α}
    (hret : BitcoinCore.call R core call parseErr idErr (readBtcResponse readResult) finish = .ok a) :
    ∃ v, R.parse body = some v ∧ CarriesId core.settings.id v := by
  rw [BitcoinCore.call_eq h] at hret
  split at hret
  · cases hret
  · next parsed hread =>
    obtain ⟨v, hparse, hread⟩ := Option.bind_eq_some_iff.mp hread
    simp only [readBtcResponse, Json.required, Option.bind_eq_bind, Option.bind_eq_some_iff, Option.pure_def,
      Option.some.injEq] at hread
    obtain ⟨f, hfields, result, -, error, -, id, ⟨w, hid, hw⟩, rfl⟩ := hread
    obtain rfl := Json.asString_eq_some.mp hw
    obtain ⟨hne, -⟩ := Outcome.error_ite_eq_ok.mp hret
    rw [not_not] at hne
    rw [← hne]
    exact ⟨v, hparse, carriesId_of_fields (by simp) hfields hid⟩

theorem GrinCore.call_returns (h : Replied R core call body) {read : Json → Option ρ}
    {finish : Option ρ → Outcome α} {a : α}
    (hret : GrinCore.call R core call (readGrinResponse read) finish = .ok a) :
    ∃ v, R.parse body = some v ∧ CarriesId core.settings.id v := by
  rw [GrinCore.call_eq h] at hret
  split at hret
  · cases hret
  · next parsed hread =>
    obtain ⟨v, hparse, hread⟩ := Option.bind_eq_some_iff.mp hread
    simp only [readGrinResponse, Json.required, Option.bind_eq_bind, Option.bind_eq_some_iff, Option.pure_def,
      Option.some.injEq] at hread
    obtain ⟨f, hfields, id, ⟨w, hid, hw⟩, _, -, result, -, error, -, rfl⟩ := hread
    obtain rfl := Json.asString_eq_some.mp hw
    cases error with
    | some error => cases hret
    | none =>
      obtain ⟨hne, -⟩ := Outcome.error_ite_eq_ok.mp hret
      rw [not_not] at hne
      rw [← hne]
      exact ⟨v, hparse, carriesId_of_fields (by simp) hfields hid⟩

/-- `get_current_block_height` panics on every error reply. -/
theorem getCurrentBlockHeight_reply (h : Replied R core .getCurrentBlockHeight body)
    (r : ErrorReply core.settings.id message) (hparse : R.parse body = some r.json) :
    BitcoinCore.getCurrentBlockHeight R core = .error (.panic unwrapErr) := by
  rw [BitcoinCore.getCurrentBlockHeight, BitcoinCore.call_eq h, hparse, Option.bind_some,
    readBlockCountResponse, r.readBtcResponse_eq, r.required_result]
  rfl

/-- An error reply is reported exactly by the calls whose response type reads it. -/
theorem NodeCall.run_reply (h : Replied R core call body) (r : ErrorReply core.settings.id message)
    (hparse : R.parse body = some r.json) :
    call.run R core = .error (.err message) ↔ call.Reads r := by
  cases call with
  | getNetworkInfo =>
    rw [run, BitcoinCore.getNetworkInfo]
    exact BitcoinCore.call_reply h r hparse
  | importBtcAddress addr =>
    rw [run, BitcoinCore.importBtcAddress]
    exact BitcoinCore.call_reply h r hparse
  | getAddressFinalBalance addr =>
    rw [run, BitcoinCore.getAddressFinalBalance]
    exact BitcoinCore.call_reply h r hparse
  | getCurrentBlockHeight =>
    rw [run, getCurrentBlockHeight_reply h r hparse]
    constructor
    · intro heq
      cases heq
    · exact False.elim
  | sendRawTransaction tx =>
    rw [run, BitcoinCore.sendRawTransaction]
    exact BitcoinCore.call_reply h r hparse
  | getBlockHeight =>
    rw [run, GrinCore.getBlockHeight]
    exact GrinCore.call_reply h r hparse
  | pushTransaction tx =>
    rw [run, GrinCore.pushTransaction]
    exact GrinCore.call_reply h r hparse

/-- What a call returns comes from a reply with its id. -/
theorem NodeCall.run_returns (h : Replied R core call body) {a : call.Ret}
    (hret : call.run R core = .ok a) : ∃ v, R.parse body = some v ∧ CarriesId core.settings.id v := by
  cases call with
  | getNetworkInfo =>
    rw [run, BitcoinCore.getNetworkInfo] at hret
    exact BitcoinCore.call_returns h hret
  | importBtcAddress addr =>
    rw [run, BitcoinCore.importBtcAddress] at hret
    exact BitcoinCore.call_returns h hret
  | getAddressFinalBalance addr =>
    rw [run, BitcoinCore.getAddressFinalBalance] at hret
    exact BitcoinCore.call_returns h hret
  | getCurrentBlockHeight =>
    rw [run, BitcoinCore.getCurrentBlockHeight] at hret
    exact BitcoinCore.call_returns h hret
  | sendRawTransaction tx =>
    rw [run, BitcoinCore.sendRawTransaction] at hret
    exact BitcoinCore.call_returns h hret
  | getBlockHeight =>
    rw [run, GrinCore.getBlockHeight] at hret
    exact GrinCore.call_returns h hret
  | pushTransaction tx =>
    rw [run, GrinCore.pushTransaction] at hret
    exact GrinCore.call_returns h hret

/-- A body is dealt with as it should be exactly when the response type of the call reads it, in case
it is an error reply. -/
theorem reportsErrors_iff (h : Replied R core call body) :
    ReportsErrors R core call body ↔
      ∀ message (r : ErrorReply core.settings.id message), R.parse body = some r.json →
        call.Reads r := by
  constructor
  · rintro ⟨hreply, -⟩ message r hparse
    exact (NodeCall.run_reply h r hparse).mp (hreply message r hparse)
  · intro hreads
    refine ⟨fun message r hparse => ?_, fun hother a hret => ?_⟩
    · exact (NodeCall.run_reply h r hparse).mpr (hreads message r hparse)
    · obtain ⟨v, hparse, hid⟩ := NodeCall.run_returns h hret
      exact hother v hparse hid

end Calls

/-! ### A node that is still starting -/

/-- The members of the error reply of a node that is not ready. -/
def startingError : List (String × Json) :=
  [("code", .number ⟨-28, none⟩), ("message", .string "Loading block index")]

def startingReply : ErrorReply "mw-btc-swap" "Loading block index" where
  members := [("result", .null), ("error", .object startingError), ("id", .string "mw-btc-swap")]
  error := startingError
  id_eq := rfl
  result_eq := .inr rfl
  error_eq := rfl
  message_eq := rfl

example : startingReply.json.text =
    "\x7b\"result\":null,\"error\":\x7b\"code\":-28,\"message\":\"Loading block index\"\x7d," ++
      "\"id\":\"mw-btc-swap\"\x7d" := by decide

/-- A client that gets this reply to every request. -/
def startingRpc : RpcLib ℤ ℤ where
  overflowChecks := false
  send _ := .answered ⟨200, startingReply.json.text⟩
  parse := Json.read
  serialize _ := []
  satoshis n := (n.mantissa * 10 ^ (8 + n.exponent.getD 0).toNat).toNat

def sampleCore : NodeCore := ⟨⟨"127.0.0.1", "user", "pass", 18332, "mw-btc-swap"⟩, ⟨none⟩⟩

theorem starting_replied (call : NodeCall ℤ ℤ) :
    Replied startingRpc sampleCore call startingReply.json.text :=
  HttpRequest.execute_eq_ok.mpr (.inr ⟨rfl, rfl⟩)

theorem starting_parse : startingRpc.parse startingReply.json.text = some startingReply.json :=
  Json.read_text _

/-- The reply is reported by the calls whose result may be missing. -/
theorem reportsErrors_sample :
    ReportsErrors startingRpc sampleCore .getNetworkInfo startingReply.json.text := by
  apply (reportsErrors_iff (starting_replied .getNetworkInfo)).mpr
  intro message r hparse
  rw [starting_parse] at hparse
  obtain ⟨members, error, hid, hresult, herror, hmessage⟩ := r
  cases hparse
  cases herror
  rfl

/-- The block height is not: the program panics. -/
theorem getCurrentBlockHeight_unreported :
    BitcoinCore.getCurrentBlockHeight startingRpc sampleCore = .error (.panic unwrapErr) ∧
      ¬ ReportsErrors startingRpc sampleCore .getCurrentBlockHeight startingReply.json.text := by
  have hpanic := getCurrentBlockHeight_reply (starting_replied .getCurrentBlockHeight) startingReply
    starting_parse
  refine ⟨hpanic, ?_⟩
  rintro ⟨hreports, -⟩
  have hreport := hreports _ startingReply starting_parse
  rw [NodeCall.run, hpanic] at hreport
  cases hreport

end MwBtcSwap
