import MwBtcSwap.Grin.Types
import MwBtcSwap.Lib.Interaction

/-! `http.rs`: the requests that the program sends to the two nodes, and what comes back of them. -/

namespace MwBtcSwap

open Interaction

/-- `JsonRpcParam` -/
inductive JsonRpcParam (K P : Type)
  | string (s : String)
  | int (n : ℕ)
  | bool (b : Bool)
  | vec (v : List String)
  | tx (tx : Grin.Transaction K P)

/-- `JsonRpc` -/
structure JsonRpc (K P : Type) where
  jsonrpc : String
  id : String
  method : String
  params : List (JsonRpcParam K P)

/-- `BasicAuth` -/
structure BasicAuth where
  username : String
  password : Option String
  deriving DecidableEq, Repr

/-- `HttpResponse` -/
structure HttpResponse where
  status : ℕ
  content : String
  deriving DecidableEq, Repr

/-- `HttpRequest`, which is always a POST. -/
structure HttpRequest (K P : Type) where
  url : String
  body : JsonRpc K P
  auth : Option BasicAuth
  responseStub : Option HttpResponse

/-- `RequestFactory`; the stub is for tests. -/
structure RequestFactory where
  responseStub : Option HttpResponse
  deriving DecidableEq, Repr

/-- What comes back of a request that `reqwest` sends. -/
inductive Exchange
  | failed
  | unreadable (status : ℕ)
  | answered (response : HttpResponse)
  deriving DecidableEq, Repr

variable {K P : Type}

/-- `RequestFactory::new_json_rpc_request` -/
def RequestFactory.newJsonRpcRequest (factory : RequestFactory) (url : String) (body : JsonRpc K P)
    (username password : String) : HttpRequest K P where
  url := url
  body := body
  auth := some ⟨username, some password⟩
  responseStub := factory.responseStub

/-- `StatusCode::is_success` -/
def isSuccess (status : ℕ) : Bool := decide (200 ≤ status ∧ status < 300)

/-- `HttpRequest::execute`, where `send` is the HTTP client. -/
def HttpRequest.execute (send : HttpRequest K P → Exchange) (req : HttpRequest K P) :
    Outcome HttpResponse :=
  match req.responseStub with
  | some r =>
    if r.status ≠ 200 then
      .error (.err ("RPC Request failed with invalid respcode: " ++ toString r.status))
    else .ok r
  | none =>
    match send req with
    | .failed => .error (.panic "Http Request failed")
    | .unreadable _ => .error (.panic "Failed to read http response")
    | .answered res =>
      if isSuccess res.status then .ok res
      else .error (.err ("RPC Request failed with invalid respcode: " ++ toString res.status ++ " " ++
        res.content))

/-- A request comes back with HTTP 200 from the stub or from the node. -/
theorem HttpRequest.execute_eq_ok {send : HttpRequest K P → Exchange} {req : HttpRequest K P}
    {content : String} :
    req.execute send = .ok ⟨200, content⟩ ↔
      req.responseStub = some ⟨200, content⟩ ∨
        req.responseStub = none ∧ send req = .answered ⟨200, content⟩ := by
  unfold execute
  cases req.responseStub with
  | some r =>
    obtain ⟨status, body⟩ := r
    by_cases hstatus : status = 200 <;> simp [hstatus]
  | none =>
    cases send req with
    | failed => simp
    | unreadable status => simp
    | answered res =>
      obtain ⟨status, body⟩ := res
      by_cases hok : isSuccess status = true
      · simp [hok]
      · have hne : status ≠ 200 := by
          rintro rfl
          exact hok rfl
        simp [hok, hne]

end MwBtcSwap
