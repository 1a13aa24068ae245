import Garcon.Http.Framing
import Garcon.Http.Request
import Garcon.Http.Response

/-!
# The connection handler

`connection_handler::handle_connection` serves one accepted connection: it reads a
header block, parses it, asks the request handler for a response, writes it, and
goes round again while the client keeps the connection alive.

The loop runs over any stream and any request handler.  Its effects outside of the
two are listed as events in their order.  The clocks behind an access record are
read through `timing`, and a loop that outlives its fuel gives no result.
-/

namespace Garcon
namespace App

open Ascii Http Net

/-- `socket_io_timeout` and `keep_alive_idle_timeout`, in milliseconds. -/
def ioTimeout : Nat := 5000

def keepAliveIdleTimeout : Nat := 15000

def maxRequestHeaderBytes : Nat := 64 * 1024

/-- The clock readings of one access record, in microseconds. -/
structure Timing where
  timestamp : Int
  elapsed : Int
deriving DecidableEq, Repr

structure AccessRecord where
  timestamp : Int
  clientIp : Bytes
  method : Bytes
  target : Bytes
  version : Bytes
  status : Int
  responseBytes : Nat
  elapsed : Int
deriving DecidableEq, Repr

inductive Event where
  | dispatched (request : Request)
  | access (record : AccessRecord)
  | sent (wire : Bytes)
  | connectionError (operation detail : String)
deriving DecidableEq, Repr

/-- A request handler over its own state.  An exception carries its message. -/
abbrev RequestHandler (η : Type) := Request → η → Except String Response × η

structure ConnectionHandler (σ η : Type) where
  handler : RequestHandler η
  /-- What the factory makes of the socket: no stream, or an exception with its message. -/
  streamFactory : Except String (Option (Stream σ))
  httpsEnabled : Bool
  /-- The clock readings for the access record of each round. -/
  timing : Nat → Timing

/-- How one round of the loop ends. -/
inductive Round (σ η : Type) where
  | pending
  | stop (events : List Event) (h : η) (s : σ)
  | next (events : List Event) (h : η) (s : σ)

namespace ConnectionHandler

variable {σ η : Type}

def prepareStream (client : Stream σ) (s : σ) : Bool × List Event × σ :=
  let failed := [Event.connectionError "configure-stream" "failed to apply socket timeouts"]
  match client.setReceiveTimeout ioTimeout s with
  | (false, s) => (false, failed, s)
  | (true, s) =>
    match client.setSendTimeout ioTimeout s with
    | (false, s) => (false, failed, s)
    | (true, s) =>
      match client.handshake s with
      | (.ok, s) => (true, [], s)
      | (.timeout, s) => (false, [.connectionError "handshake" "handshake timed out"], s)
      | (.error, s) => (false, [.connectionError "handshake" "handshake failed"], s)
      | (.closed, s) => (false, [], s)

def sendResponse (client : Stream σ) (wireResponse : Bytes) (s : σ) : Bool × List Event × σ :=
  match client.sendAll wireResponse s with
  | (.ok, s) => (true, [.sent wireResponse], s)
  | (.closed, s) => (true, [.sent wireResponse], s)
  | (.timeout, s) =>
    (false, [.sent wireResponse,
      .connectionError "write-response" "response write timed out"], s)
  | (.error, s) =>
    (false, [.sent wireResponse, .connectionError "write-response" "response write failed"], s)

def logAccess (clientIp : Bytes) (request : Option Request) (response : Response)
    (wireBytes : Nat) (timing : Timing) : AccessRecord where
  timestamp := timing.timestamp
  clientIp := clientIp
  method := match request with
    | some r => r.method
    | none => ascii "-"
  target := match request with
    | some r => r.target
    | none => ascii "-"
  version := match request with
    | some r => r.versionString
    | none => ascii "HTTP/1.1"
  status := response.status
  responseBytes := wireBytes
  elapsed := timing.elapsed

def requestTimeout : Response :=
  .text 408 (ascii "Request Timeout") (ascii "request timeout\n")

def headerTooLarge : Response :=
  .text 431 (ascii "Request Header Fields Too Large") (ascii "request header too large\n")

def badRequest : Response := .text 400 (ascii "Bad Request") (ascii "bad request\n")

variable (c : ConnectionHandler σ η)

/-- Answers with a fixed response and closes. -/
def refuse (client : Stream σ) (clientIp : Bytes) (served : Nat) (response : Response) (h : η)
    (s : σ) : Round σ η :=
  let wireResponse := response.serialize .close
  let record := logAccess clientIp none response wireResponse.length (c.timing served)
  let (_, events, s) := sendResponse client wireResponse s
  .stop (.access record :: events) h s

/-- The response to a parsed request.  On HTTPS it gets the transport security
header unless the handler set one. -/
def answer (request : Request) (h : η) : Except String Response × η :=
  match c.handler request h with
  | (.error what, h) => (.error what, h)
  | (.ok response, h) =>
    if c.httpsEnabled && (response.findHeader (ascii "Strict-Transport-Security")).isNone then
      (response.setHeader (ascii "Strict-Transport-Security") (ascii "max-age=31536000"), h)
    else (.ok response, h)

/-- The transport security header is well formed, and is written behind the others. -/
theorem setHeader_hsts {response : Response}
    (hnone : (response.findHeader (ascii "Strict-Transport-Security")).isNone = true) :
    response.setHeader (ascii "Strict-Transport-Security") (ascii "max-age=31536000") =
      .ok { response with
            headers := response.headers ++
              [⟨ascii "Strict-Transport-Security", ascii "max-age=31536000"⟩] } := by
  have hvalid : Response.validateHeader (ascii "Strict-Transport-Security")
      (ascii "max-age=31536000") = .ok () := by decide +kernel
  have hnew : ¬ (response.findHeader (ascii "Strict-Transport-Security")).isSome = true := by
    rw [Option.isNone_iff_eq_none] at hnone
    rw [hnone]
    exact Bool.false_ne_true
  rw [Response.setHeader, hvalid]
  dsimp only [bind, Except.bind]
  rw [if_neg hnew, Response.addHeader, hvalid]
  rfl

def policyOf (request : Request) : ConnectionPolicy :=
  if request.keepAliveRequested then .keepAlive else .close

/-- The part of a round after its header block was parsed. -/
def serveRequest (client : Stream σ) (clientIp : Bytes) (served : Nat) (request : Request)
    (h : η) (s : σ) : Round σ η :=
  match c.answer request h with
  | (.error what, h) =>
    .stop [.dispatched request, .connectionError "connection-handler" what] h s
  | (.ok response, h) =>
    let policy := policyOf request
    let wireResponse := response.serialize policy
    let record :=
      logAccess clientIp (some request) response wireResponse.length (c.timing served)
    match sendResponse client wireResponse s with
    | (false, events, s) => .stop (.dispatched request :: .access record :: events) h s
    | (true, events, s) =>
      match policy with
      | .close => .stop (.dispatched request :: .access record :: events) h s
      | .keepAlive => .next (.dispatched request :: .access record :: events) h s

/-- One round of the loop.  `first_request` holds while nothing was served. -/
def round (client : Stream σ) (clientIp : Bytes) (fuel served : Nat) (h : η) (s : σ) :
    Round σ η :=
  let receiveTimeout := if served = 0 then ioTimeout else keepAliveIdleTimeout
  match client.setReceiveTimeout receiveTimeout s with
  | (false, s) =>
    .stop [.connectionError "configure-stream" "failed to update receive timeout"] h s
  | (true, s) =>
    match readHeaderBlock client maxRequestHeaderBytes fuel Buffer.new s with
    | (.pending, _, _) => .pending
    | (.error .timeout, buffer, s) =>
      if served ≠ 0 ∧ buffer.asStringView = [] then .stop [] h s
      else c.refuse client clientIp served requestTimeout h s
    | (.error .tooLarge, _, s) => c.refuse client clientIp served headerTooLarge h s
    | (.error .closed, _, s) => .stop [] h s
    | (.error .ioError, _, s) =>
      .stop [.connectionError "read-header" "request read failed"] h s
    | (.block header, _, s) =>
      match Request.parse header with
      | .error _ => c.refuse client clientIp served badRequest h s
      | .ok request => c.serveRequest client clientIp served request h s

/-- The loop, from its `served`-th round on. -/
def serve (client : Stream σ) (clientIp : Bytes) :
    Nat → Nat → η → σ → Option (List Event × η × σ)
  | 0, _, _, _ => none
  | fuel + 1, served, h, s =>
    match c.round client clientIp fuel served h s with
    | .pending => none
    | .stop events h s => some (events, h, s)
    | .next events h s =>
      match serve client clientIp fuel (served + 1) h s with
      | none => none
      | some (later, h, s) => some (events ++ later, h, s)

variable {c} {client : Stream σ} {clientIp : Bytes} {fuel served : Nat} {h h' : η} {s s' : σ}
  {events : List Event}

theorem serve_of_stop (hround : c.round client clientIp fuel served h s = .stop events h' s') :
    c.serve client clientIp (fuel + 1) served h s = some (events, h', s') := by
  rw [serve, hround]

theorem serve_of_next {later : List Event} {h'' : η} {s'' : σ}
    (hround : c.round client clientIp fuel served h s = .next events h' s')
    (hserve : c.serve client clientIp fuel (served + 1) h' s' = some (later, h'', s'')) :
    c.serve client clientIp (fuel + 1) served h s = some (events ++ later, h'', s'') := by
  rw [serve, hround]
  simp only [hserve]

variable (c)

def handleConnection (clientIp : Bytes) (fuel : Nat) (h : η) (s : σ) :
    Option (List Event × η × σ) :=
  let failed := [Event.connectionError "create-stream" "stream creation failed"]
  match c.streamFactory with
  | .error what => some ([.connectionError "connection-handler" what], h, s)
  | .ok none => some (failed, h, s)
  | .ok (some client) =>
    if !client.isValid s then some (failed, h, s)
    else
      match prepareStream client s with
      | (false, events, s) => some (events, h, s)
      | (true, events, s) =>
        match c.serve client clientIp fuel 0 h s with
        | none => none
        | some (later, h, s) => some (events ++ later, h, s)

end ConnectionHandler

/-- The requests handed to the request handler, in order. -/
def dispatchedRequests (events : List Event) : List Request :=
  events.filterMap fun
    | .dispatched request => some request
    | _ => none

/-- The responses written, in order. -/
def sentResponses (events : List Event) : List Bytes :=
  events.filterMap fun
    | .sent wire => some wire
    | _ => none

end App
end Garcon
