import Garcon.Http.Request
import Garcon.Http.Response
import Garcon.Module.Abi

/-!
# The module side of the ABI

`result` is what a module object returns, and `detail::handle` publishes it
through the C structures.  The published views point into thread-local storage
that every call clears and fills again, so the storage is threaded through.

A module object is a function of the request and of a state `ω` it may read and
change: its own buckets, the clock, the file system.  An exception carries its
message.
-/

namespace Garcon
namespace Module

open Http Abi

structure Result where
  next : ModuleOutcome := .pass
  responseValue : Option Response := none
  responseHeaders : List HeaderField := []
deriving DecidableEq, Repr

namespace Result

def pass : Result := { next := .pass }

def respond (response : Response) : Result :=
  { next := .respond, responseValue := some response }

def upgrade : Result := { next := .upgrade }

def error : Result := { next := .error }

def addResponseHeader (r : Result) (name value : Bytes) : Result :=
  { r with responseHeaders := r.responseHeaders ++ [⟨name, value⟩] }

end Result

/-- `module::handle` over a state `ω`. -/
abbrev Handler (ω : Type) := Request → ω → Except String Result × ω

/-- The thread-local strings behind the published views. -/
structure Storage where
  names : List Bytes := []
  values : List Bytes := []
  reason : Bytes := []
  contentType : Bytes := []
  body : Bytes := []

/-- The request a module sees.  The ABI carries no HTTP version. -/
def toHttpRequest (view : RequestView) : Request where
  method := view.method.copy
  target := view.target.copy
  headers := view.headers.map fun h => ⟨h.name.copy, h.value.copy⟩

def publishResponseHeaders (headers : List HeaderField) (response : ResponseView)
    (storage : Storage) : ResponseView × Storage :=
  let storage := { storage with names := [], values := [] }
  let storage :=
    { storage with
      names := storage.names ++ headers.map (·.name)
      values := storage.values ++ headers.map (·.value) }
  let views := (storage.names.zip storage.values).map fun nv =>
    (⟨.of nv.1, .of nv.2⟩ : HeaderView)
  ({ response with headers := views }, storage)

def publishResponse (response : Response) (exchange : Exchange) (storage : Storage) :
    Exchange × Storage :=
  let storage :=
    { storage with
      reason := response.reason
      contentType := response.contentType
      body := response.body }
  let view :=
    { exchange.response with
      status := response.status
      reason := .of storage.reason
      contentType := .of storage.contentType }
  let (view, storage) := publishResponseHeaders response.headers view storage
  let view :=
    { view with
      body := .of storage.body
      hasContentLength := response.contentLength.isSome
      contentLength := response.contentLength.getD storage.body.length }
  ({ exchange with response := view }, storage)

/-- `detail::handle`: calls the module object and publishes its result. -/
def handle {ω : Type} (implementation : Handler ω) (exchange : Exchange) (storage : Storage)
    (w : ω) : ModuleOutcome × Exchange × Storage × ω :=
  match implementation (toHttpRequest exchange.request) w with
  | (.error _, w) => (.error, exchange, storage, w)
  | (.ok result, w) =>
    match result.responseValue with
    | some response =>
      let (exchange, storage) :=
        publishResponse { response with headers := response.headers ++ result.responseHeaders }
          exchange storage
      (result.next, exchange, storage, w)
    | none =>
      if result.responseHeaders.isEmpty then (result.next, exchange, storage, w)
      else
        let (view, storage) :=
          publishResponseHeaders result.responseHeaders exchange.response storage
        (result.next, { exchange with response := view }, storage, w)

end Module
end Garcon
