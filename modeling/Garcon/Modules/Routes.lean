import Garcon.Module.Sdk
import Garcon.Modules.Rules

/-!
# Route lines

The route table and the router read the same route lines; the name in their error
messages is a parameter.
-/

namespace Garcon
namespace Modules

open Ascii Http

structure RouteEntry where
  methodPattern : Bytes
  targetPattern : Bytes
  targetKind : PatternKind := .exact
  outcome : Abi.ModuleOutcome := .pass
  response : Option Response := none
deriving DecidableEq, Repr

namespace RouteEntry

def reasonPhraseForStatus (status : Int) : Bytes :=
  if status = 200 then ascii "OK"
  else if status = 201 then ascii "Created"
  else if status = 202 then ascii "Accepted"
  else if status = 204 then ascii "No Content"
  else if status = 400 then ascii "Bad Request"
  else if status = 401 then ascii "Unauthorized"
  else if status = 403 then ascii "Forbidden"
  else if status = 404 then ascii "Not Found"
  else if status = 405 then ascii "Method Not Allowed"
  else if status = 409 then ascii "Conflict"
  else if status = 429 then ascii "Too Many Requests"
  else if status = 500 then ascii "Internal Server Error"
  else if status = 501 then ascii "Not Implemented"
  else if status = 503 then ascii "Service Unavailable"
  else ascii "OK"

def isRouteLine (line : Bytes) : Bool := line.take 6 == ascii "route="

/-- The response of a route, from the fields behind its action. -/
def parseResponse (moduleName : String) (fields : List Bytes) : Except String Response :=
  match fields with
  | [statusText, contentType, body] =>
    match parseStatusCode moduleName statusText with
    | .error what => .error what
    | .ok status =>
      .ok { status, reason := reasonPhraseForStatus status, contentType, body }
  | _ => .error (moduleName ++ ": respond route requires 6 fields")

def parseRouteLine (moduleName : String) (line : Bytes) : Except String RouteEntry := do
  match splitFields (line.drop 6) 0x7c with
  | method :: target :: action :: fields =>
    let (targetPattern, targetKind) := classifyTargetPattern target
    if method = [] then throw (moduleName ++ ": route method pattern must not be empty")
    if targetPattern = [] then throw (moduleName ++ ": route target pattern must not be empty")
    if action = ascii "pass" then
      return { methodPattern := method, targetPattern, targetKind }
    if action ≠ ascii "respond" then throw (moduleName ++ ": unsupported route action")
    let response ← parseResponse moduleName fields
    return { methodPattern := method, targetPattern, targetKind, outcome := .respond,
             response := some response }
  | _ => throw (moduleName ++ ": route requires at least 3 fields")

def parseRoutes (moduleName : String) (configText : Bytes) : Except String (List RouteEntry) :=
  ((configLines configText).filter isRouteLine).mapM (parseRouteLine moduleName)

/-! ## What is read from a route line -/

/-- A response whose status has the reason phrase and may stand in a route line. -/
structure Written (response : Response) : Prop where
  status_range : 100 ≤ response.status ∧ response.status ≤ 999
  reason_eq : response.reason = reasonPhraseForStatus response.status
  headers_nil : response.headers = []
  length_none : response.contentLength = none

/-- A route either passes, or has the response it answers with. -/
inductive Complete (route : RouteEntry) : Prop where
  | pass (houtcome : route.outcome = .pass) (hresponse : route.response = none)
  | respond (response : Response) (houtcome : route.outcome = .respond)
      (hresponse : route.response = some response) (hwritten : Written response)

theorem written_of_parseResponse {moduleName : String} {fields : List Bytes}
    {response : Response} (h : parseResponse moduleName fields = .ok response) :
    Written response := by
  unfold parseResponse at h
  split at h
  · next statusText contentType body =>
      cases hstatus : parseStatusCode moduleName statusText with
      | error what =>
          rw [hstatus] at h
          cases h
      | ok status =>
          rw [hstatus] at h
          cases h
          exact ⟨range_of_parseStatusCode hstatus, rfl, rfl, rfl⟩
  · cases h

theorem complete_of_parseRouteLine {moduleName : String} {line : Bytes} {route : RouteEntry}
    (h : parseRouteLine moduleName line = .ok route) : route.Complete := by
  unfold parseRouteLine at h
  split at h
  · next method target action fields _ =>
      dsimp only [bind, Except.bind, pure, Except.pure, throw, throwThe,
        MonadExceptOf.throw] at h
      split_ifs at h
      · cases h
        exact .pass rfl rfl
      · cases hresponse : parseResponse moduleName fields with
        | error what =>
            rw [hresponse] at h
            cases h
        | ok response =>
            rw [hresponse] at h
            cases h
            exact .respond response rfl rfl (written_of_parseResponse hresponse)
  · cases h

theorem complete_of_parseRoutes {moduleName : String} {configText : Bytes}
    {routes : List RouteEntry} (h : parseRoutes moduleName configText = .ok routes)
    {route : RouteEntry} (hroute : route ∈ routes) : route.Complete := by
  obtain ⟨line, -, hline⟩ := exists_of_mem_mapM h hroute
  exact complete_of_parseRouteLine hline

theorem plainReason_reasonPhraseForStatus (status : Int) :
    PlainReason (reasonPhraseForStatus status) := by
  unfold reasonPhraseForStatus
  repeat refine plainReason_ite (by decide +kernel) ?_
  decide +kernel

end RouteEntry
end Modules
end Garcon
