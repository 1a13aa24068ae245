import Garcon.Modules.Guard

/-!
# The header guard module

A request must carry a header, and possibly one given value of it, wherever a rule
matches its method and target.
-/

namespace Garcon
namespace Modules
namespace HeaderGuard

open Ascii Http

structure GuardRule where
  methodPattern : Bytes
  targetPattern : Bytes
  targetKind : PatternKind := .exact
  headerName : Bytes
  expectedValue : Option Bytes := none
  failureStatus : Int := 401
  failureBody : Bytes
deriving DecidableEq, Repr

def reasonPhraseForStatus (status : Int) : Bytes :=
  if status = 200 then ascii "OK"
  else if status = 400 then ascii "Bad Request"
  else if status = 401 then ascii "Unauthorized"
  else if status = 403 then ascii "Forbidden"
  else if status = 404 then ascii "Not Found"
  else if status = 405 then ascii "Method Not Allowed"
  else if status = 429 then ascii "Too Many Requests"
  else if status = 500 then ascii "Internal Server Error"
  else if status = 503 then ascii "Service Unavailable"
  else ascii "Unauthorized"

/-- The checks on the fields of a rule, once it is known where its status stands. -/
def makeRule (method target headerName : Bytes) (expectedValue : Option Bytes)
    (status body : Bytes) : Except String GuardRule := do
  let (targetPattern, targetKind) := classifyTargetPattern target
  if method = [] then throw "header_guard: method pattern must not be empty"
  if targetPattern = [] then throw "header_guard: target pattern must not be empty"
  if headerName = [] then throw "header_guard: header name must not be empty"
  let failureStatus ← parseStatusCode "header_guard" status
  return { methodPattern := method, targetPattern, targetKind, headerName, expectedValue,
           failureStatus, failureBody := body }

def parseRuleLine (line : Bytes) : Except String GuardRule :=
  match splitFields (line.drop 5) 0x7c with
  | [method, target, headerName, status, body] =>
    makeRule method target headerName none status body
  | [method, target, headerName, expected, status, body] =>
    makeRule method target headerName (some expected) status body
  | _ => .error "header_guard: rule requires 5 or 6 fields"

def parseRules (configText : Bytes) : Except String (List GuardRule) :=
  ((configLines configText).filter isRuleLine).mapM parseRuleLine

def requestSatisfiesRule (rule : GuardRule) (request : Request) : Bool :=
  match request.headerValue rule.headerName with
  | none => false
  | some actual =>
    match rule.expectedValue with
    | none => true
    | some expected => actual == expected

def guard : Guard GuardRule where
  methodPattern := (·.methodPattern)
  targetPattern := (·.targetPattern)
  targetKind := (·.targetKind)
  requestSatisfiesRule := requestSatisfiesRule
  failureStatus := (·.failureStatus)
  failureReason := fun rule => reasonPhraseForStatus rule.failureStatus
  failureBody := (·.failureBody)

def handle (rules : List GuardRule) (request : Request) : Module.Result :=
  guard.handle rules request

theorem range_of_makeRule {method target headerName status body : Bytes}
    {expectedValue : Option Bytes} {rule : GuardRule}
    (h : makeRule method target headerName expectedValue status body = .ok rule) :
    100 ≤ rule.failureStatus ∧ rule.failureStatus ≤ 999 := by
  unfold makeRule at h
  dsimp only [bind, Except.bind, pure, Except.pure, throw, throwThe, MonadExceptOf.throw] at h
  split_ifs at h
  cases hstatus : parseStatusCode "header_guard" status with
  | error what =>
      rw [hstatus] at h
      cases h
  | ok failureStatus =>
      rw [hstatus] at h
      cases h
      exact range_of_parseStatusCode hstatus

theorem range_of_parseRules {configText : Bytes} {rules : List GuardRule}
    (h : parseRules configText = .ok rules) {rule : GuardRule} (hrule : rule ∈ rules) :
    100 ≤ rule.failureStatus ∧ rule.failureStatus ≤ 999 := by
  obtain ⟨line, -, hline⟩ := exists_of_mem_mapM h hrule
  unfold parseRuleLine at hline
  split at hline
  · exact range_of_makeRule hline
  · exact range_of_makeRule hline
  · cases hline

theorem plainReason_reasonPhraseForStatus (status : Int) :
    PlainReason (reasonPhraseForStatus status) := by
  unfold reasonPhraseForStatus
  repeat refine plainReason_ite (by decide +kernel) ?_
  decide +kernel

end HeaderGuard
end Modules
end Garcon
