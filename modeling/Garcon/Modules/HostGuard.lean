import Garcon.Modules.Guard

/-!
# The host guard module

A request must name one of the hosts a rule lists, wherever the rule matches its method
and target.
-/

namespace Garcon
namespace Modules
namespace HostGuard

open Ascii Search Http

inductive HostPatternKind where
  | exact
  | suffix
deriving DecidableEq, Repr

structure HostPattern where
  value : Bytes
  kind : HostPatternKind := .exact
deriving DecidableEq, Repr

structure GuardRule where
  methodPattern : Bytes
  targetPattern : Bytes
  targetKind : PatternKind := .exact
  allowedHosts : List HostPattern
  failureStatus : Int := 421
  failureBody : Bytes
deriving DecidableEq, Repr

def asciiLowercase (value : Bytes) : Bytes := value.map lower

def reasonPhraseForStatus (status : Int) : Bytes :=
  if status = 200 then ascii "OK"
  else if status = 400 then ascii "Bad Request"
  else if status = 404 then ascii "Not Found"
  else if status = 405 then ascii "Method Not Allowed"
  else if status = 421 then ascii "Misdirected Request"
  else if status = 429 then ascii "Too Many Requests"
  else if status = 500 then ascii "Internal Server Error"
  else if status = 503 then ascii "Service Unavailable"
  else ascii "Misdirected Request"

/-- `*.` at the front makes a suffix pattern, which keeps the dot. -/
def parseHostPattern (value : Bytes) : Except String HostPattern :=
  if value = [] then .error "host_guard: host pattern must not be empty"
  else if 2 < value.length ∧ (asciiLowercase value).take 2 = ascii "*." then
    .ok { value := (asciiLowercase value).drop 1, kind := .suffix }
  else .ok { value := asciiLowercase value }

def parseHostPatterns (value : Bytes) : Except String (List HostPattern) := do
  let patterns ← ((splitFields value 0x2c).filter (· ≠ [])).mapM parseHostPattern
  if patterns = [] then throw "host_guard: rule requires at least one host pattern"
  return patterns

def parseRuleLine (line : Bytes) : Except String GuardRule := do
  match splitFields (line.drop 5) 0x7c with
  | [method, target, hosts, status, body] =>
    let (targetPattern, targetKind) := classifyTargetPattern target
    let allowedHosts ← parseHostPatterns hosts
    if method = [] then throw "host_guard: method pattern must not be empty"
    if targetPattern = [] then throw "host_guard: target pattern must not be empty"
    let failureStatus ← parseStatusCode "host_guard" status
    return { methodPattern := method, targetPattern, targetKind, allowedHosts, failureStatus,
             failureBody := body }
  | _ => throw "host_guard: rule requires 5 fields"

def parseRules (configText : Bytes) : Except String (List GuardRule) :=
  ((configLines configText).filter isRuleLine).mapM parseRuleLine

/-- What stands behind the only colon of a host, when it is a port. -/
def isNumericPort (port : Bytes) : Bool := port ≠ [] && port.all isDigit

def normalizeHostHeader (value : Bytes) : Bytes :=
  let host := trim value
  if host = [] then []
  else if host.head? = some 0x5b then
    match find [0x5d] host with
    | none => asciiLowercase host
    | some close => asciiLowercase (host.take (close + 1))
  else
    match cut [0x3a] host with
    | none => asciiLowercase host
    | some (name, port) =>
      -- A second colon means that the first is not the last.
      if 0x3a ∉ port ∧ isNumericPort port = true then asciiLowercase name
      else asciiLowercase host

def hostMatches (pattern : HostPattern) (actualHost : Bytes) : Bool :=
  match pattern.kind with
  | .exact => iequals pattern.value actualHost
  | .suffix =>
    pattern.value.length < actualHost.length &&
      actualHost.drop (actualHost.length - pattern.value.length) == pattern.value

def requestSatisfiesRule (rule : GuardRule) (request : Request) : Bool :=
  match request.headerValue (ascii "Host") with
  | none => false
  | some host =>
    let normalizedHost := normalizeHostHeader host
    if normalizedHost = [] then false
    else rule.allowedHosts.any (hostMatches · normalizedHost)

def guard : Guard GuardRule where
  methodPattern := (·.methodPattern)
  targetPattern := (·.targetPattern)
  targetKind := (·.targetKind)
  requestSatisfiesRule := requestSatisfiesRule
  failureStatus := (·.failureStatus)
  failureReason := fun rule => reasonPhraseForStatus rule.failureStatus
  failureBody := (·.failureBody)

def handle (rules : List GuardRule) (request : Request) : Module.Result :=
  guard.handle rules request

theorem range_of_parseRules {configText : Bytes} {rules : List GuardRule}
    (h : parseRules configText = .ok rules) {rule : GuardRule} (hrule : rule ∈ rules) :
    100 ≤ rule.failureStatus ∧ rule.failureStatus ≤ 999 := by
  obtain ⟨line, -, hline⟩ := exists_of_mem_mapM h hrule
  unfold parseRuleLine at hline
  split at hline
  · next method target hosts status body _ =>
      dsimp only [bind, Except.bind, pure, Except.pure, throw, throwThe,
        MonadExceptOf.throw] at hline
      cases hhosts : parseHostPatterns hosts with
      | error what =>
          rw [hhosts] at hline
          cases hline
      | ok allowedHosts =>
          rw [hhosts] at hline
          dsimp only at hline
          split_ifs at hline
          cases hstatus : parseStatusCode "host_guard" status with
          | error what =>
              rw [hstatus] at hline
              cases hline
          | ok failureStatus =>
              rw [hstatus] at hline
              cases hline
              exact range_of_parseStatusCode hstatus
  · cases hline

theorem plainReason_reasonPhraseForStatus (status : Int) :
    PlainReason (reasonPhraseForStatus status) := by
  unfold reasonPhraseForStatus
  repeat refine plainReason_ite (by decide +kernel) ?_
  decide +kernel

end HostGuard
end Modules
end Garcon
