import Garcon.Library.TokenBucket
import Garcon.Module.Sdk
import Garcon.Modules.Rules

/-!
# The rate limit module

Every rule keeps a token bucket for each subject it has seen.  A request consumes one
token of the bucket of the first rule it matches, or is answered with status 429.

The source's `double` is `ℚ` here.  A clock reading is a number of seconds, and zero
marks a bucket that was never refilled.
-/

namespace Garcon
namespace Modules
namespace RateLimit

open Ascii Http TokenBucket

inductive KeyKind where
  | global
  | header
deriving DecidableEq, Repr

structure Rule where
  methodPattern : Bytes
  targetPattern : Bytes
  targetKind : PatternKind := .exact
  keyType : KeyKind := .header
  keyName : Bytes
  limit : Int
  windowSeconds : Int
  burst : Int
deriving DecidableEq, Repr

/-! ## Configuration -/

def parsePositiveInt (value : Bytes) (what : String) : Except String Int :=
  if value = [] then .error ("rate_limit: " ++ what ++ " must not be empty")
  else
    match readDecimal value with
    | none => .error ("rate_limit: invalid " ++ what)
    | some v => if v ≤ 0 then .error ("rate_limit: " ++ what ++ " must be positive") else .ok v

/-- The number part of a window and the seconds its unit stands for. -/
def splitWindowUnit (value : Bytes) : Bytes × Int :=
  match value.getLast? with
  | some 0x73 => (value.dropLast, 1)
  | some 0x53 => (value.dropLast, 1)
  | some 0x6d => (value.dropLast, 60)
  | some 0x4d => (value.dropLast, 60)
  | some 0x68 => (value.dropLast, 3600)
  | some 0x48 => (value.dropLast, 3600)
  | _ => (value, 1)

def parseWindowSeconds (value : Bytes) : Except String Int := do
  if value = [] then throw "rate_limit: window must not be empty"
  let (numPart, multiplier) := splitWindowUnit value
  let seconds ← parsePositiveInt numPart "window"
  let total := seconds * multiplier
  if 1000000000 < total then throw "rate_limit: window too large"
  return total

def parseKeySpec (spec : Bytes) : Except String (KeyKind × Bytes) :=
  if spec = ascii "global" then .ok (.global, [])
  else if 7 < spec.length ∧ spec.take 7 = ascii "header:" then
    if spec.drop 7 = [] then .error "rate_limit: header key name must not be empty"
    else .ok (.header, spec.drop 7)
  else if spec ≠ [] ∧ 0x3a ∉ spec then .ok (.header, spec)
  else .error "rate_limit: key must be 'global' or 'header:NAME' (or bare NAME)"

def parseRule (line : Bytes) : Except String Rule := do
  match splitFields (line.drop 5) 0x7c with
  | methodPattern :: target :: key :: limitText :: window :: more =>
    let (targetPattern, targetKind) := classifyTargetPattern target
    if methodPattern = [] then throw "rate_limit: method pattern must not be empty"
    if targetPattern = [] then throw "rate_limit: target pattern must not be empty"
    let (keyType, keyName) ← parseKeySpec key
    let limit ← parsePositiveInt limitText "limit"
    let windowSeconds ← parseWindowSeconds window
    let burst ← match more with
      | burstText :: _ => if burstText = [] then pure limit else parsePositiveInt burstText "burst"
      | [] => pure limit
    -- The burst is at least the sustained rate.
    let burst := if burst < limit then limit else burst
    return { methodPattern, targetPattern, targetKind, keyType, keyName, limit, windowSeconds,
             burst }
  | _ => throw "rate_limit: rule requires at least 5 fields (method|target|key|limit|window)"

/-- The constructor: the rules of a configuration, of which there is at least one. -/
def parseRules (configText : Bytes) : Except String (List Rule) := do
  let parsed ← ((configLines configText).filter isRuleLine).mapM parseRule
  if parsed = [] then throw "rate_limit: at least one rule= line is required"
  return parsed

/-! ## Requests -/

def asciiLowercase (v : Bytes) : Bytes := v.map lower

def findHeaderIcase (request : Request) (name : Bytes) : Option Bytes :=
  (request.headers.find? fun h => asciiLowercase h.name == asciiLowercase name).map (·.value)

def extractSubject (request : Request) (r : Rule) : Bytes :=
  match r.keyType with
  | .global => ascii "global"
  | .header =>
    match findHeaderIcase request r.keyName with
    | none => ascii "<anonymous>"
    | some value => if value = [] then ascii "<anonymous>" else value

def makeRateLimitResponse (limit windowSeconds retryAfterSeconds : Int) :
    Except String Response := do
  let resp := Response.text 429 (ascii "Too Many Requests") (ascii "rate limit exceeded\n")
  let resp ← resp.setHeader (ascii "X-RateLimit-Limit") (decimalInt limit)
  let resp ← resp.setHeader (ascii "Retry-After")
    (decimalInt (if 0 < retryAfterSeconds then retryAfterSeconds else 1))
  resp.setHeader (ascii "X-RateLimit-Reset") (decimalInt windowSeconds)

/-- The buckets by their state key. -/
abbrev Buckets := Bytes → Option (Bucket ℚ)

def Buckets.set (buckets : Buckets) (key : Bytes) (bucket : Bucket ℚ) : Buckets :=
  fun k => if k = key then some bucket else buckets k

def makeStateKey (ruleIndex : Nat) (subject : Bytes) : Bytes :=
  decimal ruleIndex ++ ascii ":" ++ subject

def ratePerSec (r : Rule) : ℚ :=
  r.limit / (if 0 < r.windowSeconds then r.windowSeconds else 1 : Int)

def maxTokens (r : Rule) : ℚ := r.burst

/-- `static_cast<int>`. -/
def truncate (x : ℚ) : Int := if 0 ≤ x then x.floor else x.ceil

/-- Seconds until the bucket holds a whole token. -/
def retryAfter (r : Rule) (bucket : Bucket ℚ) : Int :=
  let needed := 1 - bucket.tokens
  if 0 < ratePerSec r then
    let secs := needed / ratePerSec r
    let retryAfter := truncate (secs + 999 / 1000)
    let retryAfter := if retryAfter < 1 then 1 else retryAfter
    if r.windowSeconds < retryAfter then r.windowSeconds else retryAfter
  else 1

/-- The part of `check_and_consume` under the lock.  Nothing is an admission. -/
def checkAndConsume (r : Rule) (ruleIndex : Nat) (subject : Bytes) (now : ℚ)
    (buckets : Buckets) : Except String (Option Response) × Buckets :=
  let skey := makeStateKey ruleIndex subject
  -- A new entry of the map holds no tokens and the zero time.
  let bucket := (buckets skey).getD ⟨0, 0⟩
  let bucket := if bucket.last = 0 then { bucket with tokens := maxTokens r, last := now }
    else bucket
  let elapsed := now - bucket.last
  let bucket :=
    if 0 < elapsed then
      { bucket with tokens := min (bucket.tokens + elapsed * ratePerSec r) (maxTokens r)
                    last := now }
    else bucket
  if 1 ≤ bucket.tokens then
    (.ok none, buckets.set skey { bucket with tokens := bucket.tokens - 1 })
  else
    ((makeRateLimitResponse r.limit r.windowSeconds (retryAfter r bucket)).map some,
      buckets.set skey bucket)

/-- The second lock section: the tokens left for the response header. -/
def remaining (r : Rule) (ruleIndex : Nat) (subject : Bytes) (buckets : Buckets) : Bytes :=
  match buckets (makeStateKey ruleIndex subject) with
  | none => decimalInt r.burst
  | some bucket =>
    let rem := truncate bucket.tokens
    decimalInt (if rem < 0 then 0 else rem)

def ruleMatches (r : Rule) (request : Request) : Bool :=
  methodMatches r.methodPattern request.method &&
    targetMatches r.targetKind r.targetPattern request.target

/-- What a request under a rule gets, once its subject is known. -/
def applyRule (r : Rule) (ruleIndex : Nat) (request : Request) (now : ℚ) (buckets : Buckets) :
    Except String Module.Result × Buckets :=
  let subject := extractSubject request r
  match checkAndConsume r ruleIndex subject now buckets with
  | (.error what, buckets) => (.error what, buckets)
  | (.ok (some resp), buckets) =>
    let resp :=
      if (resp.findHeader (ascii "X-RateLimit-Limit")).isNone then
        resp.setHeader (ascii "X-RateLimit-Limit") (decimalInt r.limit)
      else .ok resp
    (resp.map Module.Result.respond, buckets)
  | (.ok none, buckets) =>
    let result := Module.Result.pass
    let result := result.addResponseHeader (ascii "X-RateLimit-Limit") (decimalInt r.limit)
    let result := result.addResponseHeader (ascii "X-RateLimit-Remaining")
      (remaining r ruleIndex subject buckets)
    let result := result.addResponseHeader (ascii "X-RateLimit-Reset")
      (decimalInt r.windowSeconds)
    (.ok result, buckets)

/-- `handle` from the rule with index `i` on. -/
def handleFrom (i : Nat) (rules : List Rule) (request : Request) (now : ℚ) (buckets : Buckets) :
    Except String Module.Result × Buckets :=
  match rules with
  | [] => (.ok Module.Result.pass, buckets)
  | r :: rules =>
    if ruleMatches r request then applyRule r i request now buckets
    else handleFrom (i + 1) rules request now buckets

def handle (rules : List Rule) (request : Request) (now : ℚ) (buckets : Buckets) :
    Except String Module.Result × Buckets :=
  handleFrom 0 rules request now buckets

/-- The bucket of an entry after the first visit and the refill. -/
def refilled (r : Rule) (now : ℚ) (entry : Option (Bucket ℚ)) : Bucket ℚ :=
  let bucket := entry.getD ⟨0, 0⟩
  let bucket := if bucket.last = 0 then { bucket with tokens := maxTokens r, last := now }
    else bucket
  let elapsed := now - bucket.last
  if 0 < elapsed then
    { bucket with tokens := min (bucket.tokens + elapsed * ratePerSec r) (maxTokens r)
                  last := now }
  else bucket

/-- A call reads and writes the entry of its own key. -/
theorem checkAndConsume_eq_ite (r : Rule) (ruleIndex : Nat) (subject : Bytes) (now : ℚ)
    (buckets : Buckets) :
    checkAndConsume r ruleIndex subject now buckets =
      if 1 ≤ (refilled r now (buckets (makeStateKey ruleIndex subject))).tokens then
        (.ok none, buckets.set (makeStateKey ruleIndex subject)
          { refilled r now (buckets (makeStateKey ruleIndex subject)) with
            tokens := (refilled r now (buckets (makeStateKey ruleIndex subject))).tokens - 1 })
      else
        ((makeRateLimitResponse r.limit r.windowSeconds
            (retryAfter r (refilled r now (buckets (makeStateKey ruleIndex subject))))).map some,
          buckets.set (makeStateKey ruleIndex subject)
            (refilled r now (buckets (makeStateKey ruleIndex subject)))) := rfl

end RateLimit
end Modules
end Garcon
