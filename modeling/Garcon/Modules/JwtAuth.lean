import Garcon.Module.Sdk
import Garcon.Modules.Rules

/-!
# The JWT authentication module

A request in the scope of a rule must carry a bearer token: three base64url segments, an
HS256 header, a matching HMAC and claims read from the payload by text search.

HMAC-SHA256 is a parameter that gives 32 bytes, and the clock is read as `now`.  The
accumulator of the decoder is a 32-bit `int`, and a number in the payload a 64-bit
`long long`; both are reduced after every operation.
-/

namespace Garcon
namespace Modules
namespace JwtAuth

open Ascii Search Http

/-! ## Configuration -/

structure AuthRule where
  methodPattern : Bytes
  targetPattern : Bytes
  targetKind : PatternKind := .exact
deriving DecidableEq, Repr

structure Settings where
  secret : Bytes
  alg : Bytes
  issuer : Option Bytes
  audience : Option Bytes
  rules : List AuthRule
deriving DecidableEq, Repr

def parseRuleLine (line : Bytes) : Except String AuthRule :=
  match splitFields (line.drop 5) 0x7c with
  | [method, target] =>
    let (targetPattern, targetKind) := classifyTargetPattern target
    if method = [] then .error "jwt_auth: method pattern must not be empty"
    else if targetPattern = [] then .error "jwt_auth: target pattern must not be empty"
    else .ok { methodPattern := method, targetPattern, targetKind }
  | _ => .error "jwt_auth: rule requires 2 fields (method|target)"

def parseRules (configText : Bytes) : Except String (List AuthRule) :=
  ((configLines configText).filter isRuleLine).mapM parseRuleLine

/-- The constructor. -/
def configure (configText : Bytes) : Except String Settings := do
  let rules ← parseRules configText
  let secret := (configGet configText (ascii "secret")).getD []
  if secret = [] then throw "jwt_auth: secret must not be empty"
  let alg := (configGet configText (ascii "alg")).getD (ascii "HS256")
  if alg ≠ ascii "HS256" then throw "jwt_auth: only alg=HS256 is supported"
  let issuer := (configGet configText (ascii "issuer")).filter (· ≠ [])
  let audience := (configGet configText (ascii "audience")).filter (· ≠ [])
  return { secret, alg, issuer, audience, rules }

/-! ## Tokens -/

def extractBearerToken (authValue : Bytes) : Option Bytes :=
  let val := trim authValue
  if val = [] then none
  else
    match cut [sp] val with
    | none => none
    | some (schemeText, rest) =>
      if (trim schemeText).map lower ≠ ascii "bearer" then none
      else if trim rest = [] then none
      else some (trim rest)

/-- The decoder's table, with nothing for the characters it skips. -/
def sextet (c : UInt8) : Option Int :=
  if c = 0x2d ∨ c = 0x2b then some 62
  else if c = 0x5f ∨ c = 0x2f then some 63
  else if isDigit c then some (52 + (c.toNat - 0x30))
  else if isUpper c then some (c.toNat - 0x41)
  else if isLower c then some (26 + (c.toNat - 0x61))
  else none

structure Decoder where
  val : Int := 0
  valb : Int := -8
  out : Bytes := []
deriving DecidableEq, Repr

/-- One character.  `>>` rounds down and `& 0xFF` is the remainder. -/
def Decoder.step (d : Decoder) (c : UInt8) : Decoder :=
  match sextet c with
  | none => d
  | some b =>
    let val := wrapInt (wrapInt (d.val * 2 ^ 6) + b)
    let valb := d.valb + 6
    if 0 ≤ valb then
      { val, valb := valb - 8
        out := d.out ++ [UInt8.ofNat (val / 2 ^ valb.toNat % 256).toNat] }
    else { d with val, valb }

def base64urlDecode (input : Bytes) : Bytes := (input.foldl Decoder.step {}).out

/-! ## Claims -/

/-- The value of a `long long` after an overflow. -/
def wrapLong (n : Int) : Int := n.bmod (2 ^ 64)

/-- A string value from behind its opening quote on.  An escaped character stands for
itself. -/
def readJsonString : Bool → Bytes → Bytes
  | _, [] => []
  | true, c :: rest => c :: readJsonString false rest
  | false, c :: rest =>
    if c = 0x5c then readJsonString true rest
    else if c = 0x22 then []
    else c :: readJsonString false rest

/-- The two spellings of a string member that are searched for, in this order. -/
def tightKey (claim : Bytes) : Bytes := ascii "\"" ++ claim ++ ascii "\":\""

def spacedKey (claim : Bytes) : Bytes := ascii "\"" ++ claim ++ ascii "\": \""

def extractJsonString (payload claim : Bytes) : Bytes :=
  match cut (tightKey claim) payload with
  | some (_, rest) => readJsonString false rest
  | none =>
    match cut (spacedKey claim) payload with
    | some (_, rest) => readJsonString false rest
    | none => []

/-- The digit loop. -/
def readDigits (digits : Bytes) : Int :=
  digits.foldl (fun v c => wrapLong (v * 10 + digitValue c)) 0

/-- A number value from behind the colon on, or `defaultValue`. -/
def readJsonInt (rest : Bytes) (defaultValue : Int) : Int :=
  match rest.dropWhile isSpace with
  | [] => defaultValue
  | c :: more =>
    let digits := ((if c = 0x2d then more else c :: more).takeWhile isDigit)
    if digits = [] then defaultValue
    else if c = 0x2d then wrapLong (-readDigits digits)
    else readDigits digits

def intKey (claim : Bytes) : Bytes := ascii "\"" ++ claim ++ ascii "\":"

def extractJsonInt (payload claim : Bytes) : Int :=
  match cut (intKey claim) payload with
  | none => 0
  | some (_, rest) => readJsonInt rest 0

structure JwtClaims where
  sub : Bytes
  roles : Bytes
  iss : Bytes
  aud : Bytes
  exp : Int
deriving DecidableEq, Repr

/-- The first string of an audience array. -/
def extractAudienceArray (payload : Bytes) : Bytes :=
  match cut (ascii "\"aud\":[") payload with
  | none => []
  | some (_, rest) =>
    match cut [0x22] rest with
    | none => []
    | some (_, rest) =>
      match cut [0x22] rest with
      | none => []
      | some (first, _) => first

def extractAudience (payload : Bytes) : Bytes :=
  let aud := extractJsonString payload (ascii "aud")
  if aud = [] then extractAudienceArray payload else aud

def extractRoles (payload : Bytes) : Bytes :=
  let roles := extractJsonString payload (ascii "roles")
  if roles = [] then extractJsonString payload (ascii "role") else roles

def extractClaims (payload : Bytes) : JwtClaims where
  sub := extractJsonString payload (ascii "sub")
  roles := extractRoles payload
  iss := extractJsonString payload (ascii "iss")
  aud := extractAudience payload
  exp := extractJsonInt payload (ascii "exp")

/-! ## Validation -/

inductive Failure where
  | malformed
  | badSignature
  | issuerMismatch
  | audienceMismatch
  | expired
deriving DecidableEq, Repr

/-- HMAC-SHA256 of a key and a message. -/
abbrev Hmac := Bytes → Bytes → Vector UInt8 32

/-- The three segments, none of them empty. -/
def splitToken (token : Bytes) : Option (Bytes × Bytes × Bytes) :=
  match cut [0x2e] token with
  | none => none
  | some (h64, rest) =>
    match cut [0x2e] rest with
    | none => none
    | some (p64, s64) =>
      if 0x2e ∈ s64 then none
      else if h64 = [] ∨ p64 = [] ∨ s64 = [] then none
      else some (h64, p64, s64)

def isHs256 (header : Bytes) : Bool :=
  (find (ascii "\"alg\":\"HS256\"") header).isSome ||
    (find (ascii "\"alg\": \"HS256\"") header).isSome

/-- A required value that is set, not empty and not the claim's. -/
def mismatched (required : Option Bytes) (claim : Bytes) : Bool :=
  match required with
  | none => false
  | some value => value ≠ [] && claim ≠ value

/-- The checks on the claims of a token whose signature is right. -/
def checkClaims (issuer audience : Option Bytes) (now : Int) (claims : JwtClaims) :
    Except Failure JwtClaims :=
  if mismatched issuer claims.iss then .error .issuerMismatch
  else if mismatched audience claims.aud then .error .audienceMismatch
  else if claims.exp ≠ 0 ∧ claims.exp ≤ now then .error .expired
  else .ok claims

def validateAndExtract (hmac : Hmac) (secret : Bytes) (issuer audience : Option Bytes)
    (now : Int) (token : Bytes) : Except Failure JwtClaims :=
  match splitToken token with
  | none => .error .malformed
  | some (h64, p64, s64) =>
    if !isHs256 (base64urlDecode h64) then .error .malformed
    else if (hmac secret (h64 ++ ascii "." ++ p64)).toList ≠ base64urlDecode s64 then
      .error .badSignature
    else checkClaims issuer audience now (extractClaims (base64urlDecode p64))

/-! ## Requests -/

def makeUnauthorized (body : Bytes) : Response := .text 401 (ascii "Unauthorized") body

def ruleMatches (rule : AuthRule) (request : Request) : Bool :=
  methodMatches rule.methodPattern request.method &&
    targetMatches rule.targetKind rule.targetPattern request.target

/-- Without rules every request is in scope. -/
def enforces (rules : List AuthRule) (request : Request) : Bool :=
  rules.isEmpty || rules.any (ruleMatches · request)

def addClaim (name claim : Bytes) (result : Module.Result) : Module.Result :=
  if claim = [] then result else result.addResponseHeader name claim

/-- The pass result with the claims that are not empty. -/
def passClaims (claims : JwtClaims) : Module.Result :=
  let result := addClaim (ascii "X-Garcon-User-Id") claims.sub .pass
  let result := addClaim (ascii "X-Garcon-Roles") claims.roles result
  let result := addClaim (ascii "X-Garcon-Claim-iss") claims.iss result
  addClaim (ascii "X-Garcon-Claim-aud") claims.aud result

def handle (hmac : Hmac) (now : Int) (m : Settings) (request : Request) : Module.Result :=
  if !enforces m.rules request then .pass
  else
    match (request.headerValue (ascii "Authorization")).bind extractBearerToken with
    | none => .respond (makeUnauthorized (ascii "missing token\n"))
    | some token =>
      match validateAndExtract hmac m.secret m.issuer m.audience now token with
      | .ok claims => passClaims claims
      | .error .expired => .respond (makeUnauthorized (ascii "token expired\n"))
      | .error _ => .respond (makeUnauthorized (ascii "invalid token\n"))

end JwtAuth
end Modules
end Garcon
