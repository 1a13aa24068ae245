import Garcon.Module.Sdk
import Garcon.Modules.Rules

/-!
# The CORS module

The first rule whose target pattern matches decides about a request with an `Origin`: it
answers a preflight request, and lets an actual request pass with the headers for it.
-/

namespace Garcon
namespace Modules
namespace Cors

open Ascii Http

structure OriginPattern where
  value : Bytes
  allowAny : Bool := false
deriving DecidableEq, Repr

structure Rule where
  targetPattern : Bytes
  targetKind : PatternKind := .exact
  allowedOrigins : List OriginPattern
  allowedMethods : List Bytes
  allowMethodsHeader : Bytes
  allowHeadersHeader : Bytes
deriving DecidableEq, Repr

def asciiLowercase (value : Bytes) : Bytes := value.map lower

/-! ## Configuration -/

def parseOriginPattern (value : Bytes) : Except String OriginPattern :=
  if value = [] then .error "cors: origin pattern must not be empty"
  else .ok { value, allowAny := value == ascii "*" }

def parseOriginPatterns (value : Bytes) : Except String (List OriginPattern) := do
  let patterns ← ((splitFields value 0x2c).filter (· ≠ [])).mapM parseOriginPattern
  if patterns = [] then throw "cors: rule requires at least one origin"
  return patterns

def parseAllowedMethods (value : Bytes) : Except String (List Bytes) :=
  let methods := ((splitFields value 0x2c).filter (· ≠ [])).map asciiLowercase
  if methods = [] then .error "cors: rule requires at least one method" else .ok methods

def parseRuleLine (line : Bytes) : Except String Rule := do
  match splitFields (line.drop 5) 0x7c with
  | [target, origins, methods, headers] =>
    let (targetPattern, targetKind) := classifyTargetPattern target
    let allowedOrigins ← parseOriginPatterns origins
    let allowedMethods ← parseAllowedMethods methods
    if targetPattern = [] then throw "cors: target pattern must not be empty"
    return { targetPattern, targetKind, allowedOrigins, allowedMethods,
             allowMethodsHeader := methods, allowHeadersHeader := headers }
  | _ => throw "cors: rule requires 4 fields"

def parseRules (configText : Bytes) : Except String (List Rule) :=
  ((configLines configText).filter isRuleLine).mapM parseRuleLine

/-! ## Requests -/

def isPreflightRequest (request : Request) : Bool :=
  request.method == ascii "OPTIONS" && (request.headerValue (ascii "Origin")).isSome &&
    (request.headerValue (ascii "Access-Control-Request-Method")).isSome

def originMatches (pattern : OriginPattern) (origin : Bytes) : Bool :=
  pattern.allowAny || pattern.value == origin

def originAllowed (rule : Rule) (origin : Bytes) : Bool :=
  rule.allowedOrigins.any (originMatches · origin)

def anyOriginAllowed (rule : Rule) : Bool := rule.allowedOrigins.any (·.allowAny)

def methodAllowed (rule : Rule) (method : Bytes) : Bool :=
  rule.allowedMethods.any (· == asciiLowercase method)

def allowedOriginValue (rule : Rule) (requestOrigin : Bytes) : Bytes :=
  if anyOriginAllowed rule then ascii "*" else requestOrigin

def addCorsHeaders (response : Response) (rule : Rule) (requestOrigin : Bytes) :
    Except String Response := do
  let response ← response.setHeader (ascii "Access-Control-Allow-Origin")
    (allowedOriginValue rule requestOrigin)
  if anyOriginAllowed rule then return response
  else response.addHeader (ascii "Vary") (ascii "Origin")

def makePreflightResponse (rule : Rule) (requestOrigin : Bytes) : Except String Response := do
  let response : Response :=
    { status := 204, reason := ascii "No Content", contentLength := some 0 }
  let response ← addCorsHeaders response rule requestOrigin
  let response ← response.setHeader (ascii "Access-Control-Allow-Methods")
    rule.allowMethodsHeader
  if rule.allowHeadersHeader = [] then return response
  else response.setHeader (ascii "Access-Control-Allow-Headers") rule.allowHeadersHeader

def originNotAllowed : Response :=
  .text 403 (ascii "Forbidden") (ascii "cors origin not allowed\n")

def methodNotAllowed : Response :=
  .text 405 (ascii "Method Not Allowed") (ascii "cors method not allowed\n")

def passCors (rule : Rule) (requestOrigin : Bytes) : Module.Result :=
  let result := Module.Result.pass.addResponseHeader (ascii "Access-Control-Allow-Origin")
    (allowedOriginValue rule requestOrigin)
  if anyOriginAllowed rule then result
  else result.addResponseHeader (ascii "Vary") (ascii "Origin")

def answerPreflight (rule : Rule) (request : Request) (requestOrigin : Bytes) :
    Except String Module.Result :=
  let requestedMethod :=
    (request.headerValue (ascii "Access-Control-Request-Method")).getD []
  if !methodAllowed rule requestedMethod then .ok (.respond methodNotAllowed)
  else (makePreflightResponse rule requestOrigin).map Module.Result.respond

/-- What a request under a rule gets. -/
def applyRule (rule : Rule) (request : Request) (requestOrigin : Bytes) :
    Except String Module.Result :=
  if !originAllowed rule requestOrigin then
    if isPreflightRequest request then .ok (.respond originNotAllowed) else .ok .pass
  else if isPreflightRequest request then answerPreflight rule request requestOrigin
  else if !methodAllowed rule request.method then .ok (.respond methodNotAllowed)
  else .ok (passCors rule requestOrigin)

def handle (rules : List Rule) (request : Request) : Except String Module.Result :=
  match request.headerValue (ascii "Origin") with
  | none => .ok .pass
  | some requestOrigin =>
    match rules.find? fun rule =>
      targetMatches rule.targetKind rule.targetPattern request.target with
    | none => .ok .pass
    | some rule => applyRule rule request requestOrigin

end Cors
end Modules
end Garcon
