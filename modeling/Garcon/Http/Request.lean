import Garcon.Http.Header

/-!
# Requests

The parsed request and `request::parse`.  The source parses by position: it
finds a separator, takes the text before it and continues behind it.  Here each
such step is `cut`, and the unread part of the header block is carried instead
of `line_begin`.
-/

namespace Garcon
namespace Http

open Ascii Search Trim

inductive RequestParseError where
  | malformedRequestLine
  | invalidMethod
  | invalidTarget
  | invalidVersion
  | invalidHeader
deriving DecidableEq, Repr

structure Request where
  versionMajor : Int := 1
  versionMinor : Int := 1
  method : Bytes
  target : Bytes
  headers : List HeaderField
deriving DecidableEq, Repr

def isValidMethod (method : Bytes) : Bool := isToken method

/-- Only origin-form targets are served. -/
def isValidTarget (target : Bytes) : Bool :=
  target.head? == some 0x2f &&
    target.all fun ch => !(ch ≤ 0x20 || 0x7f ≤ ch) && !(ch == 0x23 || ch == 0x5c)

def isValidVersion (version : Bytes) : Bool :=
  version == ascii "HTTP/1.0" || version == ascii "HTTP/1.1"

/-- `std::from_chars` on the one-byte view `parse_version` hands it. -/
def parseComponent (component : Bytes) : Option Int :=
  match component with
  | [ch] => if isDigit ch then some (digitValue ch) else none
  | _ => none

def parseVersion (version : Bytes) : Option (Int × Int) :=
  if version.length ≠ 8 ∨ version.take 5 ≠ ascii "HTTP/" then none
  else if version[6]? ≠ some 0x2e then none
  else
    match parseComponent ((version.drop 5).take 1), parseComponent ((version.drop 7).take 1) with
    | some major, some minor => some (major, minor)
    | _, _ => none

def isOptionalWhitespace (ch : UInt8) : Bool := ch == sp || ch == tab

def trimOptionalWhitespace (value : Bytes) : Bytes := trim isOptionalWhitespace value

def isValidHeaderName (name : Bytes) : Bool := isToken name

def isValidHeaderValue (value : Bytes) : Bool :=
  value.all fun ch => ch == tab || !(ch < 0x20 || ch == 0x7f)

def parseHeaderLine (line : Bytes) : Option HeaderField :=
  match line with
  | [] => none
  | front :: _ =>
    if isOptionalWhitespace front then none
    else
      match cut [0x3a] line with
      | none => none
      | some (name, afterColon) =>
        if name = [] then none
        else
          let value := trimOptionalWhitespace afterColon
          if isValidHeaderName name && isValidHeaderValue value then some ⟨name, value⟩
          else none

/-- The header loop of `request::parse` from `line_begin` on. -/
def parseHeaderLines (rest : Bytes) : Except RequestParseError (List HeaderField) :=
  match _hc : cut crlf rest with
  | none => .error .invalidHeader
  | some (line, rest') =>
    if line = [] then .ok []
    else
      match parseHeaderLine line with
      | none => .error .invalidHeader
      | some header => (parseHeaderLines rest').map (header :: ·)
termination_by rest.length
decreasing_by exact length_lt_of_cut crlf_ne_nil _hc

theorem parseHeaderLines_of_none {rest : Bytes} (h : cut crlf rest = none) :
    parseHeaderLines rest = .error .invalidHeader := by
  rw [parseHeaderLines]
  split
  · rfl
  · next hc => rw [h] at hc; cases hc

theorem parseHeaderLines_of_cut {rest line rest' : Bytes}
    (h : cut crlf rest = some (line, rest')) :
    parseHeaderLines rest =
      if line = [] then .ok []
      else
        match parseHeaderLine line with
        | none => .error .invalidHeader
        | some header => (parseHeaderLines rest').map (header :: ·) := by
  rw [parseHeaderLines]
  split
  · next hc => rw [h] at hc; cases hc
  · next hc =>
    rw [h, Option.some.injEq, Prod.mk.injEq] at hc
    rw [hc.1, hc.2]

namespace Request

/-- Parses and validates the request line and header fields of a header block. -/
def parse (headerBlock : Bytes) : Except RequestParseError Request :=
  match cut crlf headerBlock with
  | none => .error .malformedRequestLine
  | some (line, rest) =>
    match cut [sp] line with
    | none => .error .malformedRequestLine
    | some (method, afterMethod) =>
      match cut [sp] afterMethod with
      | none => .error .malformedRequestLine
      | some (target, version) =>
        if (find [sp] version).isSome then .error .malformedRequestLine
        else if !isValidMethod method then .error .invalidMethod
        else if !isValidTarget target then .error .invalidTarget
        else if !isValidVersion version then .error .invalidVersion
        else
          match parseVersion version with
          | none => .error .invalidVersion
          | some (major, minor) =>
            (parseHeaderLines rest).map fun headers =>
              { versionMajor := major, versionMinor := minor, method, target, headers }

def findHeader (r : Request) (name : Bytes) : Option HeaderField :=
  Http.findHeader r.headers name

def headerValue (r : Request) (name : Bytes) : Option Bytes :=
  (r.findHeader name).map (·.value)

def asciiIequals (left right : Bytes) : Bool := iequals left right

/-- Looks for `token` among the comma-separated parts of the first `Connection`
header. -/
def connectionTokenPresent (r : Request) (token : Bytes) : Bool :=
  match r.headerValue (ascii "Connection") with
  | none => false
  | some value =>
    (splitAll [0x2c] (by decide) value).any fun part =>
      asciiIequals (trimOptionalWhitespace part) token

def keepAliveRequested (r : Request) : Bool :=
  if r.versionMajor = 1 ∧ r.versionMinor = 0 then
    r.connectionTokenPresent (ascii "keep-alive")
  else if r.versionMajor = 1 ∧ r.versionMinor = 1 then
    !r.connectionTokenPresent (ascii "close")
  else false

def versionString (r : Request) : Bytes :=
  ascii "HTTP/" ++ decimalInt r.versionMajor ++ ascii "." ++ decimalInt r.versionMinor

end Request
end Http
end Garcon
