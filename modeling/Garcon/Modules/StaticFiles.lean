import Garcon.Module.Sdk

/-!
# The static file module

A target is mapped to a relative path, resolved under the document root and served
from there.  A path is the list of its components below the file system's root.

The file system is a parameter.  It does not change during a call.
-/

namespace Garcon
namespace Modules
namespace StaticFiles

open Ascii Search Http

abbrev Path := List Bytes

/-- What the standard library reports about the file system. -/
structure FileSystem where
  /-- `fs::canonical`, or nothing on an error. -/
  canonical : Path → Option Path
  /-- Nothing when the entry cannot be read, else whether it is a regular file. -/
  isRegularFile : Path → Option Bool
  /-- `file_size`, or the message of its exception. -/
  fileSize : Path → Except String Nat
  /-- The bytes an input stream delivers, or nothing when it cannot be opened. -/
  bytes : Path → Option Bytes

def maxFileBytes : Nat := 8 * 1024 * 1024

/-- Reads exactly `size` bytes. -/
def readFileBytes (fs : FileSystem) (path : Path) (size : Nat) : Option Bytes :=
  match fs.bytes path with
  | none => none
  | some bytes => if bytes.length < size then none else some (bytes.take size)

/-- `path::extension`: from the last dot of the file name on, unless it starts with it. -/
def extension (name : Bytes) : Bytes :=
  if name = ascii "." ∨ name = ascii ".." then []
  else
    let stem := name.reverse.dropWhile (· != 0x2e)
    if stem.length ≤ 1 then [] else name.drop (stem.length - 1)

def guessContentType (path : Path) : Bytes :=
  let ext := extension (path.getLast?.getD [])
  if ext = ascii ".html" ∨ ext = ascii ".htm" then ascii "text/html; charset=utf-8"
  else if ext = ascii ".css" then ascii "text/css; charset=utf-8"
  else if ext = ascii ".js" then ascii "text/javascript; charset=utf-8"
  else if ext = ascii ".txt" then ascii "text/plain; charset=utf-8"
  else if ext = ascii ".png" then ascii "image/png"
  else if ext = ascii ".jpg" ∨ ext = ascii ".jpeg" then ascii "image/jpeg"
  else if ext = ascii ".gif" then ascii "image/gif"
  else if ext = ascii ".svg" then ascii "image/svg+xml"
  else ascii "application/octet-stream"

/-- The target up to its first question mark. -/
def withoutQuery (target : Bytes) : Bytes :=
  match find [0x3f] target with
  | none => target
  | some q => target.take q

/-- A segment that ends the mapping with nothing. -/
def isForbiddenSegment (segment : Bytes) : Bool :=
  segment == ascii "." || segment == ascii ".." || segment.contains 0x00

/-- The segments that are not empty, in order. -/
def segments (target : Bytes) : List Bytes :=
  (splitAll [0x2f] (List.cons_ne_nil _ _) (target.drop 1)).filter (· ≠ [])

def orIndex (target : Bytes) : Bytes :=
  if target = ascii "/" then ascii "/index.html" else target

def mapToRelativePath (target : Bytes) : Option Path :=
  let target := withoutQuery target
  if target.head? ≠ some 0x2f then none
  else
    let relative := segments (orIndex target)
    if relative.any isForbiddenSegment then none
    else if relative = [] then none
    else some relative

/-- The walk over the components of both paths, up to the end of one of them. -/
def isWithinRoot : Path → Path → Bool
  | r :: root, c :: candidate => if r ≠ c then false else isWithinRoot root candidate
  | root, _ => root = []

theorem isWithinRoot_iff {root candidate : Path} :
    isWithinRoot root candidate = true ↔ root <+: candidate := by
  induction root generalizing candidate with
  | nil => simp [isWithinRoot]
  | cons r root ih =>
      cases candidate with
      | nil => simp [isWithinRoot]
      | cons c candidate =>
          rw [isWithinRoot, List.cons_prefix_cons, ← ih]
          by_cases heq : r = c
          · rw [if_neg (not_not.mpr heq), and_iff_right heq]
          · rw [if_pos heq]
            simp [heq]

/-- A constructed service has a root that is not empty. -/
def resolveUnderRoot (fs : FileSystem) (root relative : Path) : Option Path :=
  match fs.canonical (root ++ relative) with
  | none => none
  | some resolved => if isWithinRoot root resolved then some resolved else none

def notFound : Response := .text 404 (ascii "Not Found") (ascii "not found\n")

def tooLarge : Response := .text 413 (ascii "Payload Too Large") (ascii "file too large\n")

def methodNotAllowed : Response :=
  .text 405 (ascii "Method Not Allowed") (ascii "method not allowed\n")

/-- Serving a resolved path. -/
def serveResolved (fs : FileSystem) (resolved : Path) (includeBody : Bool) :
    Except String Response :=
  if fs.isRegularFile resolved ≠ some true then .ok notFound
  else
    match fs.fileSize resolved with
    | .error what => .error what
    | .ok fileSize =>
      if maxFileBytes < fileSize then .ok tooLarge
      else
        let resp : Response :=
          { status := 200, reason := ascii "OK", contentType := guessContentType resolved,
            contentLength := some fileSize }
        if includeBody then
          match readFileBytes fs resolved fileSize with
          | none => .ok notFound
          | some body => .ok { resp with body := body }
        else .ok resp

def serveFile (fs : FileSystem) (root : Path) (target : Bytes) (includeBody : Bool) :
    Except String Response :=
  match mapToRelativePath target with
  | none => .ok notFound
  | some relative =>
    match resolveUnderRoot fs root relative with
    | none => .ok notFound
    | some resolved => serveResolved fs resolved includeBody

def handle (fs : FileSystem) (root : Path) (request : Request) : Except String Response :=
  let isGet := request.method == ascii "GET"
  let isHead := request.method == ascii "HEAD"
  if !isGet && !isHead then .ok methodNotAllowed
  else serveFile fs root request.target isGet

end StaticFiles
end Modules
end Garcon
