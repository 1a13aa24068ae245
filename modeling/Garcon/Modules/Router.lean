import Garcon.Modules.Routes

/-!
# The router module

Routes whose target patterns may hold placeholders in braces.  What a placeholder
captures is handed on in a header field.
-/

namespace Garcon
namespace Modules
namespace Router

open Ascii Search Http

def parseRoutes (configText : Bytes) : Except String (List RouteEntry) :=
  RouteEntry.parseRoutes "router" configText

structure CapturedParam where
  name : Bytes
  value : Bytes
deriving DecidableEq, Repr

/-- `toupper` in the C locale. -/
def upper (b : UInt8) : UInt8 := if isLower b then b - 0x61 + 0x41 else b

/-- The loop of `make_route_param_header`. -/
def titleCase : Bool → Bytes → Bytes
  | _, [] => []
  | nextUpper, ch :: rest =>
    if ch = 0x5f then 0x2d :: titleCase true rest
    else if nextUpper then upper ch :: titleCase false rest
    else ch :: titleCase false rest

def makeRouteParamHeader (paramName : Bytes) : Bytes :=
  let out := titleCase true paramName
  if out = [] then ascii "Param" else out

def extractPath (target : Bytes) : Bytes :=
  match find [0x3f] target with
  | none => target
  | some q => target.take q

/-- The loop of `match_target`, with the captures in order and the rest of the path.  The
first argument bounds the length of the pattern. -/
def matchPattern : Nat → Bytes → Bytes → Option (List CapturedParam × Bytes)
  | _, [], path => some ([], path)
  | 0, _ :: _, _ => none
  | fuel + 1, c :: pattern, path =>
    if c = 0x7b then
      match cut [0x7d] pattern with
      | none => none
      | some (name, pattern) =>
        let value := path.takeWhile (· ≠ 0x2f)
        if name = [] then none
        else
          (matchPattern fuel pattern (path.dropWhile (· ≠ 0x2f))).map fun matched =>
            (⟨name, value⟩ :: matched.1, matched.2)
    else
      match path with
      | [] => none
      | t :: path => if c ≠ t then none else matchPattern fuel pattern path

def matchTarget (kind : PatternKind) (pattern target : Bytes) : Option (List CapturedParam) :=
  match matchPattern pattern.length pattern (extractPath target) with
  | none => none
  | some (caps, rest) => if rest = [] ∨ kind = .prefixed then some caps else none

def paramHeader (cp : CapturedParam) : HeaderField where
  name := ascii "X-Garcon-Route-Param-" ++ makeRouteParamHeader cp.name
  value := cp.value

/-- The pass result with a header field for each capture. -/
def passCaptures (caps : List CapturedParam) : Module.Result :=
  caps.foldl
    (fun result cp => result.addResponseHeader (paramHeader cp).name (paramHeader cp).value) .pass

def handle (routes : List RouteEntry) (request : Request) : Module.Result :=
  match routes with
  | [] => .pass
  | route :: routes =>
    if !methodMatches route.methodPattern request.method then handle routes request
    else
      match matchTarget route.targetKind route.targetPattern request.target with
      | none => handle routes request
      | some caps =>
        if route.outcome = .pass then passCaptures caps
        else
          match route.response with
          | some response => .respond response
          | none => .error

def routeMatches (route : RouteEntry) (request : Request) : Bool :=
  methodMatches route.methodPattern request.method &&
    (matchTarget route.targetKind route.targetPattern request.target).isSome

/-- The first route that matches decides. -/
theorem handle_eq (routes : List RouteEntry) (request : Request) :
    handle routes request =
      match routes.find? (routeMatches · request) with
      | none => .pass
      | some route =>
        if route.outcome = .pass then
          passCaptures
            ((matchTarget route.targetKind route.targetPattern request.target).getD [])
        else
          match route.response with
          | some response => .respond response
          | none => .error := by
  induction routes with
  | nil => rfl
  | cons route routes ih =>
      rw [handle, ih]
      by_cases hmethod : methodMatches route.methodPattern request.method = true
      · cases htarget : matchTarget route.targetKind route.targetPattern request.target with
        | none =>
            rw [List.find?_cons_of_neg (by simp [routeMatches, htarget])]
            simp only [hmethod, Bool.not_true, Bool.false_eq_true, if_false]
        | some caps =>
            rw [List.find?_cons_of_pos (by simp [routeMatches, hmethod, htarget])]
            simp only [hmethod, htarget, Bool.not_true, Bool.false_eq_true, if_false,
              Option.getD_some]
      · rw [List.find?_cons_of_neg (by simp [routeMatches, hmethod])]
        simp only [hmethod, Bool.not_false, if_true]

end Router
end Modules
end Garcon
