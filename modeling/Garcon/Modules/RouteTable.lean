import Garcon.Modules.Routes

/-!
# The route table module

The first route that matches the method and the target of a request decides.
-/

namespace Garcon
namespace Modules
namespace RouteTable

open Http

def parseRoutes (configText : Bytes) : Except String (List RouteEntry) :=
  RouteEntry.parseRoutes "route_table" configText

def handle (routes : List RouteEntry) (request : Request) : Module.Result :=
  match routes with
  | [] => .pass
  | route :: routes =>
    if !methodMatches route.methodPattern request.method then handle routes request
    else if !targetMatches route.targetKind route.targetPattern request.target then
      handle routes request
    else if route.outcome = .pass then .pass
    else
      match route.response with
      | some response => .respond response
      | none => .error

def routeMatches (route : RouteEntry) (request : Request) : Bool :=
  methodMatches route.methodPattern request.method &&
    targetMatches route.targetKind route.targetPattern request.target

/-- The first route that matches decides. -/
theorem handle_eq (routes : List RouteEntry) (request : Request) :
    handle routes request =
      match routes.find? (routeMatches · request) with
      | none => .pass
      | some route =>
        if route.outcome = .pass then .pass
        else
          match route.response with
          | some response => .respond response
          | none => .error := by
  induction routes with
  | nil => rfl
  | cons route routes ih =>
      rw [handle, ih]
      by_cases hmethod : methodMatches route.methodPattern request.method = true
      · by_cases htarget :
          targetMatches route.targetKind route.targetPattern request.target = true
        · rw [List.find?_cons_of_pos (by simp [routeMatches, hmethod, htarget])]
          simp only [hmethod, htarget, Bool.not_true, Bool.false_eq_true, if_false]
        · rw [List.find?_cons_of_neg (by simp [routeMatches, htarget])]
          simp only [hmethod, htarget, Bool.not_true, Bool.false_eq_true, if_false,
            Bool.not_false, if_true]
      · rw [List.find?_cons_of_neg (by simp [routeMatches, hmethod])]
        simp only [hmethod, Bool.not_false, if_true]

end RouteTable
end Modules
end Garcon
