import Garcon.Modules.RouteTable
import Garcon.Modules.Router.Matching

/-!
# Patterns without placeholders

The router walks over a pattern and a path byte by byte, where the route table compares.
Without an opening brace in the patterns and a query in the target the walk is that
comparison, so both modules do the same with the same routes.
-/

namespace Garcon
namespace Modules

open Ascii Search Http

/-! ## The same routes -/

theorem toOption_bind {α β : Type} (x : Except String α) (f : α → Except String β) :
    (x >>= f).toOption = x.toOption.bind fun a => (f a).toOption := by
  cases x <;> rfl

theorem toOption_mapM {α β : Type} {f g : α → Except String β}
    (h : ∀ x, (f x).toOption = (g x).toOption) (xs : List α) :
    (xs.mapM f).toOption = (xs.mapM g).toOption := by
  induction xs with
  | nil => rfl
  | cons x xs ih =>
      rw [List.mapM_cons, List.mapM_cons, toOption_bind, toOption_bind, h x]
      congr 1
      funext y
      rw [toOption_bind, toOption_bind, ih]

namespace RouteEntry

theorem toOption_parseStatusCode (name name' : String) (value : Bytes) :
    (parseStatusCode name value).toOption = (parseStatusCode name' value).toOption := by
  unfold parseStatusCode
  split
  · rfl
  split
  · rfl
  split <;> rfl

theorem toOption_parseResponse (name name' : String) (fields : List Bytes) :
    (parseResponse name fields).toOption = (parseResponse name' fields).toOption := by
  unfold parseResponse
  split
  · next statusText contentType body =>
      have hstatus := toOption_parseStatusCode name name' statusText
      cases hfirst : parseStatusCode name statusText <;>
        cases hsecond : parseStatusCode name' statusText <;>
        rw [hfirst, hsecond] at hstatus <;> cases hstatus <;> rfl
  · rfl

/-- The module's name shows in the error messages only. -/
theorem toOption_parseRouteLine (name name' : String) (line : Bytes) :
    (parseRouteLine name line).toOption = (parseRouteLine name' line).toOption := by
  unfold parseRouteLine
  split
  · next method target action fields _ =>
      have hresponse := toOption_parseResponse name name' fields
      dsimp only [bind, Except.bind, pure, Except.pure, throw, throwThe, MonadExceptOf.throw]
      split_ifs
      · rfl
      · rfl
      · rfl
      · rfl
      · cases hfirst : parseResponse name fields <;>
          cases hsecond : parseResponse name' fields <;>
          rw [hfirst, hsecond] at hresponse <;> cases hresponse <;> rfl
  · rfl

end RouteEntry

theorem toOption_parseRoutes (configText : Bytes) :
    (Router.parseRoutes configText).toOption = (RouteTable.parseRoutes configText).toOption :=
  toOption_mapM (RouteEntry.toOption_parseRouteLine "router" "route_table") _

/-! ## The same routes match -/

namespace Router

/-- Without a placeholder the walk goes on as long as the bytes are the same. -/
theorem matchPattern_plain {pattern : Bytes} (hplain : 0x7b ∉ pattern) {fuel : Nat}
    (hfuel : pattern.length ≤ fuel) (path : Bytes) :
    matchPattern fuel pattern path =
      if path.take pattern.length = pattern then some ([], path.drop pattern.length) else none := by
  induction pattern generalizing fuel path with
  | nil => cases fuel <;> rfl
  | cons c pattern ih =>
      have hc : c ≠ 0x7b := fun e => hplain (e ▸ List.mem_cons_self)
      have hrest : 0x7b ∉ pattern := fun hm => hplain (List.mem_cons_of_mem c hm)
      rw [List.length_cons] at hfuel
      cases fuel with
      | zero => exact absurd hfuel (Nat.not_succ_le_zero _)
      | succ fuel =>
          cases path with
          | nil =>
              rw [matchPattern_literal_nil hc, List.take_nil]
              rfl
          | cons t path =>
              rw [matchPattern_literal_cons hc, List.length_cons, List.take_succ_cons,
                List.drop_succ_cons]
              by_cases hct : c = t
              · subst hct
                rw [if_neg (not_not.mpr rfl), ih hrest (Nat.le_of_succ_le_succ hfuel)]
                by_cases htake : path.take pattern.length = pattern
                · rw [if_pos htake, if_pos (congrArg (c :: ·) htake)]
                · rw [if_neg htake, if_neg fun h => htake (List.cons.inj h).2]
              · rw [if_pos hct, if_neg fun h => hct (List.cons.inj h).1.symm]

/-- The walk over a pattern without placeholders is the comparison of the route table. -/
theorem matchTarget_plain {pattern target : Bytes} (hplain : 0x7b ∉ pattern)
    (hquery : 0x3f ∉ target) (kind : PatternKind) :
    matchTarget kind pattern target =
      if targetMatches kind pattern target then some [] else none := by
  unfold matchTarget
  rw [extractPath_of_not_mem hquery, matchPattern_plain hplain (Nat.le_refl _)]
  cases kind with
  | prefixed =>
      show _ = if (target.take pattern.length == pattern) = true then some [] else none
      by_cases htake : target.take pattern.length = pattern
      · rw [if_pos htake, if_pos (beq_iff_eq.mpr htake)]
        exact if_pos (Or.inr rfl)
      · rw [if_neg htake, if_neg fun h => htake (beq_iff_eq.mp h)]
  | exact =>
      show _ = if (pattern == target) = true then some [] else none
      by_cases hsame : pattern = target
      · subst hsame
        rw [if_pos List.take_length, if_pos (beq_self_eq_true pattern)]
        exact if_pos (Or.inl List.drop_length)
      · rw [if_neg fun h => hsame (beq_iff_eq.mp h)]
        by_cases htake : target.take pattern.length = pattern
        · have hmore : target.drop pattern.length ≠ [] := by
            intro hnil
            have happ := List.take_append_drop pattern.length target
            rw [htake, hnil, List.append_nil] at happ
            exact hsame happ
          rw [if_pos htake]
          exact if_neg fun h => h.elim hmore fun hkind => nomatch hkind
        · rw [if_neg htake]

/-- With the same routes both modules do the same. -/
theorem handle_plain {routes : List RouteEntry} (hplain : ∀ r ∈ routes, 0x7b ∉ r.targetPattern)
    {request : Request} (hquery : 0x3f ∉ request.target) :
    handle routes request = RouteTable.handle routes request := by
  induction routes with
  | nil => rfl
  | cons route routes ih =>
      have hrest := ih fun r hr => hplain r (List.mem_cons_of_mem route hr)
      have hmatch := matchTarget_plain (hplain route List.mem_cons_self) hquery route.targetKind
      rw [handle, RouteTable.handle, hrest, hmatch]
      cases targetMatches route.targetKind route.targetPattern request.target <;> rfl

end Router

/-- A result that hands on no header fields of the module's own. -/
theorem RouteTable.responseHeaders_handle (routes : List RouteEntry) (request : Request) :
    (RouteTable.handle routes request).responseHeaders = [] := by
  rw [RouteTable.handle_eq]
  split
  · rfl
  · split
    · rfl
    · split <;> rfl

/-- The constructors fail together, or both modules have the same routes and give the same
result without header fields of their own. -/
theorem router_extends_routeTable {configText : Bytes}
    (hplain : ∀ routes, RouteTable.parseRoutes configText = .ok routes →
      ∀ route ∈ routes, 0x7b ∉ route.targetPattern)
    {request : Request} (hquery : 0x3f ∉ request.target) :
    ((∃ what, Router.parseRoutes configText = .error what) ∧
        ∃ what, RouteTable.parseRoutes configText = .error what) ∨
      ∃ routes, Router.parseRoutes configText = .ok routes ∧
        RouteTable.parseRoutes configText = .ok routes ∧
          Router.handle routes request = RouteTable.handle routes request ∧
            (Router.handle routes request).responseHeaders = [] := by
  have hsame := toOption_parseRoutes configText
  cases htable : RouteTable.parseRoutes configText with
  | error what =>
      cases hrouter : Router.parseRoutes configText with
      | error what' => exact Or.inl ⟨⟨what', rfl⟩, what, rfl⟩
      | ok routes =>
          rw [htable, hrouter] at hsame
          cases hsame
  | ok routes =>
      cases hrouter : Router.parseRoutes configText with
      | error what =>
          rw [htable, hrouter] at hsame
          cases hsame
      | ok routes' =>
          rw [htable, hrouter] at hsame
          obtain rfl : routes' = routes := Option.some.inj hsame
          have hhandle := Router.handle_plain (hplain _ htable) hquery
          refine Or.inr ⟨routes', rfl, rfl, hhandle, ?_⟩
          rw [hhandle]
          exact RouteTable.responseHeaders_handle routes' request

/-- Health checks are answered, and everything below `/app` goes on. -/
def plainConfig : Bytes :=
  ascii "route=GET|/health|respond|200|text/plain|ok" ++ [lf] ++ ascii "route=*|/app/*|pass"

def getHealth : Request where
  method := ascii "GET"
  target := ascii "/health"
  headers := []

theorem router_extends_routeTable_health :
    ((∃ what, Router.parseRoutes plainConfig = .error what) ∧
        ∃ what, RouteTable.parseRoutes plainConfig = .error what) ∨
      ∃ routes, Router.parseRoutes plainConfig = .ok routes ∧
        RouteTable.parseRoutes plainConfig = .ok routes ∧
          Router.handle routes getHealth = RouteTable.handle routes getHealth ∧
            (Router.handle routes getHealth).responseHeaders = [] := by
  refine router_extends_routeTable (fun routes hroutes => ?_) (by decide +kernel)
  have hall : (RouteTable.parseRoutes plainConfig).toOption.all
      fun routes => routes.all fun route => !route.targetPattern.contains 0x7b := by
    decide +kernel
  rw [hroutes] at hall
  intro route hroute
  simpa using List.all_eq_true.mp hall route hroute

end Modules
end Garcon
