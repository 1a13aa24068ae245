import Garcon.Modules.Preflight

/-!
# Responses that vary by origin

A cache may hand a stored response on to any request that differs from the stored one
in nothing but fields the response does not vary by.  Two actual requests that differ in
their origin get different CORS fields where a rule grants the one and not the other.
-/

namespace Garcon
namespace Modules
namespace Cors

open Ascii Http

/-- The header fields of a result, in the order in which they are published. -/
def fields (result : Module.Result) : List HeaderField :=
  (result.responseValue.map (·.headers)).getD [] ++ result.responseHeaders

def allowOrigin (result : Module.Result) : Option Bytes :=
  (Http.findHeader (fields result) allowOriginName).map (·.value)

def VariesByOrigin (result : Module.Result) : Prop :=
  ∃ field ∈ fields result, headerNameEquals field.name (ascii "Vary") = true ∧
    field.value = ascii "Origin"

/-- Two requests with the same fields but for those named `Origin`. -/
structure SameButOrigin (request request' : Request) : Prop where
  major_eq : request.versionMajor = request'.versionMajor
  minor_eq : request.versionMinor = request'.versionMinor
  method_eq : request.method = request'.method
  target_eq : request.target = request'.target
  headers_eq :
    (request.headers.filter fun h => !headerNameEquals h.name (ascii "Origin")) =
      request'.headers.filter fun h => !headerNameEquals h.name (ascii "Origin")

/-- The rule that decides about a target. -/
def ruleFor (rules : List Rule) (target : Bytes) : Option Rule :=
  rules.find? fun rule => targetMatches rule.targetKind rule.targetPattern target

/-- The request has an origin that the rule allows. -/
def Granted (rule : Rule) (request : Request) : Prop :=
  ∃ origin, request.headerValue (ascii "Origin") = some origin ∧ originAllowed rule origin = true

/-- If two results differ in the origin they allow, both say that they vary by origin. -/
def SaysSo (rules : List Rule) (request request' : Request) : Prop :=
  ∃ result result', handle rules request = .ok result ∧ handle rules request' = .ok result' ∧
    (allowOrigin result ≠ allowOrigin result' → VariesByOrigin result ∧ VariesByOrigin result')

/-- The rule for the request, if its method is allowed, grants it. -/
def GrantedBy (rules : List Rule) (request : Request) (rule : Rule) : Prop :=
  ruleFor rules request.target = some rule ∧ methodAllowed rule request.method = true ∧
    Granted rule request

/-- A result without CORS fields. -/
structure Silent (result : Module.Result) : Prop where
  allow_none : allowOrigin result = none
  not_varies : ¬ VariesByOrigin result

theorem silent_of_fields {result : Module.Result} (h : fields result = []) : Silent result := by
  refine ⟨?_, ?_⟩
  · rw [allowOrigin, h]
    rfl
  · rintro ⟨field, hfield, -⟩
    rw [h] at hfield
    exact absurd hfield List.not_mem_nil

theorem allowOrigin_passCors (rule : Rule) (origin : Bytes) :
    allowOrigin (passCors rule origin) = some (allowedOriginValue rule origin) := by
  obtain ⟨result, hok, -, hnone, hvalue⟩ := passesWith_passCors rule origin
  cases hok
  rw [allowOrigin, fields, hnone]
  exact hvalue

theorem variesByOrigin_passCors {rule : Rule} (h : anyOriginAllowed rule = false)
    (origin : Bytes) : VariesByOrigin (passCors rule origin) := by
  refine ⟨⟨ascii "Vary", ascii "Origin"⟩, ?_, by decide +kernel, rfl⟩
  unfold passCors
  dsimp only
  rw [h, if_neg Bool.false_ne_true]
  exact List.mem_cons_of_mem _ List.mem_cons_self

/-- An actual request is granted by its rule, or its result has no CORS fields. -/
theorem handle_actual (rules : List Rule) {request : Request}
    (h : isPreflightRequest request = false) :
    (∃ rule origin, GrantedBy rules request rule ∧
        handle rules request = .ok (passCors rule origin)) ∨
      (∀ rule, ¬ GrantedBy rules request rule) ∧
        ∃ result, handle rules request = .ok result ∧ Silent result := by
  unfold handle
  cases horigin : request.headerValue (ascii "Origin") with
  | none =>
      refine Or.inr ⟨?_, .pass, rfl, silent_of_fields rfl⟩
      rintro rule ⟨-, -, origin, hsome, -⟩
      rw [horigin] at hsome
      cases hsome
  | some origin =>
      dsimp only
      cases hrule : rules.find? fun rule =>
          targetMatches rule.targetKind rule.targetPattern request.target with
      | none =>
          refine Or.inr ⟨?_, .pass, rfl, silent_of_fields rfl⟩
          rintro rule ⟨hsome, -⟩
          rw [ruleFor, hrule] at hsome
          cases hsome
      | some rule =>
          have hsame : ∀ rule', GrantedBy rules request rule' →
              originAllowed rule origin = true ∧ methodAllowed rule request.method = true := by
            rintro rule' ⟨hsome, hmethod, origin', horigin', hallowed⟩
            rw [ruleFor, hrule] at hsome
            rw [horigin] at horigin'
            cases hsome
            cases horigin'
            exact ⟨hallowed, hmethod⟩
          dsimp only
          unfold applyRule
          rw [h]
          by_cases hallowed : originAllowed rule origin = true
          · by_cases hmethod : methodAllowed rule request.method = true
            · simp only [hallowed, hmethod, Bool.not_true, Bool.false_eq_true, if_false]
              exact Or.inl ⟨rule, origin, ⟨hrule, hmethod, origin, horigin, hallowed⟩, rfl⟩
            · refine Or.inr ⟨fun rule' hgranted => hmethod (hsame rule' hgranted).2, ?_⟩
              rw [Bool.not_eq_true] at hmethod
              simp only [hallowed, hmethod, Bool.not_true, Bool.not_false, Bool.false_eq_true,
                if_false, if_true]
              exact ⟨.respond methodNotAllowed, rfl, silent_of_fields rfl⟩
          · refine Or.inr ⟨fun rule' hgranted => hallowed (hsame rule' hgranted).1, ?_⟩
            rw [Bool.not_eq_true] at hallowed
            simp only [hallowed, Bool.not_false, Bool.false_eq_true, if_false, if_true]
            exact ⟨.pass, rfl, silent_of_fields rfl⟩

/-- One request is granted and the other is not. -/
theorem not_saysSo_of_one {rules : List Rule} {request request' : Request} {rule : Rule}
    {origin : Bytes} {result : Module.Result}
    (h : handle rules request = .ok (passCors rule origin))
    (h' : handle rules request' = .ok result) (hsilent : Silent result) :
    ¬ SaysSo rules request request' ∧ ¬ SaysSo rules request' request := by
  have hdiffer : allowOrigin (passCors rule origin) ≠ allowOrigin result := by
    rw [allowOrigin_passCors, hsilent.allow_none]
    exact Option.some_ne_none _
  refine ⟨?_, ?_⟩
  · rintro ⟨first, second, hfirst, hsecond, hvaries⟩
    rw [h] at hfirst
    rw [h'] at hsecond
    cases hfirst
    cases hsecond
    exact hsilent.not_varies (hvaries hdiffer).2
  · rintro ⟨first, second, hfirst, hsecond, hvaries⟩
    rw [h'] at hfirst
    rw [h] at hsecond
    cases hfirst
    cases hsecond
    exact hsilent.not_varies (hvaries hdiffer.symm).1

/-- Both requests are granted by one rule. -/
theorem saysSo_of_both {rules : List Rule} {request request' : Request} {rule : Rule}
    {origin origin' : Bytes} (h : handle rules request = .ok (passCors rule origin))
    (h' : handle rules request' = .ok (passCors rule origin')) :
    SaysSo rules request request' := by
  refine ⟨_, _, h, h', ?_⟩
  intro hdiffer
  cases hany : anyOriginAllowed rule with
  | false => exact ⟨variesByOrigin_passCors hany _, variesByOrigin_passCors hany _⟩
  | true =>
      rw [allowOrigin_passCors, allowOrigin_passCors, allowedOriginValue, allowedOriginValue,
        hany] at hdiffer
      exact absurd rfl hdiffer

/-- Neither request is granted. -/
theorem saysSo_of_neither {rules : List Rule} {request request' : Request}
    {result result' : Module.Result} (h : handle rules request = .ok result)
    (h' : handle rules request' = .ok result') (hsilent : Silent result)
    (hsilent' : Silent result') : SaysSo rules request request' := by
  refine ⟨result, result', h, h', ?_⟩
  intro hdiffer
  exact absurd (hsilent.allow_none.trans hsilent'.allow_none.symm) hdiffer

/-- Two requests with different origins are told apart by a cache exactly where the rule
for their target allows their method for both of them, or for neither. -/
theorem saysSo_iff (rules : List Rule) (request request' : Request)
    (hsame : SameButOrigin request request') (h : isPreflightRequest request = false)
    (h' : isPreflightRequest request' = false) :
    SaysSo rules request request' ↔
      ∀ rule, ruleFor rules request.target = some rule →
        methodAllowed rule request.method = true →
          (Granted rule request ↔ Granted rule request') := by
  have hother : ∀ rule, GrantedBy rules request' rule ↔
      ruleFor rules request.target = some rule ∧ methodAllowed rule request.method = true ∧
        Granted rule request' := by
    intro rule
    rw [GrantedBy, hsame.target_eq, hsame.method_eq]
  have hcases := handle_actual rules h
  have hcases' := handle_actual rules h'
  constructor
  · intro hsays rule hrule hmethod
    rcases hcases with ⟨first, origin, hgranted, hhandle⟩ | ⟨hnone, result, hhandle, hsilent⟩
    · rcases hcases' with ⟨second, origin', hgranted', hhandle'⟩ | ⟨-, result', hhandle', hsilent'⟩
      · rw [hother] at hgranted'
        have hfirst := hgranted.1.symm.trans hrule
        have hsecond := hgranted'.1.symm.trans hrule
        cases hfirst
        cases hsecond
        exact iff_of_true hgranted.2.2 hgranted'.2.2
      · exact absurd hsays (not_saysSo_of_one hhandle hhandle' hsilent').1
    · rcases hcases' with ⟨second, origin', -, hhandle'⟩ | ⟨hnone', -⟩
      · exact absurd hsays (not_saysSo_of_one hhandle' hhandle hsilent).2
      · refine iff_of_false ?_ ?_
        · exact fun hgranted => hnone rule ⟨hrule, hmethod, hgranted⟩
        · exact fun hgranted => hnone' rule ((hother rule).mpr ⟨hrule, hmethod, hgranted⟩)
  · intro hboth
    rcases hcases with ⟨rule, origin, hgranted, hhandle⟩ | ⟨hnone, result, hhandle, hsilent⟩
    · have hgranted' : GrantedBy rules request' rule := (hother rule).mpr
        ⟨hgranted.1, hgranted.2.1, (hboth rule hgranted.1 hgranted.2.1).mp hgranted.2.2⟩
      rcases hcases' with ⟨rule', origin', hrule', hhandle'⟩ | ⟨hnone', -⟩
      · have heq := hgranted'.1.symm.trans hrule'.1
        cases heq
        exact saysSo_of_both hhandle hhandle'
      · exact absurd hgranted' (hnone' rule)
    · rcases hcases' with ⟨rule', origin', hgranted', -⟩ | ⟨-, result', hhandle', hsilent'⟩
      · have hgranted' := (hother rule').mp hgranted'
        have hgranted := (hboth rule' hgranted'.1 hgranted'.2.1).mpr hgranted'.2.2
        exact absurd ⟨hgranted'.1, hgranted'.2.1, hgranted⟩ (hnone rule')
      · exact saysSo_of_neither hhandle hhandle' hsilent hsilent'

/-- The request without an origin. -/
def getApiDirect : Request := { getApi with headers := [] }

theorem saysSo_iff_direct :
    SaysSo [apiRule] getApi getApiDirect ↔
      ∀ rule, ruleFor [apiRule] getApi.target = some rule →
        methodAllowed rule getApi.method = true →
          (Granted rule getApi ↔ Granted rule getApiDirect) :=
  saysSo_iff [apiRule] getApi getApiDirect ⟨rfl, rfl, rfl, rfl, by decide +kernel⟩
    (by decide +kernel) (by decide +kernel)

/-- Without an origin the response has no CORS fields and does not say that it would. -/
theorem direct_not_told_apart :
    parseRules apiConfig = .ok [apiRule] ∧ SameButOrigin getApi getApiDirect ∧
      isPreflightRequest getApi = false ∧ isPreflightRequest getApiDirect = false ∧
      ¬ SaysSo [apiRule] getApi getApiDirect := by
  refine ⟨by decide +kernel, ⟨rfl, rfl, rfl, rfl, by decide +kernel⟩, by decide +kernel,
    by decide +kernel, ?_⟩
  have hgranted : handle [apiRule] getApi =
      .ok (passCors apiRule (ascii "https://a.example")) := by decide +kernel
  have hdirect : handle [apiRule] getApiDirect = .ok .pass := by decide +kernel
  exact (not_saysSo_of_one hgranted hdirect (silent_of_fields rfl)).1

end Cors
end Modules
end Garcon
