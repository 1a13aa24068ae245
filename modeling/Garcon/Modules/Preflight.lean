import Garcon.Modules.Cors

/-!
# Preflight and actual request

A preflight request asks about an actual request.  Under every configuration without
carriage returns the CORS module answers the one as it treats the other.
-/

namespace Garcon
namespace Modules
namespace Cors

open Ascii Http

def allowOriginName : Bytes := ascii "Access-Control-Allow-Origin"

/-- A rule whose header texts can be written. -/
structure Rule.Plain (rule : Rule) : Prop where
  methods : Response.validHeaderValue rule.allowMethodsHeader = true
  headers : Response.validHeaderValue rule.allowHeadersHeader = true

theorem plain_of_parseRuleLine {line : Bytes} {rule : Rule}
    (h : parseRuleLine line = .ok rule) (hplain : cr ∉ line ∧ lf ∉ line) : rule.Plain := by
  have hfield : ∀ field ∈ splitFields (line.drop 5) 0x7c,
      Response.validHeaderValue field = true := by
    intro field hmem
    rw [Response.validHeaderValue_iff]
    exact ⟨fun hb => hplain.1 (List.mem_of_mem_drop (mem_of_mem_splitFields hmem hb).1),
      fun hb => hplain.2 (List.mem_of_mem_drop (mem_of_mem_splitFields hmem hb).1)⟩
  unfold parseRuleLine at h
  split at h
  · next target origins methods headers hfields =>
      obtain ⟨patterns, -, h⟩ := Response.exists_of_bind_eq_ok h
      obtain ⟨allowed, -, h⟩ := Response.exists_of_bind_eq_ok h
      dsimp only [bind, Except.bind, pure, Except.pure, throw, throwThe,
        MonadExceptOf.throw] at h
      split_ifs at h
      cases h
      refine ⟨hfield methods ?_, hfield headers ?_⟩
      · rw [hfields]
        simp
      · rw [hfields]
        simp
  · cases h

/-- The rules of a configuration without carriage returns can be written. -/
theorem plain_of_parseRules {configText : Bytes} {rules : List Rule}
    (h : parseRules configText = .ok rules) (hcr : cr ∉ configText) {rule : Rule}
    (hrule : rule ∈ rules) : rule.Plain := by
  obtain ⟨line, hline, hparse⟩ := exists_of_mem_mapM h hrule
  have hmem := List.mem_of_mem_filter hline
  apply plain_of_parseRuleLine hparse
  exact ⟨fun hb => hcr (mem_of_mem_configLines hmem hb).1,
    fun hb => (mem_of_mem_configLines hmem hb).2 rfl⟩

theorem validHeaderName_allowOriginName : Response.validHeaderName allowOriginName = true := by
  decide +kernel

/-- The CORS headers of a response allow the origin. -/
theorem exists_addCorsHeaders (response : Response) (rule : Rule) {origin : Bytes}
    (horigin : Response.validHeaderValue origin = true) :
    ∃ response', addCorsHeaders response rule origin = .ok response' ∧
      response.Decorates response' ∧
      (response'.findHeader allowOriginName).map (·.value) =
        some (allowedOriginValue rule origin) := by
  have hvalue : Response.validHeaderValue (allowedOriginValue rule origin) = true := by
    unfold allowedOriginValue
    by_cases hany : anyOriginAllowed rule = true
    · rw [if_pos hany]
      decide +kernel
    · rw [if_neg hany]
      exact horigin
  obtain ⟨first, hfirst, hd, hfound, -⟩ :=
    response.exists_setHeader validHeaderName_allowOriginName hvalue
  have hset : addCorsHeaders response rule origin =
      if anyOriginAllowed rule then .ok first
      else first.addHeader (ascii "Vary") (ascii "Origin") := by
    show (response.setHeader allowOriginName (allowedOriginValue rule origin) >>= _) = _
    rw [hfirst]
    rfl
  rw [hset]
  by_cases hany : anyOriginAllowed rule = true
  · rw [if_pos hany]
    exact ⟨first, rfl, hd, hfound⟩
  · rw [if_neg hany]
    have hname : Response.validHeaderName (ascii "Vary") = true := by decide +kernel
    have horigin : Response.validHeaderValue (ascii "Origin") = true := by decide +kernel
    obtain ⟨second, hadd, hd', hothers⟩ := first.exists_addHeader hname horigin
    refine ⟨second, hadd, hd.trans hd', ?_⟩
    rw [hothers allowOriginName (by decide +kernel), hfound]

/-- A preflight response is made, and allows the origin as the actual request is told. -/
theorem exists_makePreflightResponse {rule : Rule} (hrule : rule.Plain) {origin : Bytes}
    (horigin : Response.validHeaderValue origin = true) :
    ∃ response, makePreflightResponse rule origin = .ok response ∧ response.status = 204 ∧
      (response.findHeader allowOriginName).map (·.value) =
        some (allowedOriginValue rule origin) := by
  let noContent : Response :=
    { status := 204, reason := ascii "No Content", contentLength := some 0 }
  have hmethods : Response.validHeaderName (ascii "Access-Control-Allow-Methods") = true := by
    decide +kernel
  have hheaders : Response.validHeaderName (ascii "Access-Control-Allow-Headers") = true := by
    decide +kernel
  obtain ⟨first, hfirst, hd₁, hfound⟩ := exists_addCorsHeaders noContent rule horigin
  obtain ⟨second, hsecond, hd₂, -, hothers₂⟩ := first.exists_setHeader hmethods hrule.methods
  have hsame₂ := hothers₂ allowOriginName (by decide +kernel)
  have hmake : makePreflightResponse rule origin =
      if rule.allowHeadersHeader = [] then .ok second
      else second.setHeader (ascii "Access-Control-Allow-Headers") rule.allowHeadersHeader := by
    show (addCorsHeaders noContent rule origin >>= _) = _
    rw [hfirst]
    show (first.setHeader (ascii "Access-Control-Allow-Methods") rule.allowMethodsHeader >>= _) =
      _
    rw [hsecond]
    rfl
  have hstatus : ∀ response, noContent.Decorates response → response.status = 204 := by
    rintro response ⟨headers, rfl⟩
    rfl
  rw [hmake]
  by_cases hnil : rule.allowHeadersHeader = []
  · rw [if_pos hnil]
    refine ⟨second, rfl, hstatus _ (hd₁.trans hd₂), ?_⟩
    rw [hsame₂, hfound]
  · rw [if_neg hnil]
    obtain ⟨third, hthird, hd₃, -, hothers₃⟩ := second.exists_setHeader hheaders hrule.headers
    refine ⟨third, hthird, hstatus _ ((hd₁.trans hd₂).trans hd₃), ?_⟩
    rw [hothers₃ allowOriginName (by decide +kernel), hsame₂, hfound]

/-! ## Two requests -/

/-- The preflight request for a method. -/
structure IsPreflight (request : Request) (target origin method : Bytes) : Prop where
  method_eq : request.method = ascii "OPTIONS"
  target_eq : request.target = target
  origin_eq : request.headerValue (ascii "Origin") = some origin
  requested_eq : request.headerValue (ascii "Access-Control-Request-Method") = some method

/-- The request that it asks about. -/
structure IsActual (request : Request) (target origin method : Bytes) : Prop where
  method_eq : request.method = method
  target_eq : request.target = target
  origin_eq : request.headerValue (ascii "Origin") = some origin
  requested_eq : request.headerValue (ascii "Access-Control-Request-Method") = none

def Responds (outcome : Except String Module.Result) (status : Int) : Prop :=
  ∃ response, outcome = .ok (.respond response) ∧ response.status = status

/-- The request passes, with this value in its field for the allowed origin. -/
def PassesWith (outcome : Except String Module.Result) (value : Option Bytes) : Prop :=
  ∃ result, outcome = .ok result ∧ result.next = .pass ∧ result.responseValue = none ∧
    (Http.findHeader result.responseHeaders allowOriginName).map (·.value) = value

theorem isPreflightRequest_of_isPreflight {request : Request} {target origin method : Bytes}
    (h : IsPreflight request target origin method) : isPreflightRequest request = true := by
  unfold isPreflightRequest
  rw [h.method_eq, h.origin_eq, h.requested_eq, beq_self_eq_true]
  rfl

theorem not_isPreflightRequest_of_isActual {request : Request} {target origin method : Bytes}
    (h : IsActual request target origin method) : isPreflightRequest request = false := by
  unfold isPreflightRequest
  rw [h.requested_eq, Option.isSome_none, Bool.and_false]

theorem passesWith_pass : PassesWith (.ok .pass) none := ⟨_, rfl, rfl, rfl, rfl⟩

theorem passesWith_passCors (rule : Rule) (origin : Bytes) :
    PassesWith (.ok (passCors rule origin)) (some (allowedOriginValue rule origin)) := by
  unfold passCors
  dsimp only
  by_cases hany : anyOriginAllowed rule = true
  · rw [if_pos hany]
    exact ⟨_, rfl, rfl, rfl, rfl⟩
  · rw [if_neg hany]
    exact ⟨_, rfl, rfl, rfl, rfl⟩

theorem eq_of_passesWith {outcome : Except String Module.Result} {value value' : Option Bytes}
    (h : PassesWith outcome value) (h' : PassesWith outcome value') : value = value' := by
  obtain ⟨result, hok, -, -, hvalue⟩ := h
  obtain ⟨result', hok', -, -, hvalue'⟩ := h'
  rw [hok, Except.ok.injEq] at hok'
  rw [← hvalue, ← hvalue', hok']

theorem not_responds_of_passesWith {outcome : Except String Module.Result} {value : Option Bytes}
    {status : Int} (h : PassesWith outcome value) : ¬ Responds outcome status := by
  obtain ⟨result, rfl, hpass, -⟩ := h
  rintro ⟨response, hresponse, -⟩
  cases hresponse
  cases hpass

theorem responds_respond_iff {response : Response} {status : Int} :
    Responds (.ok (.respond response)) status ↔ response.status = status := by
  constructor
  · rintro ⟨response', hresponse, hstatus⟩
    cases hresponse
    exact hstatus
  · exact fun hstatus => ⟨response, rfl, hstatus⟩

theorem not_responds_pass (status : Int) : ¬ Responds (.ok .pass) status :=
  not_responds_of_passesWith passesWith_pass

theorem not_passesWith_respond (response : Response) (value : Option Bytes) :
    ¬ PassesWith (.ok (.respond response)) value := fun h =>
  not_responds_of_passesWith h (responds_respond_iff.mpr rfl)

theorem not_passesWith_pass_some (value : Bytes) : ¬ PassesWith (.ok .pass) (some value) := by
  intro h
  cases eq_of_passesWith passesWith_pass h

/-- The four ways in which the two requests can go together. -/
inductive Together (origin : Bytes) (preflight actual : Except String Module.Result) : Prop where
  | untouched (hpreflight : preflight = .ok .pass) (hactual : actual = .ok .pass)
  | originNotAllowed (hpreflight : preflight = .ok (.respond originNotAllowed))
      (hactual : actual = .ok .pass)
  | methodNotAllowed (hpreflight : preflight = .ok (.respond methodNotAllowed))
      (hactual : actual = .ok (.respond methodNotAllowed))
  | allowed (rule : Rule) (response : Response)
      (hpreflight : preflight = .ok (.respond response)) (hstatus : response.status = 204)
      (hvalue : (response.findHeader allowOriginName).map (·.value) =
        some (allowedOriginValue rule origin))
      (hactual : actual = .ok (passCors rule origin))

theorem together_handle {rules : List Rule} (hrules : ∀ rule ∈ rules, rule.Plain)
    {preflight actual : Request} {target origin method : Bytes}
    (horigin : Response.validHeaderValue origin = true)
    (hpreflight : IsPreflight preflight target origin method)
    (hactual : IsActual actual target origin method) :
    Together origin (handle rules preflight) (handle rules actual) := by
  have hasks := isPreflightRequest_of_isPreflight hpreflight
  have hdoes := not_isPreflightRequest_of_isActual hactual
  have hrequested : (preflight.headerValue (ascii "Access-Control-Request-Method")).getD [] =
      method := by rw [hpreflight.requested_eq]; rfl
  unfold handle
  rw [hpreflight.origin_eq, hactual.origin_eq, hpreflight.target_eq, hactual.target_eq]
  dsimp only
  cases hfind : rules.find? fun rule => targetMatches rule.targetKind rule.targetPattern target with
  | none => exact .untouched rfl rfl
  | some rule =>
      dsimp only
      unfold applyRule
      rw [hasks, hdoes]
      by_cases hallowed : originAllowed rule origin = true
      · simp only [hallowed, Bool.not_true, Bool.false_eq_true, if_false, if_true]
        unfold answerPreflight
        dsimp only
        rw [hrequested, hactual.method_eq]
        by_cases hmethod : methodAllowed rule method = true
        · simp only [hmethod, Bool.not_true, Bool.false_eq_true, if_false]
          have hrule := hrules rule (List.mem_of_find?_eq_some hfind)
          obtain ⟨response, hmake, hstatus, hvalue⟩ := exists_makePreflightResponse hrule horigin
          rw [hmake]
          exact .allowed rule response rfl hstatus hvalue rfl
        · rw [Bool.not_eq_true] at hmethod
          simp only [hmethod, Bool.not_false, if_true]
          exact .methodNotAllowed rfl rfl
      · rw [Bool.not_eq_true] at hallowed
        simp only [hallowed, Bool.not_false, Bool.false_eq_true, if_true, if_false]
        exact .originNotAllowed rfl rfl

/-- Under a configuration without carriage returns, the answer to a preflight request
tells what becomes of the actual request. -/
theorem preflight_agrees (configText : Bytes) (rules : List Rule)
    (hparse : parseRules configText = .ok rules) (hconfig : cr ∉ configText)
    (preflight actual : Request) (target origin method : Bytes)
    (horigin : cr ∉ origin ∧ lf ∉ origin)
    (hpreflight : IsPreflight preflight target origin method)
    (hactual : IsActual actual target origin method) :
    (Responds (handle rules preflight) 204 ↔
      ∃ value, PassesWith (handle rules actual) (some value)) ∧
    (∀ response value, handle rules preflight = .ok (.respond response) →
      PassesWith (handle rules actual) (some value) →
      (response.findHeader allowOriginName).map (·.value) = some value ∧
        (value = ascii "*" ∨ value = origin)) ∧
    (Responds (handle rules preflight) 405 ↔ Responds (handle rules actual) 405) ∧
    (Responds (handle rules preflight) 403 → PassesWith (handle rules actual) none) ∧
    ((∃ value, PassesWith (handle rules preflight) value) →
      handle rules actual = .ok .pass) := by
  have htogether := together_handle (fun rule hrule => plain_of_parseRules hparse hconfig hrule)
    (Response.validHeaderValue_iff.mpr horigin) hpreflight hactual
  generalize handle rules preflight = asked at htogether ⊢
  generalize handle rules actual = done at htogether ⊢
  cases htogether with
  | untouched hasked hdone =>
      subst hasked hdone
      refine ⟨iff_of_false (not_responds_pass _) ?_, ?_, Iff.rfl,
        fun h => absurd h (not_responds_pass _), fun _ => rfl⟩
      · exact not_exists.mpr not_passesWith_pass_some
      · exact fun response value _ hpasses => absurd hpasses (not_passesWith_pass_some value)
  | originNotAllowed hasked hdone =>
      subst hasked hdone
      refine ⟨iff_of_false ?_ ?_, ?_, iff_of_false ?_ (not_responds_pass _),
        fun _ => passesWith_pass, fun _ => rfl⟩
      · rw [responds_respond_iff]
        decide
      · exact not_exists.mpr not_passesWith_pass_some
      · exact fun response value _ hpasses => absurd hpasses (not_passesWith_pass_some value)
      · rw [responds_respond_iff]
        decide
  | methodNotAllowed hasked hdone =>
      subst hasked hdone
      refine ⟨iff_of_false ?_ ?_, ?_, Iff.rfl, ?_, ?_⟩
      · rw [responds_respond_iff]
        decide
      · exact not_exists.mpr fun value => not_passesWith_respond _ (some value)
      · exact fun response value _ hpasses => absurd hpasses (not_passesWith_respond _ _)
      · rw [responds_respond_iff]
        exact fun hstatus => absurd hstatus (by decide)
      · rintro ⟨value, hpasses⟩
        exact absurd hpasses (not_passesWith_respond _ _)
  | allowed rule response hasked hstatus hvalue hdone =>
      subst hasked hdone
      have hpasses := passesWith_passCors rule origin
      rw [responds_respond_iff, responds_respond_iff, responds_respond_iff, hstatus]
      refine ⟨iff_of_true rfl ⟨_, hpasses⟩, ?_,
        iff_of_false (by decide) (not_responds_of_passesWith hpasses),
        fun h => absurd h (by decide), ?_⟩
      · intro response' value hresponse hpasses'
        cases hresponse
        have hsame := Option.some.inj (eq_of_passesWith hpasses' hpasses)
        rw [hsame, hvalue, allowedOriginValue]
        refine ⟨rfl, ?_⟩
        by_cases hany : anyOriginAllowed rule = true
        · rw [if_pos hany]
          exact Or.inl rfl
        · rw [if_neg hany]
          exact Or.inr rfl
      · rintro ⟨value, hpasses'⟩
        exact absurd hpasses' (not_passesWith_respond _ _)

/-- One rule for one origin and one method. -/
def apiConfig : Bytes := ascii "rule=/api/*|https://a.example|GET|X-Key"

def askGet : Request where
  method := ascii "OPTIONS"
  target := ascii "/api/x"
  headers := [⟨ascii "Origin", ascii "https://a.example"⟩,
    ⟨ascii "Access-Control-Request-Method", ascii "GET"⟩]

def getApi : Request where
  method := ascii "GET"
  target := ascii "/api/x"
  headers := [⟨ascii "Origin", ascii "https://a.example"⟩]

def apiRule : Rule where
  targetPattern := ascii "/api/"
  targetKind := .prefixed
  allowedOrigins := [⟨ascii "https://a.example", false⟩]
  allowedMethods := [ascii "get"]
  allowMethodsHeader := ascii "GET"
  allowHeadersHeader := ascii "X-Key"

/-- The preflight request for GET is answered, and GET passes with its origin. -/
theorem preflight_agrees_get : ∃ response,
    handle [apiRule] askGet = .ok (.respond response) ∧
      PassesWith (handle [apiRule] getApi) (some (ascii "https://a.example")) ∧
      (response.findHeader allowOriginName).map (·.value) = some (ascii "https://a.example") := by
  have hagrees := preflight_agrees apiConfig [apiRule] (by decide +kernel) (by decide +kernel)
    askGet getApi (ascii "/api/x") (ascii "https://a.example") (ascii "GET") (by decide +kernel)
    ⟨rfl, rfl, by decide +kernel, by decide +kernel⟩
    ⟨rfl, rfl, by decide +kernel, by decide +kernel⟩
  have hpasses : PassesWith (handle [apiRule] getApi) (some (ascii "https://a.example")) :=
    ⟨passCors apiRule (ascii "https://a.example"), by decide +kernel, rfl, rfl,
      by decide +kernel⟩
  obtain ⟨response, hresponse, hstatus⟩ := hagrees.1.mpr ⟨_, hpasses⟩
  exact ⟨response, hresponse, hpasses, (hagrees.2.1 response _ hresponse hpasses).1⟩

end Cors
end Modules
end Garcon
