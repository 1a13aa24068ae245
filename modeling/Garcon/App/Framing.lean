import Garcon.App.Bundled
import Garcon.App.ConnectionHandler
import Garcon.Http.Client

/-!
# Response framing on a kept-alive connection

A client that reads the responses of a connection one after the other stays in step as
long as no response has a body where none is allowed.  The bundled modules look at neither
the method nor the status when they write a body, so whether they keep the client in step
is a condition on the module that answers.
-/

namespace Garcon
namespace App

open Ascii Http Modules

def isHead (request : Request) : Bool := request.method == ascii "HEAD"

/-! ## What a module answers -/

/-- A response with all that its status line needs, and the announced body size. -/
structure Fit (response : Response) (isHead : Bool) : Prop where
  status_pos : 0 < response.status
  reason_plain : PlainReason response.reason
  size_eq : Client.hasNoBody isHead response.status.toNat = false →
    response.wireBodySize = response.body.length

/-- An outcome that is a pass, or one whose response keeps the client in step exactly
when `quiet` holds.  An exception is answered with a text. -/
def Speaks (isHead : Bool) (quiet : Prop) : Except String Module.Result → Prop
  | .error _ => quiet ↔ isHead = false
  | .ok result =>
    Built result ∧
      (result.next = .pass ∧ result.responseValue = none ∨
        ∃ response, result = .respond response ∧ Fit response isHead ∧
          (quiet ↔ ¬ response.StrayBody isHead))

variable {head : Bool} {quiet : Prop}

theorem speaks_pass : Speaks head quiet (.ok .pass) := ⟨.pass, Or.inl ⟨rfl, rfl⟩⟩

theorem speaks_addResponseHeader {result : Module.Result} {name value : Bytes}
    (hpass : result.next = .pass ∧ result.responseValue = none) (hbuilt : Built result) :
    Speaks head quiet (.ok (result.addResponseHeader name value)) :=
  ⟨.addResponseHeader name value hbuilt, Or.inl hpass⟩

theorem speaks_respond {response : Response} (hfit : Fit response head)
    (hquiet : quiet ↔ ¬ response.StrayBody head) : Speaks head quiet (.ok (.respond response)) :=
  ⟨.respond response, Or.inr ⟨response, rfl, hfit, hquiet⟩⟩

theorem fit_of_length_none {response : Response} (hstatus : 0 < response.status)
    (hreason : PlainReason response.reason) (hlength : response.contentLength = none) :
    Fit response head := by
  refine ⟨hstatus, hreason, fun _ => ?_⟩
  rw [Response.wireBodySize, hlength]
  rfl

/-- A status whose responses have a body. -/
def HasBody (status : Int) : Prop := 200 ≤ status ∧ status ≠ 204 ∧ status ≠ 304

theorem hasNoBody_eq {status : Int} (h : HasBody status) (head : Bool) :
    Client.hasNoBody head status.toNat = head := by
  obtain ⟨hlow, hno, hnot⟩ := h
  have hless : ¬ status.toNat < 200 := by omega
  have h204 : (status.toNat == 204) = false := beq_eq_false_iff_ne.mpr (by omega)
  have h304 : (status.toNat == 304) = false := beq_eq_false_iff_ne.mpr (by omega)
  simp [Client.hasNoBody, hless, h204, h304]

theorem strayBody_iff {response : Response} (hstatus : HasBody response.status)
    (hbody : response.body ≠ []) : ¬ response.StrayBody head ↔ head = false := by
  rw [Response.StrayBody, hasNoBody_eq hstatus, and_iff_left hbody, Bool.not_eq_true]

/-- A text with a fixed status is out of place exactly in response to HEAD. -/
theorem speaks_text {status : Int} {reason body : Bytes} (hquiet : quiet ↔ head = false)
    (hstatus : HasBody status) (hreason : PlainReason reason) (hbody : body ≠ []) :
    Speaks head quiet (.ok (.respond (.text status reason body))) := by
  have hpos : 0 < status := by
    have := hstatus.1
    omega
  refine speaks_respond (fit_of_length_none hpos hreason rfl) ?_
  rw [strayBody_iff hstatus hbody, hquiet]

theorem speaks_error {what : String} (hquiet : quiet ↔ head = false) :
    Speaks head quiet (.error what) := hquiet

/-! ## The modules one by one -/

/-- A target that the file service has a file for. -/
def Found (files : StaticFiles.FileSystem) (root : StaticFiles.Path) (target : Bytes) : Prop :=
  ∃ relative resolved size, StaticFiles.mapToRelativePath target = some relative ∧
    StaticFiles.resolveUnderRoot files root relative = some resolved ∧
    files.isRegularFile resolved = some true ∧ files.fileSize resolved = .ok size ∧
    size ≤ StaticFiles.maxFileBytes

/-- A guard whose first rule that refuses the request has no body where none is allowed. -/
def QuietGuard {ρ : Type} (g : Guard ρ) (rules : List ρ) (request : Request) : Prop :=
  ∀ rule, g.FirstRefusal rules request rule →
    ¬ (Client.hasNoBody (isHead request) (g.failureStatus rule).toNat = true ∧
      g.failureBody rule ≠ [])

/-- A route that has no body where none is allowed, if it is the one that decides. -/
def QuietRoutes (decides : RouteEntry → Request → Bool) (routes : List RouteEntry)
    (request : Request) : Prop :=
  ∀ route response, routes.find? (decides · request) = some route →
    route.response = some response → ¬ response.StrayBody (isHead request)

/-- What keeps a client in step when this module answers. -/
def Bundled.Quiet (i : Nat) (w : World) (request : Request) : Bundled → Prop
  | .cors _ => isHead request = false
  | .jwtAuth _ => isHead request = false
  | .rateLimit _ => isHead request = false
  | .headerGuard c => QuietGuard HeaderGuard.guard c.settings request
  | .hostGuard c => QuietGuard HostGuard.guard c.settings request
  | .routeTable c => QuietRoutes RouteTable.routeMatches c.settings request
  | .router c => QuietRoutes Router.routeMatches c.settings request
  | .staticFiles root =>
    isHead request = true → Found (w.readings i).files root request.target

theorem speaks_guard {ρ : Type} (g : Guard ρ) {rules : List ρ} (request : Request)
    (hstatus : ∀ rule ∈ rules, 100 ≤ g.failureStatus rule)
    (hreason : ∀ rule, PlainReason (g.failureReason rule)) :
    Speaks (isHead request) (QuietGuard g rules request) (.ok (g.handle rules request)) := by
  rcases g.handle_spec rules request with ⟨hpass, -⟩ | ⟨rule, hrule, hrespond⟩
  · rw [hpass]
    exact speaks_pass
  · rw [hrespond]
    have hmem : rule ∈ rules := by
      obtain ⟨before, after, hsplit, -⟩ := hrule
      rw [hsplit]
      exact List.mem_append_right _ List.mem_cons_self
    have hrange := hstatus rule hmem
    have hpos : 0 < g.failureStatus rule := by omega
    refine speaks_respond (fit_of_length_none hpos (hreason rule) rfl) ?_
    constructor
    · exact fun hquiet => hquiet rule hrule
    · intro hquiet rule' hrule'
      rw [← Guard.eq_of_firstRefusal hrule hrule']
      exact hquiet

/-- A complete route that decides passes, or answers with its response. -/
theorem speaks_route {decides : RouteEntry → Request → Bool} {routes : List RouteEntry}
    {request : Request} {route : RouteEntry} {response : Response}
    (hfind : routes.find? (decides · request) = some route)
    (hresponse : route.response = some response) (hwritten : RouteEntry.Written response) :
    Speaks (isHead request) (QuietRoutes decides routes request) (.ok (.respond response)) := by
  have hrange := hwritten.status_range
  have hpos : 0 < response.status := by omega
  have hreason : PlainReason response.reason := by
    rw [hwritten.reason_eq]
    exact RouteEntry.plainReason_reasonPhraseForStatus _
  refine speaks_respond (fit_of_length_none hpos hreason hwritten.length_none) ?_
  constructor
  · exact fun hquiet => hquiet route response hfind hresponse
  · intro hquiet route' response' hfind' hresponse'
    rw [hfind] at hfind'
    obtain rfl := Option.some.inj hfind'
    rw [hresponse] at hresponse'
    obtain rfl := Option.some.inj hresponse'
    exact hquiet

theorem speaks_routeTable (c : Configured RouteTable.parseRoutes) (request : Request) :
    Speaks (isHead request) (QuietRoutes RouteTable.routeMatches c.settings request)
      (.ok (RouteTable.handle c.settings request)) := by
  rw [RouteTable.handle_eq]
  cases hfind : c.settings.find? (RouteTable.routeMatches · request) with
  | none => exact speaks_pass
  | some route =>
      have hcomplete :=
        RouteEntry.complete_of_parseRoutes c.parsed (List.mem_of_find?_eq_some hfind)
      cases hcomplete with
      | pass houtcome hresponse =>
          simp only [houtcome, if_true]
          exact speaks_pass
      | respond response houtcome hresponse hwritten =>
          simp only [houtcome, reduceCtorEq, if_false, hresponse]
          exact speaks_route hfind hresponse hwritten

theorem passCaptures_spec (caps : List Router.CapturedParam) :
    Speaks head quiet (.ok (Router.passCaptures caps)) := by
  have hall : ∀ result : Module.Result, Built result → result.next = .pass →
      result.responseValue = none →
      let out := caps.foldl (fun result cp => result.addResponseHeader
        (Router.paramHeader cp).name (Router.paramHeader cp).value) result
      Built out ∧ out.next = .pass ∧ out.responseValue = none := by
    induction caps with
    | nil => exact fun result hbuilt hnext hvalue => ⟨hbuilt, hnext, hvalue⟩
    | cons cp caps ih =>
        intro result hbuilt hnext hvalue
        exact ih _ (.addResponseHeader _ _ hbuilt) hnext hvalue
  obtain ⟨hbuilt, hpass⟩ := hall .pass .pass rfl rfl
  exact ⟨hbuilt, Or.inl hpass⟩

theorem speaks_router (c : Configured Router.parseRoutes) (request : Request) :
    Speaks (isHead request) (QuietRoutes Router.routeMatches c.settings request)
      (.ok (Router.handle c.settings request)) := by
  rw [Router.handle_eq]
  cases hfind : c.settings.find? (Router.routeMatches · request) with
  | none => exact speaks_pass
  | some route =>
      have hcomplete :=
        RouteEntry.complete_of_parseRoutes c.parsed (List.mem_of_find?_eq_some hfind)
      cases hcomplete with
      | pass houtcome hresponse =>
          simp only [houtcome, if_true]
          exact passCaptures_spec _
      | respond response houtcome hresponse hwritten =>
          simp only [houtcome, reduceCtorEq, if_false, hresponse]
          exact speaks_route hfind hresponse hwritten

theorem speaks_jwtAuth (hmac : JwtAuth.Hmac) (now : Int) (settings : JwtAuth.Settings)
    (request : Request) :
    Speaks (isHead request) (isHead request = false)
      (.ok (JwtAuth.handle hmac now settings request)) := by
  have hunauthorized : ∀ body : Bytes, body ≠ [] → Speaks (isHead request)
      (isHead request = false) (.ok (.respond (JwtAuth.makeUnauthorized body))) := fun body hbody =>
    speaks_text Iff.rfl ⟨by decide, by decide, by decide⟩ (by decide +kernel) hbody
  have hclaim : ∀ (name claim : Bytes) (result : Module.Result),
      Speaks (isHead request) (isHead request = false) (.ok result) →
      result.next = .pass ∧ result.responseValue = none →
      Speaks (isHead request) (isHead request = false)
          (.ok (JwtAuth.addClaim name claim result)) ∧
        (JwtAuth.addClaim name claim result).next = .pass ∧
        (JwtAuth.addClaim name claim result).responseValue = none := by
    intro name claim result hspeaks hpass
    unfold JwtAuth.addClaim
    by_cases hnil : claim = []
    · rw [if_pos hnil]
      exact ⟨hspeaks, hpass⟩
    · rw [if_neg hnil]
      exact ⟨speaks_addResponseHeader hpass hspeaks.1, hpass⟩
  unfold JwtAuth.handle
  by_cases hscope : JwtAuth.enforces settings.rules request = true
  · simp only [hscope, Bool.not_true, Bool.false_eq_true, if_false]
    split
    · exact hunauthorized _ (by decide +kernel)
    · split
      · next claims _ =>
          obtain ⟨huser, huserPass⟩ := hclaim (ascii "X-Garcon-User-Id") claims.sub .pass
            speaks_pass ⟨rfl, rfl⟩
          obtain ⟨hroles, hrolesPass⟩ := hclaim (ascii "X-Garcon-Roles") claims.roles _ huser
            huserPass
          obtain ⟨hiss, hissPass⟩ := hclaim (ascii "X-Garcon-Claim-iss") claims.iss _ hroles
            hrolesPass
          exact (hclaim (ascii "X-Garcon-Claim-aud") claims.aud _ hiss hissPass).1
      · exact hunauthorized _ (by decide +kernel)
      · exact hunauthorized _ (by decide +kernel)
  · simp only [Bool.not_eq_true] at hscope
    simp only [hscope, Bool.not_false, if_true]
    exact speaks_pass

theorem not_head_of_isPreflightRequest {request : Request}
    (h : Cors.isPreflightRequest request = true) : isHead request = false := by
  simp only [Cors.isPreflightRequest, Bool.and_eq_true, beq_iff_eq] at h
  rw [isHead, h.1.1]
  decide +kernel

/-- A preflight response has no body, and announces none. -/
theorem decorates_of_makePreflightResponse {rule : Cors.Rule} {origin : Bytes}
    {response : Response} (h : Cors.makePreflightResponse rule origin = .ok response) :
    Response.Decorates { status := 204, reason := ascii "No Content", contentLength := some 0 }
      response := by
  obtain ⟨allowed, hallowed, h⟩ := Response.exists_of_bind_eq_ok h
  obtain ⟨methods, hmethods, h⟩ := Response.exists_of_bind_eq_ok h
  obtain ⟨set, hset, hvary⟩ := Response.exists_of_bind_eq_ok hallowed
  have hcors := Response.decorates_of_setHeader hset
  have hallow : Response.Decorates set allowed := by
    by_cases hany : Cors.anyOriginAllowed rule = true
    · rw [if_pos hany] at hvary
      cases hvary
      exact Response.Decorates.refl _
    · rw [if_neg hany] at hvary
      exact Response.decorates_of_addHeader hvary
  have hheaders : Response.Decorates methods response := by
    by_cases hnil : rule.allowHeadersHeader = []
    · rw [if_pos hnil] at h
      cases h
      exact Response.Decorates.refl _
    · rw [if_neg hnil] at h
      exact Response.decorates_of_setHeader h
  exact (hcors.trans hallow).trans ((Response.decorates_of_setHeader hmethods).trans hheaders)

theorem speaks_cors (rules : List Cors.Rule) (request : Request) :
    Speaks (isHead request) (isHead request = false) (Cors.handle rules request) := by
  have hmethod : Speaks (isHead request) (isHead request = false)
      (.ok (.respond Cors.methodNotAllowed)) :=
    speaks_text Iff.rfl ⟨by decide, by decide, by decide⟩ (by decide +kernel) (by decide +kernel)
  have horigin : Speaks (isHead request) (isHead request = false)
      (.ok (.respond Cors.originNotAllowed)) :=
    speaks_text Iff.rfl ⟨by decide, by decide, by decide⟩ (by decide +kernel) (by decide +kernel)
  unfold Cors.handle
  split
  · exact speaks_pass
  · next requestOrigin _ =>
      split
      · exact speaks_pass
      · next rule _ =>
          unfold Cors.applyRule
          split
          · split
            · exact horigin
            · exact speaks_pass
          · split
            · next hpreflight =>
                unfold Cors.answerPreflight
                dsimp only
                split
                · exact hmethod
                · cases hresponse : Cors.makePreflightResponse rule requestOrigin with
                  | error what => exact speaks_error Iff.rfl
                  | ok response =>
                      obtain ⟨headers, rfl⟩ := decorates_of_makePreflightResponse hresponse
                      have hreason : PlainReason (ascii "No Content") := by decide +kernel
                      have hpos : (0 : Int) < 204 := by decide
                      refine speaks_respond ⟨hpos, hreason, fun _ => rfl⟩ ?_
                      exact iff_of_true (not_head_of_isPreflightRequest hpreflight)
                        fun hstray => hstray.2 rfl
            · split
              · exact hmethod
              · unfold Cors.passCors
                split
                · exact speaks_addResponseHeader ⟨rfl, rfl⟩ .pass
                · exact speaks_addResponseHeader ⟨rfl, rfl⟩ (.addResponseHeader _ _ .pass)

/-- The response to a request beyond its limit, without its headers. -/
def rateLimited : Response :=
  .text 429 (ascii "Too Many Requests") (ascii "rate limit exceeded\n")

theorem decorates_of_makeRateLimitResponse {limit window retry : Int} {response : Response}
    (h : RateLimit.makeRateLimitResponse limit window retry = .ok response) :
    rateLimited.Decorates response := by
  obtain ⟨first, hfirst, h⟩ := Response.exists_of_bind_eq_ok h
  obtain ⟨second, hsecond, h⟩ := Response.exists_of_bind_eq_ok h
  exact (Response.decorates_of_setHeader hfirst).trans
    ((Response.decorates_of_setHeader hsecond).trans (Response.decorates_of_setHeader h))

theorem decorates_of_checkAndConsume {r : RateLimit.Rule} {i : Nat} {subject : Bytes} {now : ℚ}
    {buckets buckets' : RateLimit.Buckets} {response : Response}
    (h : RateLimit.checkAndConsume r i subject now buckets = (.ok (some response), buckets')) :
    rateLimited.Decorates response := by
  rw [RateLimit.checkAndConsume_eq_ite] at h
  split at h
  · cases h
  · have hmade := (Prod.mk.inj h).1
    cases hresponse : RateLimit.makeRateLimitResponse r.limit r.windowSeconds
        (RateLimit.retryAfter r (RateLimit.refilled r now
          (buckets (RateLimit.makeStateKey i subject)))) with
    | error what =>
        rw [hresponse] at hmade
        cases hmade
    | ok made =>
        rw [hresponse] at hmade
        cases hmade
        exact decorates_of_makeRateLimitResponse hresponse

theorem speaks_applyRule (r : RateLimit.Rule) (i : Nat) (request : Request) (now : ℚ)
    (buckets : RateLimit.Buckets) :
    Speaks (isHead request) (isHead request = false)
      (RateLimit.applyRule r i request now buckets).1 := by
  have hlimited : ∀ response, rateLimited.Decorates response →
      Speaks (isHead request) (isHead request = false) (.ok (.respond response)) := by
    rintro response ⟨headers, rfl⟩
    have hstatus : HasBody 429 := ⟨by decide, by decide, by decide⟩
    have hreason : PlainReason (ascii "Too Many Requests") := by decide +kernel
    have hpos : (0 : Int) < 429 := by decide
    have hbody : ascii "rate limit exceeded\n" ≠ [] := by decide +kernel
    refine speaks_respond (fit_of_length_none hpos hreason rfl) ?_
    exact (strayBody_iff hstatus hbody).symm
  unfold RateLimit.applyRule
  dsimp only
  cases hcheck : RateLimit.checkAndConsume r i (RateLimit.extractSubject request r) now
    buckets with
  | mk outcome buckets' =>
      cases outcome with
      | error what => exact speaks_error Iff.rfl
      | ok answer =>
          cases answer with
          | none =>
              exact speaks_addResponseHeader ⟨rfl, rfl⟩
                (.addResponseHeader _ _ (.addResponseHeader _ _ .pass))
          | some response =>
              have hresponse := decorates_of_checkAndConsume hcheck
              dsimp only
              by_cases hnone : (response.findHeader (ascii "X-RateLimit-Limit")).isNone = true
              · rw [if_pos hnone]
                cases hset : response.setHeader (ascii "X-RateLimit-Limit")
                  (decimalInt r.limit) with
                | error what => exact speaks_error Iff.rfl
                | ok limited =>
                    exact hlimited limited
                      (hresponse.trans (Response.decorates_of_setHeader hset))
              · rw [if_neg hnone]
                exact hlimited response hresponse

theorem speaks_rateLimit (rules : List RateLimit.Rule) (request : Request) (now : ℚ)
    (buckets : RateLimit.Buckets) :
    Speaks (isHead request) (isHead request = false)
      (RateLimit.handle rules request now buckets).1 := by
  have hfrom : ∀ i, Speaks (isHead request) (isHead request = false)
      (RateLimit.handleFrom i rules request now buckets).1 := by
    induction rules with
    | nil => exact fun i => speaks_pass
    | cons r rules ih =>
        intro i
        rw [RateLimit.handleFrom]
        by_cases hmatch : RateLimit.ruleMatches r request = true
        · rw [if_pos hmatch]
          exact speaks_applyRule r i request now buckets
        · rw [if_neg hmatch]
          exact ih (i + 1)
  exact hfrom 0

/-- A text that the file service answers with is out of place exactly in response to HEAD. -/
theorem speaks_unserved {request : Request} {status : Int} {reason body : Bytes}
    {found : Prop} (hfound : ¬ found) (hstatus : HasBody status) (hreason : PlainReason reason)
    (hbody : body ≠ []) :
    Speaks (isHead request) (isHead request = true → found)
      ((Except.ok (Response.text status reason body)).map Module.Result.respond) := by
  refine speaks_text ?_ hstatus hreason hbody
  constructor
  · intro h
    rw [← Bool.not_eq_true]
    exact fun hhead => hfound (h hhead)
  · intro h hhead
    rw [h] at hhead
    cases hhead

theorem resolved_of_readFileBytes {files : StaticFiles.FileSystem} {path : StaticFiles.Path}
    {size : Nat} {body : Bytes} (h : StaticFiles.readFileBytes files path size = some body) :
    body.length = size := by
  unfold StaticFiles.readFileBytes at h
  split at h
  · cases h
  · next bytes _ =>
      split at h
      · cases h
      · next hlen =>
          cases h
          rw [List.length_take]
          omega

theorem plainReason_ok : PlainReason (ascii "OK") := by decide +kernel

/-- Serving a resolved file in response to GET. -/
theorem speaks_serveResolved_get {files : StaticFiles.FileSystem} {resolved : StaticFiles.Path}
    {request : Request} {found : Prop} (hhead : isHead request = false) :
    Speaks (isHead request) (isHead request = true → found)
      ((StaticFiles.serveResolved files resolved true).map Module.Result.respond) := by
  have hquiet : (isHead request = true → found) ↔ isHead request = false := by
    refine iff_of_true ?_ hhead
    intro h
    rw [hhead] at h
    cases h
  have hnotFound : Speaks (isHead request) (isHead request = true → found)
      ((Except.ok StaticFiles.notFound).map Module.Result.respond) :=
    speaks_text hquiet ⟨by decide, by decide, by decide⟩ (by decide +kernel) (by decide +kernel)
  unfold StaticFiles.serveResolved
  split
  · exact hnotFound
  · split
    · exact speaks_error hquiet
    · next fileSize _ =>
        split
        · exact speaks_text hquiet ⟨by decide, by decide, by decide⟩ (by decide +kernel)
            (by decide +kernel)
        · dsimp only
          rw [if_pos rfl]
          split
          · exact hnotFound
          · next body hread =>
              have hlen := resolved_of_readFileBytes hread
              have hpos : (0 : Int) < 200 := by decide
              refine speaks_respond ⟨hpos, plainReason_ok, fun _ => hlen.symm⟩ ?_
              refine iff_of_true (hquiet.mpr hhead) fun hstray => ?_
              have hno : Client.hasNoBody false (200 : Int).toNat = false := by decide
              have hbody := hstray.1
              rw [hhead] at hbody
              exact absurd (hno.symm.trans hbody) Bool.false_ne_true

theorem speaks_serveResolved_head {files : StaticFiles.FileSystem}
    {resolved : StaticFiles.Path} {request : Request} {found : Prop}
    (hhead : isHead request = true)
    (hfound : found ↔ files.isRegularFile resolved = some true ∧
      ∃ size, files.fileSize resolved = .ok size ∧ size ≤ StaticFiles.maxFileBytes) :
    Speaks (isHead request) (isHead request = true → found)
      ((StaticFiles.serveResolved files resolved false).map Module.Result.respond) := by
  unfold StaticFiles.serveResolved
  by_cases hregular : files.isRegularFile resolved = some true
  · rw [if_neg (by simp [hregular]), hfound]
    cases hsize : files.fileSize resolved with
    | error what =>
        refine speaks_error (iff_of_false ?_ (by simp [hhead]))
        intro h
        obtain ⟨-, size, hok, -⟩ := h hhead
        cases hok
    | ok fileSize =>
        dsimp only
        by_cases hlarge : StaticFiles.maxFileBytes < fileSize
        · rw [if_pos hlarge]
          refine speaks_unserved ?_ ⟨by decide, by decide, by decide⟩ (by decide +kernel)
            (by decide +kernel)
          rintro ⟨-, size, hok, hle⟩
          cases hok
          omega
        · rw [if_neg hlarge]
          have hpos : (0 : Int) < 200 := by decide
          have hle : fileSize ≤ StaticFiles.maxFileBytes := by omega
          refine speaks_respond ⟨hpos, plainReason_ok, fun hno => ?_⟩ ?_
          · rw [hhead] at hno
            cases hno
          · exact iff_of_true (fun _ => ⟨hregular, fileSize, rfl, hle⟩) fun hstray =>
              hstray.2 rfl
  · rw [if_pos hregular]
    exact speaks_unserved (fun h => hregular (hfound.mp h).1) ⟨by decide, by decide, by decide⟩
      (by decide +kernel) (by decide +kernel)

theorem speaks_staticFiles (files : StaticFiles.FileSystem) (root : StaticFiles.Path)
    (request : Request) :
    Speaks (isHead request) (isHead request = true → Found files root request.target)
      ((StaticFiles.handle files root request).map Module.Result.respond) := by
  have hnotFound : ¬ Found files root request.target →
      Speaks (isHead request) (isHead request = true → Found files root request.target)
        ((Except.ok StaticFiles.notFound).map Module.Result.respond) := fun hno =>
    speaks_unserved hno ⟨by decide, by decide, by decide⟩ (by decide +kernel) (by decide +kernel)
  have hserve : ∀ isGet, isGet = !isHead request →
      Speaks (isHead request) (isHead request = true → Found files root request.target)
        ((StaticFiles.serveFile files root request.target isGet).map Module.Result.respond) := by
    intro isGet hisGet
    unfold StaticFiles.serveFile
    cases hmap : StaticFiles.mapToRelativePath request.target with
    | none =>
        apply hnotFound
        rintro ⟨relative, resolved, size, hrelative, -⟩
        rw [hmap] at hrelative
        cases hrelative
    | some relative =>
        dsimp only
        cases hresolve : StaticFiles.resolveUnderRoot files root relative with
        | none =>
            apply hnotFound
            rintro ⟨relative', resolved, size, hrelative, hresolved, -⟩
            rw [hmap] at hrelative
            cases hrelative
            rw [hresolve] at hresolved
            cases hresolved
        | some resolved =>
            dsimp only
            by_cases hhead : isHead request = true
            · have hfalse : isGet = false := by rw [hisGet, hhead]; rfl
              rw [hfalse]
              apply speaks_serveResolved_head hhead
              constructor
              · rintro ⟨relative', resolved', size, hrelative, hresolved, hregular, hrest⟩
                rw [hmap] at hrelative
                cases hrelative
                rw [hresolve] at hresolved
                cases hresolved
                exact ⟨hregular, size, hrest⟩
              · rintro ⟨hregular, size, hrest⟩
                exact ⟨relative, resolved, size, hmap, hresolve, hregular, hrest⟩
            · rw [Bool.not_eq_true] at hhead
              have htrue : isGet = true := by rw [hisGet, hhead]; rfl
              rw [htrue]
              exact speaks_serveResolved_get hhead
  unfold StaticFiles.handle
  dsimp only
  by_cases hget : (request.method == ascii "GET") = true
  · have hmethod := beq_iff_eq.mp hget
    have hhead : isHead request = false := by
      rw [isHead, hmethod]
      decide +kernel
    rw [hget, if_neg (by simp)]
    exact hserve true (by rw [hhead]; rfl)
  · rw [Bool.not_eq_true] at hget
    rw [hget]
    by_cases hhead : isHead request = true
    · have hmethod : (request.method == ascii "HEAD") = true := hhead
      rw [hmethod, if_neg (by simp)]
      exact hserve false (by rw [hhead]; rfl)
    · rw [Bool.not_eq_true] at hhead
      have hmethod : (request.method == ascii "HEAD") = false := hhead
      rw [hmethod, if_pos (by simp)]
      refine speaks_text ?_ ⟨by decide, by decide, by decide⟩ (by decide +kernel)
        (by decide +kernel)
      refine iff_of_true ?_ hhead
      intro h
      rw [hhead] at h
      cases h

/-- Every bundled module speaks as its condition says. -/
theorem speaks_implementation (hmac : JwtAuth.Hmac) (i : Nat) (b : Bundled) (request : Request)
    (w : World) :
    Speaks (isHead request) (b.Quiet i w request) (b.implementation hmac i request w).1 := by
  cases b with
  | cors c => exact speaks_cors c.settings request
  | headerGuard c =>
      exact speaks_guard HeaderGuard.guard request
        (fun rule hrule => (HeaderGuard.range_of_parseRules c.parsed hrule).1)
        fun rule => HeaderGuard.plainReason_reasonPhraseForStatus _
  | hostGuard c =>
      exact speaks_guard HostGuard.guard request
        (fun rule hrule => (HostGuard.range_of_parseRules c.parsed hrule).1)
        fun rule => HostGuard.plainReason_reasonPhraseForStatus _
  | jwtAuth c => exact speaks_jwtAuth hmac _ c.settings request
  | rateLimit c => exact speaks_rateLimit c.settings request _ _
  | routeTable c => exact speaks_routeTable c request
  | router c => exact speaks_router c request
  | staticFiles root => exact speaks_staticFiles _ root request

end App
end Garcon
