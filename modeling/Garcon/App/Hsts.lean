import Garcon.App.StateMachine

/-!
# Strict transport security

On HTTPS every response to a request gets the transport security header unless the request
handler has set one.  `serialize` drops that one when its value has a line break, and the
fixed responses to what is no request get none.  A reason phrase with an empty line in it
ends the head before the field, and one with a line break can hold a line for it.
-/

namespace Garcon
namespace App

open Ascii Http Net

def hstsName : Bytes := ascii "Strict-Transport-Security"

/-- A client finds the field in the head of the response. -/
def Advertises (r : Response) (policy : ConnectionPolicy) : Prop :=
  hasField hstsName (r.serialize policy) = true

/-- The response has no such field, or one that can be written. -/
def HstsWritable (r : Response) : Prop :=
  (∃ h ∈ r.headers, headerNameEquals h.name hstsName = true) →
    ∃ h ∈ r.headers, headerNameEquals h.name hstsName = true ∧
      Response.validHeaderValue h.value = true

/-- A handler's response can keep the promise when its reason phrase leaves the head open
and its fields are writable, or when the reason phrase has a line for the field itself. -/
def Advertisable (r : Response) : Prop :=
  (∃ line ∈ reasonLines r.reason, (Client.fieldValue hstsName line).isSome = true) ∨
    ¬ headerEnd <:+: r.reason ++ crlf ∧ HstsWritable r

theorem isTokenChar_lower : ∀ b : UInt8, isTokenChar (lower b) = isTokenChar b := by
  decide +kernel

theorem isToken_map_lower (text : Bytes) : isToken (text.map lower) = isToken text := by
  unfold isToken
  rw [List.all_map, List.isEmpty_map]
  congr 2
  funext b
  exact isTokenChar_lower b

/-- A field with this name is a token and is not reserved. -/
theorem wired_of_hstsName {name : Bytes} (h : headerNameEquals name hstsName = true)
    (written : Bool) :
    isReservedHeader name written = false ∧ Response.validHeaderName name = true := by
  have hlower := headerNameEquals_iff.mp h
  have hother : ∀ other, headerNameEquals hstsName other = false →
      headerNameEquals name other = false := by
    intro other hother
    rw [← Bool.not_eq_true, headerNameEquals_iff] at hother ⊢
    rw [hlower]
    exact hother
  have hconnection := hother (ascii "Connection") (by decide +kernel)
  have hlength := hother (ascii "Content-Length") (by decide +kernel)
  have htype := hother (ascii "Content-Type") (by decide +kernel)
  refine ⟨?_, ?_⟩
  · rw [isReservedHeader, hconnection, hlength, htype, Bool.and_false]
    rfl
  · rw [Response.validHeaderName, ← isToken_map_lower, hlower]
    decide +kernel

theorem fieldsNamed_hsts_ne_nil_iff {r : Response} {policy : ConnectionPolicy} :
    r.fieldsNamed policy hstsName ≠ [] ↔
      ∃ h ∈ r.headers, headerNameEquals h.name hstsName = true ∧
        Response.validHeaderValue h.value = true := by
  rw [r.fieldsNamed_ne_nil_iff policy (by decide +kernel) (by decide +kernel) (by decide +kernel)]
  constructor
  · rintro ⟨h, hmem, hname⟩
    simp only [Response.wireHeaders, List.mem_filter, Bool.and_eq_true] at hmem
    exact ⟨h, hmem.1, hname, hmem.2.2⟩
  · rintro ⟨h, hmem, hname, hvalue⟩
    obtain ⟨hreserved, hvalid⟩ := wired_of_hstsName hname r.contentTypeWritten
    refine ⟨h, ?_, hname⟩
    simp only [Response.wireHeaders, List.mem_filter, Bool.and_eq_true]
    exact ⟨hmem, ⟨by rw [hreserved]; rfl, hvalid⟩, hvalue⟩

theorem advertises_iff {r : Response} {policy : ConnectionPolicy} :
    Advertises r policy ↔
      (∃ line ∈ reasonLines r.reason, (Client.fieldValue hstsName line).isSome = true) ∨
        ¬ headerEnd <:+: r.reason ++ crlf ∧
          ∃ h ∈ r.headers, headerNameEquals h.name hstsName = true ∧
            Response.validHeaderValue h.value = true := by
  rw [Advertises, Response.hasField_serialize_iff, fieldsNamed_hsts_ne_nil_iff]

section

variable {σ η : Type} {c : ConnectionHandler σ η} (hhttps : c.httpsEnabled = true)

include hhttps

/-- What the response to a request becomes: the handler's reason phrase, and a writable field
with that name exactly when the handler's own fields are writable. -/
theorem answer_ok_spec {request : Request} {own response : Response} {h h' : η}
    (hhandler : (c.handler request h).1 = .ok own)
    (hanswer : c.answer request h = (.ok response, h')) :
    response.reason = own.reason ∧
      ((∃ h ∈ response.headers, headerNameEquals h.name hstsName = true ∧
        Response.validHeaderValue h.value = true) ↔ HstsWritable own) := by
  unfold ConnectionHandler.answer at hanswer
  cases hrun : c.handler request h with
  | mk outcome h₁ =>
  rw [hrun] at hhandler hanswer
  cases hhandler
  dsimp only at hanswer
  rw [hhttps, Bool.true_and] at hanswer
  by_cases hnone : (own.findHeader hstsName).isNone = true
  · have hnone' : (own.findHeader (ascii "Strict-Transport-Security")).isNone = true := hnone
    rw [if_pos hnone', Prod.mk.injEq] at hanswer
    have habsent : ¬ ∃ h ∈ own.headers, headerNameEquals h.name hstsName = true := by
      rintro ⟨h, hmem, hname⟩
      rw [Option.isNone_iff_eq_none, Response.findHeader, Http.findHeader,
        List.find?_eq_none] at hnone
      exact hnone h hmem hname
    have heq := (ConnectionHandler.setHeader_hsts hnone').symm.trans hanswer.1
    cases heq
    refine ⟨rfl, iff_of_true ?_ fun hpresent => absurd hpresent habsent⟩
    exact ⟨⟨hstsName, ascii "max-age=31536000"⟩, List.mem_append_right _ List.mem_cons_self,
      by decide +kernel, by decide +kernel⟩
  · have hnone' : ¬ (own.findHeader (ascii "Strict-Transport-Security")).isNone = true := hnone
    rw [if_neg hnone', Prod.mk.injEq, Except.ok.injEq] at hanswer
    rw [← hanswer.1]
    have hpresent : ∃ h ∈ own.headers, headerNameEquals h.name hstsName = true := by
      rw [Option.isNone_iff_eq_none, Response.findHeader, Http.findHeader,
        List.find?_eq_none] at hnone
      by_contra habsent
      exact hnone fun h hmem hname => habsent ⟨h, hmem, hname⟩
    exact ⟨rfl, fun hexists _ => hexists, fun hself => hself hpresent⟩

omit hhttps in
theorem handler_of_answer_ok {request : Request} {response : Response} {h h' : η}
    (hanswer : c.answer request h = (.ok response, h')) :
    ∃ own, (c.handler request h).1 = .ok own := by
  unfold ConnectionHandler.answer at hanswer
  cases hrun : c.handler request h with
  | mk outcome h₁ =>
  rw [hrun] at hanswer
  cases outcome with
  | error what => cases hanswer
  | ok own => exact ⟨own, rfl⟩

/-- A response to a request has the field on the wire exactly when the handler's own response
can keep the promise. -/
theorem advertises_answer_iff {request : Request} {response : Response} {h h' : η}
    (hanswer : c.answer request h = (.ok response, h')) (policy : ConnectionPolicy) :
    Advertises response policy ↔
      ∀ own, (c.handler request h).1 = .ok own → Advertisable own := by
  obtain ⟨own, hown⟩ := handler_of_answer_ok hanswer
  obtain ⟨hreason, hfields⟩ := answer_ok_spec hhttps hown hanswer
  have hown' : (∀ own', (c.handler request h).1 = .ok own' → Advertisable own') ↔
      Advertisable own := by
    constructor
    · exact fun hall => hall own hown
    · intro hself own' hown'
      rw [hown, Except.ok.injEq] at hown'
      exact hown' ▸ hself
  rw [hown', advertises_iff, hreason, hfields, Advertisable]

omit hhttps in
theorem handler_of_answer_error {request : Request} {what : String} {h h' : η}
    (hanswer : c.answer request h = (.error what, h')) :
    (c.handler request h).1 = .error what := by
  unfold ConnectionHandler.answer at hanswer
  cases hhandler : c.handler request h with
  | mk outcome h₁ =>
  rw [hhandler] at hanswer
  cases outcome with
  | error what' =>
      rw [Prod.mk.injEq] at hanswer
      exact hanswer.1
  | ok own =>
      dsimp only at hanswer
      split at hanswer
      · next hadds =>
          rw [ConnectionHandler.setHeader_hsts (Bool.and_eq_true_iff.mp hadds).2] at hanswer
          cases hanswer
      · cases hanswer

/-- A round keeps the promise when what it reads is no reason to refuse, and when the
handler's response to its request can keep it. -/
def KeepsPromise (c : ConnectionHandler σ η) (served : Nat) (h : η) (x : Exchange) : Prop :=
  match x.request with
  | none => ∀ result contents response, ReadTo maxRequestHeaderBytes [] x.reads result contents →
    ¬ Refusal served result contents response
  | some request => ∀ own, (c.handler request h).1 = .ok own → Advertisable own

/-- The rounds of a connection keep the promise one after the other. -/
def KeepPromise (c : ConnectionHandler σ η) : Nat → η → List Exchange → Prop
  | _, _, [] => True
  | served, h, x :: xs =>
    KeepsPromise c served h x ∧
      KeepPromise c (served + 1)
        (match x.request with
          | none => h
          | some request => (c.answer request h).2) xs

omit hhttps in
theorem not_advertises_of_refusal {served : Nat} {result : HeaderRead} {contents : Bytes}
    {response : Response} (h : Refusal served result contents response) :
    ¬ Advertises response .close := by
  unfold Advertises
  cases h <;> decide +kernel

/-- One exchange: its reply has the field exactly when its round keeps the promise. -/
theorem keepsPromise_iff {clientIp : Bytes} {served : Nat} {h h' : η} {x : Exchange}
    (hx : Exchanged c clientIp served h x h') :
    (∀ reply, x.reply = some reply → Advertises reply.response reply.policy) ↔
      KeepsPromise c served h x := by
  unfold KeepsPromise
  cases hx with
  | unset trouble htrouble =>
      refine iff_of_true (fun reply hreply => by cases hreply) ?_
      intro result contents response hread hrefusal
      cases hread with
      | block hsplit hfresh =>
          have hlength := congrArg List.length hsplit
          simp [headerEnd, crlf] at hlength
      | tooLarge hnone hlarge => cases hlarge
  | @silent reads result contents hread hsilence trouble htrouble =>
      refine iff_of_true (fun reply hreply => by cases hreply) ?_
      intro result' contents' response hread' hrefusal
      obtain ⟨rfl, rfl⟩ := hread.unique hread'
      cases hsilence with
      | closed => cases hrefusal
      | ioError => cases hrefusal
      | idle hserved =>
          cases hrefusal with
          | requestTimeout h =>
              rcases h with h | h
              · exact hserved h
              · exact h rfl
  | @refused reads result contents response hread hrefusal status =>
      refine iff_of_false ?_ fun hnone => hnone result contents response hread hrefusal
      intro hall
      have hbare := hall _ rfl
      exact not_advertises_of_refusal hrefusal hbare
  | @threw reads header contents request h' what hread hparse hanswer =>
      refine iff_of_true (fun reply hreply => by cases hreply) ?_
      intro own hok
      rw [handler_of_answer_error hanswer] at hok
      cases hok
  | @answered reads header contents request h' response hread hparse hanswer status =>
      have hiff := advertises_answer_iff hhttps hanswer (ConnectionHandler.policyOf request)
      constructor
      · intro hall
        have hreply := hall _ rfl
        exact hiff.mp hreply
      · intro hpromise reply hreply
        cases hreply
        exact hiff.mpr hpromise

omit hhttps in
theorem state_of_exchanged {clientIp : Bytes} {served : Nat} {h h' : η} {x : Exchange}
    (hx : Exchanged c clientIp served h x h') :
    h' = match x.request with
      | none => h
      | some request => (c.answer request h).2 := by
  cases hx with
  | unset trouble htrouble => rfl
  | silent hread hsilence trouble htrouble => rfl
  | refused hread hrefusal status => rfl
  | threw hread hparse hanswer =>
      dsimp only
      rw [hanswer]
  | answered hread hparse hanswer status =>
      dsimp only
      rw [hanswer]

/-- A conversation: all replies have the field exactly when the rounds keep the promise. -/
theorem keepPromise_iff {clientIp : Bytes} {served : Nat} {h h' : η} {xs : List Exchange}
    (hxs : Conversation c clientIp served h xs h') :
    (∀ x ∈ xs, ∀ reply, x.reply = some reply → Advertises reply.response reply.policy) ↔
      KeepPromise c served h xs := by
  induction hxs with
  | cut served h => exact iff_of_true (fun x hx => absurd hx List.not_mem_nil) trivial
  | last hx hstop =>
      rw [List.forall_mem_singleton, keepsPromise_iff hhttps hx, KeepPromise, KeepPromise,
        and_true]
  | next hx hgoes hlater ih =>
      rw [List.forall_mem_cons, keepsPromise_iff hhttps hx, ih, KeepPromise,
        ← state_of_exchanged hx]

end

theorem sentWires_advertise_iff (xs : List Exchange) :
    (∀ wire ∈ sentWires (xs.flatMap Exchange.ops), hasField hstsName wire = true) ↔
      ∀ x ∈ xs, ∀ reply, x.reply = some reply → Advertises reply.response reply.policy := by
  rw [sentWires_flatMap]
  constructor
  · intro hall x hmem reply hreply
    exact hall _ (List.mem_map.mpr ⟨reply, List.mem_filterMap.mpr ⟨x, hmem, hreply⟩, rfl⟩)
  · intro hall wire hwire
    obtain ⟨reply, hmem, rfl⟩ := List.mem_map.mp hwire
    obtain ⟨x, hx, hreply⟩ := List.mem_filterMap.mp hmem
    exact hall x hx reply hreply

/-- On HTTPS, over a logged stream: what is watched is a conversation of rounds, and however
it is cut into the rounds of one, every response on the wire has the transport security field
in its head exactly when every round keeps the promise. -/
theorem advertises_iff_keepPromise {σ η : Type} (c : ConnectionHandler (σ × List StreamOp) η)
    (hhttps : c.httpsEnabled = true) (client : Stream σ)
    (hfactory : c.streamFactory = .ok (some client.logged)) (clientIp : Bytes) (h h' : η) (s s' : σ)
    (ops : List StreamOp) (events : List Event)
    (hwatched : Watched c clientIp h (s, []) events h' (s', ops)) :
    (∃ xs : List Exchange, Conversation c clientIp 0 h xs h' ∧ ops = xs.flatMap Exchange.ops ∧
      dispatchedRequests events = xs.filterMap (·.request)) ∧
    ∀ xs : List Exchange, Conversation c clientIp 0 h xs h' → ops = xs.flatMap Exchange.ops →
      ((∀ wire ∈ sentWires ops, hasField hstsName wire = true) ↔ KeepPromise c 0 h xs) := by
  obtain ⟨trouble, xs, htrouble, hxs, rfl, hruns⟩ :=
    ConnectionHandler.conversation_of_watched hfactory hwatched
  obtain ⟨hrequests, -, -⟩ := append_events_spec htrouble hxs.trouble
  refine ⟨⟨xs, hxs, hruns.log_eq, hrequests⟩, ?_⟩
  rintro ys hys rfl
  rw [sentWires_advertise_iff, keepPromise_iff hhttps hys]

def httpsHandler : ConnectionHandler Transport Unit where
  handler := okHandler
  streamFactory := .ok (some (Transport.stream fun _ _ => .ok))
  httpsEnabled := true
  timing := fun _ => ⟨0, 0⟩

def loggedHttpsHandler : ConnectionHandler (Transport × List StreamOp) Unit where
  handler := okHandler
  streamFactory := .ok (some (Transport.stream fun _ _ => .ok).logged)
  httpsEnabled := true
  timing := fun _ => ⟨0, 0⟩

/-- Two requests are answered with the field. -/
theorem advertises_iff_keepPromise_separate : ∃ events s' ops xs,
    loggedHttpsHandler.handleConnection [] 38 () (separate, []) = some (events, (), (s', ops)) ∧
    (sentWires ops).map (hasField hstsName) = [true, true] ∧
    Conversation loggedHttpsHandler [] 0 () xs () ∧ ops = xs.flatMap Exchange.ops ∧
    ((∀ wire ∈ sentWires ops, hasField hstsName wire = true) ↔
      KeepPromise loggedHttpsHandler 0 () xs) := by
  have hsent : (loggedHttpsHandler.handleConnection [] 38 () (separate, [])).map
      (fun run => (sentWires run.2.2.2).map (hasField hstsName)) = some [true, true] := by
    decide +kernel
  cases hrun : loggedHttpsHandler.handleConnection [] 38 () (separate, []) with
  | none =>
      rw [hrun] at hsent
      cases hsent
  | some run =>
      obtain ⟨events, h', s', ops⟩ := run
      rw [hrun, Option.map_some, Option.some.injEq] at hsent
      obtain ⟨⟨xs, hxs, hops, -⟩, hiff⟩ := advertises_iff_keepPromise loggedHttpsHandler rfl
        (Transport.stream fun _ _ => .ok) rfl [] () h' separate s' ops events (.whole hrun)
      exact ⟨events, s', ops, xs, rfl, hsent, hxs, hops, hiff xs hxs hops⟩

/-- A client whose first line is no request line. -/
def garbled : Transport where
  chunks := [⟨ascii "hello" ++ headerEnd, by decide⟩]
  ending := .closed

/-- The 400 that it gets has no line for the field. -/
theorem refusal_without_hsts :
    ¬ ∀ (c : ConnectionHandler Transport Unit) (t : Transport) (fuel : Nat) events h' t',
      c.httpsEnabled = true → c.handleConnection [] fuel () t = some (events, h', t') →
      ∀ wire ∈ sentResponses events, hasField hstsName wire = true := by
  intro hclaim
  have hbare : (httpsHandler.handleConnection [] 9 () garbled).map (fun run =>
      (sentResponses run.1).map (hasField hstsName)) = some [false] := by decide +kernel
  cases hrun : httpsHandler.handleConnection [] 9 () garbled with
  | none =>
      rw [hrun] at hbare
      cases hbare
  | some run =>
      obtain ⟨events, h', t'⟩ := run
      rw [hrun, Option.map_some, Option.some.injEq, List.map_eq_singleton_iff] at hbare
      obtain ⟨wire, hwires, hnone⟩ := hbare
      have hsome := hclaim httpsHandler garbled 9 events h' t' rfl hrun wire
        (by rw [hwires]; exact List.mem_cons_self)
      rw [hnone] at hsome
      cases hsome

end App
end Garcon
