import Garcon.App.Conversation
import Garcon.App.Framing
import Garcon.App.Segmentation

/-!
# A client on a connection of bundled modules

The replies to the requests of a connection are those of the pipeline, one after the
other.  A client reads one response for each request, with nothing left over between
them, exactly when the module that answers a request, or the pipeline behind the last
module, has no body where none is allowed.
-/

namespace Garcon
namespace App

open Ascii Http Net Modules

/-! ## The pipeline -/

theorem Fit.decorates {response response' : Response} {head : Bool} (h : Fit response head)
    (hd : response.Decorates response') : Fit response' head := by
  obtain ⟨headers, rfl⟩ := hd
  exact ⟨h.status_pos, h.reason_plain, h.size_eq⟩

theorem strayBody_decorates {response response' : Response} (head : Bool)
    (hd : response.Decorates response') : response'.StrayBody head ↔ response.StrayBody head := by
  obtain ⟨headers, rfl⟩ := hd
  exact Iff.rfl

theorem Fit.sound {response : Response} {head : Bool} (h : Fit response head) :
    response.Sound head := by
  have hpos := h.status_pos
  refine ⟨by omega, ?_, h.size_eq⟩
  intro hcrlf
  exact h.reason_plain.2 (hcrlf.subset List.mem_cons_self)

theorem published_of_fit {response : Response} {head : Bool} (h : Fit response head) :
    published response = response := by
  have hpos := h.status_pos
  have hstatus : response.status ≠ 0 := by omega
  have hreason : response.reason.isEmpty = false := by
    rw [List.isEmpty_eq_false_iff]
    exact h.reason_plain.1
  rw [published, if_neg hstatus, hreason]
  rfl

theorem fit_moduleError (head : Bool) :
    Fit moduleError head ∧ (¬ moduleError.StrayBody head ↔ head = false) := by
  have hstatus : HasBody 500 := ⟨by decide, by decide, by decide⟩
  have hreason : PlainReason (ascii "Internal Server Error") := by decide +kernel
  have hpos : (0 : Int) < 500 := by decide
  have hbody : ascii "module error\n" ≠ [] := by decide +kernel
  exact ⟨fit_of_length_none hpos hreason rfl, strayBody_iff hstatus hbody⟩

theorem fit_pipelineNotFound (head : Bool) :
    Fit pipelineNotFound head ∧ (¬ pipelineNotFound.StrayBody head ↔ head = false) := by
  have hstatus : HasBody 404 := ⟨by decide, by decide, by decide⟩
  have hreason : PlainReason (ascii "Not Found") := by decide +kernel
  have hpos : (0 : Int) < 404 := by decide
  have hbody : ascii "not found\n" ≠ [] := by decide +kernel
  exact ⟨fit_of_length_none hpos hreason rfl, strayBody_iff hstatus hbody⟩

/-- A loaded module passes, or its response keeps a client in step as its condition
says. -/
theorem fit_load (hmac : JwtAuth.Hmac) (i : Nat) (b : Bundled) (request : Request) (w : World) :
    (∃ headers, (b.load hmac i request w).1 = .pass headers) ∨
      ∃ response, (b.load hmac i request w).1.answer = some response ∧
        Fit response (isHead request) ∧
        (b.Quiet i w (visible request) ↔ ¬ response.StrayBody (isHead request)) := by
  have hspeaks := speaks_implementation hmac i b (visible request) w
  have hbuilt : ∀ result, (b.implementation hmac i (visible request) w).1 = .ok result →
      Built result := by
    intro result hok
    rw [hok] at hspeaks
    exact hspeaks.1
  obtain ⟨hresult, -⟩ := dynamicHandle_eq (b.implementation hmac i) request w.storage w hbuilt
  have hload : (b.load hmac i request w).1 =
      directResult (b.implementation hmac i (visible request) w).1 := hresult
  have hhead : isHead (visible request) = isHead request := rfl
  rw [hload]
  rw [hhead] at hspeaks
  cases houtcome : (b.implementation hmac i (visible request) w).1 with
  | error what =>
      rw [houtcome] at hspeaks
      obtain ⟨hfit, hstray⟩ := fit_moduleError (isHead request)
      exact Or.inr ⟨moduleError, rfl, hfit, hspeaks.trans hstray.symm⟩
  | ok result =>
      rw [houtcome] at hspeaks
      obtain ⟨-, ⟨hpass, hnone⟩ | ⟨response, rfl, hfit, hquiet⟩⟩ := hspeaks
      · left
        rw [directResult]
        simp only [hnone, hpass]
        exact ⟨_, rfl⟩
      · right
        refine ⟨response, ?_, hfit, hquiet⟩
        show some (published { response with headers := response.headers ++ [] }) = some response
        rw [List.append_nil, published_of_fit hfit]

/-- What keeps a client in step when these modules are asked, the first one with the
world `w`. -/
def QuietFrom (hmac : JwtAuth.Hmac) (request : Request) : Nat → List Bundled → World → Prop
  | _, [], _ => isHead request = false
  | i, b :: modules, w =>
    match b.load hmac i request w with
    | (.pass _, w') => QuietFrom hmac request (i + 1) modules w'
    | _ => b.Quiet i w (visible request)

theorem decorates_finalizeResponse (response : Response) (headers : List HeaderField) :
    response.Decorates (finalizeResponse response headers) := ⟨_, rfl⟩

theorem fit_handleFrom (hmac : JwtAuth.Hmac) (request : Request) (modules : List Bundled) :
    ∀ i pendingHeaders w,
      let response := (RequestPipeline.handleFrom pendingHeaders
        (Bundled.loadFrom hmac i modules) request w).1
      Fit response (isHead request) ∧
        (QuietFrom hmac request i modules w ↔ ¬ response.StrayBody (isHead request)) := by
  have hfinal : ∀ (response : Response) (headers : List HeaderField) (quiet : Prop),
      Fit response (isHead request) → (quiet ↔ ¬ response.StrayBody (isHead request)) →
      Fit (finalizeResponse response headers) (isHead request) ∧
        (quiet ↔ ¬ (finalizeResponse response headers).StrayBody (isHead request)) := by
    intro response headers quiet hfit hquiet
    have hd := decorates_finalizeResponse response headers
    rw [strayBody_decorates _ hd]
    exact ⟨hfit.decorates hd, hquiet⟩
  induction modules with
  | nil =>
      intro i pendingHeaders w
      obtain ⟨hfit, hstray⟩ := fit_pipelineNotFound (isHead request)
      exact hfinal _ _ _ hfit hstray.symm
  | cons b modules ih =>
      intro i pendingHeaders w
      dsimp only
      rw [Bundled.loadFrom, RequestPipeline.handleFrom, QuietFrom]
      rcases fit_load hmac i b request w with ⟨headers, hpass⟩ | ⟨response, hresponse, hfit, hquiet⟩
      · cases hload : b.load hmac i request w with
        | mk result w' =>
        rw [hload] at hpass
        cases hpass
        exact ih (i + 1) (pendingHeaders ++ headers) w'
      · cases hload : b.load hmac i request w with
        | mk result w' =>
        rw [hload] at hresponse
        have hstray := (fit_moduleError (isHead request)).2
        cases result with
        | pass headers => cases hresponse
        | respond answer =>
            cases hresponse
            exact hfinal _ _ _ hfit hquiet
        | upgrade headers =>
            cases hresponse
            exact hfinal _ _ _ hfit hquiet
        | error headers =>
            cases hresponse
            exact hfinal _ _ _ hfit hquiet

/-! ## The connection -/

/-- The pipeline as the request handler of a connection.  Between two of its requests the
server serves other connections, files change and time passes, so that each request finds
a world of its own. -/
def pipelineHandler (hmac : JwtAuth.Hmac) (modules : List Bundled) :
    RequestHandler (Nat → World) :=
  fun request worlds =>
    (.ok (bundledPipeline hmac modules request (worlds 0)).1, fun k => worlds (k + 1))

namespace ConnectionHandler

variable {σ η : Type} (c : ConnectionHandler σ η)

/-- The replies to requests that come one after the other, up to an exception. -/
def replies : List Request → η → List Sent
  | [], _ => []
  | request :: requests, h =>
    match c.answer request h with
    | (.ok response, h) => ⟨isHead request, policyOf request, response⟩ :: replies requests h
    | (.error _, _) => []

/-- What the connection handler may send after its replies. -/
inductive Farewell : List Bytes → Prop where
  | none : Farewell []
  | refusal {response : Response}
      (h : response ∈ [requestTimeout, headerTooLarge, badRequest]) :
      Farewell [response.serialize .close]

theorem mem_of_refusal {served : Nat} {result : HeaderRead} {contents : Bytes}
    {response : Response} (h : Refusal served result contents response) :
    response ∈ [requestTimeout, headerTooLarge, badRequest] := by
  cases h with
  | requestTimeout h => simp
  | headerTooLarge => simp
  | badRequest h => simp

variable {c} {clientIp : Bytes}

/-- A conversation without exceptions has the replies to its requests, and may end with a
refusal. -/
theorem wires_of_conversation {served : Nat} {h h' : η} {xs : List Exchange}
    (hanswers : ∀ request h what h', c.answer request h ≠ (.error what, h'))
    (hxs : Conversation c clientIp served h xs h') :
    ∃ farewell, Farewell farewell ∧ (xs.filterMap (·.reply)).map Reply.wire =
      (c.replies (xs.filterMap (·.request)) h).map Sent.wire ++ farewell := by
  induction hxs with
  | cut served h => exact ⟨[], .none, rfl⟩
  | last hx hstop =>
      cases hx with
      | unset trouble htrouble => exact ⟨[], .none, rfl⟩
      | silent hread hsilence trouble htrouble => exact ⟨[], .none, rfl⟩
      | refused hread hrefusal status => exact ⟨_, .refusal (mem_of_refusal hrefusal), rfl⟩
      | threw hread hparse hanswer => exact absurd hanswer (hanswers _ _ _ _)
      | answered hread hparse hanswer status =>
          refine ⟨[], .none, ?_⟩
          simp [replies, hanswer, Reply.wire, Sent.wire]
  | next hx hgoes hlater ih =>
      obtain ⟨farewell, hfarewell, hwires⟩ := ih
      refine ⟨farewell, hfarewell, ?_⟩
      obtain ⟨request, reply, hrequest, hreply, -⟩ := hgoes
      cases hx with
      | unset trouble htrouble => cases hrequest
      | silent hread hsilence trouble htrouble => cases hrequest
      | refused hread hrefusal status => cases hrequest
      | threw hread hparse hanswer => exact absurd hanswer (hanswers _ _ _ _)
      | answered hread hparse hanswer status =>
          have hrest : ∀ (x : Exchange) (xs : List Exchange) request reply,
              x.request = some request → x.reply = some reply →
              (x :: xs).filterMap (·.request) = request :: xs.filterMap (·.request) ∧
                (x :: xs).filterMap (·.reply) = reply :: xs.filterMap (·.reply) := by
            intro x xs request reply hrequest hreply
            simp [hrequest, hreply]
          obtain ⟨hrequests, hreplies⟩ := hrest ⟨_, some _, some _, []⟩ _ _ _ rfl rfl
          rw [hrequests, hreplies, List.map_cons, hwires, replies, hanswer]
          rfl

end ConnectionHandler

/-- A request is answered with the pipeline's response, and perhaps one header more. -/
theorem answer_pipelineHandler {σ : Type} {c : ConnectionHandler σ (Nat → World)}
    {hmac : JwtAuth.Hmac} {modules : List Bundled}
    (hhandler : c.handler = pipelineHandler hmac modules) (request : Request)
    (worlds : Nat → World) :
    ∃ response, c.answer request worlds = (.ok response, fun k => worlds (k + 1)) ∧
      (bundledPipeline hmac modules request (worlds 0)).1.Decorates response := by
  unfold ConnectionHandler.answer
  rw [hhandler]
  unfold pipelineHandler
  dsimp only
  split
  · next hadds =>
      have hset := ConnectionHandler.setHeader_hsts (Bool.and_eq_true_iff.mp hadds).2
      rw [hset]
      exact ⟨_, rfl, Response.decorates_of_setHeader hset⟩
  · exact ⟨_, rfl, Response.Decorates.refl _⟩

/-- The replies are fit for a client, and quiet as the modules say. -/
theorem replies_pipelineHandler {σ : Type} {c : ConnectionHandler σ (Nat → World)}
    {hmac : JwtAuth.Hmac} {modules : List Bundled}
    (hhandler : c.handler = pipelineHandler hmac modules) (requests : List Request)
    (worlds : Nat → World) :
    (c.replies requests worlds).map (·.isHead) = requests.map isHead ∧
      (∀ x ∈ c.replies requests worlds, x.response.Sound x.isHead) ∧
      ((∀ x ∈ c.replies requests worlds, ¬ x.Stray) ↔
        ∀ k (hk : k < requests.length),
          QuietFrom hmac (requests.get ⟨k, hk⟩) 0 modules (worlds k)) := by
  induction requests generalizing worlds with
  | nil => exact ⟨rfl, nofun, iff_of_true nofun nofun⟩
  | cons request requests ih =>
      obtain ⟨response, hanswer, hd⟩ := answer_pipelineHandler hhandler request worlds
      obtain ⟨hheads, hsound, hstray⟩ := ih fun k => worlds (k + 1)
      obtain ⟨hfit, hquiet⟩ := fit_handleFrom hmac request modules 0 [] (worlds 0)
      have hreplies : c.replies (request :: requests) worlds =
          ⟨isHead request, ConnectionHandler.policyOf request, response⟩ ::
            c.replies requests fun k => worlds (k + 1) := by
        rw [ConnectionHandler.replies, hanswer]
      rw [hreplies]
      refine ⟨?_, ?_, ?_⟩
      · rw [List.map_cons, hheads, List.map_cons]
      · rw [List.forall_mem_cons]
        exact ⟨(hfit.decorates hd).sound, hsound⟩
      · rw [List.forall_mem_cons, hstray]
        have hfirst : ¬ Sent.Stray ⟨isHead request, ConnectionHandler.policyOf request, response⟩ ↔
            QuietFrom hmac request 0 modules (worlds 0) := by
          rw [hquiet]
          exact not_congr (strayBody_decorates _ hd)
        rw [hfirst]
        constructor
        · rintro ⟨hzero, hsucc⟩ k hk
          cases k with
          | zero => exact hzero
          | succ k => exact hsucc k (Nat.lt_of_succ_lt_succ hk)
        · intro hall
          exact ⟨hall 0 (Nat.succ_pos _), fun k hk => hall (k + 1) (Nat.succ_lt_succ hk)⟩

/-- On a connection of bundled modules, a client reads one response for each request, and
nothing is left but a last refusal, exactly when every request finds a pipeline that keeps
it in step. -/
theorem client_in_step_iff {σ : Type} (c : ConnectionHandler σ (Nat → World))
    (hmac : JwtAuth.Hmac) (modules : List Bundled)
    (hhandler : c.handler = pipelineHandler hmac modules) (clientIp : Bytes)
    (worlds worlds' : Nat → World) (s s' : σ) (events : List Event)
    (hwatched : Watched c clientIp worlds s events worlds' s') :
    ∃ farewell, ConnectionHandler.Farewell farewell ∧
      sentResponses events =
        (c.replies (dispatchedRequests events) worlds).map Sent.wire ++ farewell ∧
      (c.replies (dispatchedRequests events) worlds).length =
        (dispatchedRequests events).length ∧
      (Client.readResponses ((dispatchedRequests events).map isHead)
          (sentResponses events).flatten =
        some ((c.replies (dispatchedRequests events) worlds).map Sent.received,
          farewell.flatten) ↔
        ∀ k (hk : k < (dispatchedRequests events).length),
          QuietFrom hmac ((dispatchedRequests events).get ⟨k, hk⟩) 0 modules (worlds k)) := by
  have hanswers : ∀ request h what h', c.answer request h ≠ (.error what, h') := by
    intro request h what h' herror
    obtain ⟨response, hok, -⟩ := answer_pipelineHandler hhandler request h
    rw [hok] at herror
    cases herror
  obtain ⟨trouble, xs, htrouble, hxs, rfl⟩ := hwatched.events
  obtain ⟨hrequests, hwires, -⟩ := append_events_spec htrouble hxs.trouble
  obtain ⟨farewell, hfarewell, hreplies⟩ :=
    ConnectionHandler.wires_of_conversation hanswers hxs
  obtain ⟨hheads, hsound, hquiet⟩ :=
    replies_pipelineHandler hhandler (xs.filterMap (·.request)) worlds
  rw [hrequests, hwires, hreplies]
  refine ⟨farewell, hfarewell, rfl, ?_, ?_⟩
  · have hlength := congrArg List.length hheads
    rwa [List.length_map, List.length_map] at hlength
  · rw [← hquiet, List.flatten_append, ← List.flatMap_def, ← hheads]
    exact Sent.readResponses_eq_iff hsound _

/-! ## A desynchronised client -/

def emptySite : List Bundled := [.staticFiles [ascii "srv", ascii "www"]]

def emptySiteHandler : ConnectionHandler Transport (Nat → World) :=
  transportHandler (fun _ _ => .ok) (pipelineHandler (fun _ _ => Vector.replicate 32 0) emptySite)
    false fun _ => ⟨0, 0⟩

def headRequest : Bytes := ascii "HEAD /missing HTTP/1.1" ++ headerEnd

/-- Two clients that ask for a file that is not there, and then for another. -/
def getClient : Transport where
  chunks := [⟨plainRequest, List.cons_ne_nil _ _⟩, ⟨plainRequest, List.cons_ne_nil _ _⟩]
  ending := .closed

def headClient : Transport where
  chunks := [⟨headRequest, List.cons_ne_nil _ _⟩, ⟨plainRequest, List.cons_ne_nil _ _⟩]
  ending := .closed

def emptySiteRun (t : Transport) : Option (List Event × (Nat → World) × Transport) :=
  emptySiteHandler.handleConnection [] 9 (fun _ => emptyWorld) t

/-- With GET the client stays in step. -/
theorem client_in_step_iff_get : ∃ run, emptySiteRun getClient = some run ∧
    (dispatchedRequests run.1).length = 2 ∧
    ∃ farewell, Client.readResponses ((dispatchedRequests run.1).map isHead)
        (sentResponses run.1).flatten =
      some ((emptySiteHandler.replies (dispatchedRequests run.1) fun _ => emptyWorld).map
        Sent.received, farewell) := by
  have hheads : (emptySiteRun getClient).map (fun run => (dispatchedRequests run.1).map isHead) =
      some [false, false] := by decide +kernel
  cases hrun : emptySiteRun getClient with
  | none =>
      rw [hrun] at hheads
      cases hheads
  | some run =>
      obtain ⟨events, worlds', t⟩ := run
      rw [hrun, Option.map_some, Option.some.injEq] at hheads
      have hlength := congrArg List.length hheads
      rw [List.length_map] at hlength
      refine ⟨_, rfl, hlength, ?_⟩
      obtain ⟨farewell, -, -, -, hiff⟩ :=
        client_in_step_iff emptySiteHandler (fun _ _ => Vector.replicate 32 0) emptySite rfl []
          (fun _ => emptyWorld) worlds' getClient t events (.whole hrun)
      refine ⟨farewell.flatten, hiff.mpr ?_⟩
      intro k hk
      have hhead : isHead ((dispatchedRequests events).get ⟨k, hk⟩) = false := by
        have hmem := List.mem_map_of_mem (f := isHead)
          (List.get_mem (dispatchedRequests events) ⟨k, hk⟩)
        rw [hheads] at hmem
        simpa using hmem
      rw [emptySite, QuietFrom]
      split
      · exact hhead
      · intro htrue
        exact absurd (hhead.symm.trans htrue) Bool.false_ne_true

/-- The text behind a HEAD response is read as the start of the next response. -/
theorem head_leaves_step :
    ¬ ∀ (hmac : JwtAuth.Hmac) (modules : List Bundled)
      (c : ConnectionHandler Transport (Nat → World)), c.handler = pipelineHandler hmac modules →
      ∀ clientIp worlds t events worlds' t', Watched c clientIp worlds t events worlds' t' →
      ∃ responses farewell, ConnectionHandler.Farewell farewell ∧
        responses.length = (dispatchedRequests events).length ∧
        Client.readResponses ((dispatchedRequests events).map isHead)
            (sentResponses events).flatten = some (responses, farewell.flatten) := by
  intro hclaim
  have hread : (emptySiteRun headClient).map (fun run =>
      Client.readResponses ((dispatchedRequests run.1).map isHead) (sentResponses run.1).flatten) =
      some none := by decide +kernel
  cases hrun : emptySiteRun headClient with
  | none =>
      rw [hrun] at hread
      cases hread
  | some run =>
      obtain ⟨events, worlds', t⟩ := run
      obtain ⟨responses, farewell, -, -, hresponses⟩ :=
        hclaim (fun _ _ => Vector.replicate 32 0) emptySite emptySiteHandler rfl [] _ headClient
          events worlds' t (.whole hrun)
      rw [hrun, Option.map_some, Option.some.injEq, hresponses] at hread
      cases hread

end App
end Garcon
