import Garcon.App.Conversation
import Garcon.App.Segmentation
import Garcon.Http.Fields

/-!
# The connection handler keeps its word

Over a logged stream, the receives and sends of a connection, the requests that it hands
on and its log records fall into exchanges: each send answers what was read before it in
its own exchange, and nothing comes after an exchange that ends the connection.
-/

namespace Garcon
namespace App

open Ascii Http Net

/-- The values of the connection fields on the wire. -/
def Reply.connection (r : Reply) : List Bytes :=
  r.response.fieldsNamed r.policy (ascii "Connection")

/-- What was sent, in order. -/
def sentWires (ops : List StreamOp) : List Bytes :=
  ops.filterMap fun
    | .sent wire _ => some wire
    | .received _ => none

theorem Reply.connection_eq (r : Reply) : r.connection = [Response.policyText r.policy] :=
  r.response.fieldsNamed_connection r.policy

theorem keepAlive_ne_close : [ascii "keep-alive"] ≠ [ascii "close"] := by decide

theorem connection_eq_close_iff {r : Reply} :
    r.connection = [ascii "close"] ↔ r.policy = .close := by
  rw [r.connection_eq]
  cases r.policy with
  | close => exact iff_of_true rfl rfl
  | keepAlive => exact iff_of_false keepAlive_ne_close nofun

theorem connection_eq_keepAlive_iff {r : Reply} :
    r.connection = [ascii "keep-alive"] ↔ r.policy = .keepAlive := by
  rw [r.connection_eq]
  cases r.policy with
  | close => exact iff_of_false keepAlive_ne_close.symm nofun
  | keepAlive => exact iff_of_true rfl rfl

/-- What a reply answers. -/
inductive Answers (x : Exchange) (response : Response) : Prop where
  | request (header contents : Bytes) (request : Request)
      (hread : ReadTo maxRequestHeaderBytes [] x.reads (.block header) contents)
      (hparse : Request.parse header = .ok request) (hrequest : x.request = some request)
  | malformed (header contents : Bytes) (e : RequestParseError)
      (hread : ReadTo maxRequestHeaderBytes [] x.reads (.block header) contents)
      (hparse : Request.parse header = .error e) (hrequest : x.request = none)
      (hresponse : response = .text 400 (ascii "Bad Request") (ascii "bad request\n"))
  | timeout (contents : Bytes)
      (hread : ReadTo maxRequestHeaderBytes [] x.reads (.error .timeout) contents)
      (hrequest : x.request = none)
      (hresponse : response = .text 408 (ascii "Request Timeout") (ascii "request timeout\n"))
  | tooLarge (contents : Bytes)
      (hread : ReadTo maxRequestHeaderBytes [] x.reads (.error .tooLarge) contents)
      (hrequest : x.request = none)
      (hresponse : response = .text 431 (ascii "Request Header Fields Too Large")
        (ascii "request header too large\n"))

/-- What holds of the `k`-th exchange of a connection. -/
structure Exchange.Lawful (k : Nat) (x : Exchange) : Prop where
  answers : ∀ reply, x.reply = some reply → Answers x reply.response
  keepAlive_iff : ∀ request reply, x.request = some request → x.reply = some reply →
    (reply.connection = [ascii "keep-alive"] ↔ request.keepAliveRequested = true)
  close_of_refusal : ∀ reply, x.request = none → x.reply = some reply →
    reply.connection = [ascii "close"]
  record : ∀ reply, x.reply = some reply →
    reply.record.status = reply.response.status ∧ reply.record.responseBytes = reply.wire.length
  silent_of_idle : k ≠ 0 → ReadTo maxRequestHeaderBytes [] x.reads (.error .timeout) [] →
    x.reply = none
  silent_of_failure : ∀ earlier r later, x.reads = earlier ++ r :: later →
    r.status = .closed ∨ r.status = .error → later = [] ∧ x.reply = none

/-- An exchange that ends the connection. -/
def Exchange.Ends (x : Exchange) : Prop :=
  (∃ reply, x.reply = some reply ∧
    (reply.connection = [ascii "close"] ∨ reply.status = .timeout ∨ reply.status = .error)) ∨
  ∃ r ∈ x.reads, r.status = .closed ∨ r.status = .error

section

variable {σ η : Type} {c : ConnectionHandler σ η} {clientIp : Bytes} {served : Nat} {h h' : η}
  {x : Exchange} {xs : List Exchange}

theorem policyOf_eq_keepAlive_iff {request : Request} :
    ConnectionHandler.policyOf request = .keepAlive ↔ request.keepAliveRequested = true := by
  unfold ConnectionHandler.policyOf
  by_cases hkeep : request.keepAliveRequested = true
  · rw [if_pos hkeep]
    exact iff_of_true rfl hkeep
  · rw [if_neg hkeep]
    exact iff_of_false nofun hkeep

/-- A receive that finds the peer gone or fails ends the reading without a word. -/
theorem result_of_failure {reads earlier later : List ReadResult} {r : ReadResult}
    {result : HeaderRead} {contents : Bytes}
    (hread : ReadTo maxRequestHeaderBytes [] reads result contents)
    (hsplit : reads = earlier ++ r :: later) (hfail : r.status = .closed ∨ r.status = .error) :
    later = [] ∧ (result = .error .closed ∨ result = .error .ioError) := by
  have hstatus : r.status ≠ .ok := by
    rcases hfail with hfail | hfail <;> rw [hfail] <;> nofun
  obtain ⟨hlast, e, he, rfl⟩ := hread.of_failure hsplit hstatus
  refine ⟨hlast, ?_⟩
  rcases hfail with hfail | hfail
  · rw [hfail] at he
    cases he
    exact Or.inl rfl
  · rw [hfail] at he
    cases he
    exact Or.inr rfl

theorem Exchanged.lawful (hx : Exchanged c clientIp served h x h') : x.Lawful served := by
  have hnone : ∀ {reads : List ReadResult} {request : Option Request} {trouble : List Event},
      (∀ earlier r later, reads = earlier ++ r :: later →
        r.status = .closed ∨ r.status = .error → later = []) →
      Exchange.Lawful served ⟨reads, request, none, trouble⟩ := by
    intro reads request trouble hlast
    refine ⟨?_, ?_, ?_, ?_, fun _ _ => rfl,
      fun earlier r later hsplit hfail => ⟨hlast earlier r later hsplit hfail, rfl⟩⟩
    · intro reply hreply
      cases hreply
    · intro request' reply _ hreply
      cases hreply
    · intro reply _ hreply
      cases hreply
    · intro reply hreply
      cases hreply
  cases hx with
  | unset trouble htrouble =>
      apply hnone
      intro earlier r later hsplit
      cases earlier <;> cases hsplit
  | silent hread hsilence trouble htrouble =>
      exact hnone fun earlier r later hsplit hfail => (result_of_failure hread hsplit hfail).1
  | threw hread hparse hanswer =>
      exact hnone fun earlier r later hsplit hfail => (result_of_failure hread hsplit hfail).1
  | @refused reads result contents response hread hrefusal status =>
      refine ⟨?_, ?_, ?_, ?_, ?_, ?_⟩
      · intro reply hreply
        cases hreply
        cases hrefusal with
        | requestTimeout h => exact .timeout contents hread rfl rfl
        | headerTooLarge => exact .tooLarge contents hread rfl rfl
        | badRequest h => exact .malformed _ contents _ hread h rfl rfl
      · intro request reply hrequest
        cases hrequest
      · intro reply _ hreply
        cases hreply
        exact connection_eq_close_iff.mpr rfl
      · intro reply hreply
        cases hreply
        exact ⟨rfl, rfl⟩
      · intro hk hidle
        obtain ⟨rfl, rfl⟩ := hread.unique hidle
        cases hrefusal with
        | requestTimeout h =>
            rcases h with h | h
            · exact absurd h hk
            · exact absurd rfl h
      · intro earlier r later hsplit hfail
        obtain ⟨-, rfl | rfl⟩ := result_of_failure hread hsplit hfail <;> cases hrefusal
  | @answered reads header contents request h' response hread hparse hanswer status =>
      refine ⟨?_, ?_, ?_, ?_, ?_, ?_⟩
      · intro reply hreply
        exact .request header contents request hread hparse rfl
      · intro request' reply hrequest hreply
        cases hrequest
        cases hreply
        rw [connection_eq_keepAlive_iff]
        exact policyOf_eq_keepAlive_iff
      · intro reply hrequest
        cases hrequest
      · intro reply hreply
        cases hreply
        exact ⟨rfl, rfl⟩
      · intro hk hidle
        cases (hread.unique hidle).1
      · intro earlier r later hsplit hfail
        obtain ⟨-, hresult | hresult⟩ := result_of_failure hread hsplit hfail <;> cases hresult

theorem Conversation.lawful (hxs : Conversation c clientIp served h xs h') :
    ∀ (k : Nat) (x : Exchange), xs[k]? = some x → x.Lawful (served + k) := by
  induction hxs with
  | cut served h => exact fun k x hx => nomatch hx
  | last hx hstop =>
      intro k x hk
      cases k with
      | zero =>
          cases hk
          exact hx.lawful
      | succ k => cases hk
  | @next served h h' h'' x xs hx hgoes hlater ih =>
      intro k y hk
      cases k with
      | zero =>
          cases hk
          exact hx.lawful
      | succ k =>
          have hy := ih k y hk
          rwa [Nat.add_assoc, Nat.add_comm 1 k] at hy

/-- A connection does not go on after an exchange that ends it. -/
theorem not_ends_of_goesOn (hx : Exchanged c clientIp served h x h') (hgoes : x.GoesOn) :
    ¬ x.Ends := by
  obtain ⟨request, reply, hrequest, hreply, hdelivered, hpolicy⟩ := hgoes
  rintro (⟨reply', hreply', hclose | htimeout | herror⟩ | ⟨r, hr, hfail⟩)
  · rw [hreply] at hreply'
    cases hreply'
    rw [connection_eq_close_iff.mp hclose] at hpolicy
    cases hpolicy
  · rw [hreply] at hreply'
    cases hreply'
    rcases hdelivered with hok | hclosed
    · rw [htimeout] at hok
      cases hok
    · rw [htimeout] at hclosed
      cases hclosed
  · rw [hreply] at hreply'
    cases hreply'
    rcases hdelivered with hok | hclosed
    · rw [herror] at hok
      cases hok
    · rw [herror] at hclosed
      cases hclosed
  · obtain ⟨earlier, later, hsplit⟩ := List.append_of_mem hr
    have hnone := (hx.lawful.silent_of_failure earlier r later hsplit hfail).2
    rw [hreply] at hnone
    cases hnone

theorem Conversation.last_of_ends (hxs : Conversation c clientIp served h xs h')
    {before after : List Exchange} (hsplit : xs = before ++ x :: after) (hends : x.Ends) :
    after = [] := by
  induction hxs generalizing before with
  | cut served h =>
      cases before <;> cases hsplit
  | last hx hstop =>
      cases before with
      | nil =>
          cases hsplit
          rfl
      | cons y before =>
          rw [List.cons_append, List.cons.injEq] at hsplit
          cases before <;> cases hsplit.2
  | next hx hgoes hlater ih =>
      cases before with
      | nil =>
          rw [List.nil_append, List.cons.injEq] at hsplit
          rw [hsplit.1] at hx hgoes
          exact absurd hends (not_ends_of_goesOn hx hgoes)
      | cons y before =>
          rw [List.cons_append, List.cons.injEq] at hsplit
          exact ih hsplit.2

theorem sentWires_flatMap (xs : List Exchange) :
    sentWires (xs.flatMap Exchange.ops) = (xs.filterMap (·.reply)).map Reply.wire := by
  have hreads : ∀ reads : List ReadResult, sentWires (reads.map .received) = [] := by
    intro reads
    induction reads with
    | nil => rfl
    | cons r reads ih => exact ih
  induction xs with
  | nil => rfl
  | cons x xs ih =>
      unfold sentWires at ih hreads ⊢
      rw [List.flatMap_cons, List.filterMap_append, ih]
      unfold Exchange.ops
      rw [List.filterMap_append, hreads]
      cases hreply : x.reply <;> simp [hreply]

end

/-- What is watched of a connection over a logged stream is a list of exchanges that make
up the receives and sends, the requests handed on and the log records, each in order.
Every exchange is lawful, and one that ends the connection is the last. -/
theorem connection_keeps_word {σ η : Type} (c : ConnectionHandler (σ × List StreamOp) η)
    (client : Stream σ) (hfactory : c.streamFactory = .ok (some client.logged)) (clientIp : Bytes)
    (h h' : η) (s s' : σ) (ops : List StreamOp) (events : List Event)
    (hwatched : Watched c clientIp h (s, []) events h' (s', ops)) :
    ∃ xs : List Exchange,
      ops = xs.flatMap Exchange.ops ∧
      dispatchedRequests events = xs.filterMap (·.request) ∧
      sentWires ops = (xs.filterMap (·.reply)).map Reply.wire ∧
      accessRecords events = (xs.filterMap (·.reply)).map Reply.record ∧
      (∀ (k : Nat) (x : Exchange), xs[k]? = some x → x.Lawful k) ∧
      ∀ before x after, xs = before ++ x :: after → x.Ends → after = [] := by
  obtain ⟨trouble, xs, htrouble, hxs, rfl, hruns⟩ :=
    ConnectionHandler.conversation_of_watched hfactory hwatched
  obtain ⟨hrequests, -, hrecords⟩ := append_events_spec htrouble hxs.trouble
  have hlog : ops = xs.flatMap Exchange.ops := hruns.log_eq
  refine ⟨xs, hlog, hrequests, ?_, hrecords, ?_, fun _ _ _ => hxs.last_of_ends⟩
  · rw [hlog, sentWires_flatMap]
  · intro k x hk
    have hlawful := hxs.lawful k x hk
    rwa [Nat.zero_add] at hlawful

/-- A handler that finds every request bad. -/
def badRequestHandler : RequestHandler Unit := fun _ h =>
  (.ok (.text 400 (ascii "Bad Request") (ascii "bad request\n")), h)

def loggedHandler : ConnectionHandler (Transport × List StreamOp) Unit where
  handler := badRequestHandler
  streamFactory := .ok (some (Transport.stream fun _ _ => .ok).logged)
  httpsEnabled := false
  timing := fun _ => ⟨0, 0⟩

/-- Two requests on one connection give three exchanges, the last one without a word. -/
theorem connection_keeps_word_separate : ∃ events s' ops,
    loggedHandler.handleConnection [] 38 () (separate, []) = some (events, (), (s', ops)) ∧
    (sentWires ops).length = 2 ∧
    ∃ xs : List Exchange, ops = xs.flatMap Exchange.ops ∧
      (∀ (k : Nat) (x : Exchange), xs[k]? = some x → x.Lawful k) := by
  have hsent : (loggedHandler.handleConnection [] 38 () (separate, [])).map
      (fun run => (sentWires run.2.2.2).length) = some 2 := by decide +kernel
  cases hrun : loggedHandler.handleConnection [] 38 () (separate, []) with
  | none =>
      rw [hrun] at hsent
      cases hsent
  | some run =>
      obtain ⟨events, h', s', ops⟩ := run
      rw [hrun, Option.map_some, Option.some.injEq] at hsent
      obtain ⟨xs, hops, -, -, -, hlawful, -⟩ := connection_keeps_word loggedHandler
        (Transport.stream fun _ _ => .ok) rfl [] () h' separate s' ops events (.whole hrun)
      exact ⟨events, s', ops, rfl, hsent, xs, hops, hlawful⟩

/-- A handler's own 400 leaves the connection open. -/
theorem handler_status_keeps_alive :
    ¬ ∀ (c : ConnectionHandler Transport Unit) (t : Transport) (fuel : Nat) events h' t',
      c.handleConnection [] fuel () t = some (events, h', t') →
      ∀ p ∈ (accessRecords events).zip (sentResponses events),
        p.1.status ∈ [400, 408, 431] → ascii "Connection: close" <:+: p.2 := by
  intro hclaim
  let c := transportHandler (fun _ _ => .ok) badRequestHandler false fun _ => ⟨0, 0⟩
  have hopen : (c.handleConnection [] 38 () separate).map (fun run =>
      ((accessRecords run.1).zip (sentResponses run.1)).head?.map fun p =>
        (p.1.status, decide (ascii "Connection: close" <:+: p.2))) = some (some (400, false)) := by
    decide +kernel
  cases hrun : c.handleConnection [] 38 () separate with
  | none =>
      rw [hrun] at hopen
      cases hopen
  | some run =>
      obtain ⟨events, h', t'⟩ := run
      rw [hrun, Option.map_some, Option.some.injEq, Option.map_eq_some_iff] at hopen
      obtain ⟨p, hp, hfirst⟩ := hopen
      rw [Prod.mk.injEq, decide_eq_false_iff_not] at hfirst
      have hmem := List.mem_of_mem_head? (Option.mem_def.mpr hp)
      exact hfirst.2 (hclaim c separate 38 events h' t' hrun p hmem (by rw [hfirst.1]; simp))

end App
end Garcon
