import Garcon.App.ConnectionHandler
import Garcon.Http.Reads

/-!
# Conversations

A connection is a list of exchanges, one for each round of the loop: some receives, at
most one request handed to the request handler, and at most one reply with its log
record.  `Exchanged` lists what one round can do, and a conversation goes on only after a
reply that was delivered and keeps the connection alive.
-/

namespace Garcon
namespace App

open Ascii Http Net

/-- A response that was written, with its log record and how the send ended. -/
structure Reply where
  response : Response
  policy : ConnectionPolicy
  record : AccessRecord
  status : IoStatus

namespace Reply

def wire (r : Reply) : Bytes := r.response.serialize r.policy

/-- A peer that has closed is left to the next receive. -/
def Delivered (r : Reply) : Prop := r.status = .ok ∨ r.status = .closed

def events (r : Reply) : List Event :=
  .access r.record :: .sent r.wire ::
    match r.status with
    | .ok => []
    | .closed => []
    | .timeout => [.connectionError "write-response" "response write timed out"]
    | .error => [.connectionError "write-response" "response write failed"]

end Reply

/-- What one round of the loop does. -/
structure Exchange where
  reads : List ReadResult := []
  request : Option Request := none
  reply : Option Reply := none
  trouble : List Event := []

namespace Exchange

def events (x : Exchange) : List Event :=
  x.request.toList.map .dispatched ++ (x.reply.toList.flatMap Reply.events ++ x.trouble)

def ops (x : Exchange) : List StreamOp :=
  x.reads.map .received ++ x.reply.toList.map fun reply => .sent reply.wire reply.status

/-- A request was answered, and the connection stays open. -/
def GoesOn (x : Exchange) : Prop :=
  ∃ request reply, x.request = some request ∧ x.reply = some reply ∧ reply.Delivered ∧
    reply.policy = .keepAlive

end Exchange

/-- The fixed response to what was read in a round, when there is no request to answer. -/
inductive Refusal (served : Nat) : HeaderRead → Bytes → Response → Prop where
  | requestTimeout {contents : Bytes} (h : served = 0 ∨ contents ≠ []) :
      Refusal served (.error .timeout) contents ConnectionHandler.requestTimeout
  | headerTooLarge {contents : Bytes} :
      Refusal served (.error .tooLarge) contents ConnectionHandler.headerTooLarge
  | badRequest {contents header : Bytes} {e : RequestParseError}
      (h : Request.parse header = .error e) :
      Refusal served (.block header) contents ConnectionHandler.badRequest

/-- What was read in a round that ends without a word. -/
inductive Silence (served : Nat) : HeaderRead → Bytes → Prop where
  | closed {contents : Bytes} : Silence served (.error .closed) contents
  | ioError {contents : Bytes} : Silence served (.error .ioError) contents
  | idle (h : served ≠ 0) : Silence served (.error .timeout) []

section

variable {σ η : Type} (c : ConnectionHandler σ η) (clientIp : Bytes)

/-- What the round can do that finds the request handler in state `h`. -/
inductive Exchanged (served : Nat) (h : η) : Exchange → η → Prop where
  | unset (trouble : Event) (htrouble : ∃ operation detail,
      trouble = .connectionError operation detail) :
      Exchanged served h { trouble := [trouble] } h
  | silent {reads : List ReadResult} {result : HeaderRead} {contents : Bytes}
      (hread : ReadTo maxRequestHeaderBytes [] reads result contents)
      (hsilence : Silence served result contents) (trouble : List Event)
      (htrouble : ∀ e ∈ trouble, ∃ operation detail, e = .connectionError operation detail) :
      Exchanged served h { reads, trouble } h
  | refused {reads : List ReadResult} {result : HeaderRead} {contents : Bytes}
      {response : Response} (hread : ReadTo maxRequestHeaderBytes [] reads result contents)
      (hrefusal : Refusal served result contents response) (status : IoStatus) :
      Exchanged served h
        { reads
          reply := some ⟨response, .close,
            ConnectionHandler.logAccess clientIp none response
              (response.serialize .close).length (c.timing served), status⟩ } h
  | threw {reads : List ReadResult} {header contents : Bytes} {request : Request} {h' : η}
      {what : String} (hread : ReadTo maxRequestHeaderBytes [] reads (.block header) contents)
      (hparse : Request.parse header = .ok request)
      (hanswer : c.answer request h = (.error what, h')) :
      Exchanged served h
        { reads
          request := some request
          trouble := [.connectionError "connection-handler" what] } h'
  | answered {reads : List ReadResult} {header contents : Bytes} {request : Request} {h' : η}
      {response : Response}
      (hread : ReadTo maxRequestHeaderBytes [] reads (.block header) contents)
      (hparse : Request.parse header = .ok request)
      (hanswer : c.answer request h = (.ok response, h')) (status : IoStatus) :
      Exchanged served h
        { reads
          request := some request
          reply := some ⟨response, ConnectionHandler.policyOf request,
            ConnectionHandler.logAccess clientIp (some request) response
              (response.serialize (ConnectionHandler.policyOf request)).length
              (c.timing served), status⟩ } h'

/-- The exchanges from the `served`-th round on, as far as they were watched. -/
inductive Conversation : Nat → η → List Exchange → η → Prop where
  | cut (served : Nat) (h : η) : Conversation served h [] h
  | last {served : Nat} {h h' : η} {x : Exchange} (hx : Exchanged c clientIp served h x h')
      (hstop : ¬ x.GoesOn) : Conversation served h [x] h'
  | next {served : Nat} {h h' h'' : η} {x : Exchange} {xs : List Exchange}
      (hx : Exchanged c clientIp served h x h') (hgoes : x.GoesOn)
      (hlater : Conversation (served + 1) h' xs h'') : Conversation served h (x :: xs) h''

/-- What was watched of the loop: rounds that went on, and perhaps one that stopped. -/
inductive Rounds (client : Stream σ) : Nat → η → σ → List Event → η → σ → Prop where
  | cut (served : Nat) (h : η) (s : σ) : Rounds client served h s [] h s
  | last {served fuel : Nat} {h h' : η} {s s' : σ} {events : List Event}
      (hround : c.round client clientIp fuel served h s = .stop events h' s') :
      Rounds client served h s events h' s'
  | next {served fuel : Nat} {h h' h'' : η} {s s' s'' : σ} {events later : List Event}
      (hround : c.round client clientIp fuel served h s = .next events h' s')
      (hlater : Rounds client (served + 1) h' s' later h'' s'') :
      Rounds client served h s (events ++ later) h'' s''

/-- What was watched of a connection: all of it, or its first rounds. -/
inductive Watched (h : η) (s : σ) : List Event → η → σ → Prop where
  | whole {fuel : Nat} {events : List Event} {h' : η} {s' : σ}
      (hrun : c.handleConnection clientIp fuel h s = some (events, h', s')) :
      Watched h s events h' s'
  | part {client : Stream σ} {s₀ s' : σ} {h' : η} {events : List Event}
      (hfactory : c.streamFactory = .ok (some client)) (hvalid : client.isValid s = true)
      (hprepare : ConnectionHandler.prepareStream client s = (true, [], s₀))
      (hrounds : Rounds c clientIp client 0 h s₀ events h' s') : Watched h s events h' s'

end

namespace ConnectionHandler

variable {σ η : Type} {c : ConnectionHandler σ η} {clientIp : Bytes} {client : Stream σ}

/-- A round that does one of the exchanges in `can`, and goes on if the exchange does. -/
def Does (client : Stream σ) (s : σ) (can : Exchange → η → Prop) : Round σ η → Prop
  | .pending => True
  | .stop events h' s' =>
    ∃ x, can x h' ∧ ¬ x.GoesOn ∧ events = x.events ∧ client.Runs s x.ops s'
  | .next events h' s' =>
    ∃ x, can x h' ∧ x.GoesOn ∧ events = x.events ∧ client.Runs s x.ops s'

/-- A send that does not fail is one whose reply was delivered. -/
theorem sendResponse_reply (client : Stream σ) (reply : Reply) (s : σ)
    (hstatus : reply.status = (client.sendAll reply.wire s).1) :
    ∃ good events, sendResponse client reply.wire s =
        (good, events, (client.sendAll reply.wire s).2) ∧
      (good = true ↔ reply.Delivered) ∧ reply.events = .access reply.record :: events := by
  unfold sendResponse Reply.Delivered Reply.events
  rw [hstatus]
  cases client.sendAll reply.wire s with
  | mk status s' =>
      cases status with
      | ok => exact ⟨_, _, rfl, by simp, rfl⟩
      | closed => exact ⟨_, _, rfl, by simp, rfl⟩
      | timeout => exact ⟨_, _, rfl, by simp, rfl⟩
      | error => exact ⟨_, _, rfl, by simp, rfl⟩

section Rounds

variable {served : Nat} {h : η} {s s₀ s₁ : σ} {reads : List ReadResult} {contents : Bytes}

/-- A round ends after it has refused what it has read. -/
theorem does_refuse {result : HeaderRead} {response : Response}
    (hruns : client.Runs s (reads.map .received) s₁)
    (hread : ReadTo maxRequestHeaderBytes [] reads result contents)
    (hrefusal : Refusal served result contents response) :
    Does client s (Exchanged c clientIp served h)
      (c.refuse client clientIp served response h s₁) := by
  let reply : Reply := ⟨response, .close,
    logAccess clientIp none response (response.serialize .close).length (c.timing served),
    (client.sendAll (response.serialize .close) s₁).1⟩
  obtain ⟨good, events, hsend, -, hevents⟩ := sendResponse_reply client reply s₁ rfl
  have hreply : sendResponse client (response.serialize .close) s₁ =
      (good, events, (client.sendAll (response.serialize .close) s₁).2) := hsend
  unfold refuse
  simp only [hreply]
  refine ⟨_, .refused hread hrefusal reply.status, ?_, ?_, ?_⟩
  · rintro ⟨request, reply', hrequest, -⟩
    cases hrequest
  · show _ = [] ++ (reply.events ++ [] ++ [])
    rw [hevents]
    simp [reply]
  · exact hruns.trans (.sendAll _ (.done _))

/-- A round asks the request handler about a request, and goes on after the answer was
delivered if the request wants that. -/
theorem does_serveRequest {header : Bytes} {request : Request}
    (hruns : client.Runs s (reads.map .received) s₁)
    (hread : ReadTo maxRequestHeaderBytes [] reads (.block header) contents)
    (hparse : Request.parse header = .ok request) :
    Does client s (Exchanged c clientIp served h)
      (c.serveRequest client clientIp served request h s₁) := by
  unfold serveRequest
  cases hanswer : c.answer request h with
  | mk outcome h' =>
  cases outcome with
  | error what =>
      refine ⟨_, .threw hread hparse hanswer, ?_, rfl, ?_⟩
      · rintro ⟨_, reply, -, hreply, -⟩
        cases hreply
      · show client.Runs s (reads.map .received ++ []) s₁
        rw [List.append_nil]
        exact hruns
  | ok response =>
      let reply : Reply := ⟨response, policyOf request,
        logAccess clientIp (some request) response
          (response.serialize (policyOf request)).length (c.timing served),
        (client.sendAll (response.serialize (policyOf request)) s₁).1⟩
      have hx := @Exchanged.answered σ η c clientIp served _ _ _ _ _ _ _ hread hparse hanswer
        reply.status
      obtain ⟨good, events, hsend, hgood, hevents⟩ := sendResponse_reply client reply s₁ rfl
      have hreply : sendResponse client (response.serialize (policyOf request)) s₁ =
          (good, events, (client.sendAll (response.serialize (policyOf request)) s₁).2) := hsend
      have hlog : Event.dispatched request :: .access reply.record :: events =
          [.dispatched request] ++ (reply.events ++ [] ++ []) := by
        rw [hevents]
        simp
      have hsent : client.Runs s (reads.map .received ++ [.sent reply.wire reply.status])
          (client.sendAll reply.wire s₁).2 := hruns.trans (.sendAll _ (.done _))
      simp only [hreply]
      cases good with
      | false =>
          refine ⟨_, hx, ?_, hlog, hsent⟩
          rintro ⟨_, reply', -, hreply', hdelivered, -⟩
          cases hreply'
          cases hgood.mpr hdelivered
      | true =>
          dsimp only
          split
          · next hpolicy =>
              refine ⟨_, hx, ?_, hlog, hsent⟩
              rintro ⟨_, reply', -, hreply', -, hkeep⟩
              cases hreply'
              rw [hpolicy] at hkeep
              cases hkeep
          · next hpolicy =>
              exact ⟨_, hx, ⟨request, reply, rfl, rfl, hgood.mp rfl, hpolicy⟩, hlog, hsent⟩

/-- One round is one exchange. -/
theorem does_round (c : ConnectionHandler σ η) (clientIp : Bytes) (client : Stream σ)
    (fuel served : Nat) (h : η) (s : σ) :
    Does client s (Exchanged c clientIp served h) (c.round client clientIp fuel served h s) := by
  unfold round
  dsimp only
  have htimeout := @Stream.Runs.setReceiveTimeout σ client s _ _
    (if served = 0 then ioTimeout else keepAliveIdleTimeout) (.done _)
  cases hset : client.setReceiveTimeout
    (if served = 0 then ioTimeout else keepAliveIdleTimeout) s with
  | mk isSet s₀ =>
  rw [hset] at htimeout
  have hquiet : ∀ x : Exchange, x.reply = none → ¬ x.GoesOn := by
    rintro x hnone ⟨_, reply, -, hreply, -⟩
    rw [hnone] at hreply
    cases hreply
  cases isSet with
  | false => exact ⟨_, .unset _ ⟨_, _, rfl⟩, hquiet _ rfl, rfl, htimeout⟩
  | true =>
      dsimp only
      have hreads := readHeaderBlock_receives client maxRequestHeaderBytes fuel
        (Buffer.tight_new 2048) s₀
      cases hblock : readHeaderBlock client maxRequestHeaderBytes fuel Buffer.new s₀ with
      | mk result rest =>
      obtain ⟨buffer, s₁⟩ := rest
      rw [hblock, Buffer.asStringView_new] at hreads
      have hread : result ≠ .pending → ∃ reads : List ReadResult,
          client.Runs s (reads.map .received) s₁ ∧
            ReadTo maxRequestHeaderBytes [] reads result buffer.asStringView := by
        intro hdone
        obtain ⟨reads, hreceives, hto⟩ := hreads hdone
        exact ⟨reads, htimeout.trans hreceives.runs, hto⟩
      have hsilent : ∀ trouble : List Event,
          (∀ e ∈ trouble, ∃ operation detail, e = .connectionError operation detail) →
          result ≠ .pending → Silence served result buffer.asStringView →
          Does client s (Exchanged c clientIp served h) (.stop trouble h s₁) := by
        intro trouble htrouble hdone hsilence
        obtain ⟨reads, hruns, hto⟩ := hread hdone
        refine ⟨_, .silent hto hsilence trouble htrouble, hquiet _ rfl, rfl, ?_⟩
        show client.Runs s (reads.map .received ++ []) s₁
        rw [List.append_nil]
        exact hruns
      cases result with
      | pending => trivial
      | block header =>
          obtain ⟨reads, hruns, hto⟩ := hread nofun
          dsimp only
          cases hparse : Request.parse header with
          | error e => exact does_refuse hruns hto (.badRequest hparse)
          | ok request => exact does_serveRequest hruns hto hparse
      | error e =>
          cases e with
          | closed => exact hsilent [] nofun nofun .closed
          | ioError =>
              apply hsilent [_] _ nofun .ioError
              intro e he
              rw [List.mem_singleton.mp he]
              exact ⟨_, _, rfl⟩
          | tooLarge =>
              obtain ⟨reads, hruns, hto⟩ := hread nofun
              exact does_refuse hruns hto .headerTooLarge
          | timeout =>
              obtain ⟨reads, hruns, hto⟩ := hread nofun
              dsimp only
              by_cases hidle : served ≠ 0 ∧ buffer.asStringView = []
              · rw [if_pos hidle]
                refine hsilent [] nofun nofun ?_
                rw [hidle.2]
                exact .idle hidle.1
              · rw [if_neg hidle]
                apply does_refuse hruns hto
                apply Refusal.requestTimeout
                by_cases hfirst : served = 0
                · exact Or.inl hfirst
                · exact Or.inr fun hnil => hidle ⟨hfirst, hnil⟩

theorem exchange_of_stop {fuel : Nat} {h' : η} {s' : σ} {events : List Event}
    (hround : c.round client clientIp fuel served h s = .stop events h' s') :
    ∃ x, Exchanged c clientIp served h x h' ∧ ¬ x.GoesOn ∧ events = x.events ∧
      client.Runs s x.ops s' := by
  have hdoes := does_round c clientIp client fuel served h s
  rwa [hround] at hdoes

theorem exchange_of_next {fuel : Nat} {h' : η} {s' : σ} {events : List Event}
    (hround : c.round client clientIp fuel served h s = .next events h' s') :
    ∃ x, Exchanged c clientIp served h x h' ∧ x.GoesOn ∧ events = x.events ∧
      client.Runs s x.ops s' := by
  have hdoes := does_round c clientIp client fuel served h s
  rwa [hround] at hdoes

/-- A run of rounds is a conversation. -/
theorem conversation_of_rounds {served : Nat} {h h' : η} {s s' : σ} {events : List Event}
    (hrounds : Rounds c clientIp client served h s events h' s') :
    ∃ xs, Conversation c clientIp served h xs h' ∧ events = xs.flatMap Exchange.events ∧
      client.Runs s (xs.flatMap Exchange.ops) s' := by
  induction hrounds with
  | cut served h s => exact ⟨[], .cut served h, rfl, .done s⟩
  | last hround =>
      obtain ⟨x, hx, hstop, rfl, hruns⟩ := exchange_of_stop hround
      exact ⟨[x], .last hx hstop, by simp, by simpa using hruns⟩
  | next hround _ ih =>
      obtain ⟨x, hx, hgoes, rfl, hruns⟩ := exchange_of_next hround
      obtain ⟨xs, hlater, rfl, hrest⟩ := ih
      exact ⟨x :: xs, .next hx hgoes hlater, List.flatMap_cons.symm, by
        rw [List.flatMap_cons]
        exact hruns.trans hrest⟩

theorem rounds_of_serve {fuel served : Nat} {h h' : η} {s s' : σ} {events : List Event}
    (hserve : c.serve client clientIp fuel served h s = some (events, h', s')) :
    Rounds c clientIp client served h s events h' s' := by
  induction fuel generalizing served h s events with
  | zero => cases hserve
  | succ fuel ih =>
      rw [serve] at hserve
      cases hround : c.round client clientIp fuel served h s with
      | pending => simp [hround] at hserve
      | stop events₁ h₁ s₁ =>
          simp only [hround, Option.some.injEq, Prod.mk.injEq] at hserve
          obtain ⟨rfl, rfl, rfl⟩ := hserve
          exact .last hround
      | next events₁ h₁ s₁ =>
          simp only [hround] at hserve
          cases hlater : c.serve client clientIp fuel (served + 1) h₁ s₁ with
          | none => simp [hlater] at hserve
          | some rest =>
              obtain ⟨later, h₂, s₂⟩ := rest
              simp only [hlater, Option.some.injEq, Prod.mk.injEq] at hserve
              obtain ⟨rfl, rfl, rfl⟩ := hserve
              exact .next hround (ih hlater)

theorem runs_of_prepareStream (client : Stream σ) (s : σ) :
    client.Runs s [] (prepareStream client s).2.2 := by
  have hreceive := @Stream.Runs.setReceiveTimeout σ client s _ _ ioTimeout (.done _)
  unfold prepareStream
  dsimp only
  cases hfirst : client.setReceiveTimeout ioTimeout s with
  | mk isSet s₁ =>
  rw [hfirst] at hreceive
  cases isSet with
  | false => exact hreceive
  | true =>
      dsimp only
      have hsend := @Stream.Runs.setSendTimeout σ client s₁ _ _ ioTimeout (.done _)
      cases hsecond : client.setSendTimeout ioTimeout s₁ with
      | mk isSet s₂ =>
      rw [hsecond] at hsend
      cases isSet with
      | false => exact hreceive.trans hsend
      | true =>
          dsimp only
          have hshake := @Stream.Runs.handshake σ client s₂ _ _ (.done _)
          cases hthird : client.handshake s₂ with
          | mk status s₃ =>
          rw [hthird] at hshake
          cases status <;> exact hreceive.trans (hsend.trans hshake)

/-- Before the loop there is at most an error to report. -/
theorem events_of_prepareStream (client : Stream σ) (s : σ) :
    ∀ e ∈ (prepareStream client s).2.1, ∃ operation detail,
      e = .connectionError operation detail := by
  unfold prepareStream
  dsimp only
  split
  · simp
  · split
    · simp
    · split <;> simp

/-- What is watched of a connection is an error report and a conversation over the
stream of the connection, if it has one. -/
theorem conversation_of_watched {h h' : η} {s s' : σ} {events : List Event}
    (hfactory : c.streamFactory = .ok (some client))
    (hwatched : Watched c clientIp h s events h' s') :
    ∃ trouble xs, (∀ e ∈ trouble, ∃ operation detail, e = .connectionError operation detail) ∧
      Conversation c clientIp 0 h xs h' ∧ events = trouble ++ xs.flatMap Exchange.events ∧
      client.Runs s (xs.flatMap Exchange.ops) s' := by
  have hprepared := runs_of_prepareStream client s
  cases hwatched with
  | part hfactory' hvalid hprepare hrounds =>
      rw [hfactory, Except.ok.injEq, Option.some.injEq] at hfactory'
      subst hfactory'
      rw [hprepare] at hprepared
      obtain ⟨xs, hxs, rfl, hruns⟩ := conversation_of_rounds hrounds
      exact ⟨[], xs, nofun, hxs, rfl, hprepared.trans hruns⟩
  | whole hrun =>
      have htrouble := events_of_prepareStream client s
      unfold handleConnection at hrun
      simp only [hfactory] at hrun
      by_cases hvalid : client.isValid s = true
      · simp only [hvalid, Bool.not_true, Bool.false_eq_true, if_false] at hrun
        cases hprepare : prepareStream client s with
        | mk isReady rest =>
        obtain ⟨early, s₀⟩ := rest
        rw [hprepare] at hprepared htrouble
        simp only [hprepare] at hrun
        cases isReady with
        | false =>
            simp only [Option.some.injEq, Prod.mk.injEq] at hrun
            obtain ⟨rfl, rfl, rfl⟩ := hrun
            exact ⟨early, [], htrouble, .cut 0 h, by simp, hprepared⟩
        | true =>
            dsimp only at hrun
            cases hserve : c.serve client clientIp _ 0 h s₀ with
            | none =>
                rw [hserve] at hrun
                cases hrun
            | some rest =>
                obtain ⟨later, h₁, s₁⟩ := rest
                simp only [hserve, Option.some.injEq, Prod.mk.injEq] at hrun
                obtain ⟨rfl, rfl, rfl⟩ := hrun
                obtain ⟨xs, hxs, rfl, hruns⟩ := conversation_of_rounds (rounds_of_serve hserve)
                exact ⟨early, xs, htrouble, hxs, rfl, hprepared.trans hruns⟩
      · rw [Bool.not_eq_true] at hvalid
        simp only [hvalid, Bool.not_false, if_true, Option.some.injEq, Prod.mk.injEq] at hrun
        obtain ⟨rfl, rfl, rfl⟩ := hrun
        refine ⟨_, [], ?_, .cut 0 h, (List.append_nil _).symm, .done s⟩
        intro e he
        rw [List.mem_singleton.mp he]
        exact ⟨_, _, rfl⟩

end Rounds
end ConnectionHandler

/-! ## The events of a conversation -/

/-- The access records logged, in order. -/
def accessRecords (events : List Event) : List AccessRecord :=
  events.filterMap fun
    | .access record => some record
    | _ => none

section

variable {σ η : Type} {c : ConnectionHandler σ η} {clientIp : Bytes} {served : Nat} {h h' : η}
  {x : Exchange}

/-- Events that only report errors. -/
def Reports (events : List Event) : Prop :=
  ∀ e ∈ events, ∃ operation detail, e = .connectionError operation detail

theorem Reports.nothing {events : List Event} (h : Reports events) :
    dispatchedRequests events = [] ∧ sentResponses events = [] ∧ accessRecords events = [] := by
  induction events with
  | nil => exact ⟨rfl, rfl, rfl⟩
  | cons e events ih =>
      obtain ⟨operation, detail, rfl⟩ := h e List.mem_cons_self
      exact ih fun e he => h e (List.mem_cons_of_mem _ he)

theorem Exchanged.trouble (hx : Exchanged c clientIp served h x h') : Reports x.trouble := by
  cases hx with
  | unset trouble htrouble =>
      intro e he
      rw [List.mem_singleton.mp he]
      exact htrouble
  | silent hread hsilence trouble htrouble => exact htrouble
  | refused hread hrefusal status => exact nofun
  | threw hread hparse hanswer =>
      intro e he
      rw [List.mem_singleton.mp he]
      exact ⟨_, _, rfl⟩
  | answered hread hparse hanswer status => exact nofun

theorem Reply.events_eq (reply : Reply) :
    ∃ trouble, Reports trouble ∧
      reply.events = .access reply.record :: .sent reply.wire :: trouble := by
  have hone : ∀ operation detail, Reports [.connectionError operation detail] := by
    intro operation detail e he
    rw [List.mem_singleton.mp he]
    exact ⟨_, _, rfl⟩
  unfold Reply.events
  cases reply.status with
  | ok => exact ⟨[], nofun, rfl⟩
  | closed => exact ⟨[], nofun, rfl⟩
  | timeout => exact ⟨_, hone _ _, rfl⟩
  | error => exact ⟨_, hone _ _, rfl⟩

/-- What an exchange has to say for each kind of event. -/
theorem Exchange.events_spec (htrouble : Reports x.trouble) :
    dispatchedRequests x.events = x.request.toList ∧
      sentResponses x.events = x.reply.toList.map Reply.wire ∧
      accessRecords x.events = x.reply.toList.map Reply.record := by
  obtain ⟨reads, request, reply, trouble⟩ := x
  obtain ⟨hdispatched, hsent, hrecords⟩ := htrouble.nothing
  unfold dispatchedRequests at hdispatched ⊢
  unfold sentResponses at hsent ⊢
  unfold accessRecords at hrecords ⊢
  cases reply with
  | none => cases request <;> simp [events, hdispatched, hsent, hrecords]
  | some reply =>
      obtain ⟨more, hmore, hevents⟩ := reply.events_eq
      obtain ⟨hdispatched', hsent', hrecords'⟩ := hmore.nothing
      unfold dispatchedRequests at hdispatched'
      unfold sentResponses at hsent'
      unfold accessRecords at hrecords'
      cases request <;> simp [events, hevents, hdispatched, hsent, hrecords, hdispatched', hsent',
        hrecords']

theorem Conversation.trouble {xs : List Exchange}
    (hxs : Conversation c clientIp served h xs h') : ∀ x ∈ xs, Reports x.trouble := by
  induction hxs with
  | cut served h => exact fun x hx => absurd hx List.not_mem_nil
  | last hx hstop =>
      intro x hmem
      rw [List.mem_singleton.mp hmem]
      exact hx.trouble
  | next hx hgoes hlater ih =>
      intro x hmem
      rcases List.mem_cons.mp hmem with rfl | hmem
      · exact hx.trouble
      · exact ih x hmem

/-- The events of a list of exchanges, kind by kind. -/
theorem flatMap_events_spec {xs : List Exchange} (htrouble : ∀ x ∈ xs, Reports x.trouble) :
    dispatchedRequests (xs.flatMap Exchange.events) = xs.filterMap (·.request) ∧
      sentResponses (xs.flatMap Exchange.events) =
        (xs.filterMap (·.reply)).map Reply.wire ∧
      accessRecords (xs.flatMap Exchange.events) =
        (xs.filterMap (·.reply)).map Reply.record := by
  induction xs with
  | nil => exact ⟨rfl, rfl, rfl⟩
  | cons x xs ih =>
      obtain ⟨hdispatched, hsent, hrecords⟩ := ih fun y hy => htrouble y (List.mem_cons_of_mem _ hy)
      obtain ⟨hdispatched', hsent', hrecords'⟩ :=
        Exchange.events_spec (htrouble x List.mem_cons_self)
      unfold dispatchedRequests at hdispatched hdispatched' ⊢
      unfold sentResponses at hsent hsent' ⊢
      unfold accessRecords at hrecords hrecords' ⊢
      rw [List.flatMap_cons, List.filterMap_append, List.filterMap_append, List.filterMap_append,
        hdispatched, hsent, hrecords, hdispatched', hsent', hrecords']
      cases hrequest : x.request <;> cases hreply : x.reply <;>
        simp [hrequest, hreply]

/-- Error reports in front of the exchanges change none of this. -/
theorem append_events_spec {trouble : List Event} {xs : List Exchange} (hreports : Reports trouble)
    (htrouble : ∀ x ∈ xs, Reports x.trouble) :
    dispatchedRequests (trouble ++ xs.flatMap Exchange.events) = xs.filterMap (·.request) ∧
      sentResponses (trouble ++ xs.flatMap Exchange.events) =
        (xs.filterMap (·.reply)).map Reply.wire ∧
      accessRecords (trouble ++ xs.flatMap Exchange.events) =
        (xs.filterMap (·.reply)).map Reply.record := by
  obtain ⟨hdispatched, hsent, hrecords⟩ := hreports.nothing
  obtain ⟨hrequests, hwires, hrecords'⟩ := flatMap_events_spec htrouble
  rw [← hrequests, ← hwires, ← hrecords']
  unfold dispatchedRequests at hdispatched ⊢
  unfold sentResponses at hsent ⊢
  unfold accessRecords at hrecords ⊢
  rw [List.filterMap_append, List.filterMap_append, List.filterMap_append, hdispatched, hsent,
    hrecords]
  exact ⟨rfl, rfl, rfl⟩

/-- A connection that gets no stream ends with an error report. -/
theorem handleConnection_of_no_stream (hnone : ∀ client, c.streamFactory ≠ .ok (some client))
    (fuel : Nat) (s : σ) : ∃ e, Reports [e] ∧ c.handleConnection clientIp fuel h s =
      some ([e], h, s) := by
  cases hfactory : c.streamFactory with
  | error what =>
      refine ⟨.connectionError "connection-handler" what, ?_, ?_⟩
      · exact fun e he => ⟨_, _, List.mem_singleton.mp he⟩
      · unfold ConnectionHandler.handleConnection
        rw [hfactory]
  | ok created =>
      cases created with
      | none =>
          refine ⟨.connectionError "create-stream" "stream creation failed", ?_, ?_⟩
          · exact fun e he => ⟨_, _, List.mem_singleton.mp he⟩
          · unfold ConnectionHandler.handleConnection
            rw [hfactory]
      | some client => exact absurd hfactory (hnone client)

/-- What is watched of a connection is an error report and a conversation. -/
theorem Watched.events {s s' : σ} {events : List Event}
    (hwatched : Watched c clientIp h s events h' s') :
    ∃ trouble xs, Reports trouble ∧ Conversation c clientIp 0 h xs h' ∧
      events = trouble ++ xs.flatMap Exchange.events := by
  by_cases hfactory : ∃ client, c.streamFactory = .ok (some client)
  · obtain ⟨client, hfactory⟩ := hfactory
    obtain ⟨trouble, xs, htrouble, hxs, hevents, -⟩ :=
      ConnectionHandler.conversation_of_watched hfactory hwatched
    exact ⟨trouble, xs, htrouble, hxs, hevents⟩
  · have hnone : ∀ client, c.streamFactory ≠ .ok (some client) :=
      fun client hclient => hfactory ⟨client, hclient⟩
    cases hwatched with
    | part hfactory' hvalid hprepare hrounds => exact absurd hfactory' (hnone _)
    | @whole fuel events h' s' hrun =>
        obtain ⟨e, hreport, hend⟩ := handleConnection_of_no_stream (h := h) hnone fuel s
        rw [hend, Option.some.injEq, Prod.mk.injEq, Prod.mk.injEq] at hrun
        obtain ⟨rfl, rfl, rfl⟩ := hrun
        exact ⟨[e], [], hreport, .cut 0 h, (List.append_nil _).symm⟩

end
end App
end Garcon
