import Garcon.App.Delivery
import Garcon.App.Segmentation
import Garcon.Http.Bounded
import Garcon.Net.Supply

/-!
# Every connection comes to an end

A round needs a header block that the client has to send, so a client that has only so many
bytes left is served only so many rounds.  The fuel of the model is then no more than a bound:
from some fuel on the connection has one and the same run.
-/

namespace Garcon
namespace App

open Ascii Search Http Net

/-- A header block was received. -/
theorem length_header_le_of_readTo {maxBytes : Nat} {contents after header : Bytes}
    {reads : List ReadResult} (h : ReadTo maxBytes contents reads (.block header) after) :
    4 ≤ header.length ∧
      header.length ≤ contents.length + (receivedBytes (reads.map .received)).length := by
  generalize hresult : HeaderRead.block header = result at h
  induction h with
  | @block contents pre rest hsplit hfresh =>
      cases hresult
      rw [hsplit]
      simp only [List.length_append, headerEnd, crlf, List.length_cons, List.length_nil]
      omega
  | tooLarge hnone hlarge => cases hresult
  | failed hnone hroom hfail => cases hresult
  | @more contents after hnone hroom bytes reads result h ih =>
      obtain ⟨hfour, hle⟩ := ih hresult
      have hreads : receivedBytes ((⟨.ok, bytes⟩ :: reads : List ReadResult).map .received) =
          bytes ++ receivedBytes (reads.map .received) := List.flatMap_cons
      rw [hreads, List.length_append]
      rw [List.length_append] at hle
      exact ⟨hfour, by omega⟩

theorem receivedBytes_append (ops ops' : List StreamOp) :
    receivedBytes (ops ++ ops') = receivedBytes ops ++ receivedBytes ops' := List.flatMap_append

/-- An exchange that has a request has received a header block. -/
theorem Exchanged.received {σ η : Type} {c : ConnectionHandler σ η} {clientIp : Bytes}
    {served : Nat} {h h' : η} {x : Exchange} (hx : Exchanged c clientIp served h x h') :
    4 * x.request.toList.length ≤ (receivedBytes x.ops).length := by
  have hops : (receivedBytes (x.reads.map .received)).length ≤ (receivedBytes x.ops).length := by
    unfold Exchange.ops
    rw [receivedBytes_append, List.length_append]
    omega
  refine Nat.le_trans ?_ hops
  cases hx with
  | unset trouble htrouble => exact Nat.zero_le _
  | silent hread hsilence trouble htrouble => exact Nat.zero_le _
  | refused hread hrefusal status => exact Nat.zero_le _
  | threw hread hparse hanswer =>
      obtain ⟨hfour, hle⟩ := length_header_le_of_readTo hread
      rw [List.length_nil, Nat.zero_add] at hle
      exact Nat.le_trans hfour hle
  | answered hread hparse hanswer status =>
      obtain ⟨hfour, hle⟩ := length_header_le_of_readTo hread
      rw [List.length_nil, Nat.zero_add] at hle
      exact Nat.le_trans hfour hle

theorem Conversation.received {σ η : Type} {c : ConnectionHandler σ η} {clientIp : Bytes}
    {served : Nat} {h h' : η} {xs : List Exchange}
    (hxs : Conversation c clientIp served h xs h') :
    4 * (xs.filterMap (·.request)).length ≤ (receivedBytes (xs.flatMap Exchange.ops)).length := by
  have hcons : ∀ (x : Exchange) (xs : List Exchange),
      4 * x.request.toList.length ≤ (receivedBytes x.ops).length →
      4 * (xs.filterMap (·.request)).length ≤ (receivedBytes (xs.flatMap Exchange.ops)).length →
      4 * ((x :: xs).filterMap (·.request)).length ≤
        (receivedBytes ((x :: xs).flatMap Exchange.ops)).length := by
    intro x xs hx hxs
    rw [List.flatMap_cons, receivedBytes_append, List.length_append]
    rw [List.filterMap_cons]
    cases hrequest : x.request with
    | none =>
        dsimp only
        omega
    | some request =>
        rw [hrequest] at hx
        simp only [Option.toList_some, List.length_singleton] at hx
        dsimp only
        rw [List.length_cons]
        omega
  induction hxs with
  | cut served h => exact Nat.zero_le _
  | last hx hstop => exact hcons _ [] hx.received (Nat.zero_le _)
  | next hx hgoes hlater ih => exact hcons _ _ hx.received ih

namespace ConnectionHandler

variable {σ η : Type} {c : ConnectionHandler σ η} {clientIp : Bytes} {client : Stream σ}
  {supply : σ → Nat}

/-- A round with more fuel than the client has bytes left comes to an end. -/
theorem round_ne_pending (c : ConnectionHandler σ η) (clientIp : Bytes)
    (hdelivers : client.Delivers) (hsupplied : client.Supplied supply) {fuel : Nat}
    (served : Nat) (h : η) {s : σ} (hfuel : supply s < fuel) :
    c.round client clientIp fuel served h s ≠ .pending := by
  have htimeout := hsupplied.setReceiveTimeout
    (if served = 0 then ioTimeout else keepAliveIdleTimeout) s
  unfold round
  dsimp only
  cases hset : client.setReceiveTimeout
    (if served = 0 then ioTimeout else keepAliveIdleTimeout) s with
  | mk isSet s₀ =>
  rw [hset] at htimeout
  cases isSet with
  | false => exact nofun
  | true =>
      dsimp only at htimeout ⊢
      have hmeasure : ∀ length s, length < maxRequestHeaderBytes →
          (client.recvSome 2048 s).1.status = .ok →
          supply (client.recvSome 2048 s).2 < supply s := by
        intro length s _ hok
        have hpos := List.length_pos_iff.mpr (hdelivers 2048 s (by decide) hok)
        have hless := hsupplied.recvSome 2048 s
        omega
      have hdone := readHeaderBlock_ne_pending (fun _ s => supply s) hmeasure fuel
        (Buffer.tight_new 2048) s₀ (Nat.lt_of_le_of_lt htimeout hfuel)
      have hrefuse : ∀ response s, c.refuse client clientIp served response h s ≠ .pending := by
        intro response s
        unfold refuse
        exact nofun
      split
      · next hread => exact absurd (congrArg Prod.fst hread) hdone
      · split
        · exact nofun
        · exact hrefuse _ _
      · exact hrefuse _ _
      · exact nofun
      · exact nofun
      · split
        · exact hrefuse _ _
        · unfold serveRequest
          split
          · exact nofun
          · dsimp only
            split
            · exact nofun
            · split <;> exact nofun

/-- A round that goes on has used up a header block. -/
theorem supply_lt_of_next (hsupplied : client.Supplied supply) {fuel served : Nat} {h h' : η}
    {s s' : σ} {events : List Event}
    (hround : c.round client clientIp fuel served h s = .next events h' s') :
    supply s' < supply s := by
  obtain ⟨x, hx, ⟨request, reply, hrequest, -⟩, -, hruns⟩ := exchange_of_next hround
  have hreceived := hx.received
  have hused := hsupplied.runs hruns
  rw [hrequest] at hreceived
  simp only [Option.toList_some, List.length_singleton] at hreceived
  omega

theorem exists_serve (c : ConnectionHandler σ η) (clientIp : Bytes) (hdelivers : client.Delivers)
    (hsupplied : client.Supplied supply) {fuel : Nat} (served : Nat) (h : η) {s : σ}
    (hfuel : supply s + 2 ≤ fuel) :
    ∃ run, c.serve client clientIp fuel served h s = some run := by
  induction fuel generalizing served h s with
  | zero => omega
  | succ fuel ih =>
      have hdone := round_ne_pending c clientIp hdelivers hsupplied served h
        (show supply s < fuel by omega)
      rw [serve]
      cases hround : c.round client clientIp fuel served h s with
      | pending => exact absurd hround hdone
      | stop events h' s' => exact ⟨_, rfl⟩
      | next events h' s' =>
          have hless := supply_lt_of_next hsupplied hround
          obtain ⟨run, hrun⟩ := ih (served + 1) h' (s := s') (by omega)
          dsimp only
          rw [hrun]
          exact ⟨_, rfl⟩

/-- More fuel changes nothing once a round came to an end. -/
theorem round_succ (c : ConnectionHandler σ η) {fuel served : Nat} {h : η} {s : σ}
    (hdone : c.round client clientIp fuel served h s ≠ .pending) :
    c.round client clientIp (fuel + 1) served h s = c.round client clientIp fuel served h s := by
  unfold round at hdone ⊢
  dsimp only at hdone ⊢
  cases hset : client.setReceiveTimeout
    (if served = 0 then ioTimeout else keepAliveIdleTimeout) s with
  | mk isSet s₀ =>
  rw [hset] at hdone
  cases isSet with
  | false => rfl
  | true =>
      dsimp only at hdone ⊢
      have hread : (readHeaderBlock client maxRequestHeaderBytes fuel Buffer.new s₀).1 ≠
          .pending := by
        intro hpending
        apply hdone
        cases hrun : readHeaderBlock client maxRequestHeaderBytes fuel Buffer.new s₀ with
        | mk result rest =>
        rw [hrun] at hpending
        dsimp only at hpending
        rw [hpending]
      rw [readHeaderBlock_succ fuel Buffer.new s₀ hread]

theorem serve_succ (c : ConnectionHandler σ η) {fuel served : Nat} {h : η} {s : σ}
    {run : List Event × η × σ} (hrun : c.serve client clientIp fuel served h s = some run) :
    c.serve client clientIp (fuel + 1) served h s = some run := by
  induction fuel generalizing served h s run with
  | zero => cases hrun
  | succ fuel ih =>
      have hdone : c.round client clientIp fuel served h s ≠ .pending := by
        intro hpending
        rw [serve, hpending] at hrun
        cases hrun
      rw [serve] at hrun
      rw [serve, round_succ c hdone]
      cases hround : c.round client clientIp fuel served h s with
      | pending => exact absurd hround hdone
      | stop events h' s' =>
          rw [hround] at hrun
          exact hrun
      | next events h' s' =>
          rw [hround] at hrun
          dsimp only at hrun ⊢
          cases hlater : c.serve client clientIp fuel (served + 1) h' s' with
          | none =>
              rw [hlater] at hrun
              cases hrun
          | some rest =>
              rw [hlater] at hrun
              rw [ih hlater]
              exact hrun

theorem serve_of_le (c : ConnectionHandler σ η) {fuel fuel' served : Nat} {h : η} {s : σ}
    {run : List Event × η × σ} (hle : fuel ≤ fuel')
    (hrun : c.serve client clientIp fuel served h s = some run) :
    c.serve client clientIp fuel' served h s = some run := by
  induction hle with
  | refl => exact hrun
  | step _ ih => exact serve_succ c ih

/-- With a client that has so many bytes left, the connection has a run of its own. -/
theorem exists_handleConnection (hfactory : c.streamFactory = .ok (some client))
    (hdelivers : client.Delivers) (hsupplied : client.Supplied supply) (clientIp : Bytes) (h : η)
    (s : σ) :
    ∃ events h' s', ∀ fuel, supply s + 2 ≤ fuel →
      c.handleConnection clientIp fuel h s = some (events, h', s') := by
  have hprepared := hsupplied.runs (runs_of_prepareStream client s)
  unfold handleConnection
  simp only [hfactory]
  by_cases hvalid : client.isValid s = true
  · simp only [hvalid, Bool.not_true, Bool.false_eq_true, if_false]
    cases hprepare : prepareStream client s with
    | mk isReady rest =>
    obtain ⟨early, s₀⟩ := rest
    rw [hprepare] at hprepared
    cases isReady with
    | false => exact ⟨early, h, s₀, fun _ _ => rfl⟩
    | true =>
        have hless : supply s₀ ≤ supply s := Nat.le_of_add_right_le hprepared
        obtain ⟨run, hrun⟩ :=
          exists_serve c clientIp hdelivers hsupplied 0 h (Nat.le_refl (supply s₀ + 2))
        obtain ⟨later, h', s'⟩ := run
        refine ⟨early ++ later, h', s', fun fuel hfuel => ?_⟩
        dsimp only
        rw [serve_of_le c (Nat.le_trans (Nat.add_le_add_right hless 2) hfuel) hrun]
  · rw [Bool.not_eq_true] at hvalid
    simp only [hvalid, Bool.not_false, if_true]
    exact ⟨_, h, s, fun _ _ => rfl⟩

end ConnectionHandler

/-- A client that has so many bytes left is served to an end, whatever the fuel from there on,
and every request that is served has used up at least four of its bytes. -/
theorem handleConnection_returns {σ η : Type} (c : ConnectionHandler σ η) (client : Stream σ)
    (hfactory : c.streamFactory = .ok (some client)) (hdelivers : client.Delivers)
    (supply : σ → Nat) (hsupplied : client.Supplied supply) (clientIp : Bytes) (h : η) (s : σ) :
    ∃ events h' s',
      (∀ fuel, supply s + 2 ≤ fuel →
        c.handleConnection clientIp fuel h s = some (events, h', s')) ∧
      4 * (dispatchedRequests events).length + supply s' ≤ supply s := by
  obtain ⟨events, h', s', hrun⟩ :=
    ConnectionHandler.exists_handleConnection hfactory hdelivers hsupplied clientIp h s
  refine ⟨events, h', s', hrun, ?_⟩
  obtain ⟨trouble, xs, htrouble, hxs, hevents, hruns⟩ :=
    ConnectionHandler.conversation_of_watched hfactory (.whole (hrun _ (Nat.le_refl _)))
  obtain ⟨hrequests, -, -⟩ := append_events_spec htrouble hxs.trouble
  have hreceived := hxs.received
  have hused := hsupplied.runs hruns
  rw [hevents, hrequests]
  omega

theorem narrow_supplied : narrowCalls.Supplied fun k => k.inbox.length where
  setsockopt := fun _ _ _ k => Nat.le_refl k.inbox.length
  recv := by
    intro fd span k
    unfold narrowCalls
    dsimp only
    split
    · exact Nat.le_refl _
    · split
      · exact Nat.le_refl _
      · simp only [deliveredBytes, List.length_drop, List.length_take]
        omega
  send := by
    intro fd data k
    unfold narrowCalls
    dsimp only
    split <;> exact Nat.le_refl _

theorem narrowSsl_supplied : narrowSsl.Supplied fun k => k.inbox.length where
  setsockopt := fun _ _ _ k => Nat.le_refl k.inbox.length
  accept := fun k => Nat.le_refl k.inbox.length
  readEx := by
    intro span k
    unfold narrowSsl
    dsimp only
    split
    · exact Nat.le_refl _
    · simp only [deliveredBytes, List.length_drop, List.length_take]
      omega
  writeEx := by
    intro data k
    unfold narrowSsl
    dsimp only
    split <;> exact Nat.le_refl _

/-- The narrow connection serves a client that has sent a request and a half to an end. -/
def ServesToAnEnd (tlsContext : Option (Tls.SslCalls narrowCalls)) : Prop :=
  ∃ events k, (∀ fuel, 29 ≤ fuel →
    (narrowHandler tlsContext).handleConnection [] fuel ()
      ⟨plainRequest ++ ascii "GET / HT", 2, 900, []⟩ = some (events, (), k)) ∧
    (dispatchedRequests events).length ≤ 6

theorem handleConnection_returns_narrow : ServesToAnEnd none ∧ ServesToAnEnd (some narrowSsl) := by
  have hlength : (plainRequest ++ ascii "GET / HT").length = 26 := by decide
  constructor
  · obtain ⟨events, ⟨⟩, k, hrun, hused⟩ := handleConnection_returns (narrowHandler none)
      (narrowStream none) rfl (DefaultStreamFactory.create_delivers none ⟨5, []⟩)
      (fun k => k.inbox.length) (plainStream_supplied narrow_supplied ⟨5, []⟩) [] ()
      ⟨plainRequest ++ ascii "GET / HT", 2, 900, []⟩
    dsimp only at hrun hused
    rw [hlength] at hrun hused
    exact ⟨events, k, fun fuel hfuel => hrun fuel (by omega), by omega⟩
  · obtain ⟨events, ⟨⟩, k, hrun, hused⟩ := handleConnection_returns
      (narrowHandler (some narrowSsl)) (narrowStream (some narrowSsl)) rfl
      (DefaultStreamFactory.create_delivers (some narrowSsl) ⟨5, []⟩) (fun k => k.inbox.length)
      (Tls.stream_supplied narrowSsl_supplied ⟨5, []⟩) [] ()
      ⟨plainRequest ++ ascii "GET / HT", 2, 900, []⟩
    dsimp only at hrun hused
    rw [hlength] at hrun hused
    exact ⟨events, k, fun fuel hfuel => hrun fuel (by omega), by omega⟩

end App
end Garcon
