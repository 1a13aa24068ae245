import Garcon.App.ConnectionHandler
import Garcon.Http.Segments

/-!
# Segmentation of a connection

Two transports that carry the same bytes, split in any two aligned ways, are served
alike: a round on either ends the same way and leaves two transports of which the
same holds, so the whole runs have the same events.

Bytes behind a header block that arrive with its end are lost, since every round
starts with a new buffer.  Two pipelined requests in one chunk show it.
-/

namespace Garcon
namespace App

open Ascii Search Http Net

/-- The connection handler over a transport. -/
def transportHandler {η : Type} (sendStatus : List Bytes → Bytes → IoStatus)
    (handler : RequestHandler η) (httpsEnabled : Bool) (timing : Nat → Timing) :
    ConnectionHandler Transport η where
  handler := handler
  streamFactory := .ok (some (Transport.stream sendStatus))
  httpsEnabled := httpsEnabled
  timing := timing

/-- Two transports that carry the same bytes, whatever their chunks. -/
structure SameBytes (t u : Transport) : Prop where
  bytes : t.bytes = u.bytes
  ending : t.ending = u.ending
  sent : t.sent = u.sent

/-- Aligned transports that carry the same bytes, with header blocks that fit the
limit. -/
structure Agree (t u : Transport) : Prop where
  same : SameBytes t u
  left : t.Aligned
  right : u.Aligned
  fits : t.Fits maxRequestHeaderBytes

namespace ConnectionHandler

variable {η : Type} (sendStatus : List Bytes → Bytes → IoStatus)
  (c : ConnectionHandler Transport η) (clientIp : Bytes)

/-- Two rounds that end alike, the first on `t` and the second on `u`. -/
def EndAlike (left right : Round Transport η) (t u : Transport) : Prop :=
  ∃ events h sent,
    (left = .stop events h { t with sent := sent } ∧
      right = .stop events h { u with sent := sent }) ∨
    (left = .next events h { t with sent := sent } ∧
      right = .next events h { u with sent := sent })

theorem sendResponse_sent {t u : Transport} (hsent : t.sent = u.sent) (wire : Bytes) :
    ∃ good events sent,
      sendResponse (Transport.stream sendStatus) wire t =
        (good, events, { t with sent := sent }) ∧
      sendResponse (Transport.stream sendStatus) wire u =
        (good, events, { u with sent := sent }) := by
  have hsend : ∀ v : Transport, v.sent = u.sent →
      (Transport.stream sendStatus).sendAll wire v =
        (sendStatus u.sent wire, { v with sent := u.sent ++ [wire] }) := by
    intro v hv
    rw [← hv]
    rfl
  unfold sendResponse
  rw [hsend t hsent, hsend u rfl]
  cases sendStatus u.sent wire with
  | ok => exact ⟨_, _, _, rfl, rfl⟩
  | closed => exact ⟨_, _, _, rfl, rfl⟩
  | timeout => exact ⟨_, _, _, rfl, rfl⟩
  | error => exact ⟨_, _, _, rfl, rfl⟩

theorem refuse_endAlike {t u : Transport} (hsent : t.sent = u.sent) (served : Nat)
    (response : Response) (h : η) :
    EndAlike (c.refuse (Transport.stream sendStatus) clientIp served response h t)
      (c.refuse (Transport.stream sendStatus) clientIp served response h u) t u := by
  obtain ⟨good, events, sent, ht, hu⟩ :=
    sendResponse_sent sendStatus hsent (response.serialize .close)
  simp only [refuse, ht, hu]
  exact ⟨_, _, _, Or.inl ⟨rfl, rfl⟩⟩

theorem serveRequest_endAlike {t u : Transport} (hsent : t.sent = u.sent) (served : Nat)
    (request : Request) (h : η) :
    EndAlike (c.serveRequest (Transport.stream sendStatus) clientIp served request h t)
      (c.serveRequest (Transport.stream sendStatus) clientIp served request h u) t u := by
  unfold serveRequest
  cases c.answer request h with
  | mk result h' =>
      cases result with
      | error what => exact ⟨_, _, u.sent, Or.inl ⟨by rw [← hsent], rfl⟩⟩
      | ok response =>
          obtain ⟨good, events, sent, ht, hu⟩ :=
            sendResponse_sent sendStatus hsent (response.serialize (policyOf request))
          simp only [ht, hu]
          cases good with
          | false => exact ⟨_, _, _, Or.inl ⟨rfl, rfl⟩⟩
          | true =>
              cases policyOf request with
              | close => exact ⟨_, _, _, Or.inl ⟨rfl, rfl⟩⟩
              | keepAlive => exact ⟨_, _, _, Or.inr ⟨rfl, rfl⟩⟩

/-- A round on a transport whose first chunks are a header block serves that block. -/
theorem round_block {fuel served : Nat} {h : η} {t : Transport} {group later : List Chunk}
    {head : Bytes} (hchunks : t.chunks = group ++ later)
    (hgroup : bytesOf group = head ++ headerEnd) (hfresh : Fresh headerEnd head)
    (hfit : (head ++ headerEnd).length ≤ maxRequestHeaderBytes)
    (hfuel : t.bytes.length < fuel) :
    c.round (Transport.stream sendStatus) clientIp fuel served h t =
      match Request.parse (head ++ headerEnd) with
      | .error _ => c.refuse (Transport.stream sendStatus) clientIp served badRequest h
          { t with chunks := later }
      | .ok request => c.serveRequest (Transport.stream sendStatus) clientIp served request h
          { t with chunks := later } := by
  have hshort : (bytesOf group).length < fuel := by
    rw [Transport.bytes, hchunks, bytesOf_append, List.length_append] at hfuel
    omega
  obtain ⟨b', hread⟩ := Transport.readHeaderBlock_group sendStatus (b := Buffer.new) hchunks
    (by simpa using hgroup) hfresh hfit hshort
  have htimeout : ∀ ms, (Transport.stream sendStatus).setReceiveTimeout ms t = (true, t) :=
    fun _ => rfl
  unfold round
  cases hparse : Request.parse (head ++ headerEnd) with
  | error e => simp only [htimeout, hread, hparse]
  | ok request => simp only [htimeout, hread, hparse]

/-- Rounds on the same bytes without a header end stop alike. -/
theorem round_noEnd {f g served : Nat} {h : η} {t u : Transport} (hsame : SameBytes t u)
    (hnone : ¬ headerEnd <:+: t.bytes) (hf : t.bytes.length < f) (hg : u.bytes.length < g) :
    ∃ events h' t' u',
      c.round (Transport.stream sendStatus) clientIp f served h t = .stop events h' t' ∧
      c.round (Transport.stream sendStatus) clientIp g served h u = .stop events h' u' := by
  have htimeout : ∀ ms (v : Transport),
      (Transport.stream sendStatus).setReceiveTimeout ms v = (true, v) := fun _ _ => rfl
  have hnone' : ¬ headerEnd <:+: u.bytes := by rwa [← hsame.bytes]
  obtain ⟨e, b, t', hread, hsent, hbig, hsmall⟩ :=
    Transport.readHeaderBlock_noEnd sendStatus maxRequestHeaderBytes (b := Buffer.new) hnone hf
  obtain ⟨e', b', u', hread', hsent', hbig', hsmall'⟩ :=
    Transport.readHeaderBlock_noEnd sendStatus maxRequestHeaderBytes (b := Buffer.new) hnone' hg
  rw [← hsame.bytes, ← hsame.ending] at hsmall'
  rw [← hsame.bytes] at hbig'
  have hboth : t'.sent = u'.sent := by rw [hsent, hsent', hsame.sent]
  have hrefuse : ∀ response, ∃ events h' t'' u'',
      c.refuse (Transport.stream sendStatus) clientIp served response h t' =
        .stop events h' t'' ∧
      c.refuse (Transport.stream sendStatus) clientIp served response h u' =
        .stop events h' u'' := by
    intro response
    obtain ⟨events, h', sent, ⟨ht, hu⟩ | ⟨ht, hu⟩⟩ :=
      refuse_endAlike sendStatus c clientIp hboth served response h
    · exact ⟨_, _, _, _, ht, hu⟩
    · cases ht
  unfold round
  simp only [htimeout, hread, hread']
  by_cases hle : maxRequestHeaderBytes ≤ (Buffer.new.asStringView ++ t.bytes).length
  · rw [hbig hle, hbig' hle]
    exact hrefuse headerTooLarge
  · obtain ⟨rfl, hview⟩ := hsmall (Nat.not_le.mp hle)
    obtain ⟨rfl, hview'⟩ := hsmall' (Nat.not_le.mp hle)
    cases t.ending with
    | closed => exact ⟨_, _, _, _, rfl, rfl⟩
    | error => exact ⟨_, _, _, _, rfl, rfl⟩
    | timeout =>
        simp only [Ending.readError, hview, hview']
        split
        · exact ⟨_, _, _, _, rfl, rfl⟩
        · exact hrefuse requestTimeout

/-- A round on the same bytes with a header end ends alike, and if it goes on, it goes
on with the same bytes. -/
theorem round_agree {f g served : Nat} {h : η} {t u : Transport} (hagree : Agree t u)
    {head rest : Bytes} (hc : cut headerEnd t.bytes = some (head, rest))
    (hf : t.bytes.length < f) (hg : u.bytes.length < g) :
    ∃ events h' t' u',
      (c.round (Transport.stream sendStatus) clientIp f served h t = .stop events h' t' ∧
        c.round (Transport.stream sendStatus) clientIp g served h u = .stop events h' u') ∨
      (c.round (Transport.stream sendStatus) clientIp f served h t = .next events h' t' ∧
        c.round (Transport.stream sendStatus) clientIp g served h u = .next events h' u' ∧
        Agree t' u' ∧ t'.bytes = rest) := by
  obtain ⟨hsame, ht, hu, hfit⟩ := hagree
  have hfresh := (cut_eq_some_iff.mp hc).2
  have hcu : cut headerEnd u.bytes = some (head, rest) := by rw [← hsame.bytes, hc]
  have hblocks := headerBlocks_of_cut hc
  obtain ⟨group, later, hchunks, hgroup, hlater, haligned⟩ := ht.exists_group hc
  obtain ⟨group', later', hchunks', hgroup', hlater', haligned'⟩ := hu.exists_group hcu
  have hhead : (head ++ headerEnd).length ≤ maxRequestHeaderBytes := by
    apply hfit
    rw [hblocks]
    exact List.mem_cons_self
  have hrest : ∀ sent, Agree { t with chunks := later, sent := sent }
      { u with chunks := later', sent := sent } := by
    intro sent
    refine ⟨⟨hlater.trans hlater'.symm, hsame.ending, rfl⟩, haligned, haligned', ?_⟩
    intro block hblock
    have hmem : block ∈ headerBlocks (bytesOf later) := hblock
    rw [hlater] at hmem
    apply hfit
    rw [hblocks]
    exact List.mem_cons_of_mem _ hmem
  rw [round_block sendStatus c clientIp hchunks hgroup hfresh hhead hf,
    round_block sendStatus c clientIp hchunks' hgroup' hfresh hhead hg]
  have hsent : ({ t with chunks := later } : Transport).sent =
      ({ u with chunks := later' } : Transport).sent := hsame.sent
  cases Request.parse (head ++ headerEnd) with
  | error e =>
      obtain ⟨events, h', sent, ⟨hl, hr⟩ | ⟨hl, hr⟩⟩ :=
        refuse_endAlike sendStatus c clientIp hsent served badRequest h
      · exact ⟨_, _, _, _, Or.inl ⟨hl, hr⟩⟩
      · exact ⟨_, _, _, _, Or.inr ⟨hl, hr, hrest sent, hlater⟩⟩
  | ok request =>
      obtain ⟨events, h', sent, ⟨hl, hr⟩ | ⟨hl, hr⟩⟩ :=
        serveRequest_endAlike sendStatus c clientIp hsent served request h
      · exact ⟨_, _, _, _, Or.inl ⟨hl, hr⟩⟩
      · exact ⟨_, _, _, _, Or.inr ⟨hl, hr, hrest sent, hlater⟩⟩

/-- The loop serves aligned transports that carry the same bytes alike.  The induction
is on the fuel of the first run: a round that goes on has used up a header block. -/
theorem serve_agree {f g : Nat} (served : Nat) (h : η) {t u : Transport} (hagree : Agree t u)
    (hf : t.bytes.length + 2 ≤ f) (hg : u.bytes.length + 2 ≤ g) :
    ∃ events h' t' u',
      c.serve (Transport.stream sendStatus) clientIp f served h t = some (events, h', t') ∧
      c.serve (Transport.stream sendStatus) clientIp g served h u = some (events, h', u') := by
  induction f generalizing g served h t u with
  | zero => omega
  | succ f ih =>
      obtain ⟨g, rfl⟩ : ∃ g', g = g' + 1 := ⟨g - 1, by omega⟩
      have hf' : t.bytes.length < f := by omega
      have hg' : u.bytes.length < g := by omega
      cases hc : cut headerEnd t.bytes with
      | none =>
          obtain ⟨events, h', t', u', hround, hround'⟩ :=
            round_noEnd sendStatus c clientIp (h := h) hagree.same (cut_eq_none_iff.mp hc)
              hf' hg'
          exact ⟨_, _, _, _, serve_of_stop hround, serve_of_stop hround'⟩
      | some headRest =>
          obtain ⟨events, h', t', u', ⟨hround, hround'⟩ | ⟨hround, hround', hagree', hrest⟩⟩ :=
            round_agree sendStatus c clientIp (h := h) hagree hc hf' hg'
          · exact ⟨_, _, _, _, serve_of_stop hround, serve_of_stop hround'⟩
          · have hless := length_lt_of_cut headerEnd_ne_nil hc
            have hsame := congrArg List.length hagree'.same.bytes
            have hwas := congrArg List.length hagree.same.bytes
            rw [hrest] at hsame
            obtain ⟨later, h'', t'', u'', hserve, hserve'⟩ :=
              ih (g := g) (served + 1) h' hagree' (by rw [hrest]; omega) (by omega)
            exact ⟨_, _, _, _, serve_of_next hround hserve, serve_of_next hround' hserve'⟩

variable {c}

theorem handleConnection_of_serve
    (hfactory : c.streamFactory = .ok (some (Transport.stream sendStatus))) {fuel : Nat} {h h' : η}
    {t t' : Transport} {events : List Event}
    (hserve : c.serve (Transport.stream sendStatus) clientIp fuel 0 h t = some (events, h', t')) :
    c.handleConnection clientIp fuel h t = some (events, h', t') := by
  have hvalid : (Transport.stream sendStatus).isValid t = true := rfl
  have hprepare : prepareStream (Transport.stream sendStatus) t = (true, [], t) := rfl
  simp [handleConnection, hfactory, hvalid, hprepare, hserve]

end ConnectionHandler

/-! ## Whole connections -/

/-- Whatever two aligned ways the transport splits the bytes of a connection, the same
requests reach the handler and the same responses are written, and the framing loop
leaves every byte behind a header block for the next round. -/
theorem handleConnection_segmentation {η : Type} (sendStatus : List Bytes → Bytes → IoStatus)
    (handler : RequestHandler η) (httpsEnabled : Bool) (timing : Nat → Timing)
    (clientIp : Bytes) (h : η) (t u : Transport) (hsame : SameBytes t u)
    (hfit : t.Fits maxRequestHeaderBytes) (ht : t.Aligned) (hu : u.Aligned) (f g : Nat)
    (hf : t.bytes.length + 2 ≤ f) (hg : u.bytes.length + 2 ≤ g) :
    (∃ events h₁ t₁ events' h₂ u₂,
      (transportHandler sendStatus handler httpsEnabled timing).handleConnection clientIp f h t =
        some (events, h₁, t₁) ∧
      (transportHandler sendStatus handler httpsEnabled timing).handleConnection clientIp g h u =
        some (events', h₂, u₂) ∧
      dispatchedRequests events = dispatchedRequests events' ∧
      sentResponses events = sentResponses events') ∧
    ∀ head rest, cut headerEnd t.bytes = some (head, rest) →
      ∃ b t', readHeaderBlock (Transport.stream sendStatus) maxRequestHeaderBytes f Buffer.new t =
          (.block (head ++ headerEnd), b, t') ∧
        t'.bytes = rest ∧ t'.Aligned := by
  refine ⟨?_, ?_⟩
  · obtain ⟨events, h', t', u', hserve, hserve'⟩ :=
      ConnectionHandler.serve_agree sendStatus
        (transportHandler sendStatus handler httpsEnabled timing) clientIp 0 h
        ⟨hsame, ht, hu, hfit⟩ hf hg
    exact ⟨events, h', t', events, h', u',
      ConnectionHandler.handleConnection_of_serve sendStatus clientIp rfl hserve,
      ConnectionHandler.handleConnection_of_serve sendStatus clientIp rfl hserve', rfl, rfl⟩
  · intro head rest hc
    obtain ⟨group, later, hchunks, hgroup, hlater, haligned⟩ := ht.exists_group hc
    have hlen := congrArg List.length (cut_eq_some_iff.mp hc).1
    have hhead : (head ++ headerEnd).length ≤ maxRequestHeaderBytes := by
      apply hfit
      rw [headerBlocks_of_cut hc]
      exact List.mem_cons_self
    have hfuel : (bytesOf group).length < f := by
      rw [hgroup]
      simp only [List.length_append] at hlen ⊢
      omega
    obtain ⟨b, hread⟩ := Transport.readHeaderBlock_group sendStatus (b := Buffer.new) hchunks
      (by simpa using hgroup) (cut_eq_some_iff.mp hc).2 hhead hfuel
    exact ⟨b, _, hread, hlater, haligned⟩

/-- A request without header fields. -/
def plainRequest : Bytes := ascii "GET / HTTP/1.1" ++ headerEnd

/-- Two requests in one chunk, in a chunk each, and with the first one in two chunks. -/
def pipelined : Transport where
  chunks := [⟨plainRequest ++ plainRequest, by decide⟩]
  ending := .closed

def separate : Transport where
  chunks := [⟨plainRequest, by decide⟩, ⟨plainRequest, by decide⟩]
  ending := .closed

def fragmented : Transport where
  chunks := [⟨plainRequest.take 5, by decide⟩, ⟨plainRequest.drop 5, by decide⟩,
    ⟨plainRequest, by decide⟩]
  ending := .closed

def okHandler : RequestHandler Unit := fun _ h =>
  (.ok (.text 200 (ascii "OK") (ascii "ok\n")), h)

theorem pipelined_separate_sameBytes : SameBytes pipelined separate :=
  ⟨by decide, rfl, rfl⟩

theorem separate_fits : separate.Fits maxRequestHeaderBytes := by
  have hblocks : headerBlocks separate.bytes = [plainRequest, plainRequest] := by
    decide +kernel
  intro block hblock
  rw [hblocks] at hblock
  simp only [List.mem_cons, List.not_mem_nil, or_false, or_self] at hblock
  subst hblock
  decide +kernel

theorem handleConnection_segmentation_fragmented :
    ∃ events h₁ t₁ events' h₂ u₂,
      (transportHandler (fun _ _ => .ok) okHandler false fun _ => ⟨0, 0⟩).handleConnection [] 38 ()
        separate = some (events, h₁, t₁) ∧
      (transportHandler (fun _ _ => .ok) okHandler false fun _ => ⟨0, 0⟩).handleConnection [] 38 ()
        fragmented = some (events', h₂, u₂) ∧
      dispatchedRequests events = dispatchedRequests events' ∧
      sentResponses events = sentResponses events' :=
  (handleConnection_segmentation (fun _ _ => .ok) okHandler false (fun _ => ⟨0, 0⟩) [] ()
    separate fragmented ⟨by decide, rfl, rfl⟩ separate_fits
    ⟨[[⟨plainRequest, by decide⟩], [⟨plainRequest, by decide⟩]], [], rfl, by decide +kernel⟩
    ⟨[[⟨plainRequest.take 5, by decide⟩, ⟨plainRequest.drop 5, by decide⟩],
      [⟨plainRequest, by decide⟩]], [], rfl, by decide +kernel⟩
    38 38 (by decide) (by decide)).1

/-- Split inside a chunk, the second request is lost. -/
theorem handleConnection_pipelined :
    ¬ ∀ (sendStatus : List Bytes → Bytes → IoStatus) (handler : RequestHandler Unit)
      (httpsEnabled : Bool) (timing : Nat → Timing) (clientIp : Bytes) (t u : Transport),
      SameBytes t u → t.Fits maxRequestHeaderBytes → ∀ f g,
      t.bytes.length + 2 ≤ f → u.bytes.length + 2 ≤ g →
      ∃ events h₁ t₁ events' h₂ u₂,
        (transportHandler sendStatus handler httpsEnabled timing).handleConnection clientIp f () t =
          some (events, h₁, t₁) ∧
        (transportHandler sendStatus handler httpsEnabled timing).handleConnection clientIp g () u =
          some (events', h₂, u₂) ∧
        dispatchedRequests events = dispatchedRequests events' ∧
        sentResponses events = sentResponses events' := by
  intro hclaim
  obtain ⟨events, h₁, t₁, events', h₂, u₂, hrun, hrun', hdispatched, -⟩ :=
    hclaim (fun _ _ => .ok) okHandler false (fun _ => ⟨0, 0⟩) [] separate pipelined
      ⟨pipelined_separate_sameBytes.bytes.symm, rfl, rfl⟩ separate_fits 38 38 (by decide)
      (by decide)
  have htwo : ((transportHandler (fun _ _ => .ok) okHandler false fun _ => ⟨0, 0⟩).handleConnection
      [] 38 () separate).map (fun r => (dispatchedRequests r.1).length) = some 2 := by
    decide +kernel
  have hone : ((transportHandler (fun _ _ => .ok) okHandler false fun _ => ⟨0, 0⟩).handleConnection
      [] 38 () pipelined).map (fun r => (dispatchedRequests r.1).length) = some 1 := by
    decide +kernel
  simp only [hrun, Option.map_some, Option.some.injEq, hdispatched] at htwo
  simp only [hrun', Option.map_some, Option.some.injEq] at hone
  omega

end App
end Garcon
