import Garcon.App.Conversation
import Garcon.Tls.Stream

/-!
# Delivery of the responses

`default_stream_factory` gives a connection a plain stream or a TLS stream.  Either way what
went out over a connection is, response by response, a prefix of what the handler sent.
-/

namespace Garcon
namespace App

open Ascii Http Net

namespace DefaultStreamFactory

variable {κ : Type} {calls : SocketCalls κ}

def create (tlsContext : Option (Tls.SslCalls calls)) (client : Net.Socket) : Stream κ :=
  match tlsContext with
  | some ssl => Tls.stream ssl client
  | none => plainStream calls client

/-- What the client was sent, under the encryption if there is one. -/
def taken (tlsContext : Option (Tls.SslCalls calls)) (client : Net.Socket) : κ → Bytes :=
  match tlsContext with
  | some ssl => ssl.taken
  | none => calls.taken client.fd

theorem create_carries (tlsContext : Option (Tls.SslCalls calls)) (client : Net.Socket) :
    (create tlsContext client).Carries (taken tlsContext client) := by
  cases tlsContext with
  | none => exact plainStream_carries calls client
  | some ssl => exact Tls.stream_carries ssl client

theorem create_delivers (tlsContext : Option (Tls.SslCalls calls)) (client : Net.Socket) :
    (create tlsContext client).Delivers := by
  cases tlsContext with
  | none => exact plainStream_delivers calls client
  | some ssl => exact Tls.stream_delivers ssl client

end DefaultStreamFactory

def Reply.send (r : Reply) : Bytes × IoStatus := (r.wire, r.status)

theorem sends_flatMap (xs : List Exchange) :
    sends (xs.flatMap Exchange.ops) = (xs.filterMap (·.reply)).map Reply.send := by
  have hreads : ∀ reads : List ReadResult, sends (reads.map .received) = [] := by
    intro reads
    induction reads with
    | nil => rfl
    | cons r reads ih => exact ih
  induction xs with
  | nil => rfl
  | cons x xs ih =>
      unfold sends at ih hreads ⊢
      rw [List.flatMap_cons, List.filterMap_append, ih]
      unfold Exchange.ops
      rw [List.filterMap_append, hreads]
      cases hreply : x.reply <;> simp [hreply, Reply.send]

/-- No reply follows one that was not delivered. -/
theorem Conversation.delivered {σ η : Type} {c : ConnectionHandler σ η} {clientIp : Bytes}
    {served : Nat} {h h' : η} {xs : List Exchange}
    (hxs : Conversation c clientIp served h xs h') :
    ∀ r ∈ (xs.filterMap (·.reply)).dropLast, r.Delivered := by
  induction hxs with
  | cut served h => exact nofun
  | @last _ _ _ x hx hstop =>
      intro r hr
      cases hreply : x.reply <;> simp [hreply] at hr
  | @next _ _ _ _ x xs hx hgoes hlater ih =>
      obtain ⟨request, reply, -, hreply, hdelivered, -⟩ := hgoes
      intro r hr
      rw [List.filterMap_cons_some hreply] at hr
      cases hmore : xs.filterMap (·.reply) with
      | nil =>
          rw [hmore] at hr
          cases hr
      | cons next more =>
          rw [hmore, List.dropLast_cons_cons] at hr
          cases List.mem_cons.mp hr with
          | inl heq => exact heq ▸ hdelivered
          | inr hlater => exact ih r (hmore ▸ hlater)

/-- A reply that was not delivered is reported. -/
theorem Reply.reported (r : Reply) (h : ¬ r.Delivered) :
    ∃ detail, Event.connectionError "write-response" detail ∈ r.events := by
  unfold Reply.Delivered at h
  unfold Reply.events
  cases hstatus : r.status with
  | ok => exact absurd (Or.inl hstatus) h
  | closed => exact absurd (Or.inr hstatus) h
  | timeout => exact ⟨"response write timed out", by simp⟩
  | error => exact ⟨"response write failed", by simp⟩

/-- Over a plain or a TLS connection, what the client was sent is what was taken of the
responses in their order: a prefix of each, the whole of each whose send was well.  A send
that failed is the last one, and it is reported. -/
theorem responses_on_the_wire {κ η : Type} {calls : SocketCalls κ} (c : ConnectionHandler κ η)
    (tlsContext : Option (Tls.SslCalls calls)) (client : Net.Socket)
    (hfactory : c.streamFactory = .ok (some (DefaultStreamFactory.create tlsContext client)))
    (clientIp : Bytes) (h h' : η) (k k' : κ) (events : List Event)
    (hwatched : Watched c clientIp h k events h' k') :
    ∃ deliveries : List Delivery,
      sentResponses events = deliveries.map Delivery.wire ∧
      DefaultStreamFactory.taken tlsContext client k' =
        DefaultStreamFactory.taken tlsContext client k ++ deliveries.flatMap Delivery.part ∧
      (∀ d ∈ deliveries.dropLast, d.status = .ok ∨ d.status = .closed) ∧
      ((∃ d ∈ deliveries, d.status = .timeout ∨ d.status = .error) →
        ∃ detail, Event.connectionError "write-response" detail ∈ events) := by
  obtain ⟨trouble, xs, htrouble, hxs, rfl, hruns⟩ :=
    ConnectionHandler.conversation_of_watched hfactory hwatched
  obtain ⟨-, hwires, -⟩ := append_events_spec htrouble hxs.trouble
  obtain ⟨deliveries, hsends, htaken⟩ :=
    (DefaultStreamFactory.create_carries tlsContext client).deliveries hruns
  rw [sends_flatMap] at hsends
  have hreply : ∀ d ∈ deliveries, ∃ r ∈ xs.filterMap (·.reply), r.status = d.status := by
    intro d hd
    have hmem : (d.wire, d.status) ∈ (xs.filterMap (·.reply)).map Reply.send := by
      rw [← hsends]
      exact List.mem_map_of_mem hd
    obtain ⟨r, hr, heq⟩ := List.mem_map.mp hmem
    exact ⟨r, hr, congrArg Prod.snd heq⟩
  refine ⟨deliveries, ?_, htaken, ?_, ?_⟩
  · have hfirst := congrArg (List.map Prod.fst) hsends
    rw [List.map_map, List.map_map] at hfirst
    exact hwires.trans hfirst.symm
  · intro d hd
    have hmem : (d.wire, d.status) ∈ ((xs.filterMap (·.reply)).map Reply.send).dropLast := by
      rw [← hsends, ← List.map_dropLast]
      exact List.mem_map_of_mem hd
    rw [← List.map_dropLast] at hmem
    obtain ⟨r, hr, heq⟩ := List.mem_map.mp hmem
    have hstatus : r.status = d.status := congrArg Prod.snd heq
    rw [← hstatus]
    exact hxs.delivered r hr
  · intro hfailed
    obtain ⟨d, hd, hstatus⟩ := hfailed
    obtain ⟨r, hr, hrd⟩ := hreply d hd
    have hnot : ¬ r.Delivered := by
      unfold Reply.Delivered
      rw [hrd]
      cases hstatus with
      | inl htimeout => rw [htimeout]; exact nofun
      | inr herror => rw [herror]; exact nofun
    obtain ⟨detail, hdetail⟩ := r.reported hnot
    obtain ⟨x, hx, hxr⟩ := List.mem_filterMap.mp hr
    refine ⟨detail, List.mem_append_right _ (List.mem_flatMap.mpr ⟨x, hx, ?_⟩)⟩
    unfold Exchange.events
    rw [hxr]
    simp [hdetail]

/-! ## A narrow connection -/

/-- A kernel that is interrupted a few times, and then hands over what the client has sent by
at most 300 bytes, and takes at most 100 bytes at a time until its room is used up. -/
structure Narrow where
  inbox : Bytes
  interrupts : Nat
  room : Nat
  out : Bytes := []

def narrowCalls : SocketCalls Narrow where
  setsockopt := fun _ _ _ k => (true, k)
  recv := fun _ span k =>
    match k.interrupts with
    | n + 1 => (.error .intr, { k with interrupts := n })
    | 0 =>
      if k.inbox = [] then (.error .again, k)
      else (.ok (k.inbox.take (min span 300)), { k with inbox := k.inbox.drop (min span 300) })
  send := fun _ data k =>
    if k.room = 0 then (.error .again, k)
    else
      let n := min 100 k.room
      (.ok n, { k with room := k.room - n, out := k.out ++ data.take n })
  taken := fun _ k => k.out
  patience := fun k => k.interrupts
  setsockopt_taken := fun _ _ _ _ => rfl
  recv_le := by
    intro fd span k bytes k' h
    split at h
    · cases h
    · split at h <;> cases h
      exact (List.length_take_le _ _).trans (Nat.min_le_left _ _)
  recv_taken := by
    intro fd span k
    split
    · rfl
    · split <;> rfl
  recv_patience := by
    intro fd span k k' h
    cases hn : k.interrupts with
    | zero =>
        rw [hn] at h
        dsimp only at h
        split at h <;> cases h
    | succ n =>
        rw [hn] at h
        cases h
        exact Nat.lt_succ_self n
  send_taken := by
    intro fd data k n k' h
    split at h <;> cases h
    rfl
  send_failed := by
    intro fd data k n k' h
    split at h <;> cases h
    rfl
  send_patience := by
    intro fd data k k' h
    split at h <;> cases h

/-- A TLS library on that kernel.  It writes all of its data, or fails when the room is used
up behind the records that went out. -/
def narrowSsl : Tls.SslCalls narrowCalls where
  accept := fun k => (.ok (), k)
  readEx := fun span k =>
    if k.inbox = [] then (.error ⟨.wantRead, none⟩, k)
    else (.ok (k.inbox.take span), { k with inbox := k.inbox.drop span })
  writeEx := fun data k =>
    if data.length ≤ k.room then
      (.ok data.length, { k with room := k.room - data.length, out := k.out ++ data })
    else (.error ⟨.wantWrite, none⟩, { k with room := 0, out := k.out ++ data.take k.room })
  taken := fun k => k.out
  setsockopt_taken := fun _ _ _ _ => rfl
  accept_taken := fun _ => rfl
  readEx_le := by
    intro span k bytes k' h
    split at h <;> cases h
    exact List.length_take_le _ _
  readEx_pos := by
    intro span k bytes k' hspan h
    split at h
    · cases h
    · next hinbox =>
      cases h
      rw [ne_eq, List.take_eq_nil_iff, not_or]
      exact ⟨Nat.pos_iff_ne_zero.mp hspan, hinbox⟩
  readEx_taken := by
    intro span k
    split <;> rfl
  writeEx_pos := by
    intro data k n k' hdata h
    split at h <;> cases h
    exact List.length_pos_iff.mpr hdata
  writeEx_taken := by
    intro data k n k' h
    split at h <;> cases h
    rw [List.take_length]
  writeEx_failed := by
    intro data k e k' h
    split at h <;> cases h
    exact ⟨k.room, rfl⟩

/-- Its client sends nothing, and takes no more than part of the answer to that. -/
def narrow : Narrow := ⟨[], 2, 110, []⟩

def narrowStream (tlsContext : Option (Tls.SslCalls narrowCalls)) : Stream Narrow :=
  DefaultStreamFactory.create tlsContext ⟨5, []⟩

def narrowHandler (tlsContext : Option (Tls.SslCalls narrowCalls)) :
    ConnectionHandler Narrow Unit where
  handler := fun _ h => (.ok (.text 404 (ascii "Not Found") (ascii "not found\n")), h)
  streamFactory := .ok (some (narrowStream tlsContext))
  httpsEnabled := tlsContext.isSome
  timing := fun _ => ⟨0, 0⟩

open Transfer in
theorem recvSome_narrow :
    (narrowStream none).recvSome 2048 narrow = (⟨.timeout, []⟩, ⟨[], 0, 110, []⟩) := by
  show Call.retry _ _ = _
  rw [Call.retry_of_none rfl, Call.retry_of_none rfl, Call.retry_of_some rfl]
  rfl

open Transfer in
theorem sendAll_narrowSsl (wire : Bytes) (h : 110 < wire.length) :
    (narrowStream (some narrowSsl)).sendAll wire narrow =
      (.timeout, ⟨[], 2, 0, wire.take 110⟩) := by
  have hwhole : wire ≠ [] := by
    rintro rfl
    cases h
  have hput : (Tls.Stream.sendSink narrowSsl).put wire narrow =
      (.ended .timeout, ⟨[], 2, 0, wire.take 110⟩) := by
    show Tls.Stream.sendOnce narrowSsl wire narrow = _
    have hwrite : narrowSsl.writeEx wire narrow =
        (.error ⟨.wantWrite, none⟩, ⟨[], 2, 0, wire.take 110⟩) := if_neg (not_le.mpr h)
    rw [Tls.Stream.sendOnce, hwrite]
    rfl
  show sendThrough _ _ _ = _
  unfold sendThrough
  rw [Sink.transfer_of_ended hwhole hput]

open Transfer in
theorem sendAll_narrow (wire : Bytes) (h : 110 < wire.length) :
    (narrowStream none).sendAll wire ⟨[], 0, 110, []⟩ =
      (.timeout, ⟨[], 0, 0, wire.take 100 ++ (wire.drop 100).take 10⟩) := by
  have hrest : ∀ n, n ≤ 110 → wire.drop n ≠ [] := by
    intro n hn hnil
    have hlength := congrArg List.length hnil
    rw [List.length_drop, List.length_nil] at hlength
    omega
  have hwhole : wire ≠ [] := hrest 0 (Nat.zero_le _)
  have hlast : (wire.drop 100).drop 10 ≠ [] := by
    rw [List.drop_drop]
    exact hrest 110 (Nat.le_refl _)
  show sendThrough _ _ _ = _
  unfold sendThrough
  rw [Sink.transfer_of_took (n := 100) hwhole rfl,
    Sink.transfer_of_took (n := 10) (hrest 100 (by decide)) rfl,
    Sink.transfer_of_ended hlast rfl]
  rfl

/-- A connection that reads nothing, and gets out 110 bytes of the answer to that. -/
theorem handleConnection_narrow (tlsContext : Option (Tls.SslCalls narrowCalls)) {k₁ : Narrow}
    (hrecv : (narrowStream tlsContext).recvSome 2048 narrow = (⟨.timeout, []⟩, k₁))
    (hsend : ∀ wire : Bytes, 110 < wire.length → ∃ k₂,
      (narrowStream tlsContext).sendAll wire k₁ = (.timeout, k₂) ∧ k₂.out.length = 110)
    (hset : ∀ ms k, (narrowStream tlsContext).setReceiveTimeout ms k = (true, k))
    (hset' : ∀ ms k, (narrowStream tlsContext).setSendTimeout ms k = (true, k))
    (hshake : ∀ k, (narrowStream tlsContext).handshake k = (.ok, k))
    (hvalid : ∀ k, (narrowStream tlsContext).isValid k = true) :
    ∃ events k, (narrowHandler tlsContext).handleConnection [] 2 () narrow =
      some (events, (), k) ∧ k.out.length = 110 := by
  have hlength : 110 < (ConnectionHandler.requestTimeout.serialize .close).length := by
    decide +kernel
  have hspan := (Buffer.tight_new 2048).spanSize_writeSpan
  have hfind : findHeaderEnd Buffer.new.asStringView = none := by decide
  have hread : ∃ buffer, readHeaderBlock (narrowStream tlsContext) maxRequestHeaderBytes 1
      Buffer.new narrow = (.error .timeout, buffer, k₁) := by
    rw [readHeaderBlock]
    simp only [hfind, hspan, hrecv]
    exact ⟨_, rfl⟩
  obtain ⟨buffer, hread⟩ := hread
  obtain ⟨k₂, hsent, hout⟩ := hsend _ hlength
  have hstream : (narrowHandler tlsContext).streamFactory =
      .ok (some (narrowStream tlsContext)) := rfl
  simp only [ConnectionHandler.handleConnection, hstream, hvalid, hset, hset', hshake, hread,
    ConnectionHandler.prepareStream, ConnectionHandler.serve, ConnectionHandler.round]
  simp [ConnectionHandler.refuse, ConnectionHandler.sendResponse, hsent, hout]

/-- What is known of a connection whose answer is cut short behind its first 110 bytes. -/
def CutShort (tlsContext : Option (Tls.SslCalls narrowCalls)) : Prop :=
  ∃ events k, (narrowHandler tlsContext).handleConnection [] 2 () narrow = some (events, (), k) ∧
    k.out.length = 110 ∧
    ∃ deliveries : List Delivery, sentResponses events = deliveries.map Delivery.wire ∧
      k.out = deliveries.flatMap Delivery.part ∧
      ((∃ d ∈ deliveries, d.status = .timeout ∨ d.status = .error) →
        ∃ detail, Event.connectionError "write-response" detail ∈ events)

/-- The answer is cut short, plain and under TLS, and that is reported. -/
theorem responses_on_the_wire_narrow : CutShort none ∧ CutShort (some narrowSsl) := by
  constructor
  · obtain ⟨events, k, hrun, hout⟩ := handleConnection_narrow none recvSome_narrow
      (fun wire h => ⟨_, sendAll_narrow wire h, by simp; omega⟩) (fun _ _ => rfl) (fun _ _ => rfl)
      (fun _ => rfl) fun _ => rfl
    obtain ⟨deliveries, hwires, htaken, -, hreported⟩ := responses_on_the_wire (narrowHandler none)
      none ⟨5, []⟩ rfl [] () () narrow k events (.whole hrun)
    exact ⟨events, k, hrun, hout, deliveries, hwires, htaken.trans (List.nil_append _), hreported⟩
  · obtain ⟨events, k, hrun, hout⟩ := handleConnection_narrow (some narrowSsl) rfl
      (fun wire h => ⟨_, sendAll_narrowSsl wire h, by simp; omega⟩) (fun _ _ => rfl)
      (fun _ _ => rfl) (fun _ => rfl) fun _ => rfl
    obtain ⟨deliveries, hwires, htaken, -, hreported⟩ :=
      responses_on_the_wire (narrowHandler (some narrowSsl)) (some narrowSsl) ⟨5, []⟩ rfl [] () ()
        narrow k events (.whole hrun)
    exact ⟨events, k, hrun, hout, deliveries, hwires, htaken.trans (List.nil_append _), hreported⟩

end App
end Garcon
