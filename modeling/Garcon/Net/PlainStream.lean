import Garcon.Net.Socket

/-!
# Plain streams

`net::plain_stream` forwards to its socket.  A stream carries what it was sent over some
history: a send adds a prefix of its data, all of it when it ends well, and no other call adds
anything.
-/

namespace Garcon
namespace Net

namespace Stream

variable {σ : Type}

structure Carries (client : Stream σ) (taken : σ → Bytes) : Prop where
  setReceiveTimeout : ∀ ms s, taken (client.setReceiveTimeout ms s).2 = taken s
  setSendTimeout : ∀ ms s, taken (client.setSendTimeout ms s).2 = taken s
  handshake : ∀ s, taken (client.handshake s).2 = taken s
  recvSome : ∀ span s, taken (client.recvSome span s).2 = taken s
  sendAll : ∀ wire s, ∃ part, part <+: wire ∧ taken (client.sendAll wire s).2 = taken s ++ part ∧
    ((client.sendAll wire s).1 = .ok → part = wire)

/-- A receive into a span that ends well delivers some bytes. -/
def Delivers (client : Stream σ) : Prop :=
  ∀ span s, 0 < span → (client.recvSome span s).1.status = .ok →
    (client.recvSome span s).1.bytes ≠ []

end Stream

/-- A send, with what was taken of its data. -/
structure Delivery where
  wire : Bytes
  status : IoStatus
  part : Bytes
  isPrefix : part <+: wire
  whole : status = .ok → part = wire

/-- The sends among some calls, with their statuses. -/
def sends (ops : List StreamOp) : List (Bytes × IoStatus) :=
  ops.filterMap fun
    | .sent wire status => some (wire, status)
    | .received _ => none

namespace Stream

variable {σ : Type} {client : Stream σ} {taken : σ → Bytes} {s s' : σ} {ops : List StreamOp}

/-- What a run adds to the history are the parts of its sends, in their order. -/
theorem Carries.deliveries (hcarries : client.Carries taken) (h : client.Runs s ops s') :
    ∃ deliveries : List Delivery,
      deliveries.map (fun d => (d.wire, d.status)) = sends ops ∧
      taken s' = taken s ++ deliveries.flatMap Delivery.part := by
  induction h with
  | done s => exact ⟨[], rfl, (List.append_nil _).symm⟩
  | setReceiveTimeout ms _ ih =>
      rw [hcarries.setReceiveTimeout] at ih
      exact ih
  | setSendTimeout ms _ ih =>
      rw [hcarries.setSendTimeout] at ih
      exact ih
  | handshake _ ih =>
      rw [hcarries.handshake] at ih
      exact ih
  | recvSome span _ ih =>
      rw [hcarries.recvSome] at ih
      exact ih
  | @sendAll s s' ops wire _ ih =>
      obtain ⟨deliveries, hsends, htaken⟩ := ih
      obtain ⟨part, hpart, hsent, hall⟩ := hcarries.sendAll wire s
      refine ⟨⟨wire, (client.sendAll wire s).1, part, hpart, hall⟩ :: deliveries, ?_, ?_⟩
      · rw [List.map_cons, hsends]
        rfl
      · rw [htaken, hsent, List.flatMap_cons, List.append_assoc]

end Stream

/-! ## The plain stream -/

section

variable {κ : Type} (calls : SocketCalls κ) (socket : Socket)

def plainStream : Stream κ where
  isValid := fun _ => socket.isValid
  setReceiveTimeout := socket.setReceiveTimeout calls
  setSendTimeout := socket.setSendTimeout calls
  handshake := fun k => (.ok, k)
  recvSome := socket.recvSome calls
  sendAll := socket.sendAll calls
  recvSome_le := fun span k => (socket.recvSome_spec calls span k).1

theorem plainStream_carries : (plainStream calls socket).Carries (calls.taken socket.fd) where
  setReceiveTimeout := fun _ k => calls.setsockopt_taken _ _ _ k
  setSendTimeout := fun _ k => calls.setsockopt_taken _ _ _ k
  handshake := fun _ => rfl
  recvSome := fun span k => (socket.recvSome_spec calls span k).2.2
  sendAll := sendThrough_spec (socket.sendSink_ended calls)

theorem plainStream_delivers : (plainStream calls socket).Delivers :=
  fun span k _ hok => (socket.recvSome_spec calls span k).2.1.mp hok

end
end Net
end Garcon
