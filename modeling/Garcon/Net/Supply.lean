import Garcon.Tls.Stream

/-!
# What a client still has to send

A client with a supply has that many bytes left at most: what is received is used up, and
nothing the server does adds to it.
-/

namespace Garcon
namespace Net

open Transfer

namespace Stream

variable {σ : Type}

structure Supplied (client : Stream σ) (supply : σ → Nat) : Prop where
  setReceiveTimeout : ∀ ms s, supply (client.setReceiveTimeout ms s).2 ≤ supply s
  setSendTimeout : ∀ ms s, supply (client.setSendTimeout ms s).2 ≤ supply s
  handshake : ∀ s, supply (client.handshake s).2 ≤ supply s
  recvSome : ∀ span s,
    supply (client.recvSome span s).2 + (client.recvSome span s).1.bytes.length ≤ supply s
  sendAll : ∀ wire s, supply (client.sendAll wire s).2 ≤ supply s

end Stream

/-- What was received, in order. -/
def receivedBytes (ops : List StreamOp) : Bytes :=
  ops.flatMap fun
    | .received result => result.bytes
    | .sent _ _ => []

theorem Stream.Supplied.runs {σ : Type} {client : Stream σ} {supply : σ → Nat}
    (hsupplied : client.Supplied supply) {s s' : σ} {ops : List StreamOp}
    (h : client.Runs s ops s') : supply s' + (receivedBytes ops).length ≤ supply s := by
  induction h with
  | done s => exact Nat.le_refl _
  | @setReceiveTimeout s s' ops ms _ ih =>
      have hstep := hsupplied.setReceiveTimeout ms s
      omega
  | @setSendTimeout s s' ops ms _ ih =>
      have hstep := hsupplied.setSendTimeout ms s
      omega
  | @handshake s s' ops _ ih =>
      have hstep := hsupplied.handshake s
      omega
  | @recvSome s s' ops span _ ih =>
      have hstep := hsupplied.recvSome span s
      have hops : receivedBytes (.received (client.recvSome span s).1 :: ops) =
          (client.recvSome span s).1.bytes ++ receivedBytes ops := List.flatMap_cons
      rw [hops, List.length_append]
      omega
  | @sendAll s s' ops wire _ ih =>
      have hstep := hsupplied.sendAll wire s
      have hops : receivedBytes (.sent wire (client.sendAll wire s).1 :: ops) =
          receivedBytes ops := List.flatMap_cons.trans (List.nil_append _)
      rw [hops]
      omega

/-! ## Sockets -/

/-- The bytes a call of `recv` or of the TLS library delivered. -/
def deliveredBytes {ε : Type} : Except ε Bytes → Nat
  | .ok bytes => bytes.length
  | .error _ => 0

structure SocketCalls.Supplied {κ : Type} (calls : SocketCalls κ) (supply : κ → Nat) : Prop where
  setsockopt : ∀ fd option tv k, supply (calls.setsockopt fd option tv k).2 ≤ supply k
  recv : ∀ fd span k,
    supply (calls.recv fd span k).2 + deliveredBytes (calls.recv fd span k).1 ≤ supply k
  send : ∀ fd data k, supply (calls.send fd data k).2 ≤ supply k

section

variable {κ : Type} {calls : SocketCalls κ} {supply : κ → Nat}

theorem Socket.recvOnce_supply (hsupplied : calls.Supplied supply) (socket : Socket) (span : Nat)
    (k : κ) :
    supply (socket.recvOnce calls span k).2 +
      ((socket.recvOnce calls span k).1.map (·.bytes.length)).getD 0 ≤ supply k := by
  have hrecv := hsupplied.recv socket.fd span k
  unfold Socket.recvOnce
  cases hcall : calls.recv socket.fd span k with
  | mk result k' =>
  rw [hcall] at hrecv
  cases result with
  | error e => cases e <;> exact hrecv
  | ok bytes => cases bytes <;> exact hrecv

theorem Socket.recvSome_supply (hsupplied : calls.Supplied supply) (socket : Socket) (span : Nat)
    (k : κ) :
    supply (socket.recvSome calls span k).2 + (socket.recvSome calls span k).1.bytes.length ≤
      supply k := by
  have hagain : ∀ k₁ k₂, supply k₁ ≤ supply k → socket.recvOnce calls span k₁ = (none, k₂) →
      supply k₂ ≤ supply k := by
    intro k₁ k₂ hk h
    have honce := Socket.recvOnce_supply hsupplied socket span k₁
    rw [h] at honce
    exact Nat.le_trans honce hk
  obtain ⟨k', hk', hlast⟩ :=
    (socket.recvCall calls span).exists_run_of_retry hagain k (Nat.le_refl _)
  have honce := Socket.recvOnce_supply hsupplied socket span k'
  rw [show socket.recvOnce calls span k' =
    (some (socket.recvSome calls span k).1, (socket.recvSome calls span k).2) from hlast] at honce
  exact Nat.le_trans honce hk'

/-- What no call adds to, a send does not add to. -/
theorem sendThrough_supply {sink : Sink κ UInt8 IoStatus}
    (hput : ∀ data k, supply (sink.put data k).2 ≤ supply k) (data : Bytes) (k : κ) :
    supply (sendThrough sink data k).2 ≤ supply k := by
  have hle := sink.transfer_invariant (P := fun k' => supply k' ≤ supply k)
    (fun data k₁ hk₁ => Nat.le_trans (hput data k₁) hk₁) data k (Nat.le_refl _)
  unfold sendThrough
  cases htransfer : sink.transfer data k with
  | mk result k' =>
  rw [htransfer] at hle
  cases result with
  | none => exact hle
  | some status => exact hle

theorem plainStream_supplied (hsupplied : calls.Supplied supply) (socket : Socket) :
    (plainStream calls socket).Supplied supply where
  setReceiveTimeout := fun _ k => hsupplied.setsockopt _ _ _ k
  setSendTimeout := fun _ k => hsupplied.setsockopt _ _ _ k
  handshake := fun _ => Nat.le_refl _
  recvSome := Socket.recvSome_supply hsupplied socket
  sendAll := by
    apply sendThrough_supply
    intro data k
    have hsend := hsupplied.send socket.fd data k
    show supply (socket.sendOnce calls data k).2 ≤ supply k
    unfold Socket.sendOnce
    cases hcall : calls.send socket.fd data k with
    | mk result k' =>
    rw [hcall] at hsend
    cases result with
    | error e => cases e <;> exact hsend
    | ok n => cases n <;> exact hsend

end
end Net

/-! ## The TLS library -/

namespace Tls

open Net

variable {κ : Type} {calls : SocketCalls κ} {supply : κ → Nat}

structure SslCalls.Supplied (ssl : SslCalls calls) (supply : κ → Nat) : Prop where
  setsockopt : ∀ fd option tv k, supply (calls.setsockopt fd option tv k).2 ≤ supply k
  accept : ∀ k, supply (ssl.accept k).2 ≤ supply k
  readEx : ∀ span k, supply (ssl.readEx span k).2 + deliveredBytes (ssl.readEx span k).1 ≤ supply k
  writeEx : ∀ data k, supply (ssl.writeEx data k).2 ≤ supply k

theorem stream_supplied {ssl : SslCalls calls} (hsupplied : ssl.Supplied supply)
    (socket : Socket) : (stream ssl socket).Supplied supply where
  setReceiveTimeout := fun _ k => hsupplied.setsockopt _ _ _ k
  setSendTimeout := fun _ k => hsupplied.setsockopt _ _ _ k
  handshake := by
    intro k
    have haccept := hsupplied.accept k
    show supply (Stream.handshake ssl k).2 ≤ supply k
    unfold Stream.handshake
    cases hcall : ssl.accept k with
    | mk result k' =>
    rw [hcall] at haccept
    cases result with
    | ok _ => exact haccept
    | error failure => exact haccept
  recvSome := by
    intro span k
    have hread := hsupplied.readEx span k
    show supply (Stream.recvSome ssl span k).2 + (Stream.recvSome ssl span k).1.bytes.length ≤
      supply k
    unfold Stream.recvSome
    cases hcall : ssl.readEx span k with
    | mk result k' =>
    rw [hcall] at hread
    cases result with
    | ok bytes => exact hread
    | error failure => exact hread
  sendAll := by
    apply sendThrough_supply
    intro data k
    have hwrite := hsupplied.writeEx data k
    show supply (Stream.sendOnce ssl data k).2 ≤ supply k
    unfold Stream.sendOnce
    cases hcall : ssl.writeEx data k with
    | mk result k' =>
    rw [hcall] at hwrite
    cases result with
    | ok n => exact hwrite
    | error failure => exact hwrite

end Tls
end Garcon
