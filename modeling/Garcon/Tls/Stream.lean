import Garcon.Net.PlainStream

/-!
# TLS streams

`tls::stream` does its transport calls through a TLS library on the connection's socket.
`SslCalls` says what that library is relied on for.  A write that fails may have put a part of
its data into records that were sent.
-/

namespace Garcon
namespace Tls

open Transfer Net

/-- What `SSL_get_error` says of a failed call. -/
inductive SslError where
  | zeroReturn
  | wantRead
  | wantWrite
  | syscall
  | ssl
  | other (code : Int)
deriving DecidableEq, Repr

/-- A failed call.  There is no `errno` when it is zero. -/
structure SslFailure where
  error : SslError
  errno : Option Errno
deriving DecidableEq, Repr

/-- The calls of the TLS library on one connection.  `taken` is the data that was sent in
records so far. -/
structure SslCalls {κ : Type} (calls : SocketCalls κ) where
  accept : κ → Except SslFailure Unit × κ
  readEx : Nat → κ → Except SslFailure Bytes × κ
  writeEx : Bytes → κ → Except SslFailure Nat × κ
  taken : κ → Bytes
  setsockopt_taken : ∀ fd option tv k, taken (calls.setsockopt fd option tv k).2 = taken k
  accept_taken : ∀ k, taken (accept k).2 = taken k
  readEx_le : ∀ span k bytes k', readEx span k = (.ok bytes, k') → bytes.length ≤ span
  readEx_pos : ∀ span k bytes k', 0 < span → readEx span k = (.ok bytes, k') → bytes ≠ []
  readEx_taken : ∀ span k, taken (readEx span k).2 = taken k
  writeEx_pos : ∀ data k n k', data ≠ [] → writeEx data k = (.ok n, k') → 0 < n
  writeEx_taken : ∀ data k n k', writeEx data k = (.ok n, k') → taken k' = taken k ++ data.take n
  writeEx_failed : ∀ data k e k', writeEx data k = (.error e, k') →
    ∃ n, taken k' = taken k ++ data.take n

def mapSslStatus (failure : SslFailure) : IoStatus :=
  match failure.error with
  | .zeroReturn => .closed
  | .wantRead => .timeout
  | .wantWrite => .timeout
  | .syscall =>
    match failure.errno with
    | none => .closed
    | some .again => .timeout
    | some .wouldBlock => .timeout
    | some _ => .error
  | .ssl => .error
  | .other _ => .error

/-- A failed call is never well. -/
theorem mapSslStatus_ne_ok (failure : SslFailure) : mapSslStatus failure ≠ .ok := by
  unfold mapSslStatus
  split
  · exact nofun
  · exact nofun
  · exact nofun
  · split <;> exact nofun
  · exact nofun
  · exact nofun

namespace Stream

variable {κ : Type} {calls : SocketCalls κ} (ssl : SslCalls calls)

def handshake (k : κ) : IoStatus × κ :=
  match ssl.accept k with
  | (.ok (), k) => (.ok, k)
  | (.error failure, k) => (mapSslStatus failure, k)

def recvSome (span : Nat) (k : κ) : ReadResult × κ :=
  match ssl.readEx span k with
  | (.ok bytes, k) => (⟨.ok, bytes⟩, k)
  | (.error failure, k) => (⟨mapSslStatus failure, []⟩, k)

/-- One pass of the loop in `send_all`. -/
def sendOnce (data : Bytes) (k : κ) : Outcome IoStatus × κ :=
  match ssl.writeEx data k with
  | (.ok n, k) => (.took n, k)
  | (.error failure, k) => (.ended (mapSslStatus failure), k)

theorem sendOnce_spec (data : Bytes) (k : κ) :
    match sendOnce ssl data k with
    | (.took n, k') => (data ≠ [] → 0 < n) ∧ ssl.taken k' = ssl.taken k ++ data.take n
    | (.again, _) => False
    | (.ended status, k') => status ≠ .ok ∧ ∃ n, ssl.taken k' = ssl.taken k ++ data.take n := by
  unfold sendOnce
  cases hwrite : ssl.writeEx data k with
  | mk result k' =>
  cases result with
  | ok n =>
      exact ⟨fun hdata => ssl.writeEx_pos _ _ _ _ hdata hwrite, ssl.writeEx_taken _ _ _ _ hwrite⟩
  | error failure => exact ⟨mapSslStatus_ne_ok failure, ssl.writeEx_failed _ _ _ _ hwrite⟩

/-- A write of the library is not interrupted. -/
def sendSink : Sink κ UInt8 IoStatus where
  put := sendOnce ssl
  taken := ssl.taken
  patience := fun _ => 0
  took_pos := by
    intro data k n k' hdata h
    have hspec := sendOnce_spec ssl data k
    rw [h] at hspec
    exact hspec.1 hdata
  took_taken := by
    intro data k n k' h
    have hspec := sendOnce_spec ssl data k
    rw [h] at hspec
    exact hspec.2
  again_taken := by
    intro data k k' h
    have hspec := sendOnce_spec ssl data k
    rw [h] at hspec
    exact hspec.elim
  again_patience := by
    intro data k k' h
    have hspec := sendOnce_spec ssl data k
    rw [h] at hspec
    exact hspec.elim
  ended_taken := by
    intro data k e k' h
    have hspec := sendOnce_spec ssl data k
    rw [h] at hspec
    exact hspec.2

def sendAll (data : Bytes) (k : κ) : IoStatus × κ := sendThrough (sendSink ssl) data k

theorem sendSink_ended (data : Bytes) (k : κ) (status : IoStatus) (k' : κ)
    (h : (sendSink ssl).put data k = (.ended status, k')) : status ≠ .ok := by
  have hspec := sendOnce_spec ssl data k
  rw [show sendOnce ssl data k = (.ended status, k') from h] at hspec
  exact hspec.1

theorem recvSome_spec (span : Nat) (k : κ) :
    (recvSome ssl span k).1.bytes.length ≤ span ∧
      (0 < span → (recvSome ssl span k).1.status = .ok → (recvSome ssl span k).1.bytes ≠ []) ∧
      ssl.taken (recvSome ssl span k).2 = ssl.taken k := by
  have htaken := ssl.readEx_taken span k
  unfold recvSome
  cases hread : ssl.readEx span k with
  | mk result k' =>
  rw [hread] at htaken
  cases result with
  | ok bytes =>
      exact ⟨ssl.readEx_le _ _ _ _ hread,
        fun hspan _ => ssl.readEx_pos _ _ _ _ hspan hread, htaken⟩
  | error failure =>
      exact ⟨Nat.zero_le _, fun _ hok => absurd hok (mapSslStatus_ne_ok failure), htaken⟩

theorem handshake_taken (k : κ) : ssl.taken (handshake ssl k).2 = ssl.taken k := by
  have htaken := ssl.accept_taken k
  unfold handshake
  cases haccept : ssl.accept k with
  | mk result k' =>
  rw [haccept] at htaken
  cases result with
  | ok _ => exact htaken
  | error failure => exact htaken

end Stream

section

variable {κ : Type} {calls : SocketCalls κ} (ssl : SslCalls calls) (socket : Socket)

def stream : Net.Stream κ where
  isValid := fun _ => socket.isValid
  setReceiveTimeout := socket.setReceiveTimeout calls
  setSendTimeout := socket.setSendTimeout calls
  handshake := Stream.handshake ssl
  recvSome := Stream.recvSome ssl
  sendAll := Stream.sendAll ssl
  recvSome_le := fun span k => (Stream.recvSome_spec ssl span k).1

theorem stream_carries : (stream ssl socket).Carries ssl.taken where
  setReceiveTimeout := fun _ k => ssl.setsockopt_taken _ _ _ k
  setSendTimeout := fun _ k => ssl.setsockopt_taken _ _ _ k
  handshake := Stream.handshake_taken ssl
  recvSome := fun span k => (Stream.recvSome_spec ssl span k).2.2
  sendAll := sendThrough_spec (Stream.sendSink_ended ssl)

theorem stream_delivers : (stream ssl socket).Delivers :=
  fun span k hspan hok => (Stream.recvSome_spec ssl span k).2.1 hspan hok

end
end Tls
end Garcon
