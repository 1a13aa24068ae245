import Garcon.Library.Transfer
import Garcon.Net.Log

/-!
# Sockets

`net::socket` receives and sends through the system calls of the kernel, which the model
takes as a parameter over the kernel's state.  `SocketCalls` says what these calls are relied
on for: what `recv` returns fits the span, `send` takes the front of what it is offered, and
signals interrupt a call only finitely often.

`Stream.Carries` is what the layers above see of this: every send takes a prefix of its data,
and all of it when it ends well.
-/

namespace Garcon
namespace Net

open Transfer

/-- The values of `errno` that are told apart. -/
inductive Errno where
  | intr
  | again
  | wouldBlock
  | other (code : Int)
deriving DecidableEq, Repr

structure Timeval where
  tvSec : Int
  tvUsec : Int
deriving DecidableEq, Repr

/-- The timeout is in milliseconds. -/
def toTimeval (timeout : Int) : Timeval :=
  let timeout := if timeout < 0 then 0 else timeout
  let secs := Int.tdiv timeout 1000
  ⟨secs, (timeout - secs * 1000) * 1000⟩

/-- What `setsockopt` is given is a valid `timeval`, and no time is lost. -/
theorem toTimeval_spec (timeout : Int) :
    0 ≤ (toTimeval timeout).tvSec ∧ 0 ≤ (toTimeval timeout).tvUsec ∧
      (toTimeval timeout).tvUsec < 1000000 ∧
      (toTimeval timeout).tvSec * 1000000 + (toTimeval timeout).tvUsec =
        max timeout 0 * 1000 := by
  unfold toTimeval
  dsimp only
  by_cases hneg : timeout < 0
  · rw [if_pos hneg, max_eq_right (Int.le_of_lt hneg)]
    decide
  · rw [if_neg hneg, max_eq_left (Int.not_lt.mp hneg),
      Int.tdiv_eq_ediv_of_nonneg (Int.not_lt.mp hneg)]
    omega

inductive SocketOption where
  | rcvTimeo
  | sndTimeo
deriving DecidableEq, Repr

/-- The system calls on a connected socket.  `recv` gives the received bytes, none at the end
of the stream, and `send` how many bytes it took.  `taken` is all it took so far. -/
structure SocketCalls (κ : Type) where
  setsockopt : Int → SocketOption → Timeval → κ → Bool × κ
  recv : Int → Nat → κ → Except Errno Bytes × κ
  send : Int → Bytes → κ → Except Errno Nat × κ
  taken : Int → κ → Bytes
  patience : κ → Nat
  setsockopt_taken : ∀ fd option tv k, taken fd (setsockopt fd option tv k).2 = taken fd k
  recv_le : ∀ fd span k bytes k', recv fd span k = (.ok bytes, k') → bytes.length ≤ span
  recv_taken : ∀ fd span k, taken fd (recv fd span k).2 = taken fd k
  recv_patience : ∀ fd span k k', recv fd span k = (.error .intr, k') → patience k' < patience k
  send_taken : ∀ fd data k n k', send fd data k = (.ok n, k') →
    taken fd k' = taken fd k ++ data.take n
  send_failed : ∀ fd data k e k', send fd data k = (.error e, k') → taken fd k' = taken fd k
  send_patience : ∀ fd data k k', send fd data k = (.error .intr, k') → patience k' < patience k

/-- Data is sent until all of it was taken or a call ended the transfer. -/
def sendThrough {κ : Type} (sink : Sink κ UInt8 IoStatus) (data : Bytes) (k : κ) : IoStatus × κ :=
  match sink.transfer data k with
  | (none, k) => (.ok, k)
  | (some status, k) => (status, k)

/-- What is taken of a send is a prefix of its data, and all of it when the send is well. -/
theorem sendThrough_spec {κ : Type} {sink : Sink κ UInt8 IoStatus}
    (hended : ∀ data k status k', sink.put data k = (.ended status, k') → status ≠ .ok)
    (data : Bytes) (k : κ) :
    ∃ part, part <+: data ∧ sink.taken (sendThrough sink data k).2 = sink.taken k ++ part ∧
      ((sendThrough sink data k).1 = .ok → part = data) := by
  obtain ⟨part, hpart, htaken, hall⟩ := sink.transfer_taken data k
  refine ⟨part, hpart, ?_⟩
  unfold sendThrough
  cases htransfer : sink.transfer data k with
  | mk result k' =>
  rw [htransfer] at htaken hall
  cases result with
  | none => exact ⟨htaken, fun _ => hall rfl⟩
  | some status =>
      obtain ⟨rest, k₁, k₂, hput⟩ := Sink.exists_put_of_transfer (congrArg Prod.fst htransfer)
      exact ⟨htaken, fun hok => absurd hok (hended _ _ _ _ hput)⟩

structure Socket where
  fd : Int
  peerAddress : Bytes := []
deriving DecidableEq, Repr

def statusFromErrno : Errno → IoStatus
  | .again => .timeout
  | .wouldBlock => .timeout
  | .intr => .error
  | .other _ => .error

namespace Socket

variable {κ : Type} (calls : SocketCalls κ) (socket : Socket)

def isValid : Bool := 0 ≤ socket.fd

def setReceiveTimeout (timeout : Nat) (k : κ) : Bool × κ :=
  calls.setsockopt socket.fd .rcvTimeo (toTimeval timeout) k

def setSendTimeout (timeout : Nat) (k : κ) : Bool × κ :=
  calls.setsockopt socket.fd .sndTimeo (toTimeval timeout) k

/-- One pass of the loop in `recv_some`. -/
def recvOnce (span : Nat) (k : κ) : Option ReadResult × κ :=
  match calls.recv socket.fd span k with
  | (.error .intr, k) => (none, k)
  | (.ok [], k) => (some ⟨.closed, []⟩, k)
  | (.ok bytes, k) => (some ⟨.ok, bytes⟩, k)
  | (.error e, k) => (some ⟨statusFromErrno e, []⟩, k)

theorem recvOnce_spec (span : Nat) (k : κ) :
    calls.taken socket.fd (socket.recvOnce calls span k).2 = calls.taken socket.fd k ∧
      match socket.recvOnce calls span k with
      | (none, k') => calls.patience k' < calls.patience k
      | (some result, _) =>
        result.bytes.length ≤ span ∧ (result.status = .ok ↔ result.bytes ≠ []) := by
  have htaken := calls.recv_taken socket.fd span k
  unfold recvOnce
  cases hrecv : calls.recv socket.fd span k with
  | mk result k' =>
  rw [hrecv] at htaken
  cases result with
  | error e =>
      cases e with
      | intr => exact ⟨htaken, calls.recv_patience _ _ _ _ hrecv⟩
      | again => exact ⟨htaken, Nat.zero_le _, iff_of_false nofun fun h => h rfl⟩
      | wouldBlock => exact ⟨htaken, Nat.zero_le _, iff_of_false nofun fun h => h rfl⟩
      | other code => exact ⟨htaken, Nat.zero_le _, iff_of_false nofun fun h => h rfl⟩
  | ok bytes =>
      have hle := calls.recv_le _ _ _ _ _ hrecv
      cases bytes with
      | nil => exact ⟨htaken, Nat.zero_le _, iff_of_false nofun fun h => h rfl⟩
      | cons byte bytes => exact ⟨htaken, hle, iff_of_true rfl (List.cons_ne_nil _ _)⟩

def recvCall (span : Nat) : Call κ ReadResult where
  run := socket.recvOnce calls span
  patience := calls.patience
  patience_lt := by
    intro k k' h
    have hspec := (socket.recvOnce_spec calls span k).2
    rw [h] at hspec
    exact hspec

def recvSome (span : Nat) (k : κ) : ReadResult × κ := (socket.recvCall calls span).retry k

/-- One pass of the loop in `send_all`. -/
def sendOnce (data : Bytes) (k : κ) : Outcome IoStatus × κ :=
  match calls.send socket.fd data k with
  | (.error .intr, k) => (.again, k)
  | (.ok 0, k) => (.ended .closed, k)
  | (.error e, k) => (.ended (statusFromErrno e), k)
  | (.ok n, k) => (.took n, k)

theorem sendOnce_spec (data : Bytes) (k : κ) :
    match socket.sendOnce calls data k with
    | (.took n, k') => 0 < n ∧ calls.taken socket.fd k' = calls.taken socket.fd k ++ data.take n
    | (.again, k') =>
      calls.taken socket.fd k' = calls.taken socket.fd k ∧ calls.patience k' < calls.patience k
    | (.ended status, k') =>
      status ≠ .ok ∧ calls.taken socket.fd k' = calls.taken socket.fd k := by
  unfold sendOnce
  cases hsend : calls.send socket.fd data k with
  | mk result k' =>
  cases result with
  | error e =>
      have htaken := calls.send_failed _ _ _ _ _ hsend
      cases e with
      | intr => exact ⟨htaken, calls.send_patience _ _ _ _ hsend⟩
      | again => exact ⟨nofun, htaken⟩
      | wouldBlock => exact ⟨nofun, htaken⟩
      | other code => exact ⟨nofun, htaken⟩
  | ok n =>
      have htaken := calls.send_taken _ _ _ _ _ hsend
      cases n with
      | zero => exact ⟨nofun, htaken.trans (List.append_nil _)⟩
      | succ n => exact ⟨Nat.succ_pos n, htaken⟩

def sendSink : Sink κ UInt8 IoStatus where
  put := socket.sendOnce calls
  taken := calls.taken socket.fd
  patience := calls.patience
  took_pos := by
    intro data k n k' _ h
    have hspec := socket.sendOnce_spec calls data k
    rw [h] at hspec
    exact hspec.1
  took_taken := by
    intro data k n k' h
    have hspec := socket.sendOnce_spec calls data k
    rw [h] at hspec
    exact hspec.2
  again_taken := by
    intro data k k' h
    have hspec := socket.sendOnce_spec calls data k
    rw [h] at hspec
    exact hspec.1
  again_patience := by
    intro data k k' h
    have hspec := socket.sendOnce_spec calls data k
    rw [h] at hspec
    exact hspec.2
  ended_taken := by
    intro data k e k' h
    have hspec := socket.sendOnce_spec calls data k
    rw [h] at hspec
    exact ⟨0, hspec.2.trans (List.append_nil _).symm⟩

def sendAll (data : Bytes) (k : κ) : IoStatus × κ := sendThrough (socket.sendSink calls) data k

/-- A receive fits its span, is well when it delivers bytes, and takes nothing. -/
theorem recvSome_spec (span : Nat) (k : κ) :
    (socket.recvSome calls span k).1.bytes.length ≤ span ∧
      ((socket.recvSome calls span k).1.status = .ok ↔
        (socket.recvSome calls span k).1.bytes ≠ []) ∧
      calls.taken socket.fd (socket.recvSome calls span k).2 = calls.taken socket.fd k := by
  have hagain : ∀ k₁ k₂, calls.taken socket.fd k₁ = calls.taken socket.fd k →
      socket.recvOnce calls span k₁ = (none, k₂) →
      calls.taken socket.fd k₂ = calls.taken socket.fd k := by
    intro k₁ k₂ hk h
    have htaken := (socket.recvOnce_spec calls span k₁).1
    rw [h] at htaken
    exact htaken.trans hk
  obtain ⟨k', hk', hlast⟩ := (socket.recvCall calls span).exists_run_of_retry hagain k rfl
  obtain ⟨htaken, hresult⟩ := socket.recvOnce_spec calls span k'
  have hrun : socket.recvOnce calls span k' =
      (some (socket.recvSome calls span k).1, (socket.recvSome calls span k).2) := hlast
  rw [hrun] at htaken hresult
  exact ⟨hresult.1, hresult.2, htaken.trans hk'⟩

theorem sendSink_ended (data : Bytes) (k : κ) (status : IoStatus) (k' : κ)
    (h : (socket.sendSink calls).put data k = (.ended status, k')) : status ≠ .ok := by
  have hspec := socket.sendOnce_spec calls data k
  rw [show socket.sendOnce calls data k = (.ended status, k') from h] at hspec
  exact hspec.1

end Socket
end Net
end Garcon
