import Garcon.Library.Ascii
import Garcon.Library.System
import Garcon.Library.Tally

/-!
# Admission of connections

The limiter and the queue an accepted connection passes before a worker serves it, and
the server as the interleaving of its accept loop and its workers.  Each limiter and
queue operation is one step, and so is everything a thread does between two of them.
-/

namespace Garcon
namespace App

/-- An accepted connection.  The address is empty when the peer has none. -/
structure Socket where
  id : Nat
  peerAddress : Bytes
deriving DecidableEq, Repr

/-! ## The limiter -/

/-- The constructor rejects a limit of zero. -/
structure IpConnectionLimiter where
  perIpLimit : Nat
  perIpLimit_pos : 0 < perIpLimit
  inflightByIp : Tally.Map Bytes

namespace IpConnectionLimiter

/-- `operator[]` makes an entry of zero when there is none. -/
def tryAcquire (l : IpConnectionLimiter) (peerAddress : Bytes) : Bool × IpConnectionLimiter :=
  if peerAddress = [] then (true, l)
  else
    let count := (l.inflightByIp peerAddress).getD 0
    let l := { l with inflightByIp := l.inflightByIp.insert peerAddress count }
    if l.perIpLimit ≤ count then (false, l)
    else (true, { l with inflightByIp := l.inflightByIp.insert peerAddress (count + 1) })

def release (l : IpConnectionLimiter) (peerAddress : Bytes) : IpConnectionLimiter :=
  if peerAddress = [] then l
  else
    match l.inflightByIp peerAddress with
    | none => l
    | some count =>
      if 1 < count then
        { l with inflightByIp := l.inflightByIp.insert peerAddress (count - 1) }
      else { l with inflightByIp := l.inflightByIp.erase peerAddress }

/-- The limiter's map counts these connections by their address. -/
def Counts (l : IpConnectionLimiter) (sockets : List Socket) : Prop :=
  l.inflightByIp = Tally.of ((sockets.map (·.peerAddress)).filter (· ≠ []))

/-- The number of connections from an address. -/
def countFrom (address : Bytes) (sockets : List Socket) : Nat :=
  sockets.countP (·.peerAddress = address)

variable {l : IpConnectionLimiter} {sockets : List Socket}

theorem count_addresses {address : Bytes} (h : address ≠ []) (sockets : List Socket) :
    ((sockets.map (·.peerAddress)).filter (· ≠ [])).count address =
      countFrom address sockets := by
  rw [List.count_filter (by simpa using h), List.count, List.countP_map, countFrom]
  congr 1
  funext socket
  exact beq_eq_decide _ _

theorem Counts.perm {sockets' : List Socket} (hc : l.Counts sockets)
    (h : sockets.Perm sockets') : l.Counts sockets' := by
  unfold Counts at hc ⊢
  rw [hc]
  exact Tally.of_perm ((h.map _).filter _)

theorem Counts.getD (hc : l.Counts sockets) {address : Bytes} (h : address ≠ []) :
    (l.inflightByIp address).getD 0 = countFrom address sockets := by
  rw [hc, Tally.getD_of, count_addresses h]

theorem counts_cons_nil {socket : Socket} (hc : l.Counts sockets) (h : socket.peerAddress = []) :
    l.Counts (socket :: sockets) := by
  unfold Counts at hc ⊢
  rw [hc, List.map_cons, List.filter_cons_of_neg (by simpa using h)]

theorem addresses_cons {socket : Socket} (h : socket.peerAddress ≠ []) :
    (((socket :: sockets).map (·.peerAddress)).filter (· ≠ [])) =
      socket.peerAddress :: ((sockets.map (·.peerAddress)).filter (· ≠ [])) := by
  rw [List.map_cons, List.filter_cons_of_pos (by simpa using h)]

/-- At the limit nothing changes, not even the entry that was looked up. -/
theorem tryAcquire_of_full {address : Bytes} (hc : l.Counts sockets) (h : address ≠ [])
    (hfull : l.perIpLimit ≤ countFrom address sockets) : l.tryAcquire address = (false, l) := by
  have hpos := l.perIpLimit_pos
  have hcount := count_addresses h sockets
  have hne : ((sockets.map (·.peerAddress)).filter (· ≠ [])).count address ≠ 0 := by omega
  have hentry : l.inflightByIp address = some (countFrom address sockets) := by
    rw [hc, Tally.of_eq_some hne, hcount]
  simp only [tryAcquire, if_neg h, hentry, Option.getD_some, if_pos hfull,
    Tally.Map.insert_self hentry]

/-- Below the limit the connection is counted. -/
theorem tryAcquire_of_room {socket : Socket} (hc : l.Counts sockets)
    (hroom : socket.peerAddress ≠ [] →
      countFrom socket.peerAddress sockets < l.perIpLimit) :
    ∃ l', l.tryAcquire socket.peerAddress = (true, l') ∧ l'.perIpLimit = l.perIpLimit ∧
      l'.Counts (socket :: sockets) := by
  by_cases h : socket.peerAddress = []
  · exact ⟨l, by rw [tryAcquire, if_pos h], rfl, counts_cons_nil hc h⟩
  · have hcount := hc.getD h
    have hbelow : ¬ l.perIpLimit ≤ countFrom socket.peerAddress sockets :=
      Nat.not_le.mpr (hroom h)
    let counted := l.inflightByIp.insert socket.peerAddress
      (countFrom socket.peerAddress sockets + 1)
    refine ⟨{ l with inflightByIp := counted }, ?_, rfl, ?_⟩
    · simp only [tryAcquire, if_neg h, hcount, if_neg hbelow, Tally.Map.insert_insert]
      rfl
    · show counted = Tally.of _
      rw [addresses_cons h]
      show l.inflightByIp.insert _ _ = _
      rw [hc, ← count_addresses h, Tally.insert_of]

/-- A release takes one of the counted connections out. -/
theorem release_counts {socket : Socket} (hc : l.Counts (socket :: sockets)) :
    (l.release socket.peerAddress).Counts sockets ∧
      (l.release socket.peerAddress).perIpLimit = l.perIpLimit := by
  by_cases h : socket.peerAddress = []
  · rw [release, if_pos h]
    refine ⟨?_, rfl⟩
    unfold Counts at hc ⊢
    rw [hc, List.map_cons, List.filter_cons_of_neg (by simpa using h)]
  · unfold Counts at hc
    rw [addresses_cons h] at hc
    have hentry : l.inflightByIp socket.peerAddress =
        some (countFrom socket.peerAddress sockets + 1) := by
      rw [hc, Tally.of_eq_some (by simp), List.count_cons_self, count_addresses h]
    by_cases hone : countFrom socket.peerAddress sockets = 0
    · have hlast : ¬ 1 < countFrom socket.peerAddress sockets + 1 := by omega
      simp only [release, if_neg h, hentry, if_neg hlast, and_true]
      show l.inflightByIp.erase _ = _
      rw [hc, Tally.erase_of]
      rw [count_addresses h, hone]
    · have hmore : 1 < countFrom socket.peerAddress sockets + 1 := by omega
      simp only [release, if_neg h, hentry, if_pos hmore, and_true, Nat.add_sub_cancel]
      show l.inflightByIp.insert _ _ = _
      rw [hc, ← count_addresses h, Tally.insert_of_cons]
      rw [count_addresses h]
      exact hone

end IpConnectionLimiter

/-! ## The queue -/

inductive QueuePushResult where
  | queued
  | full
  | closed
deriving DecidableEq, Repr

/-- The constructor rejects a capacity of zero. -/
structure WorkQueue where
  capacity : Nat
  capacity_pos : 0 < capacity
  sockets : List Socket := []
  closed : Bool := false

namespace WorkQueue

def tryPush (q : WorkQueue) (socket : Socket) : QueuePushResult × WorkQueue :=
  if q.closed || q.capacity ≤ q.sockets.length then
    (if q.closed then .closed else .full, q)
  else (.queued, { q with sockets := q.sockets ++ [socket] })

/-- The end of `pop` once its wait is over: the front socket, if there is one. -/
def takeFront (q : WorkQueue) : Option Socket × WorkQueue :=
  match q.sockets with
  | [] => (none, q)
  | socket :: sockets => (some socket, { q with sockets := sockets })

def close (q : WorkQueue) : WorkQueue := { q with closed := true }

/-- A push adds the socket at the back of a queue with room, or changes nothing. -/
theorem tryPush_cases (q : WorkQueue) (socket : Socket) :
    ((q.tryPush socket).1 = .queued ∧ q.sockets.length < q.capacity ∧
      (q.tryPush socket).2 = { q with sockets := q.sockets ++ [socket] }) ∨
    ((q.tryPush socket).1 ≠ .queued ∧ (q.tryPush socket).2 = q) := by
  unfold tryPush
  by_cases h : (q.closed || decide (q.capacity ≤ q.sockets.length)) = true
  · rw [if_pos h]
    refine Or.inr ⟨?_, rfl⟩
    cases q.closed <;> simp
  · rw [if_neg h]
    simp only [Bool.or_eq_true, decide_eq_true_eq, not_or, Nat.not_le] at h
    exact Or.inl ⟨rfl, h.2, rfl⟩

end WorkQueue
/-! ## The server -/

/-- Where the accept loop is, with the connection it holds. -/
inductive AcceptLoop where
  | idle
  | accepted (socket : Socket)
  | acquired (socket : Socket)
  | notQueued (socket : Socket)
  | rejecting (socket : Socket)
  | stopped
deriving DecidableEq, Repr

/-- Where a worker is.  A handler may end with an exception. -/
inductive Worker where
  | popping
  | handling (socket : Socket)
  | releasing (socket : Socket) (threw : Bool)
  | reporting
  | done
deriving DecidableEq, Repr

/-- The server's shared state, where its threads are, and what has become of the
connections so far. -/
structure Server where
  limiter : IpConnectionLimiter
  queue : WorkQueue
  loop : AcceptLoop
  workers : List Worker
  accepted : List Socket
  rejected : List Socket
  handled : List Socket

namespace Server

/-- One step of one thread.  A worker is singled out by the workers around it. -/
inductive Step : Server → Server → Prop where
  | accept (s : Server) (socket : Socket) (hloop : s.loop = .idle)
      (hnew : socket ∉ s.accepted) :
      Step s { s with loop := .accepted socket, accepted := s.accepted ++ [socket] }
  | fatalAcceptError (s : Server) (hloop : s.loop = .idle) :
      Step s { s with loop := .stopped }
  | tryAcquire (s : Server) (socket : Socket) (hloop : s.loop = .accepted socket) :
      Step s
        { s with
          limiter := (s.limiter.tryAcquire socket.peerAddress).2
          loop := if (s.limiter.tryAcquire socket.peerAddress).1 then .acquired socket
            else .rejecting socket }
  | tryPush (s : Server) (socket : Socket) (hloop : s.loop = .acquired socket) :
      Step s
        { s with
          queue := (s.queue.tryPush socket).2
          loop := if (s.queue.tryPush socket).1 = .queued then .idle else .notQueued socket }
  | releaseNotQueued (s : Server) (socket : Socket) (hloop : s.loop = .notQueued socket) :
      Step s
        { s with
          limiter := s.limiter.release socket.peerAddress
          loop := .rejecting socket }
  | reject (s : Server) (socket : Socket) (hloop : s.loop = .rejecting socket) :
      Step s { s with loop := .idle, rejected := s.rejected ++ [socket] }
  | pop (s : Server) (before after : List Worker) (socket : Socket)
      (hworkers : s.workers = before ++ .popping :: after)
      (hfront : s.queue.takeFront.1 = some socket) :
      Step s
        { s with
          queue := s.queue.takeFront.2
          workers := before ++ .handling socket :: after
          handled := s.handled ++ [socket] }
  -- A worker's stop is requested only after the queue was closed.
  | leave (s : Server) (before after : List Worker)
      (hworkers : s.workers = before ++ .popping :: after)
      (hclosed : s.queue.closed = true) (hempty : s.queue.takeFront.1 = none) :
      Step s { s with workers := before ++ .done :: after }
  | finish (s : Server) (before after : List Worker) (socket : Socket) (threw : Bool)
      (hworkers : s.workers = before ++ .handling socket :: after) :
      Step s { s with workers := before ++ .releasing socket threw :: after }
  | release (s : Server) (before after : List Worker) (socket : Socket) (threw : Bool)
      (hworkers : s.workers = before ++ .releasing socket threw :: after) :
      Step s
        { s with
          limiter := s.limiter.release socket.peerAddress
          workers := before ++ (if threw then .reporting else .popping) :: after }
  | report (s : Server) (before after : List Worker)
      (hworkers : s.workers = before ++ .reporting :: after) :
      Step s { s with workers := before ++ .popping :: after }
  | close (s : Server) : Step s { s with queue := s.queue.close }

/-- A server before its first connection: an empty limiter and queue, and workers that
wait for work. -/
structure Initial (s : Server) : Prop where
  limiter : s.limiter.inflightByIp = fun _ => none
  queue : s.queue.sockets = [] ∧ s.queue.closed = false
  loop : s.loop = .idle
  workers : ∀ worker ∈ s.workers, worker = .popping
  history : s.accepted = [] ∧ s.rejected = [] ∧ s.handled = []

def system : System Server where
  Init := Initial
  Step := Step

end Server
end App
end Garcon
