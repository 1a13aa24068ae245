import Garcon.App.WorkQueue.Monitor
import Garcon.Library.Refinement

/-!
# The accept loop and its worker pool

`server::run` with all of its threads: the accept loop, which admits connections and pushes
them, and the workers of `worker_pool`, which pop them in `run_worker`.  A pop is a section of
the queue's mutex, perhaps after a wait, and a notification behind it.

A fatal error of `accept` leaves `run` by an exception.  The destructor of the pool then closes
the queue, requests the stop of each worker, and joins them one after the other.

A connection's descriptor is open until its socket object is destroyed: that of a rejected
connection when the accept loop lets go of it, and that of a handled one when
`handle_connection` returns.
-/

namespace Garcon
namespace App

/-- Where the thread of `server::run` is, with the connection it holds. -/
inductive MainThread where
  | accepting
  | retrying
  | acquiring (socket : Socket)
  | pushing (socket : Socket)
  | notifying
  /-- The queue refused the connection. -/
  | refused (socket : Socket)
  | releasing (socket : Socket)
  /-- The rejection is reported.  The socket is still held unless the queue refused it. -/
  | rejecting (socket : Socket) (held : Bool)
  | closing
  | stopping (next : Nat)
  | joining (next : Nat)
  | returned
deriving DecidableEq, Repr

/-- Where a worker is in `run_worker`. -/
inductive WorkerStage where
  | calling
  | waiting
  | woken
  | notifying (socket : Socket)
  | handling (socket : Socket)
  | releasing (socket : Socket) (threw : Bool)
  | reporting
  | done
deriving DecidableEq, Repr

/-- A `jthread`, with whether its stop was requested. -/
structure WorkerThread where
  stage : WorkerStage
  stop : Bool := false
deriving DecidableEq, Repr

/-- A worker that waits is woken. -/
def WorkerThread.wake (worker : WorkerThread) : WorkerThread :=
  match worker.stage with
  | .waiting => { worker with stage := .woken }
  | _ => worker

/-- A stop request wakes the wait of its thread. -/
def WorkerThread.requestStop (worker : WorkerThread) : WorkerThread :=
  { worker.wake with stop := true }

structure ServerRun where
  limiter : IpConnectionLimiter
  queue : WorkQueue
  main : MainThread
  workers : List WorkerThread
  accepted : List Socket
  rejected : List Socket
  handled : List Socket
  /-- The connections whose descriptors were closed, in order. -/
  closed : List Socket

namespace ServerRun

/-- Worker `i` runs a section of `pop`. -/
def runPop (s : ServerRun) (i : Nat) (stop : Bool) : ServerRun :=
  match s.queue.popSection stop with
  | (none, queue) => { s with queue, workers := s.workers.set i ⟨.waiting, stop⟩ }
  | (some none, queue) => { s with queue, workers := s.workers.set i ⟨.done, stop⟩ }
  | (some (some socket), queue) =>
    { s with
      queue
      workers := s.workers.set i ⟨.notifying socket, stop⟩
      handled := s.handled ++ [socket] }

/-- One step of one thread. -/
inductive Step : ServerRun → ServerRun → Prop where
  | accept (s : ServerRun) (socket : Socket) (hmain : s.main = .accepting)
      (hnew : socket ∉ s.accepted) :
      Step s { s with main := .acquiring socket, accepted := s.accepted ++ [socket] }
  | acceptError (s : ServerRun) (hmain : s.main = .accepting) :
      Step s { s with main := .retrying }
  | retry (s : ServerRun) (hmain : s.main = .retrying) : Step s { s with main := .accepting }
  | fatalAcceptError (s : ServerRun) (hmain : s.main = .accepting) :
      Step s { s with main := .closing }
  | tryAcquire (s : ServerRun) (socket : Socket) (hmain : s.main = .acquiring socket) :
      Step s
        { s with
          limiter := (s.limiter.tryAcquire socket.peerAddress).2
          main := if (s.limiter.tryAcquire socket.peerAddress).1 then .pushing socket
            else .rejecting socket true }
  | tryPush (s : ServerRun) (socket : Socket) (hmain : s.main = .pushing socket) :
      Step s
        { s with
          queue := (s.queue.tryPush socket).2
          main := if (s.queue.tryPush socket).1 = .queued then .notifying else .refused socket }
  | notifyOne (s : ServerRun) (j : Nat) (stop : Bool) (hmain : s.main = .notifying)
      (hwaiter : s.workers[j]? = some ⟨.waiting, stop⟩) :
      Step s { s with main := .accepting, workers := s.workers.set j ⟨.woken, stop⟩ }
  | notifyNone (s : ServerRun) (hmain : s.main = .notifying)
      (hnone : ∀ worker ∈ s.workers, worker.stage ≠ .waiting) :
      Step s { s with main := .accepting }
  -- The parameter of `try_push` is destroyed before the limiter is told.
  | destroyRefused (s : ServerRun) (socket : Socket) (hmain : s.main = .refused socket) :
      Step s { s with main := .releasing socket, closed := s.closed ++ [socket] }
  | releaseRefused (s : ServerRun) (socket : Socket) (hmain : s.main = .releasing socket) :
      Step s
        { s with
          limiter := s.limiter.release socket.peerAddress
          main := .rejecting socket false }
  | reject (s : ServerRun) (socket : Socket) (held : Bool)
      (hmain : s.main = .rejecting socket held) :
      Step s
        { s with
          main := .accepting
          rejected := s.rejected ++ [socket]
          closed := s.closed ++ if held then [socket] else [] }
  | close (s : ServerRun) (hmain : s.main = .closing) :
      Step s
        { s with
          queue := s.queue.close
          main := .stopping 0
          workers := s.workers.map WorkerThread.wake }
  | requestStop (s : ServerRun) (i : Nat) (worker : WorkerThread) (hmain : s.main = .stopping i)
      (hworker : s.workers[i]? = some worker) :
      Step s
        { s with
          main := .stopping (i + 1)
          workers := s.workers.set i worker.requestStop }
  | stopped (s : ServerRun) (i : Nat) (hmain : s.main = .stopping i)
      (hlast : s.workers[i]? = none) : Step s { s with main := .joining 0 }
  | join (s : ServerRun) (i : Nat) (stop : Bool) (hmain : s.main = .joining i)
      (hworker : s.workers[i]? = some ⟨.done, stop⟩) : Step s { s with main := .joining (i + 1) }
  | joined (s : ServerRun) (i : Nat) (hmain : s.main = .joining i)
      (hlast : s.workers[i]? = none) : Step s { s with main := .returned }
  | pop (s : ServerRun) (i : Nat) (stop : Bool) (hworker : s.workers[i]? = some ⟨.calling, stop⟩) :
      Step s (s.runPop i stop)
  | popAgain (s : ServerRun) (i : Nat) (stop : Bool)
      (hworker : s.workers[i]? = some ⟨.woken, stop⟩) : Step s (s.runPop i stop)
  | spurious (s : ServerRun) (i : Nat) (stop : Bool)
      (hworker : s.workers[i]? = some ⟨.waiting, stop⟩) :
      Step s { s with workers := s.workers.set i ⟨.woken, stop⟩ }
  -- Nobody waits for room in the queue.
  | notifyNotFull (s : ServerRun) (i : Nat) (socket : Socket) (stop : Bool)
      (hworker : s.workers[i]? = some ⟨.notifying socket, stop⟩) :
      Step s { s with workers := s.workers.set i ⟨.handling socket, stop⟩ }
  | finish (s : ServerRun) (i : Nat) (socket : Socket) (stop threw : Bool)
      (hworker : s.workers[i]? = some ⟨.handling socket, stop⟩) :
      Step s
        { s with
          workers := s.workers.set i ⟨.releasing socket threw, stop⟩
          closed := s.closed ++ [socket] }
  | release (s : ServerRun) (i : Nat) (socket : Socket) (stop threw : Bool)
      (hworker : s.workers[i]? = some ⟨.releasing socket threw, stop⟩) :
      Step s
        { s with
          limiter := s.limiter.release socket.peerAddress
          workers := s.workers.set i ⟨if threw then .reporting else .calling, stop⟩ }
  | report (s : ServerRun) (i : Nat) (stop : Bool)
      (hworker : s.workers[i]? = some ⟨.reporting, stop⟩) :
      Step s { s with workers := s.workers.set i ⟨.calling, stop⟩ }

/-- Before the first connection.  The constructor of the pool rejects a worker count of zero. -/
structure Initial (s : ServerRun) : Prop where
  limiter : s.limiter.inflightByIp = fun _ => none
  queue : s.queue.sockets = [] ∧ s.queue.closed = false
  main : s.main = .accepting
  workers : s.workers ≠ [] ∧ ∀ worker ∈ s.workers, worker = ⟨.calling, false⟩
  history : s.accepted = [] ∧ s.rejected = [] ∧ s.handled = [] ∧ s.closed = []

def system : System ServerRun where
  Init := Initial
  Step := Step

/-- A server with one worker, and a limit of one connection for each address. -/
def oneEach : ServerRun where
  limiter := ⟨1, Nat.one_pos, fun _ => none⟩
  queue := { capacity := 1, capacity_pos := Nat.one_pos }
  main := .accepting
  workers := [⟨.calling, false⟩]
  accepted := []
  rejected := []
  handled := []
  closed := []

def firstVisitor : Socket := ⟨0, Ascii.ascii "10.0.0.1"⟩

def secondVisitor : Socket := ⟨1, Ascii.ascii "10.0.0.1"⟩

theorem initial_oneEach : Initial oneEach :=
  ⟨rfl, ⟨rfl, rfl⟩, rfl, ⟨List.cons_ne_nil _ _, by simp [oneEach]⟩, rfl, rfl, rfl, rfl⟩

/-! ## What a step does -/

/-- A pop waits, ends the worker, or takes the front connection. -/
inductive Popped (s : ServerRun) (i : Nat) (stop : Bool) : ServerRun → Prop where
  | waits (hopen : s.queue.closed = false) (hempty : s.queue.sockets = []) (hstop : stop = false) :
      Popped s i stop { s with workers := s.workers.set i ⟨.waiting, stop⟩ }
  | ends (hempty : s.queue.sockets = []) (hreason : s.queue.closed = true ∨ stop = true) :
      Popped s i stop { s with workers := s.workers.set i ⟨.done, stop⟩ }
  | takes {socket : Socket} {sockets : List Socket}
      (hfront : s.queue.sockets = socket :: sockets) :
      Popped s i stop
        { s with
          queue := { s.queue with sockets }
          workers := s.workers.set i ⟨.notifying socket, stop⟩
          handled := s.handled ++ [socket] }

theorem popped_runPop (s : ServerRun) (i : Nat) (stop : Bool) :
    Popped s i stop (s.runPop i stop) := by
  unfold runPop WorkQueue.popSection WorkQueue.popReady WorkQueue.takeFront
  cases hsockets : s.queue.sockets with
  | cons socket sockets =>
      simp only [List.isEmpty_cons, Bool.not_false, Bool.or_true, Bool.not_true,
        Bool.false_eq_true, if_false]
      exact .takes hsockets
  | nil =>
      cases hclosed : s.queue.closed with
      | true => exact .ends hsockets (Or.inl hclosed)
      | false =>
          cases stop with
          | true => exact .ends hsockets (Or.inr rfl)
          | false => exact .waits hclosed hsockets rfl

end ServerRun
end App
end Garcon
