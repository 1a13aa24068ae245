import Garcon.App.Admission
import Garcon.Library.Pool

/-!
# The work queue as a monitor

`push`, `try_push`, `pop` and `close` of any number of threads interleave between their
mutex sections.  A section that finds its predicate false waits on a condition variable; a
section that changes the queue notifies after it has unlocked.  A thread that is woken, by
a notification, by a stop request or for no reason, looks at the predicate again in a
section of its own.
-/

namespace Garcon
namespace App

namespace WorkQueue

/-- The predicates that the two waits are for. -/
def pushReady (q : WorkQueue) : Bool := q.closed || decide (q.sockets.length < q.capacity)

def popReady (q : WorkQueue) : Bool := q.closed || !q.sockets.isEmpty

/-- A mutex section of `push`, on entry or after a wait.  Without a result it waits. -/
def pushSection (q : WorkQueue) (socket : Socket) (stop : Bool) :
    Option QueuePushResult × WorkQueue :=
  if !q.pushReady then
    -- The wait returns the predicate when a stop is requested.
    if stop then (some .closed, q) else (none, q)
  else if q.closed then (some .closed, q)
  else (some .queued, { q with sockets := q.sockets ++ [socket] })

/-- A mutex section of `pop`, on entry or after a wait.  Without a result it waits. -/
def popSection (q : WorkQueue) (stop : Bool) : Option (Option Socket) × WorkQueue :=
  if !q.popReady then
    if stop then (some none, q) else (none, q)
  else (some q.takeFront.1, q.takeFront.2)

end WorkQueue

/-- A call that may wait. -/
inductive Call where
  | push (socket : Socket)
  | pop
deriving DecidableEq, Repr

/-- The condition variables. -/
inductive Condition where
  | notEmpty
  | notFull
deriving DecidableEq, Repr

/-- What a call waits for. -/
def Call.condition : Call → Condition
  | .push _ => .notFull
  | .pop => .notEmpty

/-- Where a thread is.  A waiting or woken thread knows whether its stop was requested. -/
inductive Thread where
  | idle
  | waiting (call : Call) (stop : Bool)
  | woken (call : Call) (stop : Bool)
  | notifying (condition : Condition)
deriving DecidableEq, Repr

def Thread.wake : Thread → Thread
  | .waiting call stop => .woken call stop
  | thread => thread

/-- What the return of a call reports. -/
inductive Label where
  | internal
  | pushed (socket : Socket) (result : QueuePushResult)
  | popped (result : Option Socket) (stop : Bool)
deriving DecidableEq, Repr

structure Monitor where
  queue : WorkQueue
  threads : List Thread

namespace Monitor

/-- Thread `i` runs a section of `push`. -/
def runPush (s : Monitor) (i : Nat) (socket : Socket) (stop : Bool) : Label × Monitor :=
  match s.queue.pushSection socket stop with
  | (none, queue) =>
    (.internal, { queue, threads := s.threads.set i (.waiting (.push socket) stop) })
  | (some .queued, queue) =>
    (.pushed socket .queued, { queue, threads := s.threads.set i (.notifying .notEmpty) })
  | (some result, queue) =>
    (.pushed socket result, { queue, threads := s.threads.set i .idle })

/-- Thread `i` runs `try_push` up to its notification. -/
def runTryPush (s : Monitor) (i : Nat) (socket : Socket) : Label × Monitor :=
  match s.queue.tryPush socket with
  | (.queued, queue) =>
    (.pushed socket .queued, { queue, threads := s.threads.set i (.notifying .notEmpty) })
  | (result, queue) =>
    (.pushed socket result, { queue, threads := s.threads.set i .idle })

/-- Thread `i` runs a section of `pop`. -/
def runPop (s : Monitor) (i : Nat) (stop : Bool) : Label × Monitor :=
  match s.queue.popSection stop with
  | (none, queue) =>
    (.internal, { queue, threads := s.threads.set i (.waiting .pop stop) })
  | (some none, queue) =>
    (.popped none stop, { queue, threads := s.threads.set i .idle })
  | (some (some socket), queue) =>
    (.popped (some socket) stop,
      { queue, threads := s.threads.set i (.notifying .notFull) })

/-- One step of one thread, or of whoever requests its stop. -/
inductive Step : Monitor → Label → Monitor → Prop where
  | push (s : Monitor) (i : Nat) (socket : Socket) (stop : Bool)
      (hthread : s.threads[i]? = some .idle) :
      Step s (s.runPush i socket stop).1 (s.runPush i socket stop).2
  | pushAgain (s : Monitor) (i : Nat) (socket : Socket) (stop : Bool)
      (hthread : s.threads[i]? = some (.woken (.push socket) stop)) :
      Step s (s.runPush i socket stop).1 (s.runPush i socket stop).2
  | tryPush (s : Monitor) (i : Nat) (socket : Socket)
      (hthread : s.threads[i]? = some .idle) :
      Step s (s.runTryPush i socket).1 (s.runTryPush i socket).2
  | pop (s : Monitor) (i : Nat) (stop : Bool) (hthread : s.threads[i]? = some .idle) :
      Step s (s.runPop i stop).1 (s.runPop i stop).2
  | popAgain (s : Monitor) (i : Nat) (stop : Bool)
      (hthread : s.threads[i]? = some (.woken .pop stop)) :
      Step s (s.runPop i stop).1 (s.runPop i stop).2
  -- A notification wakes any one of the threads that wait, if there are some.
  | notifyOne (s : Monitor) (i j : Nat) (call : Call) (stop : Bool)
      (hthread : s.threads[i]? = some (.notifying call.condition))
      (hwaiter : s.threads[j]? = some (.waiting call stop)) :
      Step s .internal
        { s with threads := (s.threads.set i .idle).set j (.woken call stop) }
  | notifyNone (s : Monitor) (i : Nat) (condition : Condition)
      (hthread : s.threads[i]? = some (.notifying condition))
      (hnone : ∀ call stop, .waiting call stop ∈ s.threads → call.condition ≠ condition) :
      Step s .internal { s with threads := s.threads.set i .idle }
  | close (s : Monitor) (i : Nat) (hthread : s.threads[i]? = some .idle) :
      Step s .internal
        { queue := s.queue.close, threads := s.threads.map Thread.wake }
  | requestStop (s : Monitor) (i : Nat) (call : Call) (stop : Bool)
      (hthread : s.threads[i]? = some (.waiting call stop) ∨
        s.threads[i]? = some (.woken call stop)) :
      Step s .internal { s with threads := s.threads.set i (.woken call true) }
  | spurious (s : Monitor) (i : Nat) (call : Call) (stop : Bool)
      (hthread : s.threads[i]? = some (.waiting call stop)) :
      Step s .internal { s with threads := s.threads.set i (.woken call stop) }

/-- An open empty queue, before any thread has called. -/
structure Initial (s : Monitor) : Prop where
  queue : s.queue.sockets = [] ∧ s.queue.closed = false
  threads : ∀ thread ∈ s.threads, thread = .idle

def system : System Monitor where
  Init := Initial
  Step := fun s t => ∃ label, Step s label t

/-- A run, with what its calls report. -/
inductive Run : Monitor → List Label → Monitor → Prop where
  | done (s : Monitor) : Run s [] s
  | step {s t u : Monitor} {label : Label} {labels : List Label} (h : Step s label t)
      (hrest : Run t labels u) : Run s (label :: labels) u

/-! ## What a section does -/

/-- How much there is to do for those who wait on a condition variable. -/
def work (s : Monitor) : Condition → Nat
  | .notEmpty => s.queue.sockets.length
  | .notFull => s.queue.capacity - s.queue.sockets.length

/-- A section of a call that waits on this condition variable, run by thread `i`. -/
inductive Section (s : Monitor) (i : Nat) : Condition → Label → Monitor → Prop where
  | waits {call : Call} (hopen : s.queue.closed = false) (hnothing : s.work call.condition = 0) :
      Section s i call.condition .internal
        { s with threads := s.threads.set i (.waiting call false) }
  | queued {socket : Socket} (hopen : s.queue.closed = false)
      (hroom : s.queue.sockets.length < s.queue.capacity) :
      Section s i .notFull (.pushed socket .queued)
        { queue := { s.queue with sockets := s.queue.sockets ++ [socket] }
          threads := s.threads.set i (.notifying .notEmpty) }
  | refused {socket : Socket} {result : QueuePushResult} (hresult : result ≠ .queued)
      (hreason : s.queue.closed = true ∨ s.queue.capacity ≤ s.queue.sockets.length)
      (hfull : result = .full →
        s.queue.closed = false ∧ s.queue.capacity ≤ s.queue.sockets.length) :
      Section s i .notFull (.pushed socket result)
        { s with threads := s.threads.set i .idle }
  | delivered {socket : Socket} {sockets : List Socket} {stop : Bool}
      (hfront : s.queue.sockets = socket :: sockets) :
      Section s i .notEmpty (.popped (some socket) stop)
        { queue := { s.queue with sockets }
          threads := s.threads.set i (.notifying .notFull) }
  | drained {stop : Bool} (hempty : s.queue.sockets = [])
      (hreason : s.queue.closed = true ∨ stop = true) :
      Section s i .notEmpty (.popped none stop) { s with threads := s.threads.set i .idle }

theorem section_runPush (s : Monitor) (i : Nat) (socket : Socket) (stop : Bool) :
    Section s i .notFull (s.runPush i socket stop).1 (s.runPush i socket stop).2 := by
  obtain ⟨⟨capacity, hpos, sockets, closed⟩, threads⟩ := s
  unfold runPush WorkQueue.pushSection WorkQueue.pushReady
  cases closed with
  | true => exact .refused nofun (Or.inl rfl) nofun
  | false =>
      by_cases hroom : sockets.length < capacity
      · simp only [Bool.false_or, hroom, decide_true, Bool.not_true, Bool.false_eq_true, if_false]
        exact .queued rfl hroom
      · have hfull := Nat.not_lt.mp hroom
        simp only [Bool.false_or, hroom, decide_false, Bool.not_false, if_true]
        cases stop with
        | true => exact .refused nofun (Or.inr hfull) nofun
        | false =>
            have hnothing : capacity - sockets.length = 0 := Nat.sub_eq_zero_of_le hfull
            exact @Section.waits _ _ (.push socket) rfl hnothing

theorem section_runTryPush (s : Monitor) (i : Nat) (socket : Socket) :
    Section s i .notFull (s.runTryPush i socket).1 (s.runTryPush i socket).2 := by
  obtain ⟨⟨capacity, hpos, sockets, closed⟩, threads⟩ := s
  unfold runTryPush WorkQueue.tryPush
  cases closed with
  | true => exact .refused nofun (Or.inl rfl) nofun
  | false =>
      by_cases hfull : capacity ≤ sockets.length
      · simp only [Bool.false_or, hfull, decide_true, if_true, Bool.false_eq_true, if_false]
        exact .refused nofun (Or.inr hfull) fun _ => ⟨rfl, hfull⟩
      · simp only [Bool.false_or, hfull, decide_false, Bool.false_eq_true, if_false]
        exact .queued rfl (Nat.not_le.mp hfull)

theorem section_runPop (s : Monitor) (i : Nat) (stop : Bool) :
    Section s i .notEmpty (s.runPop i stop).1 (s.runPop i stop).2 := by
  unfold runPop WorkQueue.popSection WorkQueue.popReady WorkQueue.takeFront
  cases hsockets : s.queue.sockets with
  | cons socket sockets =>
      simp only [List.isEmpty_cons, Bool.not_false, Bool.or_true, Bool.not_true,
        Bool.false_eq_true, if_false]
      exact .delivered hsockets
  | nil =>
      cases hclosed : s.queue.closed with
      | true => exact .drained hsockets (Or.inl hclosed)
      | false =>
          cases stop with
          | true => exact .drained hsockets (Or.inr rfl)
          | false =>
              have hnothing : s.work Call.pop.condition = 0 := by
                show s.queue.sockets.length = 0
                rw [hsockets]
                rfl
              exact .waits hclosed hnothing

/-- A thread that may run a section of a call that waits on this condition variable. -/
def Calls (condition : Condition) (thread : Thread) : Prop :=
  thread = .idle ∨ ∃ call stop, thread = .woken call stop ∧ call.condition = condition

/-- A step is a section of a call, or leaves the sockets alone and reports nothing. -/
theorem step_cases {s t : Monitor} {label : Label} (h : Step s label t) :
    (∃ i condition thread, s.threads[i]? = some thread ∧ Calls condition thread ∧
      Section s i condition label t) ∨
    (label = .internal ∧ (t.queue = s.queue ∨ t.queue = s.queue.close)) := by
  cases h with
  | push i socket stop hthread =>
      exact Or.inl ⟨i, _, _, hthread, Or.inl rfl, section_runPush s i socket stop⟩
  | pushAgain i socket stop hthread =>
      exact Or.inl ⟨i, _, _, hthread, Or.inr ⟨_, _, rfl, rfl⟩, section_runPush s i socket stop⟩
  | tryPush i socket hthread =>
      exact Or.inl ⟨i, _, _, hthread, Or.inl rfl, section_runTryPush s i socket⟩
  | pop i stop hthread =>
      exact Or.inl ⟨i, _, _, hthread, Or.inl rfl, section_runPop s i stop⟩
  | popAgain i stop hthread =>
      exact Or.inl ⟨i, _, _, hthread, Or.inr ⟨_, _, rfl, rfl⟩, section_runPop s i stop⟩
  | notifyOne i j call stop hthread hwaiter => exact Or.inr ⟨rfl, Or.inl rfl⟩
  | notifyNone i condition hthread hnone => exact Or.inr ⟨rfl, Or.inl rfl⟩
  | close i hthread => exact Or.inr ⟨rfl, Or.inr rfl⟩
  | requestStop i call stop hthread => exact Or.inr ⟨rfl, Or.inl rfl⟩
  | spurious i call stop hthread => exact Or.inr ⟨rfl, Or.inl rfl⟩

/-- A producer and a consumer, and a queue with room for one socket. -/
def pair : Monitor where
  queue := { capacity := 1, capacity_pos := Nat.one_pos }
  threads := [.idle, .idle]

theorem initial_pair : Initial pair := ⟨⟨rfl, rfl⟩, by simp [pair]⟩

end Monitor
end App
end Garcon
