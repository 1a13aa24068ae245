import Garcon.App.ServerRun.Invariant
import Garcon.App.WorkQueue.WakeUp

/-!
# No worker sleeps over a queued connection

The threads of a server run are threads of the queue's monitor, whatever they do between
their calls.  So while a worker waits, each queued connection has a wake-up of its own under
way.
-/

namespace Garcon
namespace App

def MainThread.thread : MainThread → Thread
  | .notifying => .notifying .notEmpty
  | _ => .idle

def WorkerThread.thread (worker : WorkerThread) : Thread :=
  match worker.stage with
  | .waiting => .waiting .pop worker.stop
  | .woken => .woken .pop worker.stop
  | .notifying _ => .notifying .notFull
  | _ => .idle

namespace ServerRun

/-- The main thread is the first of the monitor's threads. -/
def monitor (s : ServerRun) : Monitor where
  queue := s.queue
  threads := s.main.thread :: s.workers.map WorkerThread.thread

section Refines

variable {s t : ServerRun} {i : Nat} {old : WorkerThread}

theorem getElem?_monitor (hworker : s.workers[i]? = some old) :
    s.monitor.threads[i + 1]? = some old.thread := by
  show (s.main.thread :: s.workers.map WorkerThread.thread)[i + 1]? = _
  rw [List.getElem?_cons_succ, List.getElem?_map, hworker]
  rfl

theorem set_monitor (new : WorkerThread) (i : Nat) :
    s.monitor.threads.set (i + 1) new.thread =
      s.main.thread :: (s.workers.set i new).map WorkerThread.thread := by
  show (s.main.thread :: s.workers.map WorkerThread.thread).set (i + 1) new.thread = _
  rw [List.set_cons_succ, List.map_set]

theorem monitor_set_of_eq {new : WorkerThread} (hworker : s.workers[i]? = some old)
    (hsame : new.thread = old.thread) :
    monitor { s with workers := s.workers.set i new } = s.monitor := by
  unfold monitor
  dsimp only
  rw [Pool.map_set_of_eq hworker hsame]

/-- Every waiting thread waits in `pop`. -/
theorem waiting_monitor {call : Call} {stop : Bool}
    (h : Thread.waiting call stop ∈ s.monitor.threads) :
    call = .pop ∧ ⟨.waiting, stop⟩ ∈ s.workers := by
  cases List.mem_cons.mp h with
  | inl hmain =>
      unfold MainThread.thread at hmain
      split at hmain <;> cases hmain
  | inr hworkers =>
      obtain ⟨worker, hmem, hthread⟩ := List.mem_map.mp hworkers
      obtain ⟨stage, stop'⟩ := worker
      cases stage <;> cases hthread
      exact ⟨rfl, hmem⟩

theorem monitor_runPop {stop : Bool} (s : ServerRun) (i : Nat) :
    (s.runPop i stop).monitor = (s.monitor.runPop (i + 1) stop).2 := by
  have hset : ∀ new : WorkerThread,
      s.main.thread :: (s.workers.set i new).map WorkerThread.thread =
        s.monitor.threads.set (i + 1) new.thread := fun new => (set_monitor new i).symm
  unfold runPop Monitor.runPop
  rw [show s.monitor.queue = s.queue from rfl]
  cases hsection : s.queue.popSection stop with
  | mk result queue =>
  cases result with
  | none =>
      unfold monitor
      dsimp only
      rw [hset]
      rfl
  | some result =>
      cases result with
      | none =>
          unfold monitor
          dsimp only
          rw [hset]
          rfl
      | some socket =>
          unfold monitor
          dsimp only
          rw [hset]
          rfl

theorem refines_monitor : System.Refinement system Monitor.system monitor where
  init := by
    intro s h
    refine ⟨h.queue, ?_⟩
    intro thread hmem
    cases List.mem_cons.mp hmem with
    | inl hmain =>
        rw [hmain, h.main]
        rfl
    | inr hworkers =>
        obtain ⟨worker, hworker, rfl⟩ := List.mem_map.mp hworkers
        rw [h.workers.2 worker hworker]
        rfl
  step := by
    intro s t _ h
    have hmoves : ∀ main : MainThread, main.thread = s.main.thread →
        monitor { s with main := main } = s.monitor := by
      intro main hmain
      unfold monitor
      rw [hmain]
    have hfirst : s.monitor.threads[0]? = some s.main.thread := rfl
    cases h with
    | accept socket hmain hnew => exact Or.inl (hmoves _ (by rw [hmain]; rfl))
    | acceptError hmain => exact Or.inl (hmoves _ (by rw [hmain]; rfl))
    | retry hmain => exact Or.inl (hmoves _ (by rw [hmain]; rfl))
    | fatalAcceptError hmain => exact Or.inl (hmoves _ (by rw [hmain]; rfl))
    | tryAcquire socket hmain =>
        refine Or.inl (hmoves _ ?_)
        rw [hmain]
        split <;> rfl
    | tryPush socket hmain =>
        rw [hmain] at hfirst
        refine Or.inr ⟨(s.monitor.runTryPush 0 socket).1, ?_⟩
        have hstep := Monitor.Step.tryPush s.monitor 0 socket hfirst
        have hsame : (s.monitor.runTryPush 0 socket).2 = monitor
            { s with
              queue := (s.queue.tryPush socket).2
              main := if (s.queue.tryPush socket).1 = .queued then .notifying
                else .refused socket } := by
          unfold Monitor.runTryPush
          rw [show s.monitor.queue = s.queue from rfl]
          cases hpush : s.queue.tryPush socket with
          | mk result queue => cases result <;> rfl
        rw [hsame] at hstep
        exact hstep
    | notifyOne j stop hmain hwaiter =>
        rw [hmain] at hfirst
        refine Or.inr ⟨.internal, ?_⟩
        have hstep := Monitor.Step.notifyOne s.monitor 0 (j + 1) .pop stop hfirst
          (getElem?_monitor hwaiter)
        unfold monitor at hstep ⊢
        dsimp only at hstep ⊢
        rw [List.set_cons_zero, List.set_cons_succ] at hstep
        rw [List.map_set]
        exact hstep
    | notifyNone hmain hnone =>
        rw [hmain] at hfirst
        refine Or.inr ⟨.internal, ?_⟩
        refine Monitor.Step.notifyNone s.monitor 0 .notEmpty hfirst ?_
        intro call stop hmem
        exact absurd rfl (hnone _ (waiting_monitor hmem).2)
    | destroyRefused socket hmain => exact Or.inl (hmoves _ (by rw [hmain]; rfl))
    | releaseRefused socket hmain => exact Or.inl (hmoves _ (by rw [hmain]; rfl))
    | reject socket held hmain => exact Or.inl (hmoves _ (by rw [hmain]; rfl))
    | close hmain =>
        rw [hmain] at hfirst
        refine Or.inr ⟨.internal, ?_⟩
        have hstep := Monitor.Step.close s.monitor 0 hfirst
        have hwake : Thread.wake ∘ WorkerThread.thread =
            WorkerThread.thread ∘ WorkerThread.wake := by
          funext worker
          obtain ⟨stage, stop⟩ := worker
          cases stage <;> rfl
        unfold monitor at hstep ⊢
        dsimp only at hstep ⊢
        rw [List.map_cons, List.map_map, hwake, ← List.map_map] at hstep
        rw [hmain] at hstep ⊢
        exact hstep
    | requestStop i worker hmain hworker =>
        have hmoved := hmoves (.stopping (i + 1)) (by rw [hmain]; rfl)
        rw [← hmoved]
        obtain ⟨stage, stop⟩ := worker
        have hthread := getElem?_monitor (s := { s with main := .stopping (i + 1) }) hworker
        have hset := set_monitor (s := { s with main := .stopping (i + 1) })
          (WorkerThread.requestStop ⟨stage, stop⟩) i
        have hother : (WorkerThread.requestStop ⟨stage, stop⟩).thread =
            WorkerThread.thread ⟨stage, stop⟩ →
            monitor { s with
              main := .stopping (i + 1)
              workers := s.workers.set i (WorkerThread.requestStop ⟨stage, stop⟩) } =
              monitor { s with main := .stopping (i + 1) } :=
          monitor_set_of_eq (s := { s with main := .stopping (i + 1) }) hworker
        have hwoken : WorkerThread.thread ⟨stage, stop⟩ = .waiting .pop stop ∨
            WorkerThread.thread ⟨stage, stop⟩ = .woken .pop stop →
            (WorkerThread.requestStop ⟨stage, stop⟩).thread = .woken .pop true →
            Monitor.Step (monitor { s with main := .stopping (i + 1) }) .internal
              (monitor { s with
                main := .stopping (i + 1)
                workers := s.workers.set i (WorkerThread.requestStop ⟨stage, stop⟩) }) := by
          intro hwas hnew
          have hstep := Monitor.Step.requestStop (monitor { s with main := .stopping (i + 1) })
            (i + 1) .pop stop (hwas.imp (fun h => h ▸ hthread) fun h => h ▸ hthread)
          rw [← hnew, hset] at hstep
          exact hstep
        cases stage with
        | waiting => exact Or.inr ⟨_, hwoken (Or.inl rfl) rfl⟩
        | woken => exact Or.inr ⟨_, hwoken (Or.inr rfl) rfl⟩
        | calling => exact Or.inl (hother rfl)
        | notifying socket => exact Or.inl (hother rfl)
        | handling socket => exact Or.inl (hother rfl)
        | releasing socket threw => exact Or.inl (hother rfl)
        | reporting => exact Or.inl (hother rfl)
        | done => exact Or.inl (hother rfl)
    | stopped i hmain hlast => exact Or.inl (hmoves _ (by rw [hmain]; rfl))
    | join i stop hmain hworker => exact Or.inl (hmoves _ (by rw [hmain]; rfl))
    | joined i hmain hlast => exact Or.inl (hmoves _ (by rw [hmain]; rfl))
    | pop i stop hworker =>
        refine Or.inr ⟨(s.monitor.runPop (i + 1) stop).1, ?_⟩
        rw [monitor_runPop]
        exact Monitor.Step.pop s.monitor (i + 1) stop (getElem?_monitor hworker)
    | popAgain i stop hworker =>
        refine Or.inr ⟨(s.monitor.runPop (i + 1) stop).1, ?_⟩
        rw [monitor_runPop]
        exact Monitor.Step.popAgain s.monitor (i + 1) stop (getElem?_monitor hworker)
    | spurious i stop hworker =>
        refine Or.inr ⟨.internal, ?_⟩
        have hstep := Monitor.Step.spurious s.monitor (i + 1) .pop stop (getElem?_monitor hworker)
        rw [show Thread.woken .pop stop = WorkerThread.thread ⟨.woken, stop⟩ from rfl,
          set_monitor] at hstep
        exact hstep
    | notifyNotFull i socket stop hworker =>
        refine Or.inr ⟨.internal, ?_⟩
        have hstep := Monitor.Step.notifyNone s.monitor (i + 1) .notFull
          (getElem?_monitor hworker) fun call stop' hmem => by
            rw [(waiting_monitor hmem).1]
            exact nofun
        rw [show Thread.idle = WorkerThread.thread ⟨.handling socket, stop⟩ from rfl,
          set_monitor] at hstep
        exact hstep
    | finish i socket stop threw hworker => exact Or.inl (monitor_set_of_eq hworker rfl)
    | release i socket stop threw hworker =>
        refine Or.inl ?_
        exact monitor_set_of_eq (s := { s with limiter := s.limiter.release socket.peerAddress })
          hworker (by cases threw <;> rfl)
    | report i stop hworker => exact Or.inl (monitor_set_of_eq hworker rfl)

end Refines

/-- The wake-ups under way for those who wait for a connection. -/
def wakeUps (s : ServerRun) : Nat :=
  (if s.main = .notifying then 1 else 0) + s.workers.countP (·.stage = .woken)

theorem countP_isAlert_monitor (s : ServerRun) :
    s.monitor.threads.countP (Monitor.isAlert .notEmpty) = s.wakeUps := by
  have hworkers : (s.workers.map WorkerThread.thread).countP (Monitor.isAlert .notEmpty) =
      s.workers.countP (·.stage = .woken) := by
    rw [List.countP_map]
    congr 1
    funext worker
    obtain ⟨stage, stop⟩ := worker
    cases stage <;> rfl
  show (s.main.thread :: s.workers.map WorkerThread.thread).countP _ = _
  rw [List.countP_cons, hworkers, wakeUps, Nat.add_comm]
  congr 1
  cases s.main <;> rfl

/-- In every interleaving, while a worker waits the queue is open and has no more connections
than there are wake-ups under way. -/
theorem no_worker_oversleeps (s : ServerRun) (h : system.Reachable s)
    (hwaiting : ∃ worker ∈ s.workers, worker.stage = .waiting) :
    s.queue.closed = false ∧ s.queue.sockets.length ≤ s.wakeUps := by
  have hinv : s.monitor.Inv := (refines_monitor.reachable h).invariant
    (fun _ => Monitor.inv_initial) fun _ _ hinv ⟨_, hstep⟩ => Monitor.inv_step hinv hstep
  obtain ⟨⟨stage, stop⟩, hmem, hstage⟩ := hwaiting
  have hstage' : stage = .waiting := hstage
  subst hstage'
  have hthread : Thread.waiting .pop stop ∈ s.monitor.threads :=
    List.mem_cons_of_mem _ (List.mem_map.mpr ⟨_, hmem, rfl⟩)
  obtain ⟨hopen, -, hwork⟩ := hinv .pop stop hthread
  rw [← countP_isAlert_monitor]
  exact ⟨hopen, hwork⟩

/-- A worker waits, a connection is queued behind its back, and is about to be announced. -/
theorem no_worker_oversleeps_oneEach : ∃ s, system.Reachable s ∧
    ⟨.waiting, false⟩ ∈ s.workers ∧ s.queue.sockets = [firstVisitor] ∧
    s.queue.sockets.length ≤ s.wakeUps := by
  have h₀ : system.Reachable oneEach := .init initial_oneEach
  have h₁ := h₀.step (Step.pop oneEach 0 false rfl)
  have h₂ := h₁.step (Step.accept _ firstVisitor rfl List.not_mem_nil)
  have h₃ := h₂.step (Step.tryAcquire _ firstVisitor rfl)
  have h₄ := h₃.step (Step.tryPush _ firstVisitor rfl)
  have hmem : ⟨.waiting, false⟩ ∈ [(⟨.waiting, false⟩ : WorkerThread)] := List.mem_cons_self
  exact ⟨_, h₄, hmem, rfl, (no_worker_oversleeps _ h₄ ⟨_, hmem, rfl⟩).2⟩

end ServerRun
end App
end Garcon
