import Garcon.App.Accounting
import Garcon.App.ServerRun

/-!
# The threads of a server run, and the server they make up

A stop is requested only behind the closing of the queue, a worker waits only while the queue
is open, and a worker that is done has left the queue closed and empty.  With that every step
of the threads is a step of the abstract server, or none, so what holds of its reachable
states holds of a run with all of its sections, waits and notifications.
-/

namespace Garcon
namespace App

/-- What a worker has to do with the queue. -/
structure WorkerThread.Fits (queue : WorkQueue) (worker : WorkerThread) : Prop where
  stopped : worker.stop = true → queue.closed = true
  waiting : worker.stage = .waiting → queue.closed = false
  done : worker.stage = .done → queue.closed = true ∧ queue.sockets = []

/-- The queue was closed. -/
def MainThread.Closed : MainThread → Prop
  | .stopping _ => True
  | .joining _ => True
  | .returned => True
  | _ => False

/-- Worker `k` was joined. -/
def MainThread.Joined (main : MainThread) (k : Nat) : Prop :=
  match main with
  | .joining i => k < i
  | .returned => True
  | _ => False

namespace ServerRun

structure Inv (s : ServerRun) : Prop where
  nonempty : s.workers ≠ []
  fits : ∀ worker ∈ s.workers, worker.Fits s.queue
  closed_iff : s.queue.closed = true ↔ s.main.Closed
  joined : ∀ k worker, s.workers[k]? = some worker → s.main.Joined k → worker.stage = .done

theorem inv_initial {s : ServerRun} (h : Initial s) : s.Inv := by
  obtain ⟨-, ⟨-, hopen⟩, hmain, ⟨hnonempty, hworkers⟩, -⟩ := h
  refine ⟨hnonempty, ?_, ?_, ?_⟩
  · intro worker hmem
    rw [hworkers worker hmem]
    exact ⟨nofun, nofun, nofun⟩
  · rw [hopen, hmain]
    exact iff_of_false Bool.false_ne_true not_false
  · intro k worker _ hjoined
    rw [hmain] at hjoined
    exact hjoined.elim

section Steps

variable {s t : ServerRun} {i : Nat} {old new : WorkerThread}

theorem Inv.fits_of_get (hinv : s.Inv) (hworker : s.workers[i]? = some old) :
    old.Fits s.queue := hinv.fits old (List.mem_of_getElem? hworker)

/-- A step of the main thread that leaves the workers and the queue alone. -/
theorem Inv.of_main (hinv : s.Inv) (hworkers : t.workers = s.workers) (hqueue : t.queue = s.queue)
    (hclosed : t.main.Closed ↔ s.main.Closed)
    (hjoined : ∀ k worker, s.workers[k]? = some worker → t.main.Joined k →
      s.main.Joined k ∨ worker.stage = .done) : t.Inv := by
  refine ⟨hworkers ▸ hinv.nonempty, ?_, ?_, ?_⟩
  · rw [hworkers, hqueue]
    exact hinv.fits
  · rw [hqueue, hclosed]
    exact hinv.closed_iff
  · intro k worker hworker hk
    rw [hworkers] at hworker
    cases hjoined k worker hworker hk with
    | inl hbefore => exact hinv.joined k worker hworker hbefore
    | inr hdone => exact hdone

/-- A step of a worker that leaves the main thread and the queue's closing alone. -/
theorem Inv.of_worker (hinv : s.Inv) (hworker : s.workers[i]? = some old)
    (hold : old.stage ≠ .done) (hmain : t.main = s.main)
    (hworkers : t.workers = s.workers.set i new) (hclosed : t.queue.closed = s.queue.closed)
    (hsockets : s.queue.sockets = [] → t.queue.sockets = []) (hnew : new.Fits t.queue) :
    t.Inv := by
  refine ⟨?_, ?_, ?_, ?_⟩
  · rw [hworkers]
    intro hnil
    exact hinv.nonempty ((List.set_eq_nil_iff _ _).mp hnil)
  · intro worker hmem
    rw [hworkers] at hmem
    cases Pool.mem_set hmem with
    | inl heq => exact heq ▸ hnew
    | inr hmem =>
        obtain ⟨hstopped, hwaiting, hdone⟩ := hinv.fits worker hmem
        refine ⟨?_, ?_, ?_⟩
        · rw [hclosed]
          exact hstopped
        · rw [hclosed]
          exact hwaiting
        · intro hstage
          rw [hclosed]
          exact ⟨(hdone hstage).1, hsockets (hdone hstage).2⟩
  · rw [hclosed, hmain]
    exact hinv.closed_iff
  · intro k worker hget hk
    rw [hworkers] at hget
    rw [hmain] at hk
    cases Pool.getElem?_set_cases hget with
    | inl hnew =>
        rw [hnew.1] at hk
        exact absurd (hinv.joined i old hworker hk) hold
    | inr hother => exact hinv.joined k worker hother.2 hk

/-- A step of a worker that leaves the queue alone. -/
theorem Inv.of_worker_only (hinv : s.Inv) (hworker : s.workers[i]? = some old)
    (hold : old.stage ≠ .done) (hmain : t.main = s.main)
    (hworkers : t.workers = s.workers.set i new) (hqueue : t.queue = s.queue)
    (hstop : new.stop = old.stop) (hnew : new.stage ≠ .waiting ∧ new.stage ≠ .done) : t.Inv := by
  refine hinv.of_worker hworker hold hmain hworkers (by rw [hqueue]) (by rw [hqueue]; exact id) ?_
  rw [hqueue]
  refine ⟨?_, fun h => absurd h hnew.1, fun h => absurd h hnew.2⟩
  rw [hstop]
  exact (hinv.fits_of_get hworker).stopped

theorem inv_runPop {stop : Bool} {stage : WorkerStage} (hinv : s.Inv)
    (hworker : s.workers[i]? = some ⟨stage, stop⟩) (hstage : stage ≠ .done)
    (hpop : Popped s i stop t) : t.Inv := by
  have hstopped := (hinv.fits_of_get hworker).stopped
  cases hpop with
  | waits hopen hempty hstop =>
      refine hinv.of_worker hworker hstage rfl rfl rfl id ⟨hstopped, fun _ => hopen, nofun⟩
  | ends hempty hreason =>
      refine hinv.of_worker hworker hstage rfl rfl rfl id ⟨hstopped, nofun, fun _ => ⟨?_, hempty⟩⟩
      exact hreason.elim id hstopped
  | takes hfront =>
      refine hinv.of_worker hworker hstage rfl rfl rfl ?_ ⟨hstopped, nofun, nofun⟩
      intro hempty
      rw [hfront] at hempty
      cases hempty

theorem WorkerThread.fits_requestStop {queue : WorkQueue} {worker : WorkerThread}
    (hfits : worker.Fits queue) (hclosed : queue.closed = true) :
    worker.requestStop.Fits queue := by
  obtain ⟨stage, stop⟩ := worker
  refine ⟨fun _ => hclosed, ?_, ?_⟩
  · cases stage <;> exact nofun
  · intro hdone
    apply hfits.done
    cases stage <;> first | exact hdone | cases hdone

theorem stage_wake (worker : WorkerThread) :
    worker.wake.stage ≠ .waiting ∧ (worker.wake.stage = .done ↔ worker.stage = .done) := by
  obtain ⟨stage, stop⟩ := worker
  cases stage <;> exact ⟨nofun, by simp [WorkerThread.wake]⟩

/-- A push that is made finds the queue open, so no worker is done. -/
theorem inv_tryPush {socket : Socket} (hinv : s.Inv) (hmain : s.main = .pushing socket) :
    Inv
      { s with
        queue := (s.queue.tryPush socket).2
        main :=
          if (s.queue.tryPush socket).1 = .queued then .notifying else .refused socket } := by
  have hopen : s.queue.closed ≠ true := by
    intro hclosed
    have hphase := hinv.closed_iff.mp hclosed
    rw [hmain] at hphase
    exact hphase
  have hsame : (s.queue.tryPush socket).2.closed = s.queue.closed := by
    rcases s.queue.tryPush_cases socket with ⟨-, -, hqueue⟩ | ⟨-, hqueue⟩ <;> rw [hqueue]
  refine ⟨hinv.nonempty, ?_, ?_, ?_⟩
  · intro worker hmem
    obtain ⟨hstopped, hwaiting, hdone⟩ := hinv.fits worker hmem
    refine ⟨?_, ?_, fun hstage => absurd (hdone hstage).1 hopen⟩
    · show _ → (s.queue.tryPush socket).2.closed = true
      rw [hsame]
      exact hstopped
    · show _ → (s.queue.tryPush socket).2.closed = false
      rw [hsame]
      exact hwaiting
  · show (s.queue.tryPush socket).2.closed = true ↔ _
    rw [hsame]
    refine iff_of_false hopen ?_
    dsimp only
    split <;> exact not_false
  · intro k worker _ hk
    dsimp only at hk
    split at hk <;> exact hk.elim

theorem inv_close (hinv : s.Inv) (hmain : s.main = .closing) :
    Inv
      { s with
        queue := s.queue.close
        main := .stopping 0
        workers := s.workers.map WorkerThread.wake } := by
  have hopen : s.queue.closed ≠ true := by
    intro hclosed
    have hphase := hinv.closed_iff.mp hclosed
    rw [hmain] at hphase
    exact hphase
  refine ⟨?_, ?_, iff_of_true rfl trivial, fun k worker _ hk => hk.elim⟩
  · exact fun hnil => hinv.nonempty (List.map_eq_nil_iff.mp hnil)
  · intro worker hmem
    obtain ⟨old, hold, rfl⟩ := List.mem_map.mp hmem
    refine ⟨fun _ => rfl, fun hwaiting => absurd hwaiting (stage_wake old).1, fun hdone => ?_⟩
    exact absurd ((hinv.fits old hold).done ((stage_wake old).2.mp hdone)).1 hopen

theorem inv_requestStop {worker : WorkerThread} (hinv : s.Inv) (hmain : s.main = .stopping i)
    (hworker : s.workers[i]? = some worker) :
    Inv
      { s with
        main := .stopping (i + 1)
        workers := s.workers.set i worker.requestStop } := by
  have hclosed : s.queue.closed = true := hinv.closed_iff.mpr (by rw [hmain]; trivial)
  refine ⟨?_, ?_, iff_of_true hclosed trivial, fun k worker _ hk => hk.elim⟩
  · intro hnil
    exact hinv.nonempty ((List.set_eq_nil_iff _ _).mp hnil)
  · intro other hmem
    cases Pool.mem_set hmem with
    | inl heq => exact heq ▸ WorkerThread.fits_requestStop (hinv.fits_of_get hworker) hclosed
    | inr hmem => exact hinv.fits other hmem

theorem inv_step (hinv : s.Inv) (h : Step s t) : t.Inv := by
  cases h with
  | accept socket hmain hnew =>
      exact hinv.of_main rfl rfl (by rw [hmain]; exact Iff.rfl) fun _ _ _ hk => hk.elim
  | acceptError hmain =>
      exact hinv.of_main rfl rfl (by rw [hmain]; exact Iff.rfl) fun _ _ _ hk => hk.elim
  | retry hmain =>
      exact hinv.of_main rfl rfl (by rw [hmain]; exact Iff.rfl) fun _ _ _ hk => hk.elim
  | fatalAcceptError hmain =>
      exact hinv.of_main rfl rfl (by rw [hmain]; exact Iff.rfl) fun _ _ _ hk => hk.elim
  | tryAcquire socket hmain =>
      refine hinv.of_main rfl rfl ?_ ?_
      · rw [hmain]
        dsimp only
        split <;> exact Iff.rfl
      · intro k worker _ hk
        dsimp only at hk
        split at hk <;> exact hk.elim
  | tryPush socket hmain => exact inv_tryPush hinv hmain
  | notifyOne j stop hmain hwaiter =>
      have hnext : Inv { s with main := .accepting } :=
        hinv.of_main rfl rfl (by rw [hmain]; exact Iff.rfl) fun _ _ _ hk => hk.elim
      exact hnext.of_worker_only hwaiter nofun rfl rfl rfl rfl ⟨nofun, nofun⟩
  | notifyNone hmain hnone =>
      exact hinv.of_main rfl rfl (by rw [hmain]; exact Iff.rfl) fun _ _ _ hk => hk.elim
  | destroyRefused socket hmain =>
      exact hinv.of_main rfl rfl (by rw [hmain]; exact Iff.rfl) fun _ _ _ hk => hk.elim
  | releaseRefused socket hmain =>
      exact hinv.of_main rfl rfl (by rw [hmain]; exact Iff.rfl) fun _ _ _ hk => hk.elim
  | reject socket held hmain =>
      exact hinv.of_main rfl rfl (by rw [hmain]; exact Iff.rfl) fun _ _ _ hk => hk.elim
  | close hmain => exact inv_close hinv hmain
  | requestStop i worker hmain hworker => exact inv_requestStop hinv hmain hworker
  | stopped i hmain hlast =>
      refine hinv.of_main rfl rfl (by rw [hmain]; exact Iff.rfl) fun k _ _ hk => ?_
      exact absurd hk (Nat.not_lt_zero k)
  | join i stop hmain hworker =>
      refine hinv.of_main rfl rfl (by rw [hmain]; exact Iff.rfl) fun k worker hget hk => ?_
      rw [hmain]
      by_cases hki : k = i
      · rw [hki, hworker, Option.some.injEq] at hget
        rw [← hget]
        exact Or.inr rfl
      · have hlt : k < i + 1 := hk
        exact Or.inl (show k < i by omega)
  | joined i hmain hlast =>
      refine hinv.of_main rfl rfl (by rw [hmain]; exact Iff.rfl) fun k worker hget _ => ?_
      rw [hmain]
      refine Or.inl ?_
      have hlength := List.getElem?_eq_none_iff.mp hlast
      have hk := (List.getElem?_eq_some_iff.mp hget).1
      exact Nat.lt_of_lt_of_le hk hlength
  | pop i stop hworker => exact inv_runPop hinv hworker nofun (popped_runPop s i stop)
  | popAgain i stop hworker => exact inv_runPop hinv hworker nofun (popped_runPop s i stop)
  | spurious i stop hworker =>
      exact hinv.of_worker_only hworker nofun rfl rfl rfl rfl ⟨nofun, nofun⟩
  | notifyNotFull i socket stop hworker =>
      exact hinv.of_worker_only hworker nofun rfl rfl rfl rfl ⟨nofun, nofun⟩
  | finish i socket stop threw hworker =>
      exact hinv.of_worker_only hworker nofun rfl rfl rfl rfl ⟨nofun, nofun⟩
  | release i socket stop threw hworker =>
      refine hinv.of_worker_only hworker nofun rfl rfl rfl rfl ⟨?_, ?_⟩
      · cases threw <;> exact nofun
      · cases threw <;> exact nofun
  | report i stop hworker =>
      exact hinv.of_worker_only hworker nofun rfl rfl rfl rfl ⟨nofun, nofun⟩

end Steps

theorem inv_of_reachable {s : ServerRun} (h : system.Reachable s) : s.Inv :=
  h.invariant (fun _ => inv_initial) fun _ _ => inv_step

/-! ## The abstract server -/

end ServerRun

def MainThread.loop : MainThread → AcceptLoop
  | .accepting => .idle
  | .retrying => .idle
  | .acquiring socket => .accepted socket
  | .pushing socket => .acquired socket
  | .notifying => .idle
  | .refused socket => .notQueued socket
  | .releasing socket => .notQueued socket
  | .rejecting socket _ => .rejecting socket
  | .closing => .stopped
  | .stopping _ => .stopped
  | .joining _ => .stopped
  | .returned => .stopped

def WorkerThread.worker (thread : WorkerThread) : Worker :=
  match thread.stage with
  | .calling => .popping
  | .waiting => .popping
  | .woken => .popping
  | .notifying socket => .handling socket
  | .handling socket => .handling socket
  | .releasing socket threw => .releasing socket threw
  | .reporting => .reporting
  | .done => .done

namespace ServerRun

def server (s : ServerRun) : Server where
  limiter := s.limiter
  queue := s.queue
  loop := s.main.loop
  workers := s.workers.map WorkerThread.worker
  accepted := s.accepted
  rejected := s.rejected
  handled := s.handled

theorem worker_wake (thread : WorkerThread) : thread.wake.worker = thread.worker := by
  obtain ⟨stage, stop⟩ := thread
  cases stage <;> rfl

theorem worker_requestStop (thread : WorkerThread) :
    thread.requestStop.worker = thread.worker := by
  obtain ⟨stage, stop⟩ := thread
  cases stage <;> rfl

section Refines

variable {s : ServerRun} {i : Nat} {old : WorkerThread}

/-- The workers of the abstract server around one of them. -/
theorem exists_workers (hworker : s.workers[i]? = some old) :
    ∃ before after, s.server.workers = before ++ old.worker :: after ∧
      ∀ new : WorkerThread,
        (s.workers.set i new).map WorkerThread.worker = before ++ new.worker :: after := by
  obtain ⟨before, after, hworkers, hset⟩ := Pool.exists_split hworker
  refine ⟨before.map WorkerThread.worker, after.map WorkerThread.worker, ?_, fun new => ?_⟩
  · show s.workers.map WorkerThread.worker = _
    rw [hworkers, List.map_append, List.map_cons]
  · rw [hset, List.map_append, List.map_cons]

/-- A worker that looks the same changes nothing. -/
theorem server_set_of_eq {new : WorkerThread} (hworker : s.workers[i]? = some old)
    (hsame : new.worker = old.worker) :
    server { s with workers := s.workers.set i new } = s.server := by
  unfold server
  dsimp only
  rw [Pool.map_set_of_eq hworker hsame]

theorem server_runPop {t : ServerRun} {stop : Bool} {stage : WorkerStage} (hinv : s.Inv)
    (hworker : s.workers[i]? = some ⟨stage, stop⟩)
    (hpopping : WorkerThread.worker ⟨stage, stop⟩ = .popping) (hpop : Popped s i stop t) :
    t.server = s.server ∨ Server.Step s.server t.server := by
  obtain ⟨before, after, hworkers, hset⟩ := exists_workers hworker
  rw [hpopping] at hworkers
  cases hpop with
  | waits hopen hempty hstop => exact Or.inl (server_set_of_eq hworker hpopping.symm)
  | ends hempty hreason =>
      have hclosed : s.queue.closed = true :=
        hreason.elim id (hinv.fits_of_get hworker).stopped
      have hnone : s.server.queue.takeFront.1 = none := by
        show s.queue.takeFront.1 = none
        unfold WorkQueue.takeFront
        rw [hempty]
      refine Or.inr ?_
      have hstep := Server.Step.leave s.server before after hworkers hclosed hnone
      unfold server at hstep ⊢
      dsimp only at hstep ⊢
      rw [hset]
      exact hstep
  | @takes socket sockets hfront =>
      have htake : s.server.queue.takeFront = (some socket, { s.queue with sockets }) := by
        show s.queue.takeFront = _
        unfold WorkQueue.takeFront
        rw [hfront]
      refine Or.inr ?_
      have hstep := Server.Step.pop s.server before after socket hworkers (by rw [htake])
      rw [htake] at hstep
      unfold server at hstep ⊢
      dsimp only at hstep ⊢
      rw [hset]
      exact hstep

theorem refines_server : System.Refinement system Server.system server where
  init := by
    intro s h
    obtain ⟨hlimiter, hqueue, hmain, ⟨-, hworkers⟩, haccepted, hrejected, hhandled, -⟩ := h
    refine ⟨hlimiter, hqueue, ?_, ?_, haccepted, hrejected, hhandled⟩
    · show s.main.loop = .idle
      rw [hmain]
      rfl
    · intro worker hmem
      obtain ⟨thread, hthread, rfl⟩ := List.mem_map.mp hmem
      rw [hworkers thread hthread]
      rfl
  step := by
    intro s t hs h
    have hinv := inv_of_reachable hs
    have hloop : ∀ main, s.main = main → s.server.loop = main.loop :=
      fun main hmain => congrArg MainThread.loop hmain
    cases h with
    | accept socket hmain hnew =>
        exact Or.inr (Server.Step.accept s.server socket (hloop _ hmain) hnew)
    | acceptError hmain =>
        left
        unfold server
        rw [hmain]
        rfl
    | retry hmain =>
        left
        unfold server
        rw [hmain]
        rfl
    | fatalAcceptError hmain =>
        exact Or.inr (Server.Step.fatalAcceptError s.server (hloop _ hmain))
    | tryAcquire socket hmain =>
        right
        have hstep := Server.Step.tryAcquire s.server socket (hloop _ hmain)
        unfold server at hstep ⊢
        dsimp only at hstep ⊢
        cases hgot : (s.limiter.tryAcquire socket.peerAddress).1 with
        | false => rwa [hgot] at hstep
        | true => rwa [hgot] at hstep
    | tryPush socket hmain =>
        right
        have hstep := Server.Step.tryPush s.server socket (hloop _ hmain)
        unfold server at hstep ⊢
        dsimp only at hstep ⊢
        by_cases hqueued : (s.queue.tryPush socket).1 = .queued
        · rw [if_pos hqueued] at hstep ⊢
          exact hstep
        · rw [if_neg hqueued] at hstep ⊢
          exact hstep
    | notifyOne j stop hmain hwaiter =>
        left
        have hmoved : server { s with main := .accepting } = s.server := by
          unfold server
          rw [hmain]
          rfl
        rw [← hmoved]
        exact server_set_of_eq (s := { s with main := .accepting }) hwaiter rfl
    | notifyNone hmain hnone =>
        left
        unfold server
        rw [hmain]
        rfl
    | destroyRefused socket hmain =>
        left
        unfold server
        rw [hmain]
        rfl
    | releaseRefused socket hmain =>
        exact Or.inr (Server.Step.releaseNotQueued s.server socket (hloop _ hmain))
    | reject socket held hmain =>
        exact Or.inr (Server.Step.reject s.server socket (hloop _ hmain))
    | close hmain =>
        right
        have hstep := Server.Step.close s.server
        unfold server at hstep ⊢
        dsimp only at hstep ⊢
        rw [List.map_map, show WorkerThread.worker ∘ WorkerThread.wake = WorkerThread.worker from
          funext worker_wake]
        rw [hmain] at hstep
        rw [hmain]
        exact hstep
    | requestStop i worker hmain hworker =>
        left
        have hmoved : server { s with main := .stopping (i + 1) } = s.server := by
          unfold server
          rw [hmain]
          rfl
        rw [← hmoved]
        exact server_set_of_eq (s := { s with main := .stopping (i + 1) }) hworker
          (worker_requestStop worker)
    | stopped i hmain hlast =>
        left
        unfold server
        rw [hmain]
        rfl
    | join i stop hmain hworker =>
        left
        unfold server
        rw [hmain]
        rfl
    | joined i hmain hlast =>
        left
        unfold server
        rw [hmain]
        rfl
    | pop i stop hworker => exact server_runPop hinv hworker rfl (popped_runPop s i stop)
    | popAgain i stop hworker => exact server_runPop hinv hworker rfl (popped_runPop s i stop)
    | spurious i stop hworker => exact Or.inl (server_set_of_eq hworker rfl)
    | notifyNotFull i socket stop hworker => exact Or.inl (server_set_of_eq hworker rfl)
    | finish i socket stop threw hworker =>
        obtain ⟨before, after, hworkers, hset⟩ := exists_workers hworker
        right
        have hstep := Server.Step.finish s.server before after socket threw hworkers
        unfold server at hstep ⊢
        dsimp only at hstep ⊢
        rw [hset]
        exact hstep
    | release i socket stop threw hworker =>
        obtain ⟨before, after, hworkers, hset⟩ := exists_workers hworker
        right
        have hstep := Server.Step.release s.server before after socket threw hworkers
        unfold server at hstep ⊢
        dsimp only at hstep ⊢
        rw [hset]
        cases threw <;> exact hstep
    | report i stop hworker =>
        obtain ⟨before, after, hworkers, hset⟩ := exists_workers hworker
        right
        have hstep := Server.Step.report s.server before after hworkers
        unfold server at hstep ⊢
        dsimp only at hstep ⊢
        rw [hset]
        exact hstep

end Refines

/-- Whatever its threads do between their sections, waits and notifications, a server run is a
run of the abstract server, so the limiter counts for each address the connections of the run
that are in flight, within the limit, and every accepted connection is in one place. -/
theorem run_refines_server (s : ServerRun) (h : system.Reachable s) :
    Server.system.Reachable s.server ∧
      (∀ address ≠ [],
        (s.limiter.inflightByIp address).getD 0 =
            IpConnectionLimiter.countFrom address s.server.inFlight ∧
          (s.limiter.inflightByIp address).getD 0 ≤ s.limiter.perIpLimit) ∧
      ∀ socket ∈ s.accepted,
        s.rejected.count socket + s.handled.count socket + s.server.waiting.count socket = 1 := by
  have hserver := refines_server.reachable h
  obtain ⟨hcounts, hlimited, -, hsettled, hdistinct⟩ :=
    hserver.invariant (fun _ => Server.inv_initial) fun _ _ => Server.inv_step
  refine ⟨hserver, ?_, ?_⟩
  · intro address hne
    have hcount : (s.limiter.inflightByIp address).getD 0 = _ := hcounts.getD hne
    exact ⟨hcount, hcount.trans_le (hlimited address hne)⟩
  · intro socket hmem
    have honce := List.count_eq_one_of_mem hdistinct hmem
    rw [hsettled.count_eq, List.count_append, List.count_append] at honce
    have hplaces : s.rejected.count socket +
        (s.handled.count socket + s.server.waiting.count socket) = 1 := honce
    omega

/-- One connection is with the worker, and none is left for the others. -/
theorem run_refines_server_oneEach : ∃ s, system.Reachable s ∧ s.handled = [firstVisitor] ∧
    (s.limiter.inflightByIp firstVisitor.peerAddress).getD 0 ≤ s.limiter.perIpLimit := by
  have h₀ : system.Reachable oneEach := .init initial_oneEach
  have h₁ := h₀.step (Step.accept oneEach firstVisitor rfl (by simp [oneEach]))
  have h₂ := h₁.step (Step.tryAcquire _ firstVisitor rfl)
  have h₃ := h₂.step (Step.tryPush _ firstVisitor rfl)
  have h₄ := h₃.step (Step.notifyNone _ rfl (by simp [oneEach]))
  have h₅ := h₄.step (Step.pop _ 0 false rfl)
  exact ⟨_, h₅, rfl, ((run_refines_server _ h₅).2.1 firstVisitor.peerAddress (by decide)).2⟩

end ServerRun
end App
end Garcon
