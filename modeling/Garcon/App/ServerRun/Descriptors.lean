import Garcon.App.ServerRun.Invariant

/-!
# Descriptors and counts of a server run

Every accepted connection has its descriptor closed once, or it is open and held in one
place.  So the open descriptors are bounded by the queue, the workers and the one connection
of the accept loop, and those of one address by the limit of the address and that one.
-/

namespace Garcon
namespace App

open IpConnectionLimiter

/-- The connection whose descriptor the main thread holds. -/
def MainThread.socket : MainThread → Option Socket
  | .acquiring socket => some socket
  | .pushing socket => some socket
  | .refused socket => some socket
  | .rejecting socket true => some socket
  | _ => none

/-- The connection whose descriptor a worker holds. -/
def WorkerThread.socket (worker : WorkerThread) : Option Socket :=
  match worker.stage with
  | .notifying socket => some socket
  | .handling socket => some socket
  | _ => none

namespace ServerRun

/-- The connections whose descriptors are open. -/
def opened (s : ServerRun) : List Socket :=
  s.main.socket.toList ++ (s.queue.sockets ++ s.workers.filterMap WorkerThread.socket)

/-- Every accepted connection is closed or open, once. -/
def Accounted (s : ServerRun) : Prop := s.accepted.Perm (s.closed ++ s.opened)

section Steps

variable {s t : ServerRun} {i : Nat} {old new : WorkerThread}

theorem accounted_initial (h : Initial s) : s.Accounted := by
  obtain ⟨-, ⟨hqueue, -⟩, hmain, ⟨-, hworkers⟩, haccepted, -, -, hclosed⟩ := h
  have hnone : s.workers.filterMap WorkerThread.socket = [] := by
    rw [List.filterMap_eq_nil_iff]
    intro worker hmem
    rw [hworkers worker hmem]
    rfl
  rw [Accounted, opened, hmain, hqueue, hnone, haccepted, hclosed]
  exact List.Perm.refl []

/-- A step that moves no descriptor. -/
theorem Accounted.of_opened (hs : s.Accounted) (haccepted : t.accepted = s.accepted)
    (hclosed : t.closed = s.closed) (hopened : s.opened.Perm t.opened) : t.Accounted := by
  unfold Accounted at hs ⊢
  rw [haccepted, hclosed]
  exact hs.trans (hopened.append_left _)

/-- A step that closes a descriptor. -/
theorem Accounted.of_close {socket : Socket} (hs : s.Accounted)
    (haccepted : t.accepted = s.accepted) (hclosed : t.closed = s.closed ++ [socket])
    (hopened : s.opened.Perm (socket :: t.opened)) : t.Accounted := by
  unfold Accounted at hs ⊢
  rw [haccepted, hclosed, List.append_assoc]
  exact hs.trans (hopened.append_left _)

/-- What is open after a worker was replaced. -/
theorem opened_set (hworker : s.workers[i]? = some old) (new : WorkerThread) :
    ∃ rest, s.opened.Perm (old.socket.toList ++ rest) ∧
      (opened { s with workers := s.workers.set i new }).Perm (new.socket.toList ++ rest) := by
  obtain ⟨rest, hold, hnew⟩ := Pool.filterMap_set (f := WorkerThread.socket) hworker new
  have hmove : ∀ (first held last : List Socket),
      (first ++ (s.queue.sockets ++ (held ++ last))).Perm
        (held ++ (first ++ (s.queue.sockets ++ last))) := by
    intro first held last
    rw [← List.append_assoc, ← List.append_assoc, ← List.append_assoc first]
    have hfront := List.Perm.append_right last
      (List.perm_append_comm : ((first ++ s.queue.sockets) ++ held).Perm _)
    rwa [List.append_assoc held] at hfront
  refine ⟨s.main.socket.toList ++ (s.queue.sockets ++ rest), ?_, ?_⟩
  · exact ((hold.append_left _).append_left _).trans (hmove _ _ _)
  · exact ((hnew.append_left _).append_left _).trans (hmove _ _ _)

/-- A worker that holds the same connection as before. -/
theorem Accounted.of_worker (hs : s.Accounted) (hworker : s.workers[i]? = some old)
    (hsame : new.socket = old.socket) :
    Accounted { s with workers := s.workers.set i new } := by
  obtain ⟨rest, hold, hnew⟩ := opened_set hworker new
  rw [hsame] at hnew
  exact hs.of_opened rfl rfl (hold.trans hnew.symm)

theorem accounted_runPop {stop : Bool} {stage : WorkerStage} (hs : s.Accounted)
    (hworker : s.workers[i]? = some ⟨stage, stop⟩)
    (hnone : WorkerThread.socket ⟨stage, stop⟩ = none) (hpop : Popped s i stop t) :
    t.Accounted := by
  cases hpop with
  | waits hopen hempty hstop => exact hs.of_worker hworker hnone.symm
  | ends hempty hreason => exact hs.of_worker hworker hnone.symm
  | @takes socket sockets hfront =>
      obtain ⟨rest, hold, hnew⟩ :=
        Pool.filterMap_set (f := WorkerThread.socket) hworker ⟨.notifying socket, stop⟩
      rw [hnone] at hold
      refine hs.of_opened rfl rfl ?_
      unfold opened
      dsimp only
      rw [hfront]
      refine List.Perm.append_left _ ?_
      refine (hold.append_left (socket :: sockets)).trans ?_
      refine List.Perm.trans ?_ (hnew.append_left sockets).symm
      exact List.perm_middle.symm

theorem accounted_step (hs : s.Accounted) (h : Step s t) : t.Accounted := by
  have hmoves : ∀ main : MainThread, main.socket = s.main.socket →
      (s.opened).Perm (opened { s with main := main }) := by
    intro main hmain
    unfold opened
    rw [hmain]
  cases h with
  | accept socket hmain hnew =>
      unfold Accounted opened at hs ⊢
      rw [hmain] at hs
      show (s.accepted ++ [socket]).Perm
        (s.closed ++ (socket :: (s.queue.sockets ++ s.workers.filterMap WorkerThread.socket)))
      refine List.perm_append_comm.trans ?_
      exact (hs.cons socket).trans List.perm_middle.symm
  | acceptError hmain => exact hs.of_opened rfl rfl (hmoves _ (by rw [hmain]; rfl))
  | retry hmain => exact hs.of_opened rfl rfl (hmoves _ (by rw [hmain]; rfl))
  | fatalAcceptError hmain => exact hs.of_opened rfl rfl (hmoves _ (by rw [hmain]; rfl))
  | tryAcquire socket hmain =>
      refine hs.of_opened rfl rfl (hmoves _ ?_)
      rw [hmain]
      split <;> rfl
  | tryPush socket hmain =>
      refine hs.of_opened rfl rfl ?_
      unfold opened
      rw [hmain]
      dsimp only
      rcases s.queue.tryPush_cases socket with ⟨hqueued, -, hqueue⟩ | ⟨hrefused, hqueue⟩
      · rw [hqueue, if_pos hqueued]
        show (socket :: (s.queue.sockets ++ _)).Perm ((s.queue.sockets ++ [socket]) ++ _)
        rw [List.append_assoc]
        exact List.perm_middle.symm
      · rw [hqueue, if_neg hrefused]
        exact List.Perm.refl _
  | notifyOne j stop hmain hwaiter =>
      have hnext : Accounted { s with main := .accepting } :=
        hs.of_opened rfl rfl (hmoves _ (by rw [hmain]; rfl))
      exact hnext.of_worker hwaiter rfl
  | notifyNone hmain hnone => exact hs.of_opened rfl rfl (hmoves _ (by rw [hmain]; rfl))
  | destroyRefused socket hmain =>
      refine hs.of_close rfl rfl ?_
      unfold opened
      rw [hmain]
      exact List.Perm.refl _
  | releaseRefused socket hmain => exact hs.of_opened rfl rfl (hmoves _ (by rw [hmain]; rfl))
  | reject socket held hmain =>
      cases held with
      | false =>
          refine hs.of_opened rfl (List.append_nil _) (hmoves _ ?_)
          rw [hmain]
          rfl
      | true =>
          refine hs.of_close rfl rfl ?_
          unfold opened
          rw [hmain]
          exact List.Perm.refl _
  | close hmain =>
      refine hs.of_opened rfl rfl ?_
      have hsame : (s.workers.map WorkerThread.wake).filterMap WorkerThread.socket =
          s.workers.filterMap WorkerThread.socket := by
        rw [List.filterMap_map]
        congr 1
        funext worker
        obtain ⟨stage, stop⟩ := worker
        cases stage <;> rfl
      unfold opened
      dsimp only
      rw [hsame, hmain]
      exact List.Perm.refl _
  | requestStop i worker hmain hworker =>
      have hnext : Accounted { s with main := .stopping (i + 1) } :=
        hs.of_opened rfl rfl (hmoves _ (by rw [hmain]; rfl))
      refine hnext.of_worker hworker ?_
      obtain ⟨stage, stop⟩ := worker
      cases stage <;> rfl
  | stopped i hmain hlast => exact hs.of_opened rfl rfl (hmoves _ (by rw [hmain]; rfl))
  | join i stop hmain hworker => exact hs.of_opened rfl rfl (hmoves _ (by rw [hmain]; rfl))
  | joined i hmain hlast => exact hs.of_opened rfl rfl (hmoves _ (by rw [hmain]; rfl))
  | pop i stop hworker => exact accounted_runPop hs hworker rfl (popped_runPop s i stop)
  | popAgain i stop hworker => exact accounted_runPop hs hworker rfl (popped_runPop s i stop)
  | spurious i stop hworker => exact hs.of_worker hworker rfl
  | notifyNotFull i socket stop hworker => exact hs.of_worker hworker rfl
  | finish i socket stop threw hworker =>
      obtain ⟨rest, hold, hnew⟩ := opened_set hworker ⟨.releasing socket threw, stop⟩
      exact hs.of_close rfl rfl (hold.trans (hnew.symm.cons socket))
  | release i socket stop threw hworker =>
      refine Accounted.of_worker (s := { s with limiter := s.limiter.release socket.peerAddress })
        hs hworker ?_
      cases threw <;> rfl
  | report i stop hworker => exact hs.of_worker hworker rfl

end Steps

theorem accounted_of_reachable {s : ServerRun} (h : system.Reachable s) : s.Accounted :=
  h.invariant (fun _ => accounted_initial) fun _ _ => accounted_step

theorem server_inv_of_reachable {s : ServerRun} (h : system.Reachable s) : s.server.Inv :=
  (refines_server.reachable h).invariant (fun _ => Server.inv_initial) fun _ _ => Server.inv_step

/-- A descriptor that a worker holds belongs to a connection in flight. -/
theorem countFrom_workers_le (address : Bytes) (workers : List WorkerThread) :
    countFrom address (workers.filterMap WorkerThread.socket) ≤
      countFrom address ((workers.map WorkerThread.worker).filterMap Worker.socket) := by
  unfold countFrom
  induction workers with
  | nil => exact Nat.le_refl _
  | cons worker workers ih =>
      obtain ⟨stage, stop⟩ := worker
      rw [List.map_cons]
      cases stage <;>
        simp only [List.filterMap_cons, WorkerThread.socket, WorkerThread.worker, Worker.socket,
          List.countP_cons] <;> omega

/-- In every interleaving each accepted connection's descriptor is open or was closed, once,
and the open ones are bounded: over all by the queue, the workers and one, and for an address
by its limit and one. -/
theorem descriptors_accounted (s : ServerRun) (h : system.Reachable s) :
    (∀ socket ∈ s.accepted, s.closed.count socket + s.opened.count socket = 1) ∧
      (∀ socket ∈ s.closed ++ s.opened, socket ∈ s.accepted) ∧
      s.opened.length ≤ s.queue.capacity + s.workers.length + 1 ∧
      ∀ address ≠ [], countFrom address s.opened ≤ s.limiter.perIpLimit + 1 := by
  have hperm : s.accepted.Perm (s.closed ++ s.opened) := accounted_of_reachable h
  obtain ⟨-, hlimited, hbounded, -, hdistinct⟩ := server_inv_of_reachable h
  have hone : s.main.socket.toList.length ≤ 1 := by
    cases s.main.socket with
    | none => exact Nat.zero_le 1
    | some socket => exact Nat.le_refl 1
  refine ⟨?_, fun socket => hperm.mem_iff.mpr, ?_, ?_⟩
  · intro socket hmem
    have honce := List.count_eq_one_of_mem hdistinct hmem
    rwa [show s.server.accepted = s.accepted from rfl, hperm.count_eq, List.count_append] at honce
  · have hworkers := List.length_filterMap_le WorkerThread.socket s.workers
    have hqueue : s.queue.sockets.length ≤ s.queue.capacity := hbounded
    unfold opened
    rw [List.length_append, List.length_append]
    omega
  · intro address hne
    have hflight := hlimited address hne
    have hheld := countFrom_workers_le address s.workers
    have hmain : countFrom address s.main.socket.toList ≤ s.main.socket.toList.length :=
      List.countP_le_length
    unfold Server.inFlight countFrom at hflight
    unfold countFrom at hheld hmain
    unfold opened countFrom
    rw [List.countP_append, List.countP_append] at hflight ⊢
    have hserver : s.server.queue = s.queue ∧ s.server.limiter = s.limiter ∧
      s.server.workers = s.workers.map WorkerThread.worker := ⟨rfl, rfl, rfl⟩
    rw [hserver.1, hserver.2.1, hserver.2.2] at hflight
    omega

/-! ## A connection that is refused -/

/-- The first connection is queued, and the second one is refused for its address. -/
theorem reachable_oneEach : ∃ s, system.Reachable s ∧ s.accepted = [firstVisitor, secondVisitor] ∧
    s.closed = [secondVisitor] ∧ s.opened = [firstVisitor] := by
  have h₀ : system.Reachable oneEach := .init initial_oneEach
  have h₁ := h₀.step (Step.accept oneEach firstVisitor rfl (by simp [oneEach]))
  have h₂ := h₁.step (Step.tryAcquire _ firstVisitor rfl)
  have h₃ := h₂.step (Step.tryPush _ firstVisitor rfl)
  have h₄ := h₃.step (Step.notifyNone _ rfl (by simp [oneEach]))
  have h₅ := h₄.step (Step.accept _ secondVisitor rfl (by simp [oneEach]; decide))
  have h₆ := h₅.step (Step.tryAcquire _ secondVisitor rfl)
  have h₇ := h₆.step (Step.reject _ secondVisitor true rfl)
  exact ⟨_, h₇, rfl, rfl, rfl⟩

theorem descriptors_accounted_oneEach : ∃ s, system.Reachable s ∧
    s.closed.count secondVisitor + s.opened.count secondVisitor = 1 ∧
    s.opened.length ≤ s.queue.capacity + s.workers.length + 1 := by
  obtain ⟨s, hs, haccepted, -⟩ := reachable_oneEach
  obtain ⟨honce, -, hlength, -⟩ := descriptors_accounted s hs
  exact ⟨s, hs, honce secondVisitor (by simp [haccepted]), hlength⟩

end ServerRun
end App
end Garcon
