import Garcon.App.Admission

/-!
# Admission accounting

In every reachable state the limiter counts exactly the connections that were acquired
and not released, which are spread over the accept loop, the queue and the workers, and
every accepted connection is in one place: rejected, handed to the handler, with the
accept loop or in the queue.
-/

namespace Garcon
namespace App

open IpConnectionLimiter

/-- The connection the accept loop has acquired and neither queued nor released. -/
def AcceptLoop.acquiredSocket : AcceptLoop → Option Socket
  | .acquired socket => some socket
  | .notQueued socket => some socket
  | _ => none

/-- The connection the accept loop has accepted and neither queued nor rejected. -/
def AcceptLoop.heldSocket : AcceptLoop → Option Socket
  | .accepted socket => some socket
  | .acquired socket => some socket
  | .notQueued socket => some socket
  | .rejecting socket => some socket
  | _ => none

def Worker.socket : Worker → Option Socket
  | .handling socket => some socket
  | .releasing socket _ => some socket
  | _ => none

namespace Server

/-- The connections acquired and not yet released. -/
def inFlight (s : Server) : List Socket :=
  s.loop.acquiredSocket.toList ++ (s.queue.sockets ++ s.workers.filterMap Worker.socket)

/-- The connections neither rejected nor handed to the handler. -/
def waiting (s : Server) : List Socket := s.loop.heldSocket.toList ++ s.queue.sockets

structure Inv (s : Server) : Prop where
  counts : s.limiter.Counts s.inFlight
  limited : ∀ address ≠ [], countFrom address s.inFlight ≤ s.limiter.perIpLimit
  bounded : s.queue.sockets.length ≤ s.queue.capacity
  settled : s.accepted.Perm (s.rejected ++ (s.handled ++ s.waiting))
  distinct : s.accepted.Nodup

theorem countFrom_perm {left right : List Socket} (h : left.Perm right) (address : Bytes) :
    countFrom address left = countFrom address right := h.countP_eq _

theorem countFrom_le_cons (address : Bytes) (socket : Socket) (sockets : List Socket) :
    countFrom address sockets ≤ countFrom address (socket :: sockets) :=
  (List.sublist_cons_self socket sockets).countP_le

theorem takeFront_some {q : WorkQueue} {socket : Socket} (h : q.takeFront.1 = some socket) :
    q.sockets = socket :: q.takeFront.2.sockets ∧ q.takeFront.2.capacity = q.capacity := by
  unfold WorkQueue.takeFront at h ⊢
  cases hq : q.sockets with
  | nil => simp [hq] at h
  | cons front sockets =>
      simp only [hq, Option.some.injEq] at h
      subst h
      exact ⟨rfl, rfl⟩

section Steps

variable {s : Server} (hinv : s.Inv)

include hinv

theorem inv_accept {socket : Socket} (hloop : s.loop = .idle) (hnew : socket ∉ s.accepted) :
    Inv { s with loop := .accepted socket, accepted := s.accepted ++ [socket] } := by
  obtain ⟨hcounts, hlimited, hbounded, hsettled, hdistinct⟩ := hinv
  simp only [inFlight, waiting, hloop, AcceptLoop.acquiredSocket, AcceptLoop.heldSocket,
    Option.toList_none, List.nil_append] at hcounts hlimited hsettled
  refine ⟨hcounts, hlimited, hbounded, ?_, ?_⟩
  · show (s.accepted ++ [socket]).Perm (s.rejected ++ (s.handled ++ (socket :: s.queue.sockets)))
    refine List.perm_append_comm.trans ?_
    refine (hsettled.cons socket).trans ?_
    rw [← List.append_assoc, ← List.append_assoc]
    exact List.perm_middle.symm
  · exact List.nodup_append_comm.mpr (List.nodup_cons.mpr ⟨hnew, hdistinct⟩)

theorem inv_fatalAcceptError (hloop : s.loop = .idle) : Inv { s with loop := .stopped } := by
  obtain ⟨hcounts, hlimited, hbounded, hsettled, hdistinct⟩ := hinv
  simp only [inFlight, waiting, hloop] at hcounts hlimited hsettled
  exact ⟨hcounts, hlimited, hbounded, hsettled, hdistinct⟩

theorem inv_tryAcquire {socket : Socket} (hloop : s.loop = .accepted socket) :
    Inv
      { s with
        limiter := (s.limiter.tryAcquire socket.peerAddress).2
        loop := if (s.limiter.tryAcquire socket.peerAddress).1 then .acquired socket
          else .rejecting socket } := by
  obtain ⟨hcounts, hlimited, hbounded, hsettled, hdistinct⟩ := hinv
  simp only [inFlight, waiting, hloop, AcceptLoop.acquiredSocket, AcceptLoop.heldSocket,
    Option.toList_none, List.nil_append] at hcounts hlimited hsettled
  by_cases hfull : socket.peerAddress ≠ [] ∧ s.limiter.perIpLimit ≤
      countFrom socket.peerAddress (s.queue.sockets ++ s.workers.filterMap Worker.socket)
  · rw [tryAcquire_of_full hcounts hfull.1 hfull.2]
    exact ⟨hcounts, hlimited, hbounded, hsettled, hdistinct⟩
  · have hroom : socket.peerAddress ≠ [] → countFrom socket.peerAddress
        (s.queue.sockets ++ s.workers.filterMap Worker.socket) < s.limiter.perIpLimit := by
      intro hne
      exact Nat.not_le.mp fun hle => hfull ⟨hne, hle⟩
    obtain ⟨l', htry, hlimit, hcounts'⟩ := tryAcquire_of_room hcounts hroom
    rw [htry]
    refine ⟨hcounts', ?_, hbounded, hsettled, hdistinct⟩
    intro address hne
    show countFrom address
      (socket :: (s.queue.sockets ++ s.workers.filterMap Worker.socket)) ≤ l'.perIpLimit
    rw [hlimit, countFrom, List.countP_cons]
    by_cases hsame : socket.peerAddress = address
    · subst hsame
      rw [if_pos (decide_eq_true rfl)]
      exact hroom hne
    · rw [if_neg (by simpa using hsame)]
      exact hlimited address hne

theorem inv_tryPush {socket : Socket} (hloop : s.loop = .acquired socket) :
    Inv
      { s with
        queue := (s.queue.tryPush socket).2
        loop := if (s.queue.tryPush socket).1 = .queued then .idle else .notQueued socket } := by
  obtain ⟨hcounts, hlimited, hbounded, hsettled, hdistinct⟩ := hinv
  simp only [inFlight, waiting, hloop, AcceptLoop.acquiredSocket, AcceptLoop.heldSocket,
    Option.toList_some] at hcounts hlimited hsettled
  rcases s.queue.tryPush_cases socket with ⟨hqueued, hroom, hqueue⟩ | ⟨hrefused, hqueue⟩
  · rw [hqueue, if_pos hqueued]
    have hback : ([socket] ++ s.queue.sockets).Perm (s.queue.sockets ++ [socket]) :=
      List.perm_append_comm
    have hmoved : ([socket] ++ (s.queue.sockets ++ s.workers.filterMap Worker.socket)).Perm
        ((s.queue.sockets ++ [socket]) ++ s.workers.filterMap Worker.socket) := by
      rw [← List.append_assoc]
      exact hback.append_right _
    refine ⟨hcounts.perm hmoved, ?_, ?_, ?_, hdistinct⟩
    · intro address hne
      exact (countFrom_perm hmoved address).symm.le.trans (hlimited address hne)
    · show (s.queue.sockets ++ [socket]).length ≤ s.queue.capacity
      rw [List.length_append, List.length_singleton]
      exact hroom
    · exact hsettled.trans ((hback.append_left _).append_left _)
  · rw [hqueue, if_neg hrefused]
    exact ⟨hcounts, hlimited, hbounded, hsettled, hdistinct⟩

/-- Releasing one of the connections in flight. -/
theorem inv_release {socket : Socket} (loop : AcceptLoop) (workers : List Worker)
    (hflight : s.inFlight.Perm (socket :: inFlight { s with loop := loop, workers := workers }))
    (hheld : loop.heldSocket = s.loop.heldSocket) :
    Inv
      { s with
        limiter := s.limiter.release socket.peerAddress
        loop := loop
        workers := workers } := by
  obtain ⟨hcounts, hlimited, hbounded, hsettled, hdistinct⟩ := hinv
  obtain ⟨hcounts', hlimit⟩ := release_counts (hcounts.perm hflight)
  refine ⟨hcounts', ?_, hbounded, ?_, hdistinct⟩
  · intro address hne
    have hwas := hlimited address hne
    rw [countFrom_perm hflight] at hwas
    show _ ≤ (s.limiter.release socket.peerAddress).perIpLimit
    rw [hlimit]
    exact (countFrom_le_cons address socket _).trans hwas
  · rw [waiting, ← hheld] at hsettled
    exact hsettled

theorem inv_reject {socket : Socket} (hloop : s.loop = .rejecting socket) :
    Inv { s with loop := .idle, rejected := s.rejected ++ [socket] } := by
  obtain ⟨hcounts, hlimited, hbounded, hsettled, hdistinct⟩ := hinv
  simp only [inFlight, waiting, hloop, AcceptLoop.acquiredSocket, AcceptLoop.heldSocket,
    Option.toList_none, Option.toList_some, List.nil_append] at hcounts hlimited hsettled
  refine ⟨hcounts, hlimited, hbounded, ?_, hdistinct⟩
  show s.accepted.Perm ((s.rejected ++ [socket]) ++ (s.handled ++ s.queue.sockets))
  refine hsettled.trans ?_
  rw [List.append_assoc]
  refine List.Perm.append_left s.rejected ?_
  rw [← List.append_assoc, ← List.append_assoc]
  exact List.perm_append_comm.append_right _

theorem inv_pop {before after : List Worker} {socket : Socket}
    (hworkers : s.workers = before ++ .popping :: after)
    (hfront : s.queue.takeFront.1 = some socket) :
    Inv
      { s with
        queue := s.queue.takeFront.2
        workers := before ++ .handling socket :: after
        handled := s.handled ++ [socket] } := by
  obtain ⟨hcounts, hlimited, hbounded, hsettled, hdistinct⟩ := hinv
  obtain ⟨hsockets, hcapacity⟩ := takeFront_some hfront
  have hmoved : s.inFlight.Perm (inFlight
      { s with
        queue := s.queue.takeFront.2
        workers := before ++ .handling socket :: after }) := by
    simp only [inFlight, hworkers, hsockets, List.filterMap_append, List.filterMap_cons,
      Worker.socket, List.cons_append]
    refine List.Perm.append_left _ ?_
    rw [← List.append_assoc, ← List.append_assoc]
    exact List.perm_middle.symm
  refine ⟨hcounts.perm hmoved, ?_, ?_, ?_, hdistinct⟩
  · intro address hne
    exact (countFrom_perm hmoved address).symm.le.trans (hlimited address hne)
  · rw [hsockets, List.length_cons] at hbounded
    show s.queue.takeFront.2.sockets.length ≤ s.queue.takeFront.2.capacity
    omega
  · refine hsettled.trans (List.Perm.append_left _ ?_)
    simp only [waiting, hsockets, List.append_assoc]
    refine List.Perm.append_left _ ?_
    exact List.perm_middle

/-- A worker goes on without changing which connection it holds. -/
theorem inv_worker {before after : List Worker} {worker worker' : Worker}
    (hworkers : s.workers = before ++ worker :: after) (hsame : worker'.socket = worker.socket) :
    Inv { s with workers := before ++ worker' :: after } := by
  obtain ⟨hcounts, hlimited, hbounded, hsettled, hdistinct⟩ := hinv
  have hflight : inFlight { s with workers := before ++ worker' :: after } = s.inFlight := by
    simp only [inFlight, hworkers, List.filterMap_append, List.filterMap_cons, hsame]
  refine ⟨?_, ?_, hbounded, hsettled, hdistinct⟩
  · rw [hflight]
    exact hcounts
  · rw [hflight]
    exact hlimited

end Steps

theorem inv_initial {s : Server} (h : s.Initial) : s.Inv := by
  obtain ⟨hlimiter, ⟨hqueue, -⟩, hloop, hworkers, haccepted, hrejected, hhandled⟩ := h
  have hnone : s.workers.filterMap Worker.socket = [] := by
    rw [List.filterMap_eq_nil_iff]
    intro worker hworker
    rw [hworkers worker hworker]
    rfl
  have hflight : s.inFlight = [] := by
    rw [inFlight, hloop, hqueue, hnone]
    rfl
  refine ⟨?_, ?_, ?_, ?_, ?_⟩
  · rw [hflight, IpConnectionLimiter.Counts, hlimiter]
    rfl
  · intro address _
    rw [hflight]
    exact Nat.zero_le _
  · rw [hqueue]
    exact Nat.zero_le _
  · rw [waiting, hloop, hqueue, haccepted, hrejected, hhandled]
    exact List.Perm.refl []
  · rw [haccepted]
    exact List.nodup_nil

theorem inv_step {s t : Server} (hinv : s.Inv) (h : s.Step t) : t.Inv := by
  cases h with
  | accept socket hloop hnew => exact inv_accept hinv hloop hnew
  | fatalAcceptError hloop => exact inv_fatalAcceptError hinv hloop
  | tryAcquire socket hloop => exact inv_tryAcquire hinv hloop
  | tryPush socket hloop => exact inv_tryPush hinv hloop
  | releaseNotQueued socket hloop =>
      refine inv_release hinv (.rejecting socket) s.workers ?_ (by rw [hloop]; rfl)
      rw [inFlight, hloop]
      exact List.Perm.refl _
  | reject socket hloop => exact inv_reject hinv hloop
  | pop before after socket hworkers hfront => exact inv_pop hinv hworkers hfront
  | leave before after hworkers hclosed hempty => exact inv_worker hinv hworkers rfl
  | finish before after socket threw hworkers => exact inv_worker hinv hworkers rfl
  | release before after socket threw hworkers =>
      refine inv_release hinv s.loop _ ?_ rfl
      have hfree : (if threw then Worker.reporting else Worker.popping).socket = none := by
        cases threw <;> rfl
      have hheld : (Worker.releasing socket threw).socket = some socket := rfl
      simp only [inFlight, hworkers, List.filterMap_append, List.filterMap_cons, hfree, hheld,
        ← List.append_assoc]
      exact List.perm_middle
  | report before after hworkers => exact inv_worker hinv hworkers rfl
  | close =>
      obtain ⟨hcounts, hlimited, hbounded, hsettled, hdistinct⟩ := hinv
      exact ⟨hcounts, hlimited, hbounded, hsettled, hdistinct⟩

/-- Every interleaving keeps the accounting: the limiter's count for an address is the
number of its connections in flight and within the limit, the map holds no zero entry,
the queue keeps its capacity, every accepted connection is rejected at most once or
handed to the handler at most once and never both, and with nothing in flight the map
is empty. -/
theorem admission_accounting (s : Server) (h : system.Reachable s) :
    (∀ address ≠ [],
      (s.limiter.inflightByIp address).getD 0 = countFrom address s.inFlight ∧
        (s.limiter.inflightByIp address).getD 0 ≤ s.limiter.perIpLimit) ∧
    (∀ address, s.limiter.inflightByIp address ≠ some 0) ∧
    s.queue.sockets.length ≤ s.queue.capacity ∧
    (∀ socket ∈ s.accepted,
      s.rejected.count socket + s.handled.count socket + s.waiting.count socket = 1) ∧
    (s.inFlight = [] → ∀ address, s.limiter.inflightByIp address = none) := by
  have hinv : s.Inv := h.invariant (fun _ => inv_initial) fun _ _ => inv_step
  obtain ⟨hcounts, hlimited, hbounded, hsettled, hdistinct⟩ := hinv
  refine ⟨?_, ?_, hbounded, ?_, ?_⟩
  · intro address hne
    rw [hcounts.getD hne]
    exact ⟨rfl, hlimited address hne⟩
  · intro address
    rw [hcounts]
    exact Tally.of_ne_zero _ address
  · intro socket hsocket
    have honce := List.count_eq_one_of_mem hdistinct hsocket
    rw [hsettled.count_eq, List.count_append, List.count_append] at honce
    omega
  · intro hnone address
    rw [hcounts, hnone]
    rfl

/-- A server with one worker, before its first connection. -/
def oneWorker : Server where
  limiter := ⟨8, by decide, fun _ => none⟩
  queue := { capacity := 1, capacity_pos := by decide }
  loop := .idle
  workers := [.popping]
  accepted := []
  rejected := []
  handled := []

def visitor : Socket := ⟨0, Ascii.ascii "10.0.0.1"⟩

/-- A connection that was accepted, acquired and queued is counted once. -/
theorem admission_accounting_queued : ∃ s, system.Reachable s ∧ s.queue.sockets = [visitor] ∧
    (s.limiter.inflightByIp visitor.peerAddress).getD 0 =
      countFrom visitor.peerAddress s.inFlight := by
  have hinitial : Initial oneWorker :=
    ⟨rfl, ⟨rfl, rfl⟩, rfl, by simp [oneWorker], rfl, rfl, rfl⟩
  have h₀ : system.Reachable oneWorker := .init hinitial
  have h₁ := h₀.step (Step.accept oneWorker visitor rfl (by simp [oneWorker]))
  have h₂ := h₁.step (Step.tryAcquire _ visitor rfl)
  have h₃ := h₂.step (Step.tryPush _ visitor rfl)
  exact ⟨_, h₃, rfl, ((admission_accounting _ h₃).1 visitor.peerAddress (by decide)).1⟩

end Server
end App
end Garcon
