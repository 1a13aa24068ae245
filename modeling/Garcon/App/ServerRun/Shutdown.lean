import Garcon.App.ServerRun.Descriptors

/-!
# Shutdown of a server run

Once the queue is closed every step takes some of what is left to do, so a run cannot go on
for ever, and it cannot get stuck before `server::run` has returned.  By then the workers have
served all that was queued, in the order of the queue, and nothing is held any more.
-/

namespace Garcon
namespace App

/-- How many steps a closed server's main thread has left at most. -/
def MainThread.left (workers : Nat) : MainThread → Nat
  | .stopping i => (workers - i) + workers + 3
  | .joining i => (workers - i) + 2
  | _ => 0

/-- How many steps a worker has left at most before it finds the closed queue empty. -/
def WorkerStage.left : WorkerStage → Nat
  | .done => 0
  | .calling => 2
  | .woken => 2
  | .waiting => 3
  | .reporting => 3
  | .releasing _ _ => 4
  | .handling _ => 5
  | .notifying _ => 6

theorem WorkerStage.left_le (stage : WorkerStage) : stage.left ≤ 6 := by
  cases stage <;> simp only [WorkerStage.left] <;> omega

namespace ServerRun

/-- What is left to do.  A queued connection costs a worker four steps and a call of its own. -/
def left (s : ServerRun) : Nat :=
  s.main.left s.workers.length +
    (5 * s.queue.sockets.length + (s.workers.map (·.stage.left)).sum)

/-- A run that was closed with these histories. -/
structure Draining (accepted rejected served : List Socket) (s : ServerRun) : Prop where
  inv : s.Inv
  closed : s.queue.closed = true
  accepted_eq : s.accepted = accepted
  rejected_eq : s.rejected = rejected
  served_eq : s.handled ++ s.queue.sockets = served

section Steps

variable {s t : ServerRun} {i : Nat} {old new : WorkerThread}
  {accepted rejected served : List Socket}

/-- A step of a worker takes from what is left if the worker and the queue do together. -/
theorem left_lt_of_worker (hworker : s.workers[i]? = some old) (hmain : t.main = s.main)
    (hworkers : t.workers = s.workers.set i new)
    (hless : 5 * t.queue.sockets.length + new.stage.left <
      5 * s.queue.sockets.length + old.stage.left) : t.left < s.left := by
  have hsum := Pool.sum_map_set (f := fun worker => worker.stage.left) hworker new
  unfold left
  rw [hmain, hworkers, List.length_set]
  omega

theorem left_lt_of_main (hworkers : (t.workers.map (·.stage.left)).sum =
      (s.workers.map (·.stage.left)).sum) (hlength : t.workers.length = s.workers.length)
    (hqueue : t.queue = s.queue)
    (hless : t.main.left s.workers.length < s.main.left s.workers.length) : t.left < s.left := by
  unfold left
  rw [hworkers, hlength, hqueue]
  omega

theorem left_runPop {stop : Bool} {stage : WorkerStage}
    (hworker : s.workers[i]? = some ⟨stage, stop⟩) (hclosed : s.queue.closed = true)
    (hstage : stage.left = 2) (hpop : Popped s i stop t) :
    t.left < s.left ∧ t.queue.closed = true ∧ t.accepted = s.accepted ∧
      t.rejected = s.rejected ∧
      t.handled ++ t.queue.sockets = s.handled ++ s.queue.sockets := by
  cases hpop with
  | waits hopen hempty hstop =>
      rw [hopen] at hclosed
      cases hclosed
  | ends hempty hreason =>
      refine ⟨left_lt_of_worker hworker rfl rfl ?_, hclosed, rfl, rfl, rfl⟩
      show 5 * s.queue.sockets.length + 0 < 5 * s.queue.sockets.length + stage.left
      omega
  | @takes socket sockets hfront =>
      refine ⟨left_lt_of_worker hworker rfl rfl ?_, hclosed, rfl, rfl, ?_⟩
      · show 5 * sockets.length + 6 < _ + stage.left
        rw [hfront, List.length_cons]
        omega
      · show (s.handled ++ [socket]) ++ sockets = _
        rw [hfront, List.append_assoc]
        rfl

theorem left_requestStop (hinv : s.Inv) (hclosed : s.queue.closed = true)
    (hworker : s.workers[i]? = some old) : old.requestStop.stage.left = old.stage.left := by
  have hwaiting := (hinv.fits_of_get hworker).waiting
  obtain ⟨stage, stop⟩ := old
  cases stage with
  | waiting =>
      rw [hclosed] at hwaiting
      cases hwaiting rfl
  | calling => rfl
  | woken => rfl
  | notifying socket => rfl
  | handling socket => rfl
  | releasing socket threw => rfl
  | reporting => rfl
  | done => rfl

/-- Every step of a closed run takes from what is left, and serves the queue in its order. -/
theorem draining_step (hs : Draining accepted rejected served s) (h : Step s t) :
    Draining accepted rejected served t ∧ t.left < s.left := by
  obtain ⟨hinv, hclosed, haccepted, hrejected, hserved⟩ := hs
  have hphase := hinv.closed_iff.mp hclosed
  have hnext := inv_step hinv h
  have hsame : t.queue = s.queue → t.handled = s.handled → t.accepted = s.accepted →
      t.rejected = s.rejected → t.left < s.left →
      Draining accepted rejected served t ∧ t.left < s.left := by
    intro hqueue hhandled haccepted' hrejected' hleft
    refine ⟨⟨hnext, hqueue ▸ hclosed, haccepted'.trans haccepted, hrejected'.trans hrejected, ?_⟩,
      hleft⟩
    rw [hhandled, hqueue]
    exact hserved
  have hpopped : ∀ i stop stage, s.workers[i]? = some ⟨stage, stop⟩ → stage.left = 2 →
      Popped s i stop t → Draining accepted rejected served t ∧ t.left < s.left := by
    intro i stop stage hworker hstage hpop
    obtain ⟨hleft, hclosed', haccepted', hrejected', hserved'⟩ :=
      left_runPop hworker hclosed hstage hpop
    exact ⟨⟨hnext, hclosed', haccepted'.trans haccepted, hrejected'.trans hrejected,
      hserved'.trans hserved⟩, hleft⟩
  cases h with
  | accept socket hmain hnew =>
      rw [hmain] at hphase
      exact hphase.elim
  | acceptError hmain =>
      rw [hmain] at hphase
      exact hphase.elim
  | retry hmain =>
      rw [hmain] at hphase
      exact hphase.elim
  | fatalAcceptError hmain =>
      rw [hmain] at hphase
      exact hphase.elim
  | tryAcquire socket hmain =>
      rw [hmain] at hphase
      exact hphase.elim
  | tryPush socket hmain =>
      rw [hmain] at hphase
      exact hphase.elim
  | notifyOne j stop hmain hwaiter =>
      rw [hmain] at hphase
      exact hphase.elim
  | notifyNone hmain hnone =>
      rw [hmain] at hphase
      exact hphase.elim
  | destroyRefused socket hmain =>
      rw [hmain] at hphase
      exact hphase.elim
  | releaseRefused socket hmain =>
      rw [hmain] at hphase
      exact hphase.elim
  | reject socket held hmain =>
      rw [hmain] at hphase
      exact hphase.elim
  | close hmain =>
      rw [hmain] at hphase
      exact hphase.elim
  | requestStop i worker hmain hworker =>
      have hlength := (List.getElem?_eq_some_iff.mp hworker).1
      have hsum := Pool.sum_map_set (f := fun worker => worker.stage.left) hworker
        worker.requestStop
      rw [left_requestStop hinv hclosed hworker] at hsum
      refine hsame rfl rfl rfl rfl (left_lt_of_main ?_ List.length_set rfl ?_)
      · exact Nat.add_right_cancel hsum
      · rw [hmain]
        unfold MainThread.left
        dsimp only
        omega
  | stopped i hmain hlast =>
      refine hsame rfl rfl rfl rfl (left_lt_of_main rfl rfl rfl ?_)
      rw [hmain]
      unfold MainThread.left
      dsimp only
      omega
  | join i stop hmain hworker =>
      have hlength := (List.getElem?_eq_some_iff.mp hworker).1
      refine hsame rfl rfl rfl rfl (left_lt_of_main rfl rfl rfl ?_)
      rw [hmain]
      unfold MainThread.left
      dsimp only
      omega
  | joined i hmain hlast =>
      refine hsame rfl rfl rfl rfl (left_lt_of_main rfl rfl rfl ?_)
      rw [hmain]
      exact Nat.succ_pos _
  | pop i stop hworker => exact hpopped i stop _ hworker rfl (popped_runPop s i stop)
  | popAgain i stop hworker => exact hpopped i stop _ hworker rfl (popped_runPop s i stop)
  | spurious i stop hworker =>
      exact hsame rfl rfl rfl rfl (left_lt_of_worker hworker rfl rfl
        (Nat.add_lt_add_left (Nat.lt_succ_self 2) _))
  | notifyNotFull i socket stop hworker =>
      exact hsame rfl rfl rfl rfl (left_lt_of_worker hworker rfl rfl
        (Nat.add_lt_add_left (Nat.lt_succ_self 5) _))
  | finish i socket stop threw hworker =>
      exact hsame rfl rfl rfl rfl (left_lt_of_worker hworker rfl rfl
        (Nat.add_lt_add_left (Nat.lt_succ_self 4) _))
  | release i socket stop threw hworker =>
      refine hsame rfl rfl rfl rfl (left_lt_of_worker hworker rfl rfl
        (Nat.add_lt_add_left ?_ _))
      cases threw
      · exact Nat.lt_of_sub_pos (by decide : 0 < 4 - 2)
      · exact Nat.lt_succ_self 3
  | report i stop hworker =>
      exact hsame rfl rfl rfl rfl (left_lt_of_worker hworker rfl rfl
        (Nat.add_lt_add_left (Nat.lt_succ_self 2) _))

/-- A worker of a closed run has a step to do until it is done. -/
theorem exists_step_of_worker (hinv : s.Inv) (hclosed : s.queue.closed = true)
    (hworker : s.workers[i]? = some old) (hdone : old.stage ≠ .done) : ∃ t, Step s t := by
  have hwaiting := (hinv.fits_of_get hworker).waiting
  obtain ⟨stage, stop⟩ := old
  cases stage with
  | calling => exact ⟨_, .pop s i stop hworker⟩
  | waiting =>
      rw [hclosed] at hwaiting
      cases hwaiting rfl
  | woken => exact ⟨_, .popAgain s i stop hworker⟩
  | notifying socket => exact ⟨_, .notifyNotFull s i socket stop hworker⟩
  | handling socket => exact ⟨_, .finish s i socket stop false hworker⟩
  | releasing socket threw => exact ⟨_, .release s i socket stop threw hworker⟩
  | reporting => exact ⟨_, .report s i stop hworker⟩
  | done => exact absurd rfl hdone

/-- A closed run is not stuck before it has returned. -/
theorem exists_step (hinv : s.Inv) (hclosed : s.queue.closed = true)
    (hmain : s.main ≠ .returned) : ∃ t, Step s t := by
  have hphase := hinv.closed_iff.mp hclosed
  cases hstage : s.main with
  | stopping i =>
      cases hworker : s.workers[i]? with
      | none => exact ⟨_, .stopped s i hstage hworker⟩
      | some worker => exact ⟨_, .requestStop s i worker hstage hworker⟩
  | joining i =>
      cases hworker : s.workers[i]? with
      | none => exact ⟨_, .joined s i hstage hworker⟩
      | some worker =>
          by_cases hdone : worker.stage = .done
          · obtain ⟨stage, stop⟩ := worker
            have hstage' : stage = .done := hdone
            subst hstage'
            exact ⟨_, .join s i stop hstage hworker⟩
          · exact exists_step_of_worker hinv hclosed hworker hdone
  | returned => exact absurd hstage hmain
  | accepting =>
      rw [hstage] at hphase
      exact hphase.elim
  | retrying =>
      rw [hstage] at hphase
      exact hphase.elim
  | acquiring socket =>
      rw [hstage] at hphase
      exact hphase.elim
  | pushing socket =>
      rw [hstage] at hphase
      exact hphase.elim
  | notifying =>
      rw [hstage] at hphase
      exact hphase.elim
  | refused socket =>
      rw [hstage] at hphase
      exact hphase.elim
  | releasing socket =>
      rw [hstage] at hphase
      exact hphase.elim
  | rejecting socket held =>
      rw [hstage] at hphase
      exact hphase.elim
  | closing =>
      rw [hstage] at hphase
      exact hphase.elim

end Steps

/-- What has returned has nothing queued and no worker at work. -/
theorem Inv.of_returned {s : ServerRun} (hinv : s.Inv) (hmain : s.main = .returned) :
    (∀ worker ∈ s.workers, worker.stage = .done) ∧ s.queue.sockets = [] := by
  have hdone : ∀ worker ∈ s.workers, worker.stage = .done := by
    intro worker hmem
    obtain ⟨k, hk⟩ := List.mem_iff_getElem?.mp hmem
    exact hinv.joined k worker hk (by rw [hmain]; trivial)
  obtain ⟨worker, hmem⟩ := List.exists_mem_of_ne_nil _ hinv.nonempty
  exact ⟨hdone, ((hinv.fits worker hmem).done (hdone worker hmem)).2⟩

/-- What has returned does nothing more. -/
theorem Inv.not_step_of_returned {s : ServerRun} (hinv : s.Inv) (hmain : s.main = .returned)
    (t : ServerRun) : ¬ Step s t := by
  intro h
  have hclosed : s.queue.closed = true := hinv.closed_iff.mpr (by rw [hmain]; trivial)
  obtain ⟨hdone, hempty⟩ := hinv.of_returned hmain
  have hsum : (s.workers.map (·.stage.left)).sum = 0 := by
    rw [List.sum_eq_zero]
    intro x hx
    obtain ⟨worker, hmem, rfl⟩ := List.mem_map.mp hx
    rw [hdone worker hmem]
    rfl
  have hnothing : s.left = 0 := by
    unfold left
    rw [hmain, hempty, hsum]
    rfl
  have hless := (draining_step ⟨hinv, hclosed, rfl, rfl, rfl⟩ h).2
  omega

/-- What is in flight once all workers are done and nothing is queued. -/
theorem nothing_held {s : ServerRun} (hmain : s.main = .returned)
    (hdone : ∀ worker ∈ s.workers, worker.stage = .done) (hempty : s.queue.sockets = []) :
    s.opened = [] ∧ s.server.inFlight = [] ∧ s.server.waiting = [] := by
  have hnone : s.workers.filterMap WorkerThread.socket = [] := by
    rw [List.filterMap_eq_nil_iff]
    intro worker hmem
    unfold WorkerThread.socket
    rw [hdone worker hmem]
  have hflight : s.server.workers.filterMap Worker.socket = [] := by
    rw [List.filterMap_eq_nil_iff]
    intro worker hmem
    obtain ⟨thread, hthread, rfl⟩ := List.mem_map.mp hmem
    unfold WorkerThread.worker
    rw [hdone thread hthread]
    rfl
  have hqueue : s.server.queue.sockets = [] := hempty
  have hloop : s.server.loop = .stopped := congrArg MainThread.loop hmain
  refine ⟨?_, ?_, ?_⟩
  · rw [opened, hmain, hempty, hnone]
    rfl
  · rw [Server.inFlight, hloop, hqueue, hflight]
    rfl
  · rw [Server.waiting, hloop, hqueue]
    rfl

/-- A run whose queue was closed comes to an end within a number of steps that what is queued
and the workers give.  Where it ends `server::run` has returned: all workers are done, all
that was queued was handled in its order, every accepted connection was rejected or handled
and its descriptor closed, and the limiter counts nothing. -/
theorem shutdown_drains (s : ServerRun) (h : system.Reachable s)
    (hclosed : s.queue.closed = true) (n : Nat) (t : ServerRun) (hrun : system.Steps n s t) :
    n ≤ 5 * s.queue.sockets.length + 8 * s.workers.length + 3 ∧
      ((∀ u, ¬ Step t u) →
        t.main = .returned ∧ (∀ worker ∈ t.workers, worker.stage = .done) ∧
          t.handled = s.handled ++ s.queue.sockets ∧
          t.accepted.Perm (t.rejected ++ t.handled) ∧ t.accepted.Perm t.closed ∧
          ∀ address, t.limiter.inflightByIp address = none) := by
  have hs : Draining s.accepted s.rejected (s.handled ++ s.queue.sockets) s :=
    ⟨inv_of_reachable h, hclosed, rfl, rfl, rfl⟩
  obtain ⟨ht, hle⟩ := System.Steps.measure left (fun _ _ => draining_step) hs hrun
  refine ⟨?_, ?_⟩
  · have hworkers : (s.workers.map (·.stage.left)).sum ≤ 6 * s.workers.length := by
      have hsum := List.sum_le_card_nsmul (s.workers.map (·.stage.left)) 6 (by
        intro x hx
        obtain ⟨worker, -, rfl⟩ := List.mem_map.mp hx
        exact worker.stage.left_le)
      rw [List.length_map, smul_eq_mul, Nat.mul_comm] at hsum
      exact hsum
    have hmain : s.main.left s.workers.length ≤ 2 * s.workers.length + 3 := by
      cases s.main <;> simp only [MainThread.left] <;> omega
    unfold left at hle
    omega
  · intro hstuck
    have hreached := hrun.reachable h
    have hmain : t.main = .returned := by
      by_contra hmain
      obtain ⟨u, hu⟩ := exists_step ht.inv ht.closed hmain
      exact hstuck u hu
    obtain ⟨hdone, hempty⟩ := ht.inv.of_returned hmain
    obtain ⟨hopened, hflight, hwaiting⟩ := nothing_held hmain hdone hempty
    obtain ⟨hcounts, -, -, hsettled, -⟩ := server_inv_of_reachable hreached
    have hperm : t.accepted.Perm (t.closed ++ t.opened) := accounted_of_reachable hreached
    refine ⟨hmain, hdone, ?_, ?_, ?_, ?_⟩
    · rw [← ht.served_eq, hempty, List.append_nil]
    · rw [hwaiting, List.append_nil] at hsettled
      exact hsettled
    · rw [hopened, List.append_nil] at hperm
      exact hperm
    · intro address
      show t.server.limiter.inflightByIp address = none
      rw [hcounts, hflight]
      rfl

/-- A connection is queued, and nobody has asked for it before the queue is closed. -/
def closedEarly : ServerRun :=
  { oneEach with
    limiter := (oneEach.limiter.tryAcquire firstVisitor.peerAddress).2
    queue :=
      { capacity := 1, capacity_pos := Nat.one_pos, sockets := [firstVisitor], closed := true }
    main := .stopping 0
    accepted := [firstVisitor] }

theorem reachable_closedEarly : system.Reachable closedEarly := by
  have h₀ : system.Reachable oneEach := .init initial_oneEach
  have h₁ := h₀.step (Step.accept oneEach firstVisitor rfl (by simp [oneEach]))
  have h₂ := h₁.step (Step.tryAcquire _ firstVisitor rfl)
  have h₃ := h₂.step (Step.tryPush _ firstVisitor rfl)
  have h₄ := h₃.step (Step.notifyNone _ rfl (by simp [oneEach]))
  have h₅ := h₄.step (Step.fatalAcceptError _ rfl)
  exact h₅.step (Step.close _ rfl)

/-- The queued connection is served before the server returns. -/
theorem shutdown_drains_closedEarly : ∃ t, system.Steps 9 closedEarly t ∧ t.main = .returned ∧
    t.handled = [firstVisitor] ∧ t.accepted.Perm t.closed := by
  have hrun : ∃ t, system.Steps 9 closedEarly t ∧ t.main = .returned :=
    ⟨_, .step (Step.requestStop closedEarly 0 _ rfl rfl)
      (.step (Step.stopped _ 1 rfl rfl)
      (.step (Step.pop _ 0 true rfl)
      (.step (Step.notifyNotFull _ 0 firstVisitor true rfl)
      (.step (Step.finish _ 0 firstVisitor true false rfl)
      (.step (Step.release _ 0 firstVisitor true false rfl)
      (.step (Step.pop _ 0 true rfl)
      (.step (Step.join _ 0 true rfl rfl)
      (.step (Step.joined _ 1 rfl rfl) (.done _))))))))), rfl⟩
  obtain ⟨t, hrun, hreturned⟩ := hrun
  have hfinal := (inv_of_reachable (hrun.reachable reachable_closedEarly)).not_step_of_returned
    hreturned
  obtain ⟨hmain, -, hhandled, -, hclosed, -⟩ :=
    (shutdown_drains closedEarly reachable_closedEarly rfl 9 t hrun).2 hfinal
  exact ⟨t, hrun, hmain, hhandled, hclosed⟩

end ServerRun
end App
end Garcon
