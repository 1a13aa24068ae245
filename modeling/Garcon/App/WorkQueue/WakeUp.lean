import Garcon.App.WorkQueue.Monitor

/-!
# No wake-up is lost

While a thread waits on a condition variable, what there is to do for it is covered by the
threads that are about to notify that condition variable and those that were woken from it
and have not looked again.  When there are no such threads, nothing is left to do.
-/

namespace Garcon
namespace App
namespace Monitor

/-- A thread that will notify the condition variable, or look at its predicate again. -/
def isAlert (condition : Condition) : Thread → Bool
  | .notifying condition' => condition' = condition
  | .woken call _ => call.condition = condition
  | _ => false

theorem isAlert_notifying (condition : Condition) :
    isAlert condition (.notifying condition) = true := decide_eq_true rfl

/-- What is known of a queue and a thread that waits. -/
structure Covered (s : Monitor) (call : Call) (stop : Bool) : Prop where
  opened : s.queue.closed = false
  stop_eq : stop = false
  work_le : s.work call.condition ≤ s.threads.countP (isAlert call.condition)

def Inv (s : Monitor) : Prop :=
  ∀ call stop, .waiting call stop ∈ s.threads → s.Covered call stop

theorem inv_initial {s : Monitor} (h : Initial s) : s.Inv := by
  intro call stop hmem
  cases h.threads _ hmem

section Steps

variable {s : Monitor} {i : Nat} {thread : Thread}

/-- The alert threads after one thread was replaced. -/
theorem countP_isAlert (hthread : s.threads[i]? = some thread) (new : Thread)
    (condition : Condition) :
    (s.threads.set i new).countP (isAlert condition) + (if isAlert condition thread then 1 else 0) =
      s.threads.countP (isAlert condition) + (if isAlert condition new then 1 else 0) :=
  Pool.countP_set hthread new

/-- A thread that runs a section was alert for nothing but its own condition variable. -/
theorem countP_other {condition other : Condition} (hthread : s.threads[i]? = some thread)
    (new : Thread) (hcalls : Calls condition thread) (hne : condition ≠ other) :
    (s.threads.set i new).countP (isAlert other) =
      s.threads.countP (isAlert other) + (if isAlert other new then 1 else 0) := by
  have hquiet : isAlert other thread = false := by
    rcases hcalls with rfl | ⟨call, stop, rfl, rfl⟩
    · rfl
    · exact decide_eq_false hne
  have hcount := countP_isAlert hthread new other
  rw [hquiet] at hcount
  simpa using hcount

/-- One thread that stops being alert takes at most one from the count. -/
theorem countP_le_succ (hthread : s.threads[i]? = some thread) (new : Thread)
    (condition : Condition) :
    s.threads.countP (isAlert condition) ≤
      (s.threads.set i new).countP (isAlert condition) + 1 := by
  have hcount := countP_isAlert hthread new condition
  split at hcount <;> omega

/-- Nobody waits on a closed queue. -/
theorem not_waiting_of_closed (hinv : s.Inv) (hclosed : s.queue.closed = true) (call : Call)
    (stop : Bool) : .waiting call stop ∉ s.threads := by
  intro hmem
  have hopen := (hinv call stop hmem).opened
  rw [hclosed] at hopen
  cases hopen

/-- A section keeps what is known of the threads that it leaves waiting. -/
theorem inv_section {t : Monitor} {condition : Condition} {label : Label} (hinv : s.Inv)
    (hthread : s.threads[i]? = some thread) (hcalls : Calls condition thread)
    (hsection : Section s i condition label t) : t.Inv := by
  have hother : Condition.notFull ≠ .notEmpty := by decide
  intro call stop hmem
  cases hsection with
  | @waits waiter hopen hnothing =>
      rcases Pool.mem_set hmem with heq | hmem
      · cases heq
        exact ⟨hopen, rfl, hnothing.trans_le (Nat.zero_le _)⟩
      · obtain ⟨-, hstop, hwork⟩ := hinv call stop hmem
        refine ⟨hopen, hstop, ?_⟩
        by_cases hsame : waiter.condition = call.condition
        · rw [hsame] at hnothing
          exact hnothing.trans_le (Nat.zero_le _)
        · have hcount := countP_other hthread (.waiting waiter false) hcalls hsame
          exact hwork.trans (Nat.le_of_eq hcount.symm)
  | queued hopen hroom =>
      rcases Pool.mem_set hmem with heq | hmem
      · cases heq
      · obtain ⟨-, hstop, hwork⟩ := hinv call stop hmem
        refine ⟨hopen, hstop, ?_⟩
        cases hcondition : call.condition with
        | notEmpty =>
            have hcount := countP_other hthread (.notifying .notEmpty) hcalls hother
            rw [hcondition] at hwork
            rw [isAlert_notifying, if_pos rfl] at hcount
            simp only [work, List.length_append, List.length_singleton] at hwork ⊢
            omega
        | notFull =>
            have hcount := countP_le_succ hthread (.notifying .notEmpty) .notFull
            rw [hcondition] at hwork
            simp only [work, List.length_append, List.length_singleton] at hwork ⊢
            omega
  | refused hresult hreason hfull =>
      rcases Pool.mem_set hmem with heq | hmem
      · cases heq
      · obtain ⟨hopen, hstop, hwork⟩ := hinv call stop hmem
        refine ⟨hopen, hstop, ?_⟩
        cases hcondition : call.condition with
        | notEmpty =>
            rw [hcondition] at hwork
            have hcount := countP_other hthread .idle hcalls hother
            exact hwork.trans (Nat.le_of_eq hcount.symm)
        | notFull =>
            have hlarge : s.queue.capacity ≤ s.queue.sockets.length := by
              rcases hreason with hclosed | hlarge
              · exact absurd hmem (not_waiting_of_closed hinv hclosed call stop)
              · exact hlarge
            show s.queue.capacity - s.queue.sockets.length ≤ _
            omega
  | delivered hfront =>
      rcases Pool.mem_set hmem with heq | hmem
      · cases heq
      · obtain ⟨hopen, hstop, hwork⟩ := hinv call stop hmem
        refine ⟨hopen, hstop, ?_⟩
        have hlength := congrArg List.length hfront
        rw [List.length_cons] at hlength
        cases hcondition : call.condition with
        | notEmpty =>
            have hcount := countP_le_succ hthread (.notifying .notFull) .notEmpty
            rw [hcondition] at hwork
            simp only [work] at hwork ⊢
            omega
        | notFull =>
            have hcount := countP_other hthread (.notifying .notFull) hcalls hother.symm
            rw [hcondition] at hwork
            rw [isAlert_notifying, if_pos rfl] at hcount
            simp only [work] at hwork ⊢
            omega
  | drained hempty hreason =>
      rcases Pool.mem_set hmem with heq | hmem
      · cases heq
      · obtain ⟨hopen, hstop, hwork⟩ := hinv call stop hmem
        refine ⟨hopen, hstop, ?_⟩
        cases hcondition : call.condition with
        | notEmpty =>
            show s.queue.sockets.length ≤ _
            rw [hempty]
            exact Nat.zero_le _
        | notFull =>
            rw [hcondition] at hwork
            have hcount := countP_other hthread .idle hcalls hother.symm
            exact hwork.trans (Nat.le_of_eq hcount.symm)

/-- A thread that is woken covers what the others do not. -/
theorem inv_wake (hinv : s.Inv) {call : Call} {stop stop' : Bool}
    (hthread : s.threads[i]? = some (.waiting call stop) ∨
      s.threads[i]? = some (.woken call stop)) :
    Inv { s with threads := s.threads.set i (.woken call stop') } := by
  intro call' stop'' hmem
  rcases Pool.mem_set hmem with heq | hmem
  · cases heq
  · obtain ⟨hopen, hstop, hwork⟩ := hinv call' stop'' hmem
    refine ⟨hopen, hstop, hwork.trans ?_⟩
    show _ ≤ (s.threads.set i (.woken call stop')).countP (isAlert call'.condition)
    rcases hthread with hthread | hthread
    · have hcount := countP_isAlert hthread (.woken call stop') call'.condition
      have hquiet : isAlert call'.condition (.waiting call stop) = false := rfl
      rw [hquiet, if_neg Bool.false_ne_true] at hcount
      omega
    · have hcount := countP_isAlert hthread (.woken call stop') call'.condition
      have hsame : isAlert call'.condition (.woken call stop) =
          isAlert call'.condition (.woken call stop') := rfl
      rw [hsame] at hcount
      omega

/-- A notification hands its cover on to the thread that it wakes. -/
theorem inv_notifyOne (hinv : s.Inv) {j : Nat} {call : Call} {stop : Bool}
    (hthread : s.threads[i]? = some (.notifying call.condition))
    (hwaiter : s.threads[j]? = some (.waiting call stop)) :
    Inv { s with threads := (s.threads.set i .idle).set j (.woken call stop) } := by
  have hne : i ≠ j := by
    rintro rfl
    rw [hthread] at hwaiter
    cases hwaiter
  have hwaiter' : (s.threads.set i .idle)[j]? = some (.waiting call stop) := by
    rw [List.getElem?_set_ne hne]
    exact hwaiter
  intro call' stop' hmem
  rcases Pool.mem_set hmem with heq | hmem
  · cases heq
  · rcases Pool.mem_set hmem with heq | hmem
    · cases heq
    · obtain ⟨hopen, hstop, hwork⟩ := hinv call' stop' hmem
      refine ⟨hopen, hstop, hwork.trans ?_⟩
      have hnotified := countP_isAlert hthread .idle call'.condition
      have hwoken := Pool.countP_set (p := isAlert call'.condition) hwaiter' (.woken call stop)
      have hsame : isAlert call'.condition (.notifying call.condition) =
          isAlert call'.condition (.woken call stop) := rfl
      have hquiet : isAlert call'.condition .idle = false := rfl
      have hquiet' : isAlert call'.condition (.waiting call stop) = false := rfl
      rw [hsame, hquiet, if_neg Bool.false_ne_true] at hnotified
      rw [hquiet', if_neg Bool.false_ne_true] at hwoken
      show _ ≤ ((s.threads.set i .idle).set j (.woken call stop)).countP
        (isAlert call'.condition)
      omega

theorem inv_notifyNone (hinv : s.Inv) {condition : Condition}
    (hthread : s.threads[i]? = some (.notifying condition))
    (hnone : ∀ call stop, .waiting call stop ∈ s.threads → call.condition ≠ condition) :
    Inv { s with threads := s.threads.set i .idle } := by
  intro call stop hmem
  rcases Pool.mem_set hmem with heq | hmem
  · cases heq
  · obtain ⟨hopen, hstop, hwork⟩ := hinv call stop hmem
    refine ⟨hopen, hstop, hwork.trans ?_⟩
    have hcount := countP_isAlert hthread .idle call.condition
    have hother : isAlert call.condition (.notifying condition) = false :=
      decide_eq_false (hnone call stop hmem).symm
    rw [hother] at hcount
    exact Nat.le_of_eq hcount.symm

/-- A close wakes everybody. -/
theorem inv_close (s : Monitor) :
    Inv { queue := s.queue.close, threads := s.threads.map Thread.wake } := by
  intro call stop hmem
  obtain ⟨thread, -, hwake⟩ := List.mem_map.mp hmem
  cases thread <;> cases hwake

theorem inv_step {t : Monitor} {label : Label} (hinv : s.Inv) (h : Step s label t) : t.Inv := by
  cases h with
  | push i socket stop hthread =>
      exact inv_section hinv hthread (Or.inl rfl) (section_runPush s i socket stop)
  | pushAgain i socket stop hthread =>
      exact inv_section hinv hthread (Or.inr ⟨_, _, rfl, rfl⟩) (section_runPush s i socket stop)
  | tryPush i socket hthread =>
      exact inv_section hinv hthread (Or.inl rfl) (section_runTryPush s i socket)
  | pop i stop hthread =>
      exact inv_section hinv hthread (Or.inl rfl) (section_runPop s i stop)
  | popAgain i stop hthread =>
      exact inv_section hinv hthread (Or.inr ⟨_, _, rfl, rfl⟩) (section_runPop s i stop)
  | notifyOne i j call stop hthread hwaiter => exact inv_notifyOne hinv hthread hwaiter
  | notifyNone i condition hthread hnone => exact inv_notifyNone hinv hthread hnone
  | close i hthread => exact inv_close s
  | requestStop i call stop hthread => exact inv_wake hinv hthread
  | spurious i call stop hthread => exact inv_wake hinv (Or.inl hthread)

end Steps

/-- No thread has a step of its own left: each has returned, or waits. -/
def Settled (s : Monitor) : Prop :=
  ∀ thread ∈ s.threads, thread = .idle ∨ ∃ call stop, thread = .waiting call stop

theorem countP_isAlert_of_settled {s : Monitor} (h : s.Settled) (condition : Condition) :
    s.threads.countP (isAlert condition) = 0 := by
  rw [List.countP_eq_zero]
  intro thread hmem
  rcases h thread hmem with rfl | ⟨call, stop, rfl⟩ <;> exact Bool.false_ne_true

/-- In every reachable state in which no thread has a step left but those that wait, a
waiting consumer finds the queue empty and open and a waiting producer finds it full and
open, and the stop of neither was requested. -/
theorem no_lost_wakeup (s : Monitor) (h : system.Reachable s) (hsettled : s.Settled) :
    (∀ stop, .waiting .pop stop ∈ s.threads →
      s.queue.sockets = [] ∧ s.queue.closed = false ∧ stop = false) ∧
    (∀ socket stop, .waiting (.push socket) stop ∈ s.threads →
      s.queue.capacity ≤ s.queue.sockets.length ∧ s.queue.closed = false ∧ stop = false) := by
  have hinv : s.Inv := h.invariant (fun _ => inv_initial) fun _ _ hinv ⟨_, hstep⟩ =>
    inv_step hinv hstep
  refine ⟨?_, ?_⟩
  · intro stop hmem
    obtain ⟨hopen, hstop, hwork⟩ := hinv .pop stop hmem
    rw [countP_isAlert_of_settled hsettled] at hwork
    exact ⟨List.eq_nil_of_length_eq_zero (Nat.le_zero.mp hwork), hopen, hstop⟩
  · intro socket stop hmem
    obtain ⟨hopen, hstop, hwork⟩ := hinv (.push socket) stop hmem
    rw [countP_isAlert_of_settled hsettled] at hwork
    exact ⟨Nat.sub_eq_zero_iff_le.mp (Nat.le_zero.mp hwork), hopen, hstop⟩

/-- The consumer waits, and there is nothing that it could have missed. -/
theorem no_lost_wakeup_pair : ∃ s, system.Reachable s ∧
    .waiting .pop false ∈ s.threads ∧ s.queue.sockets = [] ∧ s.queue.closed = false := by
  have hwaits := (System.Reachable.init (S := system) initial_pair).step
    ⟨_, Step.pop pair 1 false rfl⟩
  have hthreads : (pair.runPop 1 false).2.threads = [.idle, .waiting .pop false] := rfl
  have hmem : .waiting .pop false ∈ (pair.runPop 1 false).2.threads := by
    rw [hthreads]
    exact List.mem_cons_of_mem _ List.mem_cons_self
  have hsettled : Settled (pair.runPop 1 false).2 := by
    intro thread hthread
    rw [hthreads, List.mem_cons, List.mem_singleton] at hthread
    rcases hthread with rfl | rfl
    · exact Or.inl rfl
    · exact Or.inr ⟨_, _, rfl⟩
  obtain ⟨hempty, hopen, -⟩ := (no_lost_wakeup _ hwaits hsettled).1 false hmem
  exact ⟨_, hwaits, hmem, hempty, hopen⟩

end Monitor
end App
end Garcon
