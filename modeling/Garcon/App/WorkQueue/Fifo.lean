import Garcon.App.WorkQueue.Monitor

/-!
# The queue is first in, first out

In every run of any number of threads the sockets popped and the sockets still in the
queue are the sockets queued, in order.  Once the queue is closed nothing is queued any
more, and the pops that return deliver what is left.
-/

namespace Garcon
namespace App

namespace Label

def queued : Label → Option Socket
  | .pushed socket .queued => some socket
  | _ => none

def delivered : Label → Option Socket
  | .popped result _ => result
  | _ => none

/-- A call of `pop` returns. -/
def isPop : Label → Bool
  | .popped _ _ => true
  | _ => false

theorem queued_of_ne {socket : Socket} {result : QueuePushResult} (h : result ≠ .queued) :
    queued (.pushed socket result) = none := by
  cases result with
  | queued => exact absurd rfl h
  | full => rfl
  | closed => rfl

end Label

def queuedBy (labels : List Label) : List Socket := labels.filterMap Label.queued

def deliveredBy (labels : List Label) : List Socket := labels.filterMap Label.delivered

namespace Monitor

variable {s t : Monitor} {label : Label} {labels : List Label}

/-- What a step queues goes to the back of the queue, and what it delivers comes from the
front. -/
theorem sockets_of_step (h : Step s label t) :
    s.queue.sockets ++ label.queued.toList = label.delivered.toList ++ t.queue.sockets := by
  rcases step_cases h with ⟨i, condition, thread, -, -, hsection⟩ | ⟨rfl, hqueue | hqueue⟩
  · cases hsection with
    | waits hopen hnothing => simp [Label.queued, Label.delivered]
    | queued hopen hroom => simp [Label.queued, Label.delivered]
    | refused hresult hreason hfull =>
        rw [Label.queued_of_ne hresult]
        simp [Label.delivered]
    | delivered hfront => simp [Label.queued, Label.delivered, hfront]
    | drained hempty hreason => simp [Label.queued, Label.delivered]
  · rw [hqueue]
    simp [Label.queued, Label.delivered]
  · rw [hqueue]
    simp [Label.queued, Label.delivered, WorkQueue.close]

theorem length_le_of_step (h : Step s label t)
    (hs : s.queue.sockets.length ≤ s.queue.capacity) :
    t.queue.sockets.length ≤ t.queue.capacity := by
  rcases step_cases h with ⟨i, condition, thread, -, -, hsection⟩ | ⟨rfl, hqueue | hqueue⟩
  · cases hsection with
    | waits hopen hnothing => exact hs
    | queued hopen hroom =>
        show (s.queue.sockets ++ [_]).length ≤ s.queue.capacity
        rw [List.length_append, List.length_singleton]
        omega
    | refused hresult hreason hfull => exact hs
    | delivered hfront =>
        rw [hfront, List.length_cons] at hs
        exact Nat.le_of_succ_le hs
    | drained hempty hreason => exact hs
  · rw [hqueue]
    exact hs
  · rw [hqueue]
    exact hs

/-- A closed queue stays closed, and nothing is queued in it. -/
theorem closed_of_step (h : Step s label t) (hclosed : s.queue.closed = true) :
    t.queue.closed = true ∧ label.queued = none := by
  rcases step_cases h with ⟨i, condition, thread, -, -, hsection⟩ | ⟨rfl, hqueue | hqueue⟩
  · cases hsection with
    | waits hopen hnothing =>
        rw [hclosed] at hopen
        cases hopen
    | queued hopen hroom =>
        rw [hclosed] at hopen
        cases hopen
    | refused hresult hreason hfull => exact ⟨hclosed, Label.queued_of_ne hresult⟩
    | delivered hfront => exact ⟨hclosed, rfl⟩
    | drained hempty hreason => exact ⟨hclosed, rfl⟩
  · rw [hqueue]
    exact ⟨hclosed, rfl⟩
  · rw [hqueue]
    exact ⟨rfl, rfl⟩

/-- A pop that returns takes the front of the queue, if there is one. -/
theorem sockets_of_pop (h : Step s label t) (hpop : label.isPop = true) :
    label.delivered = s.queue.sockets.head? := by
  rcases step_cases h with ⟨i, condition, thread, -, -, hsection⟩ | ⟨rfl, -⟩
  · cases hsection with
    | waits hopen hnothing => cases hpop
    | queued hopen hroom => cases hpop
    | refused hresult hreason hfull => cases hpop
    | delivered hfront => simp [Label.delivered, hfront]
    | drained hempty hreason => simp [Label.delivered, hempty]
  · cases hpop

theorem delivered_of_not_pop (hpop : label.isPop = false) : label.delivered = none := by
  cases label with
  | internal => rfl
  | pushed socket result => rfl
  | popped result stop => cases hpop

/-- No pop waits on a closed queue. -/
theorem isPop_runPop (hclosed : s.queue.closed = true) (i : Nat) (stop : Bool) :
    (s.runPop i stop).1.isPop = true := by
  unfold runPop WorkQueue.popSection WorkQueue.popReady WorkQueue.takeFront
  rw [hclosed]
  cases s.queue.sockets <;> rfl

/-- Over a run the queue passes on what is queued. -/
theorem sockets_of_run (h : Run s labels t) :
    s.queue.sockets ++ queuedBy labels = deliveredBy labels ++ t.queue.sockets := by
  induction h with
  | done s => simp [queuedBy, deliveredBy]
  | @step s t u label labels hstep hrest ih =>
      have hqueued : queuedBy (label :: labels) = label.queued.toList ++ queuedBy labels := by
        unfold queuedBy
        cases hlabel : label.queued <;> simp [hlabel]
      have hdelivered : deliveredBy (label :: labels) =
          label.delivered.toList ++ deliveredBy labels := by
        unfold deliveredBy
        cases hlabel : label.delivered <;> simp [hlabel]
      rw [hqueued, hdelivered, ← List.append_assoc, sockets_of_step hstep, List.append_assoc, ih,
        List.append_assoc]

/-- After a close, the pops that return deliver what is in the queue, one each. -/
theorem delivered_of_closed_run (h : Run s labels t) (hclosed : s.queue.closed = true) :
    queuedBy labels = [] ∧
      deliveredBy labels = s.queue.sockets.take (labels.countP Label.isPop) := by
  induction h with
  | done s => exact ⟨rfl, rfl⟩
  | @step s t u label labels hstep hrest ih =>
      obtain ⟨hclosed', hnone⟩ := closed_of_step hstep hclosed
      obtain ⟨hqueued, hdelivered⟩ := ih hclosed'
      have hsockets := sockets_of_step hstep
      rw [hnone, Option.toList_none, List.append_nil] at hsockets
      refine ⟨?_, ?_⟩
      · unfold queuedBy at hqueued ⊢
        rw [List.filterMap_cons_none hnone, hqueued]
      · unfold deliveredBy at hdelivered ⊢
        by_cases hpop : label.isPop = true
        · have hhead := sockets_of_pop hstep hpop
          rw [List.countP_cons_of_pos hpop]
          cases hcase : label.delivered with
          | none =>
              rw [hcase] at hhead hsockets
              have hempty := List.head?_eq_none_iff.mp hhead.symm
              rw [hempty, Option.toList_none, List.nil_append] at hsockets
              rw [List.filterMap_cons_none hcase, hdelivered, ← hsockets, hempty, List.take_nil,
                List.take_nil]
          | some socket =>
              rw [hcase, Option.toList_some, List.singleton_append] at hsockets
              rw [List.filterMap_cons_some hcase, hdelivered, hsockets]
              rfl
        · rw [Bool.not_eq_true] at hpop
          have hcase := delivered_of_not_pop hpop
          rw [hcase, Option.toList_none, List.nil_append] at hsockets
          rw [List.countP_cons_of_neg (by rw [hpop]; decide), List.filterMap_cons_none hcase,
            hdelivered, hsockets]

/-- From an open empty queue, in every run: what was popped is what was queued up to what
is still in the queue; the queue keeps its capacity; a push is told that the queue is full
only when it is, and a pop returns nothing only from an empty queue that is closed or on
request; and after a close nothing is queued, no pop waits, and the pops that return
deliver what was left in order. -/
theorem bounded_fifo (s₀ s : Monitor) (labels : List Label) (hinit : Initial s₀)
    (hrun : Run s₀ labels s) :
    queuedBy labels = deliveredBy labels ++ s.queue.sockets ∧
    s.queue.sockets.length ≤ s.queue.capacity ∧
    (∀ label t, Step s label t →
      (∀ socket, label = .pushed socket .full →
        s.queue.closed = false ∧ s.queue.sockets.length = s.queue.capacity) ∧
      (s.queue.closed = true → ∀ socket, label ≠ .pushed socket .queued) ∧
      (∀ stop, label = .popped none stop →
        s.queue.sockets = [] ∧ (s.queue.closed = true ∨ stop = true))) ∧
    (s.queue.closed = true →
      (∀ i stop, (s.runPop i stop).1.isPop = true) ∧
      ∀ more t, Run s more t →
        t.queue.closed = true ∧ queuedBy more = [] ∧
          deliveredBy more = s.queue.sockets.take (more.countP Label.isPop)) := by
  have hsockets := sockets_of_run hrun
  rw [hinit.queue.1, List.nil_append] at hsockets
  have hlength : s.queue.sockets.length ≤ s.queue.capacity := by
    have hzero : s₀.queue.sockets.length ≤ s₀.queue.capacity := by
      rw [hinit.queue.1]
      exact Nat.zero_le _
    clear hsockets hinit
    induction hrun with
    | done s => exact hzero
    | step hstep hrest ih => exact ih (length_le_of_step hstep hzero)
  refine ⟨hsockets, hlength, ?_, ?_⟩
  · intro label t hstep
    refine ⟨?_, ?_, ?_⟩
    · rintro socket rfl
      rcases step_cases hstep with ⟨i, condition, thread, -, -, hsection⟩ | ⟨hlabel, -⟩
      · cases hsection with
        | refused hresult hreason hfull =>
            obtain ⟨hopen, hfull⟩ := hfull rfl
            exact ⟨hopen, Nat.le_antisymm hlength hfull⟩
      · cases hlabel
    · rintro hclosed socket rfl
      cases (closed_of_step hstep hclosed).2
    · rintro stop rfl
      rcases step_cases hstep with ⟨i, condition, thread, -, -, hsection⟩ | ⟨hlabel, -⟩
      · cases hsection with
        | drained hempty hreason => exact ⟨hempty, hreason⟩
      · cases hlabel
  · intro hclosed
    refine ⟨?_, ?_⟩
    · exact isPop_runPop hclosed
    · intro more t hmore
      obtain ⟨hqueued, hdelivered⟩ := delivered_of_closed_run hmore hclosed
      refine ⟨?_, hqueued, hdelivered⟩
      clear hqueued hdelivered hlength hsockets hrun
      induction hmore with
      | done s => exact hclosed
      | step hstep hrest ih => exact ih (closed_of_step hstep hclosed).1

def client : Socket := ⟨7, Ascii.ascii "10.0.0.7"⟩

/-- A socket is queued by the one and delivered to the other. -/
theorem bounded_fifo_pair : ∃ labels s, Run pair labels s ∧ deliveredBy labels = [client] ∧
    queuedBy labels = deliveredBy labels ++ s.queue.sockets := by
  have hpush := Step.push pair 0 client false rfl
  have hpop := Step.pop (pair.runPush 0 client false).2 1 false rfl
  have hrun := Run.step hpush (.step hpop (.done _))
  exact ⟨_, _, hrun, rfl, (bounded_fifo pair _ _ initial_pair hrun).1⟩

end Monitor
end App
end Garcon
