import Mathlib

/-!
# Protocols of many things

A log tells, in one order, what happened to many things.  Each of them has to follow the same
protocol, an automaton over the events, whatever happens to the others in between.
-/

namespace Protocol

variable {κ ε σ : Type*} [DecidableEq κ]

/-- What happened to one thing. -/
def eventsOf (k : κ) (log : List (κ × ε)) : List ε :=
  (log.filter fun entry => entry.1 = k).map Prod.snd

variable (P : DFA ε σ)

/-- The phases of all things after a log. -/
def after (phases : κ → σ) (log : List (κ × ε)) (k : κ) : σ :=
  P.evalFrom (phases k) (eventsOf k log)

variable {P} {phases : κ → σ} {log log' : List (κ × ε)} {k : κ} {e : ε}

@[simp] theorem after_nil : after P phases [] = phases := rfl

theorem after_cons :
    after P phases ((k, e) :: log) =
      after P (Function.update phases k (P.step (phases k) e)) log := by
  funext j
  unfold after eventsOf
  by_cases hj : k = j
  · subst hj
    rw [List.filter_cons_of_pos (by simp), List.map_cons, DFA.evalFrom_cons,
      Function.update_self]
  · rw [List.filter_cons_of_neg (by simpa using hj), Function.update_of_ne (Ne.symm hj)]

theorem after_append : after P phases (log ++ log') = after P (after P phases log) log' := by
  funext j
  unfold after eventsOf
  rw [List.filter_append, List.map_append, DFA.evalFrom_of_append]

/-- The events of one thing in a row. -/
theorem after_map (k : κ) (events : List ε) :
    after P phases (events.map fun e => (k, e)) =
      Function.update phases k (P.evalFrom (phases k) events) := by
  induction events generalizing phases with
  | nil => exact (Function.update_eq_self k phases).symm
  | cons e events ih =>
      rw [List.map_cons, after_cons, ih, Function.update_self, Function.update_idem,
        DFA.evalFrom_cons]

/-- Events that leave the phases as they are. -/
theorem after_eq_self (h : ∀ entry ∈ log, P.step (phases entry.1) entry.2 = phases entry.1) :
    after P phases log = phases := by
  induction log with
  | nil => rfl
  | cons entry log ih =>
      rw [after_cons, h entry List.mem_cons_self, Function.update_eq_self]
      exact ih fun other hother => h other (List.mem_cons_of_mem _ hother)

/-- The phase of one thing tells that its events are a word of the protocol. -/
theorem eventsOf_mem_accepts (h : after P (fun _ => P.start) log k ∈ P.accept) :
    eventsOf k log ∈ P.accepts :=
  h

end Protocol
