import Mathlib

/-!
# Transition systems

A system has initial states and a step relation.  A property that holds of the initial
states and that every step preserves holds of every reachable state.
-/

structure System (σ : Type) where
  Init : σ → Prop
  Step : σ → σ → Prop

namespace System

variable {σ : Type} {S : System σ}

inductive Reachable (S : System σ) : σ → Prop where
  | init {s : σ} (h : S.Init s) : Reachable S s
  | step {s t : σ} (hs : Reachable S s) (h : S.Step s t) : Reachable S t

theorem Reachable.invariant {P : σ → Prop} (hinit : ∀ s, S.Init s → P s)
    (hstep : ∀ s t, P s → S.Step s t → P t) {s : σ} (h : S.Reachable s) : P s := by
  induction h with
  | init h => exact hinit _ h
  | step _ h ih => exact hstep _ _ ih h

end System
