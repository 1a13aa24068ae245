import Garcon.Library.System

/-!
# Refinement and bounded runs

A map refines a system by another when every step of the first is a step of the second under
the map, or leaves the image as it is.  Steps that decrease a measure make up runs that are
no longer than the measure.
-/

namespace System

variable {σ τ : Type} {S : System σ} {T : System τ}

/-- The steps are asked of the reachable states only. -/
structure Refinement (S : System σ) (T : System τ) (abs : σ → τ) : Prop where
  init : ∀ s, S.Init s → T.Init (abs s)
  step : ∀ s t, S.Reachable s → S.Step s t → abs t = abs s ∨ T.Step (abs s) (abs t)

theorem Refinement.reachable {abs : σ → τ} (href : Refinement S T abs) {s : σ}
    (h : S.Reachable s) : T.Reachable (abs s) := by
  induction h with
  | init h => exact .init (href.init _ h)
  | @step s t hs h ih =>
      cases href.step s t hs h with
      | inl hsame => rw [hsame]; exact ih
      | inr hstep => exact .step ih hstep

/-- A run of so many steps. -/
inductive Steps (S : System σ) : Nat → σ → σ → Prop where
  | done (s : σ) : Steps S 0 s s
  | step {n : Nat} {s t u : σ} (h : S.Step s t) (hrest : Steps S n t u) : Steps S (n + 1) s u

theorem Steps.reachable {n : Nat} {s t : σ} (hs : S.Reachable s) (h : Steps S n s t) :
    S.Reachable t := by
  induction h with
  | done s => exact hs
  | step h _ ih => exact ih (hs.step h)

/-- Where every step decreases a measure, a run is no longer than what is left of it. -/
theorem Steps.measure {P : σ → Prop} (measure : σ → Nat)
    (hstep : ∀ s t, P s → S.Step s t → P t ∧ measure t < measure s) {n : Nat} {s t : σ}
    (hs : P s) (h : Steps S n s t) : P t ∧ n + measure t ≤ measure s := by
  induction h with
  | done s => exact ⟨hs, Nat.le_of_eq (Nat.zero_add _)⟩
  | step h _ ih =>
      obtain ⟨ht, hless⟩ := hstep _ _ hs h
      obtain ⟨hu, hle⟩ := ih ht
      exact ⟨hu, by omega⟩

end System
