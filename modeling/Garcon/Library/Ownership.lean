import Mathlib

/-!
# Unique owners

Objects hold resources.  Each live resource has one holder, which may hand it on to an object
that holds nothing, or give it up.
-/

namespace Ownership

variable {κ ρ : Type*}

/-- Every live resource has one holder, and nothing else is held. -/
structure Owned (held : κ → Option ρ) (live : Set ρ) : Prop where
  live_iff : ∀ r, r ∈ live ↔ ∃ k, held k = some r
  unique : ∀ k k' r, held k = some r → held k' = some r → k = k'

theorem owned_empty : Owned (fun _ : κ => (none : Option ρ)) ∅ where
  live_iff := fun r => iff_of_false (Set.notMem_empty r) nofun
  unique := nofun

namespace Owned

variable {held : κ → Option ρ} {live : Set ρ} {j k : κ} {r : ρ}

variable [DecidableEq κ]

/-- An object that holds nothing takes a resource that is not live. -/
theorem acquire (h : Owned held live) (hk : held k = none) (hr : r ∉ live) :
    Owned (Function.update held k (some r)) (insert r live) := by
  have hother : ∀ k', held k' ≠ some r := fun k' hk' => hr ((h.live_iff r).mpr ⟨k', hk'⟩)
  refine ⟨fun r' => ?_, fun k₁ k₂ r' h₁ h₂ => ?_⟩
  · rw [Set.mem_insert_iff, h.live_iff]
    constructor
    · rintro (rfl | ⟨k', hk'⟩)
      · exact ⟨k, Function.update_self ..⟩
      · have hne : k' ≠ k := fun heq => by rw [heq, hk] at hk'; cases hk'
        exact ⟨k', (Function.update_of_ne hne ..).trans hk'⟩
    · rintro ⟨k', hk'⟩
      by_cases heq : k' = k
      · rw [heq, Function.update_self, Option.some.injEq] at hk'
        exact .inl hk'.symm
      · rw [Function.update_of_ne heq] at hk'
        exact .inr ⟨k', hk'⟩
  · by_cases heq₁ : k₁ = k <;> by_cases heq₂ : k₂ = k
    · rw [heq₁, heq₂]
    · rw [heq₁, Function.update_self, Option.some.injEq] at h₁
      rw [Function.update_of_ne heq₂, ← h₁] at h₂
      exact absurd h₂ (hother k₂)
    · rw [heq₂, Function.update_self, Option.some.injEq] at h₂
      rw [Function.update_of_ne heq₁, ← h₂] at h₁
      exact absurd h₁ (hother k₁)
    · rw [Function.update_of_ne heq₁] at h₁
      rw [Function.update_of_ne heq₂] at h₂
      exact h.unique k₁ k₂ r' h₁ h₂

/-- The holder of a resource gives it up. -/
theorem release (h : Owned held live) (hk : held k = some r) :
    Owned (Function.update held k none) (live \ {r}) := by
  refine ⟨fun r' => ?_, fun k₁ k₂ r' h₁ h₂ => ?_⟩
  · rw [Set.mem_sdiff, Set.mem_singleton_iff, h.live_iff]
    constructor
    · rintro ⟨⟨k', hk'⟩, hne⟩
      have hother : k' ≠ k := fun heq => by
        rw [heq, hk, Option.some.injEq] at hk'
        exact hne hk'.symm
      exact ⟨k', (Function.update_of_ne hother ..).trans hk'⟩
    · rintro ⟨k', hk'⟩
      by_cases heq : k' = k
      · rw [heq, Function.update_self] at hk'
        cases hk'
      · rw [Function.update_of_ne heq] at hk'
        refine ⟨⟨k', hk'⟩, fun hsame => heq ?_⟩
        rw [hsame] at hk'
        exact h.unique k' k r hk' hk
  · by_cases heq₁ : k₁ = k
    · rw [heq₁, Function.update_self] at h₁
      cases h₁
    · by_cases heq₂ : k₂ = k
      · rw [heq₂, Function.update_self] at h₂
        cases h₂
      · rw [Function.update_of_ne heq₁] at h₁
        rw [Function.update_of_ne heq₂] at h₂
        exact h.unique k₁ k₂ r' h₁ h₂

/-- An object that holds nothing is given what another one holds. -/
theorem transfer (h : Owned held live) (hk : held k = none) (hne : j ≠ k) :
    Owned (Function.update (Function.update held k (held j)) j none) live := by
  cases hj : held j with
  | none =>
      have hsame : Function.update (Function.update held k none) j none = held := by
        funext k'
        by_cases hk' : k' = j
        · rw [hk', Function.update_self, hj]
        · rw [Function.update_of_ne hk']
          by_cases hk'' : k' = k
          · rw [hk'', Function.update_self, hk]
          · rw [Function.update_of_ne hk'']
      rw [hsame]
      exact h
  | some r =>
      -- The resource is given up by the one, and taken by the other.
      have hlive : r ∈ live := (h.live_iff r).mpr ⟨j, hj⟩
      have hk' : Function.update held j none k = none := by
        rw [Function.update_of_ne hne.symm, hk]
      have hmoved := (h.release hj).acquire hk' fun hr => hr.2 rfl
      rw [Function.update_comm hne.symm]
      rw [Set.insert_sdiff_singleton, Set.insert_eq_of_mem hlive] at hmoved
      exact hmoved

end Owned

end Ownership
