import Garcon.Module.Sdk
import Garcon.Modules.Rules

/-!
# Guards

The two guard modules run the same loop over their rules: a rule that matches the method
and the target of a request and is not satisfied by it answers with a failure response.
`Guard` holds what they do differently.
-/

namespace Garcon
namespace Modules

open Http

structure Guard (ρ : Type) where
  methodPattern : ρ → Bytes
  targetPattern : ρ → Bytes
  targetKind : ρ → PatternKind
  requestSatisfiesRule : ρ → Request → Bool
  failureStatus : ρ → Int
  failureReason : ρ → Bytes
  failureBody : ρ → Bytes

namespace Guard

variable {ρ : Type} (g : Guard ρ)

def failureResponse (rule : ρ) : Response :=
  .text (g.failureStatus rule) (g.failureReason rule) (g.failureBody rule)

def handle (rules : List ρ) (request : Request) : Module.Result :=
  match rules with
  | [] => .pass
  | rule :: rules =>
    if !methodMatches (g.methodPattern rule) request.method then handle rules request
    else if !targetMatches (g.targetKind rule) (g.targetPattern rule) request.target then
      handle rules request
    else if g.requestSatisfiesRule rule request then handle rules request
    else .respond (g.failureResponse rule)

/-- A rule the request falls under and does not satisfy. -/
def Refuses (rule : ρ) (request : Request) : Prop :=
  methodMatches (g.methodPattern rule) request.method = true ∧
    targetMatches (g.targetKind rule) (g.targetPattern rule) request.target = true ∧
    g.requestSatisfiesRule rule request = false

instance (rule : ρ) (request : Request) : Decidable (g.Refuses rule request) :=
  inferInstanceAs (Decidable (_ ∧ _ ∧ _))

/-- The first rule that refuses the request. -/
def FirstRefusal (rules : List ρ) (request : Request) (rule : ρ) : Prop :=
  ∃ before after, rules = before ++ rule :: after ∧
    (∀ r ∈ before, ¬ g.Refuses r request) ∧ g.Refuses rule request

variable {g} {rules : List ρ} {request : Request}

theorem handle_cons (rule : ρ) (rules : List ρ) (request : Request) :
    g.handle (rule :: rules) request =
      if g.Refuses rule request then .respond (g.failureResponse rule)
      else g.handle rules request := by
  by_cases h : g.Refuses rule request
  · obtain ⟨hmethod, htarget, hsatisfied⟩ := h
    rw [if_pos ⟨hmethod, htarget, hsatisfied⟩]
    simp [handle, hmethod, htarget, hsatisfied]
  · rw [if_neg h, handle]
    split
    · rfl
    · next hmethod =>
        split
        · rfl
        · next htarget =>
            have hsatisfied : g.requestSatisfiesRule rule request = true := by
              simp only [Bool.not_eq_true', Bool.not_eq_false] at hmethod htarget
              simpa [Refuses, hmethod, htarget] using h
            rw [if_pos hsatisfied]

/-- The outcome depends on which rules refuse, and on nothing else of the request. -/
theorem handle_congr {left right : Request}
    (h : ∀ rule ∈ rules, (g.Refuses rule left ↔ g.Refuses rule right)) :
    g.handle rules left = g.handle rules right := by
  induction rules with
  | nil => rfl
  | cons rule rules ih =>
      rw [handle_cons, handle_cons, ih fun r hr => h r (List.mem_cons_of_mem rule hr)]
      by_cases hrule : g.Refuses rule left
      · rw [if_pos hrule, if_pos ((h rule List.mem_cons_self).mp hrule)]
      · rw [if_neg hrule, if_neg fun hr => hrule ((h rule List.mem_cons_self).mpr hr)]

theorem firstRefusal_cons {rule first : ρ} :
    g.FirstRefusal (first :: rules) request rule ↔
      if g.Refuses first request then rule = first else g.FirstRefusal rules request rule := by
  by_cases hfirst : g.Refuses first request
  · rw [if_pos hfirst]
    constructor
    · rintro ⟨before, after, hsplit, hbefore, -⟩
      cases before with
      | nil =>
          rw [List.nil_append, List.cons.injEq] at hsplit
          exact hsplit.1.symm
      | cons head before =>
          rw [List.cons_append, List.cons.injEq] at hsplit
          exact absurd (hsplit.1 ▸ hfirst) (hbefore head List.mem_cons_self)
    · rintro rfl
      exact ⟨[], rules, rfl, by simp, hfirst⟩
  · rw [if_neg hfirst]
    constructor
    · rintro ⟨before, after, hsplit, hbefore, hrule⟩
      cases before with
      | nil =>
          rw [List.nil_append, List.cons.injEq] at hsplit
          exact absurd (hsplit.1 ▸ hrule) hfirst
      | cons head before =>
          rw [List.cons_append, List.cons.injEq] at hsplit
          exact ⟨before, after, hsplit.2,
            fun r hr => hbefore r (List.mem_cons_of_mem head hr), hrule⟩
    · rintro ⟨before, after, rfl, hbefore, hrule⟩
      refine ⟨first :: before, after, rfl, ?_, hrule⟩
      intro r hr
      rcases List.mem_cons.mp hr with rfl | hr
      · exact hfirst
      · exact hbefore r hr

/-- A guard passes, or answers with the failure response of the first rule that refuses. -/
theorem handle_spec (rules : List ρ) (request : Request) :
    g.handle rules request = .pass ∧ (∀ rule, ¬ g.FirstRefusal rules request rule) ∨
      ∃ rule, g.FirstRefusal rules request rule ∧
        g.handle rules request = .respond (g.failureResponse rule) := by
  induction rules with
  | nil =>
      refine Or.inl ⟨rfl, ?_⟩
      rintro rule ⟨before, after, hsplit, -⟩
      simp at hsplit
  | cons first rules ih =>
      rw [handle_cons]
      by_cases hfirst : g.Refuses first request
      · rw [if_pos hfirst]
        exact Or.inr ⟨first, by rw [firstRefusal_cons, if_pos hfirst], rfl⟩
      · rw [if_neg hfirst]
        simp only [firstRefusal_cons, if_neg hfirst]
        exact ih

theorem eq_of_firstRefusal {rule rule' : ρ} (h : g.FirstRefusal rules request rule)
    (h' : g.FirstRefusal rules request rule') : rule = rule' := by
  induction rules with
  | nil =>
      obtain ⟨before, after, hsplit, -⟩ := h
      simp at hsplit
  | cons first rules ih =>
      rw [firstRefusal_cons] at h h'
      by_cases hfirst : g.Refuses first request
      · rw [if_pos hfirst] at h h'
        rw [h, h']
      · rw [if_neg hfirst] at h h'
        exact ih h h'

theorem handle_eq_respond_iff {response : Response} :
    g.handle rules request = .respond response ↔
      ∃ rule, g.FirstRefusal rules request rule ∧ g.failureResponse rule = response := by
  constructor
  · intro h
    rcases handle_spec rules request with ⟨hpass, -⟩ | ⟨rule, hrule, hrespond⟩
    · rw [hpass] at h
      cases h
    · refine ⟨rule, hrule, ?_⟩
      rw [hrespond] at h
      simpa [Module.Result.respond] using h
  · rintro ⟨rule, hrule, rfl⟩
    rcases handle_spec rules request with ⟨-, hnone⟩ | ⟨rule', hrule', hrespond⟩
    · exact absurd hrule (hnone rule)
    · rw [eq_of_firstRefusal hrule hrule', hrespond]

end Guard
end Modules
end Garcon
