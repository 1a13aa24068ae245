import Mathlib

/-!
# Computing along a list up to the first error

A computation that runs over a list gives a result for every element, or stops with the error
of the first one that fails.  Where the elements come in the order of their keys, the first
one that fails is the one with the least key.
-/

namespace FirstError

variable {α β ε κ : Type*} {f : α → Except ε β} {x : α} {xs : List α} {e : ε}

/-- The first element that fails fails with this error. -/
def FailsAt (f : α → Except ε β) (xs : List α) (e : ε) : Prop :=
  ∃ before x after, xs = before ++ x :: after ∧ f x = .error e ∧
    ∀ y ∈ before, ∃ b, f y = .ok b

theorem not_failsAt_nil : ¬ FailsAt f [] e := by
  rintro ⟨before, x, after, hsplit, -⟩
  cases before <;> cases hsplit

theorem failsAt_cons_of_error {e' : ε} (h : f x = .error e') :
    FailsAt f (x :: xs) e ↔ e' = e := by
  constructor
  · rintro ⟨before, bad, after, hsplit, hbad, hbefore⟩
    cases before with
    | nil =>
      cases hsplit
      rw [h, Except.error.injEq] at hbad
      exact hbad
    | cons first before =>
      cases hsplit
      obtain ⟨b, hb⟩ := hbefore x List.mem_cons_self
      rw [h] at hb
      cases hb
  · intro he
    exact ⟨[], x, xs, rfl, he ▸ h, fun y hy => absurd hy List.not_mem_nil⟩

theorem failsAt_cons_of_ok {b : β} (h : f x = .ok b) :
    FailsAt f (x :: xs) e ↔ FailsAt f xs e := by
  constructor
  · rintro ⟨before, bad, after, hsplit, hbad, hbefore⟩
    cases before with
    | nil =>
      cases hsplit
      rw [h] at hbad
      cases hbad
    | cons first before =>
      cases hsplit
      exact ⟨before, bad, after, rfl, hbad, fun y hy => hbefore y (List.mem_cons_of_mem _ hy)⟩
  · rintro ⟨before, bad, after, rfl, hbad, hbefore⟩
    exact ⟨x :: before, bad, after, rfl, hbad, List.forall_mem_cons.mpr ⟨⟨b, h⟩, hbefore⟩⟩

/-- All elements have their results. -/
theorem mapM_eq_ok_iff {ys : List β} :
    xs.mapM f = .ok ys ↔ List.Forall₂ (fun x y => f x = .ok y) xs ys := by
  induction xs generalizing ys with
  | nil =>
    rw [List.mapM_nil, List.forall₂_nil_left_iff]
    exact ⟨fun h => (Except.ok.inj h).symm, fun h => congrArg Except.ok h.symm⟩
  | cons x xs ih =>
    rw [List.mapM_cons, List.forall₂_cons_left_iff]
    cases hx : f x with
    | error e =>
      refine iff_of_false nofun fun h => ?_
      obtain ⟨b, -, hb, -⟩ := h
      cases hb
    | ok b =>
      cases hxs : xs.mapM f with
      | error e =>
        refine iff_of_false nofun fun h => ?_
        obtain ⟨b', rest, -, hrest, -⟩ := h
        rw [ih.mpr hrest] at hxs
        cases hxs
      | ok rest =>
        constructor
        · intro h
          exact ⟨b, rest, rfl, ih.mp hxs, (Except.ok.inj h).symm⟩
        · rintro ⟨b', rest', hb, hrest, rfl⟩
          rw [ih.mpr hrest, Except.ok.injEq] at hxs
          rw [Except.ok.injEq] at hb
          rw [hb, hxs]
          rfl

theorem mapM_eq_error_iff : xs.mapM f = .error e ↔ FailsAt f xs e := by
  induction xs with
  | nil => exact iff_of_false nofun not_failsAt_nil
  | cons x xs ih =>
    rw [List.mapM_cons]
    cases hx : f x with
    | error e' =>
      rw [failsAt_cons_of_error hx]
      exact ⟨Except.error.inj, congrArg Except.error⟩
    | ok b =>
      rw [failsAt_cons_of_ok hx, ← ih]
      cases xs.mapM f with
      | error e' => exact Iff.rfl
      | ok rest => exact iff_of_false nofun nofun

/-- Along a list whose keys rise, the element that fails is the one with the least key. -/
theorem failsAt_iff_of_rising [LinearOrder κ] {key : α → κ}
    (hrises : xs.Pairwise fun x y => key x < key y) :
    FailsAt f xs e ↔ ∃ x ∈ xs, f x = .error e ∧ ∀ y ∈ xs, key y < key x → ∃ b, f y = .ok b := by
  constructor
  · rintro ⟨before, x, after, rfl, hbad, hbefore⟩
    obtain ⟨-, hafter, -⟩ := List.pairwise_append.mp hrises
    refine ⟨x, List.mem_append_right _ List.mem_cons_self, hbad, fun y hy hless => ?_⟩
    rcases List.mem_append.mp hy with hy | hy
    · exact hbefore y hy
    · rcases List.mem_cons.mp hy with rfl | hy
      · exact absurd hless (lt_irrefl _)
      · exact absurd hless (lt_asymm ((List.pairwise_cons.mp hafter).1 y hy))
  · rintro ⟨x, hx, hbad, hbefore⟩
    obtain ⟨before, after, rfl⟩ := List.append_of_mem hx
    have hless := (List.pairwise_append.mp hrises).2.2
    exact ⟨before, x, after, rfl, hbad, fun y hy =>
      hbefore y (List.mem_append_left _ hy) (hless y hy x List.mem_cons_self)⟩

theorem exists_mapM_eq_ok_iff : (∃ ys, xs.mapM f = .ok ys) ↔ ∀ x ∈ xs, ∃ b, f x = .ok b := by
  constructor
  · rintro ⟨ys, hys⟩ x hx
    have hall := mapM_eq_ok_iff.mp hys
    clear hys
    induction hall with
    | nil => cases hx
    | cons hy hys ih =>
      rcases List.mem_cons.mp hx with rfl | hx
      · exact ⟨_, hy⟩
      · exact ih hx
  · intro h
    cases hxs : xs.mapM f with
    | ok ys => exact ⟨ys, rfl⟩
    | error e =>
      obtain ⟨before, x, after, rfl, hbad, -⟩ := mapM_eq_error_iff.mp hxs
      obtain ⟨b, hb⟩ := h x (List.mem_append_right _ List.mem_cons_self)
      rw [hbad] at hb
      cases hb

/-- A second pass over the results of a first one that succeeded. -/
theorem mapM_of_mapM_eq_ok {γ : Type*} {g : β → Except ε γ} {ys : List β}
    (h : xs.mapM f = .ok ys) : ys.mapM g = xs.mapM fun x => (f x).bind g := by
  have hall := mapM_eq_ok_iff.mp h
  clear h
  induction hall with
  | nil => rfl
  | cons hx hxs ih =>
    rw [List.mapM_cons, List.mapM_cons, ih, hx]
    rfl

end FirstError
