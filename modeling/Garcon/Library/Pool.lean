import Mathlib

/-!
# Pools of threads

The threads of a system are a list in which a step replaces an entry.  What is counted over
the pool changes by that entry alone.
-/

namespace Pool

variable {τ : Type}

/-- A count after an entry was replaced, without subtraction. -/
theorem countP_set {p : τ → Bool} {threads : List τ} {i : Nat} {old : τ}
    (h : threads[i]? = some old) (new : τ) :
    (threads.set i new).countP p + (if p old then 1 else 0) =
      threads.countP p + (if p new then 1 else 0) := by
  induction threads generalizing i with
  | nil => cases h
  | cons thread threads ih =>
      cases i with
      | zero =>
          rw [List.getElem?_cons_zero, Option.some.injEq] at h
          subst h
          rw [List.set_cons_zero, List.countP_cons, List.countP_cons]
          omega
      | succ i =>
          rw [List.getElem?_cons_succ] at h
          have hrest := ih h
          rw [List.set_cons_succ, List.countP_cons, List.countP_cons]
          omega

/-- A sum after an entry was replaced, without subtraction. -/
theorem sum_map_set {f : τ → Nat} {threads : List τ} {i : Nat} {old : τ}
    (h : threads[i]? = some old) (new : τ) :
    ((threads.set i new).map f).sum + f old = (threads.map f).sum + f new := by
  induction threads generalizing i with
  | nil => cases h
  | cons thread threads ih =>
      cases i with
      | zero =>
          rw [List.getElem?_cons_zero, Option.some.injEq] at h
          subst h
          rw [List.set_cons_zero, List.map_cons, List.map_cons, List.sum_cons, List.sum_cons]
          omega
      | succ i =>
          rw [List.getElem?_cons_succ] at h
          have hrest := ih h
          rw [List.set_cons_succ, List.map_cons, List.map_cons, List.sum_cons, List.sum_cons]
          omega

/-- The entries around a replaced one stay. -/
theorem exists_split {threads : List τ} {i : Nat} {old : τ} (h : threads[i]? = some old) :
    ∃ before after, threads = before ++ old :: after ∧
      ∀ new, threads.set i new = before ++ new :: after := by
  induction threads generalizing i with
  | nil => cases h
  | cons thread threads ih =>
      cases i with
      | zero =>
          rw [List.getElem?_cons_zero, Option.some.injEq] at h
          subst h
          exact ⟨[], threads, rfl, fun _ => rfl⟩
      | succ i =>
          rw [List.getElem?_cons_succ] at h
          obtain ⟨before, after, hthreads, hset⟩ := ih h
          refine ⟨thread :: before, after, by rw [hthreads, List.cons_append], fun new => ?_⟩
          rw [List.set_cons_succ, hset, List.cons_append]

/-- What is collected over the pool changes by what the replaced entry has. -/
theorem filterMap_set {β : Type} {f : τ → Option β} {threads : List τ} {i : Nat} {old : τ}
    (h : threads[i]? = some old) (new : τ) :
    ∃ rest, (threads.filterMap f).Perm ((f old).toList ++ rest) ∧
      ((threads.set i new).filterMap f).Perm ((f new).toList ++ rest) := by
  obtain ⟨before, after, hthreads, hset⟩ := exists_split h
  have hfront : ∀ thread, ((before ++ thread :: after).filterMap f).Perm
      ((f thread).toList ++ (before.filterMap f ++ after.filterMap f)) := by
    intro thread
    rw [List.filterMap_append, List.filterMap_cons]
    cases f thread with
    | none => exact List.Perm.refl _
    | some value => exact List.perm_middle
  refine ⟨before.filterMap f ++ after.filterMap f, ?_, ?_⟩
  · rw [hthreads]
    exact hfront old
  · rw [hset]
    exact hfront new

/-- A replaced entry that looks the same leaves the image of the pool as it is. -/
theorem map_set_of_eq {β : Type} {f : τ → β} {threads : List τ} {i : Nat} {old new : τ}
    (h : threads[i]? = some old) (hsame : f new = f old) :
    (threads.set i new).map f = threads.map f := by
  obtain ⟨before, after, hthreads, hset⟩ := exists_split h
  rw [hset, hthreads, List.map_append, List.map_append, List.map_cons, List.map_cons, hsame]

/-- An entry of the new pool is the new one at its place or one that was there. -/
theorem getElem?_set_cases {threads : List τ} {i k : Nat} {new thread : τ}
    (h : (threads.set i new)[k]? = some thread) :
    (k = i ∧ thread = new) ∨ (k ≠ i ∧ threads[k]? = some thread) := by
  by_cases hk : i = k
  · subst hk
    rw [List.getElem?_set_self'] at h
    cases hold : threads[i]? with
    | none =>
        rw [hold] at h
        cases h
    | some old =>
        rw [hold] at h
        exact Or.inl ⟨rfl, (Option.some.inj h).symm⟩
  · rw [List.getElem?_set_ne hk] at h
    exact Or.inr ⟨fun heq => hk heq.symm, h⟩

/-- An entry of the new pool is the new one or one that was there. -/
theorem mem_set {threads : List τ} {i : Nat} {new thread : τ} (h : thread ∈ threads.set i new) :
    thread = new ∨ thread ∈ threads := (List.mem_or_eq_of_mem_set h).symm

end Pool
