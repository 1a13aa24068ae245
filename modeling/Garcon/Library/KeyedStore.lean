import Mathlib.Data.List.Basic

/-!
# Keyed stores

A store keeps one entry for each key, and an operation works on the entry of one key at
most.  What the operations on a key answer in a run depends on these operations alone, so
the others can be deleted from the run.
-/

namespace KeyedStore

variable {Op Key Entry Answer : Type}

/-- An operation answers from the entry of its key and leaves every other entry alone.
An operation without a key answers by itself. -/
structure Local (step : Op → (Key → Entry) → Answer × (Key → Entry)) (key : Op → Option Key) :
    Prop where
  answer_eq : ∀ {op s s'}, (∀ k, key op = some k → s k = s' k) → (step op s).1 = (step op s').1
  entry_eq : ∀ {op s s' k}, key op = some k → s k = s' k → (step op s).2 k = (step op s').2 k
  frame : ∀ {op s k}, key op ≠ some k → (step op s).2 k = s k

/-- The operations of a run with their answers, and the store behind the last. -/
def run {Store : Type} (step : Op → Store → Answer × Store) :
    List Op → Store → List (Op × Answer) × Store
  | [], s => ([], s)
  | op :: ops, s =>
    let first := step op s
    let rest := run step ops first.2
    ((op, first.1) :: rest.1, rest.2)

/-- The part of a run that belongs to the owned operations. -/
def answersTo (own : Op → Bool) (answered : List (Op × Answer)) : List (Op × Answer) :=
  answered.filter fun p => own p.1

theorem answersTo_run_cons {Store : Type} {step : Op → Store → Answer × Store}
    {own : Op → Bool} (op : Op) (ops : List Op) (s : Store) :
    answersTo own (run step (op :: ops) s).1 =
      if own op = true then
        (op, (step op s).1) :: answersTo own (run step ops (step op s).2).1
      else answersTo own (run step ops (step op s).2).1 := by
  by_cases hop : own op = true
  · rw [if_pos hop]
    exact List.filter_cons_of_pos hop
  · rw [if_neg hop]
    exact List.filter_cons_of_neg hop

theorem answersTo_append (own : Op → Bool) (answered answered' : List (Op × Answer)) :
    answersTo own (answered ++ answered') = answersTo own answered ++ answersTo own answered' :=
  List.filter_append _ _

theorem answersTo_run_of_none_owned {Store : Type} {step : Op → Store → Answer × Store}
    {own : Op → Bool} {ops : List Op} (h : ∀ op ∈ ops, own op = false) (s : Store) :
    answersTo own (run step ops s).1 = [] := by
  induction ops generalizing s with
  | nil => rfl
  | cons op ops ih =>
      rw [answersTo_run_cons, h op List.mem_cons_self, if_neg Bool.false_ne_true]
      apply ih
      exact fun op hop => h op (List.mem_cons_of_mem _ hop)

theorem run_append {Store : Type} (step : Op → Store → Answer × Store) (ops ops' : List Op)
    (s : Store) :
    run step (ops ++ ops') s = ((run step ops s).1 ++ (run step ops' (run step ops s).2).1,
      (run step ops' (run step ops s).2).2) := by
  induction ops generalizing s with
  | nil => rfl
  | cons op ops ih =>
      rw [List.cons_append, run, ih]
      rfl

section Deletion

variable {step : Op → (Key → Entry) → Answer × (Key → Entry)} {key : Op → Option Key} {k : Key}
  {own keep : Op → Bool} {ops : List Op} {s s' : Key → Entry}

/-- Let every operation on a key be among the owned ones, and every owned one among the
kept ones.  Then deleting the others changes no answer to an owned one. -/
theorem Local.run_filter (h : Local step key)
    (hown : ∀ op ∈ ops, own op = true ↔ key op = some k)
    (hkeep : ∀ op ∈ ops, own op = true → keep op = true) (hs : s k = s' k) :
    answersTo own (run step ops s).1 = answersTo own (run step (ops.filter keep) s').1 := by
  induction ops generalizing s s' with
  | nil => rfl
  | cons op ops ih =>
      have ih := fun {s s'} => @ih s s' (fun op hop => hown op (List.mem_cons_of_mem _ hop))
        fun op hop => hkeep op (List.mem_cons_of_mem _ hop)
      by_cases hop : own op = true
      · have hkey := (hown op List.mem_cons_self).mp hop
        have hanswer : (step op s).1 = (step op s').1 := by
          apply h.answer_eq
          intro k' hk'
          rw [hkey, Option.some.injEq] at hk'
          rw [← hk', hs]
        rw [List.filter_cons_of_pos (hkeep op List.mem_cons_self hop), answersTo_run_cons,
          answersTo_run_cons, if_pos hop, if_pos hop, hanswer, ih (h.entry_eq hkey hs)]
      · have hkey : key op ≠ some k := fun hkey => hop ((hown op List.mem_cons_self).mpr hkey)
        rw [answersTo_run_cons, if_neg hop]
        by_cases hkept : keep op = true
        · rw [List.filter_cons_of_pos hkept, answersTo_run_cons, if_neg hop]
          apply ih
          rw [h.frame hkey, h.frame hkey, hs]
        · rw [List.filter_cons_of_neg hkept]
          apply ih
          rw [h.frame hkey, hs]

end Deletion

end KeyedStore
