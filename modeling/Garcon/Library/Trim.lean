import Mathlib

/-!
# Trimming both ends of a list

`trim p xs` removes the longest run satisfying `p` at the front and then the
longest at the back.  A list is `Trimmed` when neither end satisfies `p`.  Every
list is its trimmed core between two runs, and the core is the only one with
trimmed ends.
-/

namespace Trim

variable {α : Type*} {p : α → Bool}

def trim (p : α → Bool) (xs : List α) : List α := (xs.dropWhile p).rdropWhile p

/-- Neither end of the list satisfies `p`. -/
def Trimmed (p : α → Bool) (xs : List α) : Prop :=
  (∀ x ∈ xs.head?, p x = false) ∧ (∀ x ∈ xs.getLast?, p x = false)

theorem dropWhile_append_of_all {l xs : List α} (h : ∀ x ∈ l, p x = true) :
    (l ++ xs).dropWhile p = xs.dropWhile p := by
  induction l with
  | nil => rfl
  | cons a l ih =>
    rw [List.cons_append, List.dropWhile_cons_of_pos (h a List.mem_cons_self)]
    exact ih fun x hx => h x (List.mem_cons_of_mem a hx)

theorem dropWhile_of_head {xs : List α} (h : ∀ x ∈ xs.head?, p x = false) :
    xs.dropWhile p = xs := by
  cases xs with
  | nil => rfl
  | cons a xs => exact List.dropWhile_cons_of_neg (by simp [h a (by simp)])

theorem head_dropWhile (xs : List α) : ∀ x ∈ (xs.dropWhile p).head?, p x = false := by
  induction xs with
  | nil => simp
  | cons a xs ih =>
    by_cases ha : p a = true
    · rw [List.dropWhile_cons_of_pos ha]
      exact ih
    · rw [List.dropWhile_cons_of_neg ha]
      simpa using ha

/-- A run, a trimmed core and a run. -/
theorem trim_append {l v t : List α} (hl : ∀ x ∈ l, p x = true)
    (hv : Trimmed p v) (ht : ∀ x ∈ t, p x = true) : trim p (l ++ (v ++ t)) = v := by
  rw [trim, dropWhile_append_of_all hl]
  cases v with
  | nil =>
    have hnil : t.dropWhile p = [] := List.dropWhile_eq_nil_iff.mpr ht
    rw [List.nil_append, hnil]
    rfl
  | cons a v =>
    rw [dropWhile_of_head (by simpa using hv.1 a (by simp)), List.rdropWhile,
      List.reverse_append, dropWhile_append_of_all (by simpa using ht),
      dropWhile_of_head (by rw [List.head?_reverse]; exact hv.2), List.reverse_reverse]

theorem trim_of_trimmed {v : List α} (hv : Trimmed p v) : trim p v = v := by
  simpa using trim_append (l := []) (t := []) (by simp) hv (by simp)

theorem exists_eq_trim (xs : List α) : ∃ l t,
    xs = l ++ (trim p xs ++ t) ∧ (∀ x ∈ l, p x = true) ∧ (∀ x ∈ t, p x = true) := by
  refine ⟨xs.takeWhile p, (xs.dropWhile p).rtakeWhile p, ?_, ?_, ?_⟩
  · rw [trim, List.rdropWhile, List.rtakeWhile, ← List.reverse_append,
      List.takeWhile_append_dropWhile, List.reverse_reverse, List.takeWhile_append_dropWhile]
  · exact fun x hx => List.mem_takeWhile_imp hx
  · intro x hx
    rw [List.rtakeWhile, List.mem_reverse] at hx
    exact List.mem_takeWhile_imp hx

theorem trimmed_trim (xs : List α) : Trimmed p (trim p xs) := by
  have hback : ∀ x ∈ (trim p xs).getLast?, p x = false := by
    rw [trim, List.rdropWhile, List.getLast?_reverse]
    exact head_dropWhile _
  refine ⟨fun x hx => ?_, hback⟩
  refine head_dropWhile (p := p) xs x ?_
  obtain ⟨t, ht⟩ := List.rdropWhile_prefix p (xs.dropWhile p)
  rw [← ht]
  cases hc : trim p xs with
  | nil => simp [hc] at hx
  | cons a v =>
    rw [trim] at hc
    rw [hc]
    simpa [trim, hc] using hx

/-- Runs at either end do not change the core. -/
theorem trim_append_run {l xs t : List α} (hl : ∀ x ∈ l, p x = true)
    (ht : ∀ x ∈ t, p x = true) : trim p (l ++ (xs ++ t)) = trim p xs := by
  obtain ⟨l', t', hxs, hl', ht'⟩ := exists_eq_trim (p := p) xs
  have hsplit : l ++ (xs ++ t) = (l ++ l') ++ (trim p xs ++ (t' ++ t)) := by
    conv_lhs => rw [hxs]
    simp only [List.append_assoc]
  rw [hsplit]
  apply trim_append _ (trimmed_trim xs)
  · intro x hx
    rcases List.mem_append.mp hx with hx | hx
    · exact ht' x hx
    · exact ht x hx
  · intro x hx
    rcases List.mem_append.mp hx with hx | hx
    · exact hl x hx
    · exact hl' x hx

theorem mem_of_mem_trim {xs : List α} {x : α} (h : x ∈ trim p xs) : x ∈ xs := by
  obtain ⟨l, t, hx, -, -⟩ := exists_eq_trim (p := p) xs
  rw [hx]
  simp [h]

/-- A map that keeps the predicate keeps the core. -/
theorem trim_map {f : α → α} (hf : ∀ x, p (f x) = p x) (xs : List α) :
    trim p (xs.map f) = (trim p xs).map f := by
  have hp : p ∘ f = p := funext hf
  rw [trim, trim, List.rdropWhile, List.rdropWhile, List.dropWhile_map, ← List.map_reverse,
    List.dropWhile_map, hp, List.map_reverse]

theorem trim_eq_nil {xs : List α} (h : ∀ x ∈ xs, p x = true) : trim p xs = [] := by
  rw [trim, List.dropWhile_eq_nil_iff.mpr h]
  rfl

/-- The first element behind the run at the front stays. -/
theorem exists_trim_eq_cons {l : List α} {a : α} (hl : ∀ x ∈ l, p x = true) (ha : p a = false)
    (xs : List α) : ∃ rest, trim p (l ++ a :: xs) = a :: rest := by
  have hpref := List.rdropWhile_prefix p (a :: xs)
  have hhead : (a :: xs).dropWhile p = a :: xs :=
    List.dropWhile_cons_of_neg (by rw [ha]; exact Bool.false_ne_true)
  rw [trim, dropWhile_append_of_all hl, hhead]
  cases hcore : (a :: xs).rdropWhile p with
  | nil =>
    have hall := List.rdropWhile_eq_nil_iff.mp hcore a List.mem_cons_self
    rw [ha] at hall
    cases hall
  | cons b rest =>
    rw [hcore, List.cons_prefix_cons] at hpref
    exact ⟨rest, by rw [hpref.1]⟩

/-- A trimmed end behind an element that stays. -/
theorem trimmed_cons_append {a d : α} {xs ys : List α} (ha : p a = false) (hd : p d = false)
    (hys : ∀ x ∈ ys.getLast?, p x = false) : Trimmed p (a :: (xs ++ d :: ys)) := by
  refine ⟨?_, ?_⟩
  · intro x hx
    cases hx
    exact ha
  · intro x hx
    rw [← List.cons_append, List.getLast?_append, List.getLast?_cons] at hx
    cases hlast : ys.getLast? with
    | none =>
      rw [hlast] at hx
      cases hx
      exact hd
    | some y =>
      rw [hlast] at hx
      cases hx
      exact hys y hlast

end Trim
