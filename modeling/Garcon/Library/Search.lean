import Mathlib

/-!
# Searching a list for a pattern

`find pat xs` is the position of the first occurrence of `pat` in `xs`, and
`cut pat xs` is the text before that occurrence paired with the text after it.
`Fresh pat pre` says that appending `pat` to `pre` creates its first occurrence,
so a text written as `pre ++ pat ++ post` is cut where it was joined.
`splitAll` cuts at every occurrence.

A parser that works by position is a chain of cuts, and a writer that joins
pieces with a separator is undone by cuts as soon as every piece is fresh.  The
lemmas below are the two directions of that remark.
-/

namespace Search

variable {α : Type*}

/-- Comparing up to a delimiter that occurs in neither front. -/
theorem append_cons_prefix_iff {a b r t : List α} {d : α} (ha : d ∉ a) (hb : d ∉ b) :
    a ++ d :: r <+: b ++ d :: t ↔ a = b ∧ r <+: t := by
  induction a generalizing b with
  | nil =>
    cases b with
    | nil => simp
    | cons y b =>
      have hne : d ≠ y := fun e => hb (e ▸ List.mem_cons_self)
      simp [hne]
  | cons x a ih =>
    rw [List.mem_cons, not_or] at ha
    cases b with
    | nil =>
      have hne : x ≠ d := fun e => ha.1 e.symm
      simp [hne]
    | cons y b =>
      rw [List.mem_cons, not_or] at hb
      simp only [List.cons_append, List.cons_prefix_cons, ih ha.2 hb.2, List.cons.injEq,
        and_assoc]

/-- A text is read back up to a delimiter that does not occur in it. -/
theorem append_cons_inj {a b r t : List α} {d : α} (ha : d ∉ a) (hb : d ∉ b)
    (h : a ++ d :: r = b ++ d :: t) : a = b ∧ r = t := by
  obtain ⟨hab, -⟩ := (append_cons_prefix_iff ha hb).mp ⟨[], by rw [List.append_nil, h]⟩
  subst hab
  exact ⟨rfl, (List.cons.inj (List.append_cancel_left h)).2⟩

variable [DecidableEq α]

/-- Position of the first occurrence of `pat`. -/
def find (pat : List α) : List α → Option Nat
  | [] => if pat = [] then some 0 else none
  | x :: xs => if pat <+: x :: xs then some 0 else (find pat xs).map (· + 1)

/-- The text before the first occurrence of `pat` and the text after it. -/
def cut (pat xs : List α) : Option (List α × List α) :=
  (find pat xs).map fun i => (xs.take i, xs.drop (i + pat.length))

/-- Appending `pat` to `pre` creates the first occurrence of `pat`. -/
def Fresh (pat pre : List α) : Prop := find pat (pre ++ pat) = some pre.length

instance (pat pre : List α) : Decidable (Fresh pat pre) :=
  inferInstanceAs (Decidable (find pat (pre ++ pat) = some pre.length))

/-! ## First occurrences -/

theorem find_of_starts {pat xs : List α} (h : pat <+: xs) : find pat xs = some 0 := by
  cases xs with
  | nil => simp [find, List.prefix_nil.mp h]
  | cons x xs => rw [find, if_pos h]

theorem find_cons_of_not_starts {pat xs : List α} {x : α} (h : ¬ pat <+: x :: xs) :
    find pat (x :: xs) = (find pat xs).map (· + 1) := by
  rw [find, if_neg h]

theorem find_cons_of_head_ne {pat xs : List α} {c x : α} (h : c ≠ x) :
    find (c :: pat) (x :: xs) = (find (c :: pat) xs).map (· + 1) :=
  find_cons_of_not_starts fun hp => h (List.cons_prefix_cons.mp hp).1

theorem find_eq_none_iff {pat xs : List α} : find pat xs = none ↔ ¬ pat <:+: xs := by
  induction xs with
  | nil => simp [find]
  | cons x xs ih =>
    rw [List.infix_cons_iff]
    by_cases h : pat <+: x :: xs
    · simp [find, h]
    · simp [find, h, ih]

/-- Skipping a stretch without the pattern's first element. -/
theorem find_append_of_head_not_mem {pat pre rest : List α} {c : α} (h : c ∉ pre) :
    find (c :: pat) (pre ++ rest) = (find (c :: pat) rest).map (· + pre.length) := by
  induction pre with
  | nil => simp
  | cons x pre ih =>
    simp only [List.mem_cons, not_or] at h
    rw [List.cons_append, find_cons_of_head_ne h.1, ih h.2, Option.map_map]
    rfl

/-- A map under which nothing else becomes the element does not move it. -/
theorem find_singleton_map {f : α → α} {c : α} (hf : ∀ x, f x = c ↔ x = c) (xs : List α) :
    find [c] (xs.map f) = find [c] xs := by
  induction xs with
  | nil => rfl
  | cons x xs ih =>
    by_cases hx : x = c
    · rw [List.map_cons, find_of_starts, find_of_starts]
      · rw [hx, List.cons_prefix_cons]
        exact ⟨rfl, List.nil_prefix⟩
      · rw [(hf x).mpr hx, List.cons_prefix_cons]
        exact ⟨rfl, List.nil_prefix⟩
    · rw [List.map_cons, find_cons_of_head_ne fun e => hx e.symm,
        find_cons_of_head_ne fun e => hx ((hf x).mp e.symm), ih]

theorem cut_singleton_map {f : α → α} {c : α} (hf : ∀ x, f x = c ↔ x = c) (xs : List α) :
    cut [c] (xs.map f) = (cut [c] xs).map fun parts => (parts.1.map f, parts.2.map f) := by
  rw [cut, cut, find_singleton_map hf, Option.map_map]
  congr 1
  funext i
  simp only [Function.comp_apply, List.map_take, List.map_drop]

/-! ## Fresh prefixes -/

theorem fresh_nil (pat : List α) : Fresh pat [] := find_of_starts (List.prefix_refl pat)

theorem fresh_cons {pat pre : List α} {x : α} :
    Fresh pat (x :: pre) ↔ ¬ pat <+: x :: (pre ++ pat) ∧ Fresh pat pre := by
  unfold Fresh
  rw [List.cons_append]
  by_cases h : pat <+: x :: (pre ++ pat)
  · simp [find_of_starts h, h]
  · rw [find_cons_of_not_starts h]
    simp [h]

/-- An occurrence that would start inside `pre` fits inside `pre ++ pat`, so what
follows does not matter. -/
theorem find_of_fresh {pat pre : List α} (h : Fresh pat pre) (post : List α) :
    find pat (pre ++ (pat ++ post)) = some pre.length := by
  induction pre with
  | nil => exact find_of_starts (List.prefix_append pat post)
  | cons x pre ih =>
    obtain ⟨hx, hpre⟩ := fresh_cons.mp h
    have hnot : ¬ pat <+: x :: (pre ++ (pat ++ post)) := fun hp => hx <| by
      refine List.prefix_of_prefix_length_le hp ?_ (by simp; omega)
      exact ⟨post, by simp⟩
    rw [List.cons_append, find_cons_of_not_starts hnot, ih hpre]
    simp

theorem fresh_take_of_find {pat xs : List α} {i : Nat} (h : find pat xs = some i) :
    Fresh pat (xs.take i) ∧ xs = xs.take i ++ (pat ++ xs.drop (i + pat.length)) := by
  induction xs generalizing i with
  | nil =>
    by_cases hp : pat = []
    · subst hp
      simp only [find, if_true, Option.some.injEq] at h
      subst h
      simp [fresh_nil]
    · simp [find, hp] at h
  | cons x xs ih =>
    by_cases hp : pat <+: x :: xs
    · rw [find_of_starts hp, Option.some.injEq] at h
      subst h
      obtain ⟨post, hpost⟩ := hp
      refine ⟨fresh_nil pat, ?_⟩
      simp [← hpost]
    · rw [find_cons_of_not_starts hp, Option.map_eq_some_iff] at h
      obtain ⟨j, hj, rfl⟩ := h
      obtain ⟨hf, hx⟩ := ih hj
      have hdrop : (x :: xs).drop (j + 1 + pat.length) = xs.drop (j + pat.length) := by
        rw [show j + 1 + pat.length = (j + pat.length) + 1 by omega, List.drop_succ_cons]
      refine ⟨?_, ?_⟩
      · rw [List.take_succ_cons, fresh_cons]
        refine ⟨fun hq => hp ?_, hf⟩
        have := hq.trans (⟨xs.drop (j + pat.length), by
          rw [List.cons_append, List.append_assoc, ← hx]⟩ :
            x :: (xs.take j ++ pat) <+: x :: xs)
        exact this
      · rw [hdrop, List.take_succ_cons, List.cons_append, ← hx]

/-- The first occurrence comes no later than any other. -/
theorem exists_find_le (pat a b : List α) :
    ∃ i, find pat (a ++ (pat ++ b)) = some i ∧ i ≤ a.length := by
  induction a with
  | nil => exact ⟨0, find_of_starts (List.prefix_append pat b), Nat.le_refl 0⟩
  | cons x a ih =>
    by_cases h : pat <+: x :: (a ++ (pat ++ b))
    · exact ⟨0, find_of_starts h, Nat.zero_le _⟩
    · obtain ⟨i, hi, hle⟩ := ih
      refine ⟨i + 1, ?_, by simpa using hle⟩
      rw [List.cons_append, find_cons_of_not_starts h, hi]
      rfl

theorem cut_eq_some_iff {pat xs a b : List α} :
    cut pat xs = some (a, b) ↔ xs = a ++ (pat ++ b) ∧ Fresh pat a := by
  unfold cut
  rw [Option.map_eq_some_iff]
  constructor
  · rintro ⟨i, hi, hab⟩
    obtain ⟨hf, hx⟩ := fresh_take_of_find hi
    obtain ⟨rfl, rfl⟩ := Prod.mk.inj hab
    exact ⟨hx, hf⟩
  · rintro ⟨rfl, hf⟩
    refine ⟨a.length, find_of_fresh hf b, ?_⟩
    rw [← List.length_append, ← List.append_assoc, List.drop_left, List.append_assoc,
      List.take_left]

theorem cut_of_fresh {pat a : List α} (h : Fresh pat a) (b : List α) :
    cut pat (a ++ (pat ++ b)) = some (a, b) :=
  cut_eq_some_iff.mpr ⟨rfl, h⟩

theorem cut_eq_none_iff {pat xs : List α} : cut pat xs = none ↔ ¬ pat <:+: xs := by
  rw [cut, Option.map_eq_none_iff, find_eq_none_iff]

theorem fresh_of_head_not_mem {pat pre : List α} {c : α} (h : c ∉ pre) :
    Fresh (c :: pat) pre := by
  rw [Fresh, find_append_of_head_not_mem h, find_of_starts (List.prefix_refl _)]
  simp

theorem fresh_append_of_head_not_mem {pat pre rest : List α} {c : α} (h : c ∉ pre) :
    Fresh (c :: pat) (pre ++ rest) ↔ Fresh (c :: pat) rest := by
  rw [Fresh, Fresh, List.append_assoc, find_append_of_head_not_mem h, List.length_append]
  cases hf : find (c :: pat) (rest ++ c :: pat) with
  | none => simp
  | some n => simp [Nat.add_comm pre.length]

theorem not_infix_of_fresh {pat pre : List α} (hne : pat ≠ []) (h : Fresh pat pre) :
    ¬ pat <:+: pre := by
  rintro ⟨s, t, rfl⟩
  induction s with
  | nil =>
    rw [List.nil_append, Fresh, List.append_assoc,
      find_of_starts (List.prefix_append _ _), Option.some.injEq, List.length_append] at h
    have := List.length_pos_iff.mpr hne
    omega
  | cons x s ih => exact ih (fresh_cons.mp (by simpa using h)).2

theorem fresh_singleton {pre : List α} {c : α} : Fresh [c] pre ↔ c ∉ pre := by
  refine ⟨fun h hc => ?_, fresh_of_head_not_mem⟩
  exact not_infix_of_fresh (by simp) h ((List.singleton_infix_iff c pre).mpr hc)

/-- A two-element pattern cannot overlap itself, so only occurrences inside `pre`
count. -/
theorem fresh_pair {pre : List α} {c d : α} (hcd : c ≠ d) :
    Fresh [c, d] pre ↔ ¬ [c, d] <:+: pre := by
  refine ⟨not_infix_of_fresh (by simp), fun h => ?_⟩
  induction pre with
  | nil => exact fresh_nil _
  | cons x pre ih =>
    rw [List.infix_cons_iff, not_or] at h
    refine fresh_cons.mpr ⟨fun hp => h.1 ?_, ih h.2⟩
    cases pre with
    | nil =>
      simp only [List.nil_append, List.cons_prefix_cons] at hp
      exact absurd hp.2.1.symm hcd
    | cons y pre =>
      simp only [List.cons_append, List.cons_prefix_cons] at hp ⊢
      exact ⟨hp.1, hp.2.1, List.nil_prefix⟩

/-! ## Cutting at every occurrence -/

theorem length_lt_of_cut {pat xs a b : List α} (hne : pat ≠ [])
    (h : cut pat xs = some (a, b)) : b.length < xs.length := by
  have := (cut_eq_some_iff.mp h).1
  have hpos := List.length_pos_iff.mpr hne
  rw [this]
  simp
  omega

/-- The pieces between the occurrences of `pat`, the last one being what follows
the final occurrence. -/
def splitAll (pat : List α) (hne : pat ≠ []) (xs : List α) : List (List α) :=
  match _hc : cut pat xs with
  | none => [xs]
  | some (a, b) => a :: splitAll pat hne b
termination_by xs.length
decreasing_by exact length_lt_of_cut hne _hc

variable {pat : List α} {hne : pat ≠ []}

theorem splitAll_of_not_occurs {xs : List α} (h : ¬ pat <:+: xs) :
    splitAll pat hne xs = [xs] := by
  rw [splitAll]
  split
  · rfl
  · next hc => rw [cut_eq_none_iff.mpr h] at hc; cases hc

theorem splitAll_of_fresh {a : List α} (h : Fresh pat a) (b : List α) :
    splitAll pat hne (a ++ (pat ++ b)) = a :: splitAll pat hne b := by
  rw [splitAll]
  split
  · next hc => rw [cut_of_fresh h] at hc; cases hc
  · next hc =>
    rw [cut_of_fresh h, Option.some.injEq, Prod.mk.injEq] at hc
    rw [hc.1, hc.2]

theorem not_infix_of_mem_splitAll {xs l : List α} (h : l ∈ splitAll pat hne xs) :
    ¬ pat <:+: l := by
  induction xs using splitAll.induct pat hne with
  | case1 xs hc =>
    have hnot := cut_eq_none_iff.mp hc
    rw [splitAll_of_not_occurs hnot, List.mem_singleton] at h
    exact h ▸ hnot
  | case2 xs a b hc ih =>
    obtain ⟨hx, hf⟩ := cut_eq_some_iff.mp hc
    rw [hx, splitAll_of_fresh hf, List.mem_cons] at h
    rcases h with rfl | h
    · exact not_infix_of_fresh hne hf
    · exact ih h

theorem mem_of_mem_splitAll {xs l : List α} (h : l ∈ splitAll pat hne xs) {x : α}
    (hx : x ∈ l) : x ∈ xs := by
  induction xs using splitAll.induct pat hne with
  | case1 xs hc =>
    rw [splitAll_of_not_occurs (cut_eq_none_iff.mp hc), List.mem_singleton] at h
    exact h ▸ hx
  | case2 xs a b hc ih =>
    obtain ⟨hxs, hf⟩ := cut_eq_some_iff.mp hc
    rw [hxs, splitAll_of_fresh hf, List.mem_cons] at h
    rw [hxs, List.mem_append, List.mem_append]
    rcases h with rfl | h
    · exact Or.inl hx
    · exact Or.inr (Or.inr (ih h))

theorem splitAll_ne_nil (xs : List α) : splitAll pat hne xs ≠ [] := by
  cases hc : cut pat xs with
  | none =>
    rw [splitAll_of_not_occurs (cut_eq_none_iff.mp hc)]
    exact List.cons_ne_nil _ _
  | some found =>
    obtain ⟨rfl, hf⟩ := cut_eq_some_iff.mp hc
    rw [splitAll_of_fresh hf]
    exact List.cons_ne_nil _ _

/-- The pieces of two texts joined by a pattern that does not overlap itself. -/
theorem splitAll_append_of_fresh (hpat : ∀ a : List α, ¬ pat <:+: a → Fresh pat a)
    (a b : List α) :
    splitAll pat hne (a ++ (pat ++ b)) = splitAll pat hne a ++ splitAll pat hne b := by
  induction a using splitAll.induct pat hne with
  | case1 a hc =>
    have hnot := cut_eq_none_iff.mp hc
    rw [splitAll_of_not_occurs hnot]
    exact splitAll_of_fresh (hpat a hnot) b
  | case2 a head rest hc ih =>
    obtain ⟨rfl, hf⟩ := cut_eq_some_iff.mp hc
    rw [List.append_assoc, List.append_assoc, splitAll_of_fresh hf, splitAll_of_fresh hf, ih,
      List.cons_append]

/-- The pieces of two texts joined by the delimiter. -/
theorem splitAll_append {d : α} {hne : [d] ≠ []} (a b : List α) :
    splitAll [d] hne (a ++ d :: b) = splitAll [d] hne a ++ splitAll [d] hne b := by
  refine splitAll_append_of_fresh (fun a h => fresh_singleton.mpr ?_) a b
  rwa [List.singleton_infix_iff] at h

/-- What is put in front without the pattern's first element joins the first piece. -/
theorem tail_splitAll_append {c : α} {hne : c :: pat ≠ []} {pre : List α} (h : c ∉ pre)
    (xs : List α) :
    (splitAll (c :: pat) hne (pre ++ xs)).tail = (splitAll (c :: pat) hne xs).tail := by
  cases hc : cut (c :: pat) xs with
  | none =>
    have hpre : cut (c :: pat) (pre ++ xs) = none := by
      rw [cut, find_append_of_head_not_mem h]
      rw [cut, Option.map_eq_none_iff] at hc
      rw [hc]
      rfl
    rw [splitAll_of_not_occurs (cut_eq_none_iff.mp hc),
      splitAll_of_not_occurs (cut_eq_none_iff.mp hpre)]
    rfl
  | some found =>
    obtain ⟨rfl, hf⟩ := cut_eq_some_iff.mp hc
    rw [splitAll_of_fresh hf, ← List.append_assoc,
      splitAll_of_fresh ((fresh_append_of_head_not_mem h).mpr hf)]
    rfl

omit [DecidableEq α] in
theorem mem_of_mem_intercalate {sep : List α} {ls : List (List α)} {x : α}
    (h : x ∈ sep.intercalate ls) : x ∈ sep ∨ ∃ l ∈ ls, x ∈ l := by
  induction ls with
  | nil => exact absurd h List.not_mem_nil
  | cons l ls ih =>
    cases ls with
    | nil =>
      rw [List.intercalate_singleton] at h
      exact Or.inr ⟨l, List.mem_singleton_self l, h⟩
    | cons l' ls =>
      rw [List.intercalate_cons_cons, List.mem_append, List.mem_append] at h
      rcases h with (h | h) | h
      · exact Or.inr ⟨l, List.mem_cons_self, h⟩
      · exact Or.inl h
      · rcases ih h with hsep | ⟨l'', hl, hx⟩
        · exact Or.inl hsep
        · exact Or.inr ⟨l'', List.mem_cons_of_mem l hl, hx⟩

omit [DecidableEq α] in
/-- An empty piece at the end is a separator at the end. -/
theorem intercalate_concat_nil {ls : List (List α)} (hne : ls ≠ []) (sep : List α) :
    sep.intercalate (ls ++ [[]]) = sep.intercalate ls ++ sep := by
  induction ls with
  | nil => exact absurd rfl hne
  | cons l ls ih =>
    cases ls with
    | nil =>
      show sep.intercalate [l, []] = _
      rw [List.intercalate_cons_cons, List.intercalate_singleton, List.append_nil,
        List.intercalate_singleton]
    | cons l' ls =>
      have ih := ih (List.cons_ne_nil _ _)
      show sep.intercalate (l :: l' :: (ls ++ [[]])) = _
      rw [List.intercalate_cons_cons, List.intercalate_cons_cons, List.append_assoc (l ++ sep),
        ← ih]
      rfl

/-- Pieces without the delimiter are what a split of the joined text gives. -/
theorem splitAll_intercalate {d : α} {hne : [d] ≠ []} (ls : List (List α)) (hls : ls ≠ [])
    (h : ∀ l ∈ ls, d ∉ l) : splitAll [d] hne ([d].intercalate ls) = ls := by
  induction ls with
  | nil => exact absurd rfl hls
  | cons l ls ih =>
    have hl : Fresh [d] l := fresh_singleton.mpr (h l List.mem_cons_self)
    cases ls with
    | nil =>
      rw [List.intercalate_singleton, splitAll_of_not_occurs]
      rw [List.singleton_infix_iff]
      exact h l List.mem_cons_self
    | cons l' ls =>
      rw [List.intercalate_cons_cons, List.append_assoc, splitAll_of_fresh hl,
        ih (List.cons_ne_nil _ _) fun x hx => h x (List.mem_cons_of_mem l hx)]

end Search
