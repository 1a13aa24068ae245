import Garcon.Library.Search
import Mathlib.Data.Seq.Basic

/-!
# Finite prefixes of a sequence

A sequence that is delivered in pieces may never end.  `Starts s xs` says that it starts
with the finite list `xs`.  Two such lists are prefixes one of the other, so a pattern
has one first occurrence.
-/

namespace Search

open Stream'

variable {α : Type} {s t : Seq α} {xs ys : List α}

def Starts (s : Seq α) (xs : List α) : Prop := ∃ rest, s = (Seq.ofList xs).append rest

theorem starts_nil (s : Seq α) : Starts s [] := ⟨s, (Seq.nil_append s).symm⟩

theorem starts_ofList_append (xs : List α) (s : Seq α) : Starts ((Seq.ofList xs).append s) xs :=
  ⟨s, rfl⟩

theorem starts_cons {x : α} : Starts s (x :: xs) ↔ ∃ t, s = Seq.cons x t ∧ Starts t xs := by
  constructor
  · rintro ⟨rest, rfl⟩
    rw [Seq.ofList_cons, Seq.cons_append]
    exact ⟨_, rfl, rest, rfl⟩
  · rintro ⟨t, rfl, rest, rfl⟩
    refine ⟨rest, ?_⟩
    rw [Seq.ofList_cons, Seq.cons_append]

/-- Of two lists that a sequence starts with, the shorter is a prefix of the longer. -/
theorem Starts.prefix_of_le (h : Starts s xs) (h' : Starts s ys) (hle : xs.length ≤ ys.length) :
    xs <+: ys := by
  induction xs generalizing s ys with
  | nil => exact List.nil_prefix
  | cons x xs ih =>
    cases ys with
    | nil => exact absurd hle (Nat.not_succ_le_zero _)
    | cons y ys =>
      obtain ⟨t, rfl, ht⟩ := starts_cons.mp h
      obtain ⟨t', hcons, ht'⟩ := starts_cons.mp h'
      obtain ⟨rfl, rfl⟩ := Seq.cons_eq_cons.mp hcons
      rw [List.cons_prefix_cons]
      exact ⟨rfl, ih ht ht' (Nat.le_of_succ_le_succ hle)⟩

theorem Starts.of_isPrefix (h : Starts s ys) (hpref : xs <+: ys) : Starts s xs := by
  obtain ⟨zs, rfl⟩ := hpref
  obtain ⟨rest, rfl⟩ := h
  refine ⟨(Seq.ofList zs).append rest, ?_⟩
  rw [Seq.ofList_append, Seq.append_assoc]

/-- A finite sequence starts with its prefixes. -/
theorem starts_ofList : Starts (Seq.ofList ys) xs ↔ xs <+: ys := by
  induction xs generalizing ys with
  | nil => exact iff_of_true (starts_nil _) List.nil_prefix
  | cons x xs ih =>
    rw [starts_cons]
    cases ys with
    | nil =>
      refine iff_of_false ?_ ?_
      · rintro ⟨t, hnil, -⟩
        exact Seq.cons_ne_nil hnil.symm
      · exact fun hpref => absurd (List.prefix_nil.mp hpref) (List.cons_ne_nil x xs)
    | cons y ys =>
      rw [Seq.ofList_cons, List.cons_prefix_cons, ← ih]
      constructor
      · rintro ⟨t, hcons, ht⟩
        obtain ⟨rfl, rfl⟩ := Seq.cons_eq_cons.mp hcons
        exact ⟨rfl, ht⟩
      · rintro ⟨rfl, ht⟩
        exact ⟨_, rfl, ht⟩

theorem starts_append_iff : Starts ((Seq.ofList xs).append s) (xs ++ ys) ↔ Starts s ys := by
  induction xs with
  | nil => rw [Seq.ofList_nil, Seq.nil_append, List.nil_append]
  | cons x xs ih =>
    rw [Seq.ofList_cons, Seq.cons_append, List.cons_append, starts_cons, ← ih]
    constructor
    · rintro ⟨t, hcons, ht⟩
      obtain ⟨-, rfl⟩ := Seq.cons_eq_cons.mp hcons
      exact ht
    · intro ht
      exact ⟨_, rfl, ht⟩

/-! ## Taking a piece -/

theorem ofList_take_append_drop (n : Nat) (s : Seq α) :
    (Seq.ofList (s.take n)).append (s.drop n) = s := by
  induction n generalizing s with
  | zero => rw [Seq.take_zero, Seq.ofList_nil, Seq.nil_append, Seq.drop_zero]
  | succ n ih =>
    cases s with
    | nil => rw [Seq.take_nil, Seq.ofList_nil, Seq.nil_append, Seq.drop_nil]
    | cons x s =>
      rw [Seq.take_succ_cons, Seq.drop_succ_cons, Seq.ofList_cons, Seq.cons_append, ih]

theorem take_eq_nil {n : Nat} (hn : 0 < n) (h : s.take n = []) : s = .nil := by
  obtain ⟨n, rfl⟩ := Nat.exists_eq_succ_of_ne_zero hn.ne'
  cases s with
  | nil => rfl
  | cons x s =>
    rw [Seq.take_succ_cons] at h
    cases h

/-- A piece has all the next elements that fit into it. -/
theorem Starts.prefix_take {n : Nat} (h : Starts s xs) (hle : xs.length ≤ n) :
    xs <+: s.take n := by
  induction xs generalizing s n with
  | nil => exact List.nil_prefix
  | cons x xs ih =>
    obtain ⟨n, rfl⟩ := Nat.exists_eq_add_of_le' (Nat.zero_lt_of_lt hle)
    obtain ⟨t, rfl, ht⟩ := starts_cons.mp h
    rw [Seq.take_succ_cons, List.cons_prefix_cons]
    exact ⟨rfl, ih ht (Nat.le_of_succ_le_succ hle)⟩

variable [DecidableEq α] {pat pre pre' : List α}

/-- The first occurrence of a pattern in a sequence is one. -/
theorem Fresh.eq_of_starts (h : Fresh pat pre) (h' : Fresh pat pre') (hs : Starts s (pre ++ pat))
    (hs' : Starts s (pre' ++ pat)) : pre = pre' := by
  wlog hle : (pre ++ pat).length ≤ (pre' ++ pat).length generalizing pre pre'
  · exact (this h' h hs' hs (Nat.le_of_not_le hle)).symm
  obtain ⟨rest, hrest⟩ := hs.prefix_of_le hs' hle
  have hcut := cut_of_fresh h rest
  rw [← List.append_assoc, hrest, ← List.append_nil (pre' ++ pat), List.append_assoc,
    cut_of_fresh h', Option.some.injEq, Prod.mk.injEq] at hcut
  exact hcut.1.symm

end Search
