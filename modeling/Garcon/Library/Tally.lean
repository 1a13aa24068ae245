import Mathlib

/-!
# Tallies

A tally is a map from keys to positive numbers that counts a list of keys.  `of` is the
tally of a list, and adding or removing an occurrence of a key changes one entry.
-/

namespace Tally

variable {α : Type} [BEq α]

abbrev Map (α : Type) := α → Option Nat

def Map.insert (m : Map α) (key : α) (n : Nat) : Map α :=
  fun k => if k == key then some n else m k

def Map.erase (m : Map α) (key : α) : Map α := fun k => if k == key then none else m k

/-- The tally of a list: no entry for a key that does not occur. -/
def of (keys : List α) : Map α :=
  fun key => if keys.count key = 0 then none else some (keys.count key)

theorem of_perm {left right : List α} (h : left.Perm right) : of left = of right := by
  funext key
  rw [of, of, h.count_eq]

theorem getD_of (keys : List α) (key : α) : (of keys key).getD 0 = keys.count key := by
  unfold of
  by_cases h : keys.count key = 0
  · rw [if_pos h, h]
    rfl
  · rw [if_neg h]
    rfl

theorem of_eq_some {keys : List α} {key : α} (h : keys.count key ≠ 0) :
    of keys key = some (keys.count key) := if_neg h

theorem of_ne_zero (keys : List α) (key : α) : of keys key ≠ some 0 := by
  unfold of
  by_cases h : keys.count key = 0
  · rw [if_pos h]
    exact nofun
  · rw [if_neg h]
    intro hzero
    exact h (Option.some.inj hzero)

variable [LawfulBEq α]

theorem Map.insert_insert (m : Map α) (key : α) (n k : Nat) :
    (m.insert key n).insert key k = m.insert key k := by
  funext x
  by_cases h : x = key <;> simp [Map.insert, h]

theorem Map.insert_self {m : Map α} {key : α} {n : Nat} (h : m key = some n) :
    m.insert key n = m := by
  funext x
  by_cases hx : x = key
  · subst hx
    simp [Map.insert, h]
  · simp [Map.insert, hx]

theorem insert_of (keys : List α) (key : α) :
    (of keys).insert key (keys.count key + 1) = of (key :: keys) := by
  funext k
  by_cases h : k = key
  · subst h
    simp [Map.insert, of]
  · have hne : ¬ key = k := fun e => h e.symm
    simp [Map.insert, of, h, hne]

/-- A key that occurs only once leaves the tally with its occurrence. -/
theorem erase_of {keys : List α} {key : α} (h : keys.count key = 0) :
    (of (key :: keys)).erase key = of keys := by
  funext k
  by_cases hk : k = key
  · subst hk
    simp [Map.erase, of, h]
  · have hne : ¬ key = k := fun e => hk e.symm
    simp [Map.erase, of, hk, hne]

theorem insert_of_cons {keys : List α} {key : α} (h : keys.count key ≠ 0) :
    (of (key :: keys)).insert key (keys.count key) = of keys := by
  funext k
  by_cases hk : k = key
  · subst hk
    simp [Map.insert, of, h]
  · have hne : ¬ key = k := fun e => hk e.symm
    simp [Map.insert, of, hk, hne]

end Tally
