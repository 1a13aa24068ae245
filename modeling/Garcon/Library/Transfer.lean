import Mathlib

/-!
# Calls that are made again

A call may be interrupted and made again, and a call that is offered some data may take only
a part of it.  `retry` and `transfer` are the two loops around such calls.  They end because
interruptions run out, which a measure of the state says, and because every call that takes
something leaves less to offer.
-/

namespace Transfer

variable {σ α β ε : Type*}

/-- A call that gives no result when it was interrupted. -/
structure Call (σ β : Type*) where
  run : σ → Option β × σ
  patience : σ → Nat
  patience_lt : ∀ s s', run s = (none, s') → patience s' < patience s

namespace Call

/-- The call, until it was not interrupted. -/
def retry (c : Call σ β) (s : σ) : β × σ :=
  match _h : c.run s with
  | (some b, s') => (b, s')
  | (none, s') => c.retry s'
termination_by c.patience s
decreasing_by exact c.patience_lt _ _ _h

theorem retry_of_some {c : Call σ β} {s s' : σ} {b : β} (h : c.run s = (some b, s')) :
    c.retry s = (b, s') := by
  rw [retry]
  split
  · next h' => rw [h] at h'; cases h'; rfl
  · next h' => rw [h] at h'; cases h'

theorem retry_of_none {c : Call σ β} {s s' : σ} (h : c.run s = (none, s')) :
    c.retry s = c.retry s' := by
  rw [retry]
  split
  · next h' => rw [h] at h'; cases h'
  · next h' => rw [h] at h'; cases h'; rfl

/-- The last call is made in a state that has what interruptions preserve. -/
theorem exists_run_of_retry (c : Call σ β) {P : σ → Prop}
    (hagain : ∀ s s', P s → c.run s = (none, s') → P s') (s : σ) (hs : P s) :
    ∃ s', P s' ∧ c.run s' = (some (c.retry s).1, (c.retry s).2) := by
  induction s using retry.induct (c := c) with
  | case1 s b s' h =>
      rw [retry_of_some h]
      exact ⟨s, hs, h⟩
  | case2 s s' h ih =>
      rw [retry_of_none h]
      exact ih (hagain s s' hs h)

end Call

/-- What came of offering some data. -/
inductive Outcome (ε : Type*) where
  | took (count : Nat)
  | again
  | ended (e : ε)

/-- A state that data is put into.  A call that ends the transfer may have taken a part of
what it was offered. -/
structure Sink (σ α ε : Type*) where
  put : List α → σ → Outcome ε × σ
  taken : σ → List α
  patience : σ → Nat
  took_pos : ∀ data s n s', data ≠ [] → put data s = (.took n, s') → 0 < n
  took_taken : ∀ data s n s', put data s = (.took n, s') → taken s' = taken s ++ data.take n
  again_taken : ∀ data s s', put data s = (.again, s') → taken s' = taken s
  again_patience : ∀ data s s', put data s = (.again, s') → patience s' < patience s
  ended_taken : ∀ data s e s', put data s = (.ended e, s') →
    ∃ n, taken s' = taken s ++ data.take n

namespace Sink

/-- All of the data is offered, then what was not taken, until nothing is left. -/
def transfer (k : Sink σ α ε) (data : List α) (s : σ) : Option ε × σ :=
  if _hdata : data = [] then (none, s)
  else
    match _h : k.put data s with
    | (.took n, s') => k.transfer (data.drop n) s'
    | (.again, s') => k.transfer data s'
    | (.ended e, s') => (some e, s')
termination_by (data.length, k.patience s)
decreasing_by
  · have hn := k.took_pos _ _ _ _ _hdata _h
    have hpos := List.length_pos_iff.mpr _hdata
    apply Prod.Lex.left
    rw [List.length_drop]
    omega
  · exact Prod.Lex.right _ (k.again_patience _ _ _ _h)

variable {k : Sink σ α ε} {data : List α} {s s' : σ}

theorem transfer_nil (k : Sink σ α ε) (s : σ) : k.transfer [] s = (none, s) := by
  rw [transfer, dif_pos rfl]

theorem transfer_of_took {n : Nat} (hdata : data ≠ []) (h : k.put data s = (.took n, s')) :
    k.transfer data s = k.transfer (data.drop n) s' := by
  rw [transfer, dif_neg hdata]
  split
  · next h' => rw [h] at h'; cases h'; rfl
  · next h' => rw [h] at h'; cases h'
  · next h' => rw [h] at h'; cases h'

theorem transfer_of_again (hdata : data ≠ []) (h : k.put data s = (.again, s')) :
    k.transfer data s = k.transfer data s' := by
  rw [transfer, dif_neg hdata]
  split
  · next h' => rw [h] at h'; cases h'
  · next h' => rw [h] at h'; cases h'; rfl
  · next h' => rw [h] at h'; cases h'

theorem transfer_of_ended {e : ε} (hdata : data ≠ []) (h : k.put data s = (.ended e, s')) :
    k.transfer data s = (some e, s') := by
  rw [transfer, dif_neg hdata]
  split
  · next h' => rw [h] at h'; cases h'
  · next h' => rw [h] at h'; cases h'
  · next h' => rw [h] at h'; cases h'; rfl

/-- What was taken is a prefix of the data, and all of it when the transfer was not ended. -/
theorem transfer_taken (k : Sink σ α ε) (data : List α) (s : σ) :
    ∃ part, part <+: data ∧ k.taken (k.transfer data s).2 = k.taken s ++ part ∧
      ((k.transfer data s).1 = none → part = data) := by
  induction data, s using transfer.induct (k := k) with
  | case1 s =>
      rw [transfer_nil]
      exact ⟨[], List.prefix_rfl, (List.append_nil _).symm, fun _ => rfl⟩
  | case2 data s hdata n s' h ih =>
      obtain ⟨part, ⟨post, hpart⟩, htaken, hall⟩ := ih
      rw [transfer_of_took hdata h]
      refine ⟨data.take n ++ part, ⟨post, ?_⟩, ?_, ?_⟩
      · rw [List.append_assoc, hpart, List.take_append_drop]
      · rw [htaken, k.took_taken _ _ _ _ h, List.append_assoc]
      · intro hnone
        rw [hall hnone, List.take_append_drop]
  | case3 data s hdata s' h ih =>
      rw [transfer_of_again hdata h, ← k.again_taken _ _ _ h]
      exact ih
  | case4 data s hdata e s' h =>
      obtain ⟨n, hn⟩ := k.ended_taken _ _ _ _ h
      rw [transfer_of_ended hdata h]
      exact ⟨data.take n, List.take_prefix n data, hn, nofun⟩

/-- What every call preserves, the transfer preserves. -/
theorem transfer_invariant {P : σ → Prop} (hput : ∀ data s, P s → P (k.put data s).2)
    (data : List α) (s : σ) (hs : P s) : P (k.transfer data s).2 := by
  induction data, s using transfer.induct (k := k) with
  | case1 s =>
      rw [transfer_nil]
      exact hs
  | case2 data s hdata n s' h ih =>
      rw [transfer_of_took hdata h]
      have hs' := hput data s hs
      rw [h] at hs'
      exact ih hs'
  | case3 data s hdata s' h ih =>
      rw [transfer_of_again hdata h]
      have hs' := hput data s hs
      rw [h] at hs'
      exact ih hs'
  | case4 data s hdata e s' h =>
      rw [transfer_of_ended hdata h]
      have hs' := hput data s hs
      rw [h] at hs'
      exact hs'

/-- What ends the transfer is what a call ended with. -/
theorem exists_put_of_transfer {e : ε} (h : (k.transfer data s).1 = some e) :
    ∃ rest s₁ s₂, k.put rest s₁ = (.ended e, s₂) := by
  induction data, s using transfer.induct (k := k) with
  | case1 s =>
      rw [transfer_nil] at h
      cases h
  | case2 data s hdata n s' hput ih =>
      rw [transfer_of_took hdata hput] at h
      exact ih h
  | case3 data s hdata s' hput ih =>
      rw [transfer_of_again hdata hput] at h
      exact ih h
  | case4 data s hdata e' s' hput =>
      rw [transfer_of_ended hdata hput, Option.some.injEq] at h
      exact ⟨data, s, s', h ▸ hput⟩

end Sink
end Transfer
