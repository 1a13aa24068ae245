import Mathlib

/-!
# Token buckets

A token bucket holds at most `cap` tokens, gains `rate` tokens per unit of time and
gives one away per admitted request.  A refill at a time before the last one changes
nothing, so requests may read the clock in any order.

Tokens given away plus tokens left never exceed the tokens at the start plus the gain
over the time the last refill has moved.  All bounds over runs follow from this.
-/

namespace TokenBucket

variable {K : Type} [Field K] [LinearOrder K]

structure Bucket (K : Type) where
  tokens : K
  last : K
deriving DecidableEq, Repr

def refill (rate cap now : K) (b : Bucket K) : Bucket K :=
  if b.last < now then ⟨min (b.tokens + (now - b.last) * rate) cap, now⟩ else b

/-- Gives a token away if there is a whole one. -/
def consume (b : Bucket K) : Bool × Bucket K :=
  if 1 ≤ b.tokens then (true, { b with tokens := b.tokens - 1 }) else (false, b)

def request (rate cap now : K) (b : Bucket K) : Bool × Bucket K :=
  consume (refill rate cap now b)

def run (rate cap : K) : List K → Bucket K → List Bool × Bucket K
  | [], b => ([], b)
  | now :: nows, b =>
    let first := request rate cap now b
    let rest := run rate cap nows first.2
    (first.1 :: rest.1, rest.2)

/-- The tokens stay between zero and the cap. -/
structure Within (cap : K) (b : Bucket K) : Prop where
  nonneg : 0 ≤ b.tokens
  le_cap : b.tokens ≤ cap

/-- The number of admitted requests. -/
def admitted (outcomes : List Bool) : Nat := outcomes.count true

variable {rate cap : K}

/-! ## The time of the last refill -/

theorem refill_last (now : K) (b : Bucket K) :
    (refill rate cap now b).last = max b.last now := by
  unfold refill
  by_cases h : b.last < now
  · rw [if_pos h, max_eq_right h.le]
  · rw [if_neg h, max_eq_left (not_lt.mp h)]

theorem consume_last (b : Bucket K) : (consume b).2.last = b.last := by
  unfold consume
  split <;> rfl

theorem request_last (now : K) (b : Bucket K) :
    (request rate cap now b).2.last = max b.last now := by
  rw [request, consume_last, refill_last]

theorem run_cons (now : K) (nows : List K) (b : Bucket K) :
    run rate cap (now :: nows) b =
      ((request rate cap now b).1 :: (run rate cap nows (request rate cap now b).2).1,
        (run rate cap nows (request rate cap now b).2).2) := rfl

theorem run_append (early late : List K) (b : Bucket K) :
    run rate cap (early ++ late) b =
      ((run rate cap early b).1 ++ (run rate cap late (run rate cap early b).2).1,
        (run rate cap late (run rate cap early b).2).2) := by
  induction early generalizing b with
  | nil => rfl
  | cons now early ih => rw [List.cons_append, run_cons, ih, run_cons, List.cons_append]

/-- The last refill is at the latest time a request has read. -/
theorem run_last (nows : List K) (b : Bucket K) :
    (run rate cap nows b).2.last = nows.foldl max b.last := by
  induction nows generalizing b with
  | nil => rfl
  | cons now nows ih => rw [run_cons, ih, request_last, List.foldl_cons]

theorem run_length (rate cap : K) (nows : List K) (b : Bucket K) :
    (run rate cap nows b).1.length = nows.length := by
  induction nows generalizing b with
  | nil => rfl
  | cons now nows ih => rw [run_cons, List.length_cons, ih, List.length_cons]

/-- The outcomes of a segment are those of a run of the segment alone. -/
theorem run_segment (rate cap : K) (early segment later : List K) (b : Bucket K) :
    ((run rate cap (early ++ (segment ++ later)) b).1.drop early.length).take segment.length =
      (run rate cap segment (run rate cap early b).2).1 := by
  have hearly := run_length rate cap early b
  have hsegment := run_length rate cap segment (run rate cap early b).2
  rw [run_append, run_append, List.drop_left' hearly, List.take_left' hsegment]

theorem admitted_cons (outcome : Bool) (outcomes : List Bool) :
    admitted (outcome :: outcomes) = admitted [outcome] + admitted outcomes := by
  cases outcome <;> simp [admitted, Nat.add_comm]

/-! ## One request -/

theorem consume_admits_iff {b : Bucket K} : (consume b).1 = true ↔ 1 ≤ b.tokens := by
  unfold consume
  by_cases h : 1 ≤ b.tokens
  · rw [if_pos h]
    exact iff_of_true rfl h
  · rw [if_neg h]
    exact iff_of_false Bool.false_ne_true h

/-- A request at the time of the last refill consumes without one. -/
theorem request_of_last_le {now tokens last : K} (h : now ≤ last) :
    request rate cap now ⟨tokens, last⟩ = consume ⟨tokens, last⟩ := by
  rw [request, refill, if_neg (not_lt.mpr h)]

/-- A refill adds no more than the gain over the time it moves the bucket. -/
theorem refill_tokens_le (now : K) (b : Bucket K) :
    (refill rate cap now b).tokens ≤
      b.tokens + rate * ((refill rate cap now b).last - b.last) := by
  unfold refill
  by_cases h : b.last < now
  · rw [if_pos h, mul_comm rate]
    exact min_le_left _ _
  · rw [if_neg h, sub_self, mul_zero, add_zero]

variable [IsStrictOrderedRing K]

theorem refill_within {b : Bucket K} (hrate : 0 ≤ rate) (hcap : 0 ≤ cap) (hb : Within cap b)
    (now : K) : Within cap (refill rate cap now b) := by
  unfold refill
  by_cases h : b.last < now
  · rw [if_pos h]
    have hgain : 0 ≤ (now - b.last) * rate := mul_nonneg (sub_nonneg.mpr h.le) hrate
    exact ⟨le_min (add_nonneg hb.nonneg hgain) hcap, min_le_right _ _⟩
  · rw [if_neg h]
    exact hb

/-- What is given away and what is left is what was there. -/
theorem consume_tokens (b : Bucket K) :
    ((admitted [(consume b).1] : Nat) : K) + (consume b).2.tokens = b.tokens := by
  unfold consume
  split <;> simp [admitted]

theorem consume_within {b : Bucket K} (hb : Within cap b) : Within cap (consume b).2 := by
  unfold consume
  split
  · next h => exact ⟨sub_nonneg.mpr h, (sub_le_self b.tokens zero_le_one).trans hb.le_cap⟩
  · exact hb

theorem request_within {b : Bucket K} (hrate : 0 ≤ rate) (hcap : 0 ≤ cap) (hb : Within cap b)
    (now : K) : Within cap (request rate cap now b).2 :=
  consume_within (refill_within hrate hcap hb now)

/-- Tokens given away and left are bounded by those at the start and the gain. -/
theorem request_tokens_le (rate cap now : K) (b : Bucket K) :
    ((admitted [(request rate cap now b).1] : Nat) : K) + (request rate cap now b).2.tokens ≤
      b.tokens + rate * ((request rate cap now b).2.last - b.last) := by
  rw [request, consume_tokens, consume_last]
  exact refill_tokens_le now b

theorem request_tokens_le_cap {b : Bucket K} (hrate : 0 ≤ rate) (hcap : 0 ≤ cap)
    (hb : Within cap b) (now : K) :
    ((admitted [(request rate cap now b).1] : Nat) : K) + (request rate cap now b).2.tokens ≤
      cap := by
  rw [request, consume_tokens]
  exact (refill_within hrate hcap hb now).le_cap

/-! ## Runs -/

theorem run_within {b : Bucket K} (hrate : 0 ≤ rate) (hcap : 0 ≤ cap) (hb : Within cap b)
    (nows : List K) : Within cap (run rate cap nows b).2 := by
  induction nows generalizing b with
  | nil => exact hb
  | cons now nows ih => exact ih (request_within hrate hcap hb now)

theorem run_tokens_le (rate cap : K) (nows : List K) (b : Bucket K) :
    ((admitted (run rate cap nows b).1 : Nat) : K) + (run rate cap nows b).2.tokens ≤
      b.tokens + rate * ((run rate cap nows b).2.last - b.last) := by
  induction nows generalizing b with
  | nil => simp [run, admitted]
  | cons now nows ih =>
      have hfirst := request_tokens_le rate cap now b
      have hrest := ih (request rate cap now b).2
      rw [run_cons, admitted_cons, Nat.cast_add]
      calc _ = ((admitted [(request rate cap now b).1] : Nat) : K) +
              (((admitted (run rate cap nows (request rate cap now b).2).1 : Nat) : K) +
                (run rate cap nows (request rate cap now b).2).2.tokens) := by ring
        _ ≤ ((admitted [(request rate cap now b).1] : Nat) : K) +
              ((request rate cap now b).2.tokens + rate *
                ((run rate cap nows (request rate cap now b).2).2.last -
                  (request rate cap now b).2.last)) := by gcongr
        _ ≤ _ := by linarith

/-- Requests at the time of the last refill take one token each. -/
theorem run_replicate (now : K) (n : Nat) {tokens : K} (h : (n : K) ≤ tokens) :
    (run rate cap (List.replicate n now) ⟨tokens, now⟩).2 = ⟨tokens - n, now⟩ := by
  induction n generalizing tokens with
  | zero => simp [run]
  | succ n ih =>
      rw [Nat.cast_succ] at h
      have hwhole : 1 ≤ tokens := by
        have hnonneg : (0 : K) ≤ n := Nat.cast_nonneg n
        linarith
      have hfirst : request rate cap now ⟨tokens, now⟩ = (true, ⟨tokens - 1, now⟩) :=
        (request_of_last_le le_rfl).trans (if_pos hwhole)
      rw [List.replicate_succ, run_cons, hfirst]
      show (run rate cap (List.replicate n now) ⟨tokens - 1, now⟩).2 = _
      rw [ih (by linarith), Nat.cast_succ, sub_sub, add_comm (1 : K)]

/-- A segment of a run admits at most the cap and the gain over the time from its first
request on. -/
theorem admitted_segment_le {b : Bucket K} (hrate : 0 ≤ rate) (hcap : 0 ≤ cap)
    (hb : Within cap b) (now : K) (nows : List K) :
    ((admitted (run rate cap (now :: nows) b).1 : Nat) : K) ≤
      cap + rate * ((run rate cap (now :: nows) b).2.last - (request rate cap now b).2.last) := by
  have hfirst := request_tokens_le_cap hrate hcap hb now
  have hrest := run_tokens_le rate cap nows (request rate cap now b).2
  have hleft := (run_within hrate hcap hb (now :: nows)).nonneg
  rw [run_cons] at hleft ⊢
  rw [admitted_cons, Nat.cast_add]
  linarith

/-! ## Waiting for a token -/

/-- The time in which a bucket gains what it lacks of a whole token. -/
def wait (rate : K) (b : Bucket K) : K := (1 - b.tokens) / rate

/-- A bucket without a whole token has one when the wait is over. -/
theorem request_admits_iff {b : Bucket K} (hrate : 0 < rate) (hcap : 1 ≤ cap)
    (hshort : b.tokens < 1) (now : K) :
    (request rate cap now b).1 = true ↔ b.last + wait rate b ≤ now := by
  have hpos : 0 < wait rate b := div_pos (sub_pos.mpr hshort) hrate
  have hwait : wait rate b * rate = 1 - b.tokens := div_mul_cancel₀ _ hrate.ne'
  rw [request, consume_admits_iff, refill]
  by_cases h : b.last < now
  · rw [if_pos h, le_min_iff, and_iff_left hcap]
    constructor
    · intro hwhole
      have hgain : wait rate b * rate ≤ (now - b.last) * rate := by linarith
      have hle := le_of_mul_le_mul_right hgain hrate
      linarith
    · intro hle
      have hgain := mul_le_mul_of_nonneg_right (by linarith : wait rate b ≤ now - b.last) hrate.le
      linarith
  · rw [if_neg h]
    refine iff_of_false (not_le.mpr hshort) ?_
    intro hle
    linarith

/-- As long as the token is lacking, a refill does not move the instant it is due. -/
theorem due_refill {b : Bucket K} (hrate : 0 < rate) (hcap : 1 ≤ cap) (now : K)
    (hshort : (refill rate cap now b).tokens < 1) :
    (refill rate cap now b).last + wait rate (refill rate cap now b) = b.last + wait rate b := by
  unfold refill at hshort ⊢
  by_cases h : b.last < now
  · rw [if_pos h] at hshort ⊢
    have hgain : b.tokens + (now - b.last) * rate ≤ cap := by
      by_contra hfull
      rw [min_eq_right (not_le.mp hfull).le] at hshort
      exact absurd hcap (not_le.mpr hshort)
    rw [min_eq_left hgain, wait, wait, ← sub_sub, sub_div, mul_div_cancel_right₀ _ hrate.ne']
    ring
  · rw [if_neg h]

/-! ## Conforming runs -/

/-- The requests up to each one are no more than the tokens and the gain since `start`. -/
def Covered (rate tokens start : K) (nows : List K) : Prop :=
  ∀ j (hj : j < nows.length), ((j + 1 : Nat) : K) ≤ tokens + rate * (nows[j] - start)

/-- In every interval the requests are no more than the cap and the gain. -/
def Conforms (rate cap : K) (nows : List K) : Prop :=
  ∀ i j (hij : i ≤ j) (hj : j < nows.length),
    ((j - i + 1 : Nat) : K) ≤ cap + rate * (nows[j] - nows[i])

theorem covered_cons {tokens start now : K} {nows : List K} :
    Covered rate tokens start (now :: nows) ↔
      1 ≤ tokens + rate * (now - start) ∧
        Covered rate (tokens + rate * (now - start) - 1) now nows := by
  have hshift : ∀ (j : Nat) (t : K),
      ((j + 1 + 1 : Nat) : K) ≤ tokens + rate * (t - start) ↔
        ((j + 1 : Nat) : K) ≤ tokens + rate * (now - start) - 1 + rate * (t - now) := by
    intro j t
    rw [Nat.cast_succ (j + 1), ← sub_nonneg, ← sub_nonneg (b := ((j + 1 : Nat) : K))]
    have hsame : tokens + rate * (t - start) - (((j + 1 : Nat) : K) + 1) =
        tokens + rate * (now - start) - 1 + rate * (t - now) - ((j + 1 : Nat) : K) := by ring
    rw [hsame]
  constructor
  · intro h
    refine ⟨by simpa using h 0 (Nat.succ_pos _), ?_⟩
    intro j hj
    exact (hshift j nows[j]).mp (h (j + 1) (Nat.succ_lt_succ hj))
  · rintro ⟨hfirst, hrest⟩ j hj
    cases j with
    | zero => simpa using hfirst
    | succ j =>
        have hj := Nat.lt_of_succ_lt_succ hj
        exact (hshift j nows[j]).mpr (hrest j hj)

omit [IsStrictOrderedRing K] in
theorem conforms_cons {now : K} {nows : List K} :
    Conforms rate cap (now :: nows) ↔
      Covered rate cap now (now :: nows) ∧ Conforms rate cap nows := by
  constructor
  · intro h
    refine ⟨fun j hj => h 0 j (Nat.zero_le j) hj, ?_⟩
    intro i j hij hj
    have hlater := h (i + 1) (j + 1) (Nat.succ_le_succ hij) (Nat.succ_lt_succ hj)
    rwa [Nat.add_sub_add_right] at hlater
  · rintro ⟨hfirst, hrest⟩ i j hij hj
    cases i with
    | zero => exact hfirst j hj
    | succ i =>
        obtain ⟨j, rfl⟩ : ∃ j', j = j' + 1 := ⟨j - 1, by omega⟩
        have hlater := hrest i j (Nat.le_of_succ_le_succ hij) (Nat.lt_of_succ_lt_succ hj)
        rwa [Nat.add_sub_add_right]

/-- What two amounts of tokens both cover, the smaller one covers. -/
theorem covered_min {left right start : K} {nows : List K} :
    Covered rate (min left right) start nows ↔
      Covered rate left start nows ∧ Covered rate right start nows := by
  have hmin : ∀ c t : K, c ≤ min left right + t ↔ c ≤ left + t ∧ c ≤ right + t := by
    intro c t
    rw [← min_add_add_right, le_min_iff]
  constructor
  · intro h
    exact ⟨fun j hj => ((hmin _ _).mp (h j hj)).1, fun j hj => ((hmin _ _).mp (h j hj)).2⟩
  · rintro ⟨hleft, hright⟩ j hj
    exact (hmin _ _).mpr ⟨hleft j hj, hright j hj⟩

omit [IsStrictOrderedRing K] in
/-- With readings in order, a refill adds the gain up to the cap. -/
theorem refill_of_le {b : Bucket K} (hcap : b.tokens ≤ cap) {now : K} (h : b.last ≤ now) :
    refill rate cap now b = ⟨min (b.tokens + rate * (now - b.last)) cap, now⟩ := by
  unfold refill
  rcases lt_or_eq_of_le h with hlt | heq
  · rw [if_pos hlt, mul_comm rate]
  · rw [if_neg heq.not_lt, ← heq, sub_self, mul_zero, add_zero, min_eq_left hcap]

/-- All requests of an ordered run are admitted exactly where the tokens at its start
cover it and it conforms. -/
theorem run_admits_all_iff {b : Bucket K} (hcap : b.tokens ≤ cap) {nows : List K}
    (hsorted : (b.last :: nows).Pairwise (· ≤ ·)) :
    (∀ outcome ∈ (run rate cap nows b).1, outcome = true) ↔
      Covered rate b.tokens b.last nows ∧ Conforms rate cap nows := by
  induction nows generalizing b with
  | nil =>
      refine iff_of_true ?_ ⟨?_, ?_⟩
      · exact fun outcome h => absurd h List.not_mem_nil
      · exact fun j hj => absurd hj (Nat.not_lt_zero j)
      · exact fun i j hij hj => absurd hj (Nat.not_lt_zero j)
  | cons now nows ih =>
      obtain ⟨hstart, hsorted⟩ := List.pairwise_cons.mp hsorted
      have hrefill : refill rate cap now b =
          ⟨min (b.tokens + rate * (now - b.last)) cap, now⟩ :=
        refill_of_le hcap (hstart now List.mem_cons_self)
      have hfirst : (request rate cap now b).1 = true ↔
          1 ≤ min (b.tokens + rate * (now - b.last)) cap := by
        rw [request, hrefill, consume_admits_iff]
      rw [run_cons, List.forall_mem_cons, conforms_cons, covered_cons, covered_cons, sub_self,
        mul_zero, add_zero, hfirst, le_min_iff]
      by_cases hwhole : 1 ≤ b.tokens + rate * (now - b.last) ∧ 1 ≤ cap
      · have hnext : (request rate cap now b).2 =
            ⟨min (b.tokens + rate * (now - b.last)) cap - 1, now⟩ := by
          rw [request, hrefill, consume, if_pos (le_min_iff.mpr hwhole)]
        have hcap' : min (b.tokens + rate * (now - b.last)) cap - 1 ≤ cap :=
          (sub_le_self _ zero_le_one).trans (min_le_right _ _)
        have hrest := ih (b := ⟨min (b.tokens + rate * (now - b.last)) cap - 1, now⟩) hcap' hsorted
        rw [← min_sub_sub_right, covered_min] at hrest
        rw [hnext, ← min_sub_sub_right, hrest]
        tauto
      · tauto

/-- From a full bucket, an ordered run is admitted exactly where it conforms. -/
theorem run_full_admits_all_iff {now : K} {nows : List K}
    (hsorted : (now :: nows).Pairwise (· ≤ ·)) :
    (∀ outcome ∈ (run rate cap (now :: nows) ⟨cap, now⟩).1, outcome = true) ↔
      Conforms rate cap (now :: nows) := by
  have hstart : ((⟨cap, now⟩ : Bucket K).last :: now :: nows).Pairwise (· ≤ ·) := by
    refine List.pairwise_cons.mpr ⟨?_, hsorted⟩
    intro t ht
    rcases List.mem_cons.mp ht with rfl | ht
    · exact le_rfl
    · exact (List.pairwise_cons.mp hsorted).1 t ht
  rw [run_admits_all_iff (b := ⟨cap, now⟩) le_rfl hstart, conforms_cons]
  tauto

end TokenBucket
