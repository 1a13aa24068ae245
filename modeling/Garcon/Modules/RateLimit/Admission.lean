import Garcon.Modules.RateLimit

/-!
# Admission under any clock order

The calls on one rule and subject are a run of one token bucket: the first call finds
no entry and starts from a full bucket, and every later one refills and consumes.  The
clock is read before the lock is taken, so the readings of a run come in any order.
-/

namespace Garcon
namespace Modules
namespace RateLimit

open TokenBucket

/-- What the constructor makes sure of in every rule. -/
structure Rule.Valid (r : Rule) : Prop where
  limit_pos : 1 ≤ r.limit
  window_pos : 1 ≤ r.windowSeconds
  limit_le : r.limit ≤ r.burst

theorem pos_of_parsePositiveInt {value : Bytes} {what : String} {v : Int}
    (h : parsePositiveInt value what = .ok v) : 1 ≤ v := by
  unfold parsePositiveInt at h
  split at h
  · cases h
  · split at h
    · cases h
    · obtain ⟨rfl, hpos⟩ := ite_error_eq_ok_iff.mp h
      omega

theorem pos_of_parseWindowSeconds {value : Bytes} {total : Int}
    (h : parseWindowSeconds value = .ok total) : 1 ≤ total := by
  have hunit : 1 ≤ (splitWindowUnit value).2 := by
    unfold splitWindowUnit
    split <;> exact Int.le.intro_sub _ rfl
  unfold parseWindowSeconds at h
  dsimp only at h
  by_cases hnil : value = []
  · rw [if_pos hnil] at h
    cases h
  · rw [if_neg hnil] at h
    obtain ⟨seconds, hseconds, h⟩ := Http.Response.exists_of_bind_eq_ok h
    have hpos := pos_of_parsePositiveInt hseconds
    by_cases hlarge : 1000000000 < seconds * (splitWindowUnit value).2
    · rw [if_pos hlarge] at h
      cases h
    · rw [if_neg hlarge] at h
      cases h
      exact one_le_mul_of_one_le_of_one_le hpos hunit

theorem valid_of_parseRule {line : Bytes} {r : Rule} (h : parseRule line = .ok r) : r.Valid := by
  unfold parseRule at h
  split at h
  · next methodPattern target key limitText window more hfields =>
      dsimp only at h
      by_cases hmethod : methodPattern = []
      · rw [if_pos hmethod] at h
        cases h
      rw [if_neg hmethod] at h
      by_cases htarget : (classifyTargetPattern target).1 = []
      · rw [if_pos htarget] at h
        cases h
      rw [if_neg htarget] at h
      obtain ⟨⟨keyType, keyName⟩, -, h⟩ := Http.Response.exists_of_bind_eq_ok h
      obtain ⟨limit, hlimit, h⟩ := Http.Response.exists_of_bind_eq_ok h
      obtain ⟨windowSeconds, hwindow, h⟩ := Http.Response.exists_of_bind_eq_ok h
      have hlimit := pos_of_parsePositiveInt hlimit
      have hwindow := pos_of_parseWindowSeconds hwindow
      have hburst : ∀ burst : Int, limit ≤ if burst < limit then limit else burst := by
        intro burst
        split <;> omega
      cases more with
      | nil =>
          cases h
          exact ⟨hlimit, hwindow, hburst _⟩
      | cons burstText =>
          dsimp only at h
          by_cases hnil : burstText = []
          · rw [if_pos hnil] at h
            cases h
            exact ⟨hlimit, hwindow, hburst _⟩
          · rw [if_neg hnil] at h
            obtain ⟨burst, -, h⟩ := Http.Response.exists_of_bind_eq_ok h
            cases h
            exact ⟨hlimit, hwindow, hburst _⟩
  · cases h

theorem valid_of_parseRules {configText : Bytes} {rules : List Rule}
    (h : parseRules configText = .ok rules) {r : Rule} (hr : r ∈ rules) : r.Valid := by
  unfold parseRules at h
  obtain ⟨parsed, hparsed, h⟩ := Http.Response.exists_of_bind_eq_ok h
  dsimp only [bind, Except.bind, pure, Except.pure, throw, throwThe, MonadExceptOf.throw] at h
  by_cases hnil : parsed = []
  · rw [if_pos hnil] at h
    cases h
  · rw [if_neg hnil] at h
    cases h
    obtain ⟨line, -, hline⟩ := exists_of_mem_mapM hparsed hr
    exact valid_of_parseRule hline

def isAdmission : Except String (Option Http.Response) → Bool
  | .ok none => true
  | _ => false

/-- Calls in the order in which they take the lock, each with its clock reading: which
were admitted, and the buckets behind the last. -/
def checks (r : Rule) (ruleIndex : Nat) (subject : Bytes) :
    List ℚ → Buckets → List Bool × Buckets
  | [], buckets => ([], buckets)
  | now :: nows, buckets =>
    let first := checkAndConsume r ruleIndex subject now buckets
    let rest := checks r ruleIndex subject nows first.2
    (isAdmission first.1 :: rest.1, rest.2)

/-- The largest reading. -/
def latest : List ℚ → ℚ
  | [] => 0
  | now :: nows => nows.foldl max now

/-- The bucket a call starts from. -/
def opened (r : Rule) (now : ℚ) (entry : Option (Bucket ℚ)) : Bucket ℚ :=
  if (entry.getD ⟨0, 0⟩).last = 0 then ⟨maxTokens r, now⟩ else entry.getD ⟨0, 0⟩

theorem Rule.Valid.rate_nonneg {r : Rule} (hr : r.Valid) : 0 ≤ ratePerSec r := by
  unfold ratePerSec
  have hlimit : (0 : ℚ) ≤ r.limit := by exact_mod_cast zero_le_one.trans hr.limit_pos
  have hwindow : (0 : ℚ) ≤ r.windowSeconds := by exact_mod_cast zero_le_one.trans hr.window_pos
  split
  · exact div_nonneg hlimit hwindow
  · simpa using hlimit

theorem Rule.Valid.rate_eq {r : Rule} (hr : r.Valid) :
    ratePerSec r = r.limit / r.windowSeconds := by
  have hpos : 0 < r.windowSeconds := hr.window_pos
  rw [ratePerSec, if_pos hpos]

theorem Rule.Valid.maxTokens_nonneg {r : Rule} (hr : r.Valid) : 0 ≤ maxTokens r := by
  have hlimit := hr.limit_pos
  have hburst := hr.limit_le
  have hnonneg : 0 ≤ r.burst := by omega
  unfold maxTokens
  exact_mod_cast hnonneg

/-- The bucket of a call before it consumes is the opened one after a refill. -/
theorem refilled_eq (r : Rule) (now : ℚ) (entry : Option (Bucket ℚ)) :
    refilled r now entry = refill (ratePerSec r) (maxTokens r) now (opened r now entry) := by
  unfold refilled refill
  simp only [sub_pos]
  rfl

theorem checkAndConsume_eq (r : Rule) (ruleIndex : Nat) (subject : Bytes) (now : ℚ)
    (buckets : Buckets) :
    let entry := buckets (makeStateKey ruleIndex subject)
    let answer := request (ratePerSec r) (maxTokens r) now (opened r now entry)
    isAdmission (checkAndConsume r ruleIndex subject now buckets).1 = answer.1 ∧
      (checkAndConsume r ruleIndex subject now buckets).2 =
        buckets.set (makeStateKey ruleIndex subject) answer.2 := by
  intro entry answer
  have hanswer : answer = consume (refilled r now entry) := by
    rw [refilled_eq]
    rfl
  rw [checkAndConsume_eq_ite, hanswer, consume]
  by_cases hwhole : 1 ≤ (refilled r now entry).tokens
  · rw [if_pos hwhole, if_pos hwhole]
    exact ⟨rfl, rfl⟩
  · rw [if_neg hwhole, if_neg hwhole]
    refine ⟨?_, rfl⟩
    cases makeRateLimitResponse r.limit r.windowSeconds _ <;> rfl

theorem set_self (buckets : Buckets) (key : Bytes) (bucket : Bucket ℚ) :
    buckets.set key bucket key = some bucket := if_pos rfl

/-- One call on the bucket of its key. -/
theorem checks_cons (r : Rule) (ruleIndex : Nat) (subject : Bytes) (now : ℚ) (nows : List ℚ)
    (buckets : Buckets) {b : Bucket ℚ}
    (hopened : opened r now (buckets (makeStateKey ruleIndex subject)) = b) :
    ∃ buckets', buckets' (makeStateKey ruleIndex subject) =
        some (request (ratePerSec r) (maxTokens r) now b).2 ∧
      (checks r ruleIndex subject (now :: nows) buckets).1 =
        (request (ratePerSec r) (maxTokens r) now b).1 ::
          (checks r ruleIndex subject nows buckets').1 ∧
      (checks r ruleIndex subject (now :: nows) buckets).2 =
        (checks r ruleIndex subject nows buckets').2 := by
  obtain ⟨hanswer, hbuckets⟩ := checkAndConsume_eq r ruleIndex subject now buckets
  rw [hopened] at hanswer hbuckets
  refine ⟨(checkAndConsume r ruleIndex subject now buckets).2, ?_, ?_, rfl⟩
  · rw [hbuckets, set_self]
  · rw [← hanswer]
    rfl

/-- Once a bucket was refilled, the calls are a run of it. -/
theorem checks_eq_run {r : Rule} {ruleIndex : Nat} {subject : Bytes} {buckets : Buckets}
    {b : Bucket ℚ} (hb : buckets (makeStateKey ruleIndex subject) = some b) (hlast : b.last ≠ 0)
    {nows : List ℚ} (hnows : ∀ now ∈ nows, now ≠ 0) :
    (checks r ruleIndex subject nows buckets).1 =
        (run (ratePerSec r) (maxTokens r) nows b).1 ∧
      (checks r ruleIndex subject nows buckets).2 (makeStateKey ruleIndex subject) =
        some (run (ratePerSec r) (maxTokens r) nows b).2 := by
  induction nows generalizing buckets b with
  | nil => exact ⟨rfl, hb⟩
  | cons now nows ih =>
      have hopened : opened r now (buckets (makeStateKey ruleIndex subject)) = b := by
        rw [hb]
        exact if_neg hlast
      obtain ⟨buckets', hkey, hfst, hsnd⟩ :=
        checks_cons r ruleIndex subject now nows buckets hopened
      have hlast' : (request (ratePerSec r) (maxTokens r) now b).2.last ≠ 0 := by
        rw [request_last]
        rcases max_choice b.last now with h | h
        · rw [h]
          exact hlast
        · rw [h]
          exact hnows now List.mem_cons_self
      obtain ⟨hrun, hend⟩ := ih hkey hlast' fun x hx => hnows x (List.mem_cons_of_mem now hx)
      rw [hfst, hsnd, hrun, hend, run_cons]
      exact ⟨rfl, rfl⟩

/-- From no entry at all, the calls are a run of a bucket that is full at the first
reading. -/
theorem checks_new {r : Rule} {ruleIndex : Nat} {subject : Bytes} {buckets : Buckets}
    (hnew : buckets (makeStateKey ruleIndex subject) = none) {now : ℚ} {nows : List ℚ}
    (hnows : ∀ x ∈ now :: nows, x ≠ 0) :
    (checks r ruleIndex subject (now :: nows) buckets).1 =
        (run (ratePerSec r) (maxTokens r) (now :: nows) ⟨maxTokens r, now⟩).1 ∧
      (checks r ruleIndex subject (now :: nows) buckets).2 (makeStateKey ruleIndex subject) =
        some (run (ratePerSec r) (maxTokens r) (now :: nows) ⟨maxTokens r, now⟩).2 := by
  have hopened : opened r now (buckets (makeStateKey ruleIndex subject)) =
      ⟨maxTokens r, now⟩ := by
    rw [hnew]
    exact if_pos rfl
  obtain ⟨buckets', hkey, hfst, hsnd⟩ :=
    checks_cons r ruleIndex subject now nows buckets hopened
  have hlast : (request (ratePerSec r) (maxTokens r) now ⟨maxTokens r, now⟩).2.last ≠ 0 := by
    rw [request_last, max_self]
    exact hnows now List.mem_cons_self
  obtain ⟨hrun, hend⟩ :=
    checks_eq_run hkey hlast fun x hx => hnows x (List.mem_cons_of_mem now hx)
  rw [hfst, hsnd, hrun, hend, run_cons]
  exact ⟨rfl, rfl⟩

/-! ## Runs of calls -/

/-- The bucket of a key after the first `k` calls. -/
def bucketAfter (r : Rule) (ruleIndex : Nat) (subject : Bytes) (buckets : Buckets)
    (nows : List ℚ) (k : Nat) : Option (Bucket ℚ) :=
  (checks r ruleIndex subject (nows.take k) buckets).2 (makeStateKey ruleIndex subject)

/-- The number of the calls `i` to `j` that were admitted. -/
def admittedBetween (r : Rule) (ruleIndex : Nat) (subject : Bytes) (buckets : Buckets)
    (nows : List ℚ) (i j : Nat) : Nat :=
  admitted (((checks r ruleIndex subject nows buckets).1.drop i).take (j + 1 - i))

section Calls

variable {r : Rule} {ruleIndex : Nat} {subject : Bytes} {buckets : Buckets} {nows : List ℚ}

/-- After at least one call the bucket is where a run from a full one is. -/
theorem bucketAfter_eq (hnew : buckets (makeStateKey ruleIndex subject) = none)
    {now : ℚ} (hnows : ∀ x ∈ now :: nows, x ≠ 0) (k : Nat) :
    bucketAfter r ruleIndex subject buckets (now :: nows) (k + 1) =
      some (run (ratePerSec r) (maxTokens r) ((now :: nows).take (k + 1))
        ⟨maxTokens r, now⟩).2 := by
  rw [bucketAfter, List.take_succ_cons]
  refine (checks_new hnew ?_).2
  intro x hx
  rw [← List.take_succ_cons] at hx
  exact hnows x (List.mem_of_mem_take hx)

/-- The time of the last refill is the largest reading so far. -/
theorem run_last_eq_latest (now : ℚ) (nows : List ℚ) (k : Nat) :
    (run (ratePerSec r) (maxTokens r) ((now :: nows).take (k + 1)) ⟨maxTokens r, now⟩).2.last =
      latest ((now :: nows).take (k + 1)) := by
  rw [run_last, List.take_succ_cons, List.foldl_cons, max_self]
  rfl

theorem full_within (hr : r.Valid) (now : ℚ) :
    Within (maxTokens r) (⟨maxTokens r, now⟩ : Bucket ℚ) :=
  ⟨hr.maxTokens_nonneg, le_refl _⟩

theorem bucketAfter_within (hr : r.Valid)
    (hnew : buckets (makeStateKey ruleIndex subject) = none) (hnows : ∀ x ∈ nows, x ≠ 0)
    {k : Nat} (hk : k < nows.length) :
    ∃ b, bucketAfter r ruleIndex subject buckets nows (k + 1) = some b ∧
      0 ≤ b.tokens ∧ b.tokens ≤ r.burst := by
  cases nows with
  | nil => exact absurd hk (Nat.not_lt_zero k)
  | cons now nows =>
      have hwithin := run_within hr.rate_nonneg hr.maxTokens_nonneg (full_within hr now)
        ((now :: nows).take (k + 1))
      exact ⟨_, bucketAfter_eq hnew hnows k, hwithin.nonneg, hwithin.le_cap⟩

theorem bucketAfter_last_mono (hnew : buckets (makeStateKey ruleIndex subject) = none)
    (hnows : ∀ x ∈ nows, x ≠ 0) {k : Nat} (hk : k + 1 < nows.length) :
    ∃ b b', bucketAfter r ruleIndex subject buckets nows (k + 1) = some b ∧
      bucketAfter r ruleIndex subject buckets nows (k + 2) = some b' ∧ b.last ≤ b'.last := by
  cases nows with
  | nil => exact absurd hk (Nat.not_lt_zero _)
  | cons now nows =>
      refine ⟨_, _, bucketAfter_eq hnew hnows k, bucketAfter_eq hnew hnows (k + 1), ?_⟩
      have htake : (now :: nows).take (k + 1 + 1) =
          (now :: nows).take (k + 1) ++ [(now :: nows)[k + 1]] :=
        List.take_succ_eq_append_getElem hk
      rw [htake, run_append]
      simp only [run, request_last]
      exact le_max_left _ _

theorem admittedBetween_le (hr : r.Valid)
    (hnew : buckets (makeStateKey ruleIndex subject) = none) (hnows : ∀ x ∈ nows, x ≠ 0)
    {i j : Nat} (hij : i ≤ j) (hj : j < nows.length) :
    (admittedBetween r ruleIndex subject buckets nows i j : ℚ) ≤
      r.burst + r.limit / r.windowSeconds *
        (latest (nows.take (j + 1)) - latest (nows.take (i + 1))) := by
  cases hcons : nows with
  | nil => simp [hcons] at hj
  | cons now rest =>
      rw [← hcons]
      have hi : i < nows.length := by omega
      let segment := nows[i] :: (nows.drop (i + 1)).take (j - i)
      have hsegment : segment.length = j + 1 - i := by
        simp only [segment, List.length_cons, List.length_take, List.length_drop]
        omega
      have hearly : (nows.take i).length = i := List.length_take_of_le (by omega)
      have hsplit : nows = nows.take i ++ (segment ++ nows.drop (j + 1)) := by
        have hlate : (nows.drop (i + 1)).take (j - i) ++ nows.drop (j + 1) =
            nows.drop (i + 1) := by
          have hdrop : nows.drop (j + 1) = (nows.drop (i + 1)).drop (j - i) := by
            rw [List.drop_drop]
            congr 1
            omega
          rw [hdrop, List.take_append_drop]
        show nows = nows.take i ++ (nows[i] :: ((nows.drop (i + 1)).take (j - i) ++ _))
        rw [hlate, List.getElem_cons_drop, List.take_append_drop]
      have hupto : nows.take (j + 1) = nows.take i ++ segment := by
        conv_lhs => rw [hsplit, ← List.append_assoc]
        exact List.take_left' (by rw [List.length_append, hearly, hsegment]; omega)
      have hupfrom : nows.take (i + 1) = nows.take i ++ [nows[i]] :=
        List.take_succ_eq_append_getElem hi
      have hfull := full_within hr now
      have houtcomes : (checks r ruleIndex subject nows buckets).1 =
          (run (ratePerSec r) (maxTokens r) nows ⟨maxTokens r, now⟩).1 := by
        rw [hcons] at hnows ⊢
        exact (checks_new hnew hnows).1
      have hlast : ∀ k, latest (nows.take (k + 1)) =
          (run (ratePerSec r) (maxTokens r) (nows.take (k + 1)) ⟨maxTokens r, now⟩).2.last := by
        intro k
        rw [hcons]
        exact (run_last_eq_latest now rest k).symm
      have hbound := admitted_segment_le hr.rate_nonneg hr.maxTokens_nonneg
        (run_within hr.rate_nonneg hr.maxTokens_nonneg hfull (nows.take i)) nows[i]
        ((nows.drop (i + 1)).take (j - i))
      have hseg := run_segment (ratePerSec r) (maxTokens r) (nows.take i) segment
        (nows.drop (j + 1)) ⟨maxTokens r, now⟩
      rw [← hsplit, hearly, hsegment, ← houtcomes] at hseg
      rw [admittedBetween, hseg, hlast j, hlast i, hupto, hupfrom, run_append, run_append,
        ← hr.rate_eq]
      exact hbound

end Calls

/-- In every run of calls on one bucket, with clock readings in any order, the tokens stay
between zero and the burst, the last refill never moves backwards, and every segment of
the run admits at most the burst and what the rate gives over the time it spans. -/
theorem checks_admission_bound (r : Rule) (hr : r.Valid) (ruleIndex : Nat) (subject : Bytes)
    (buckets : Buckets) (hnew : buckets (makeStateKey ruleIndex subject) = none)
    (nows : List ℚ) (hnows : ∀ now ∈ nows, now ≠ 0) :
    (∀ k < nows.length, ∃ b,
      bucketAfter r ruleIndex subject buckets nows (k + 1) = some b ∧
        0 ≤ b.tokens ∧ b.tokens ≤ r.burst) ∧
    (∀ k, k + 1 < nows.length → ∃ b b',
      bucketAfter r ruleIndex subject buckets nows (k + 1) = some b ∧
        bucketAfter r ruleIndex subject buckets nows (k + 2) = some b' ∧ b.last ≤ b'.last) ∧
    ∀ i j, i ≤ j → j < nows.length →
      (admittedBetween r ruleIndex subject buckets nows i j : ℚ) ≤
        r.burst + r.limit / r.windowSeconds *
          (latest (nows.take (j + 1)) - latest (nows.take (i + 1))) :=
  ⟨fun _ hk => bucketAfter_within hr hnew hnows hk,
    fun _ hk => bucketAfter_last_mono hnew hnows hk,
    fun _ _ hij hj => admittedBetween_le hr hnew hnows hij hj⟩

def twoPerMinute : Rule where
  methodPattern := Ascii.ascii "*"
  targetPattern := Ascii.ascii "/"
  targetKind := .prefixed
  keyName := Ascii.ascii "X-Api-Key"
  limit := 2
  windowSeconds := 60
  burst := 2

/-- The second reading is older than the first. -/
theorem checks_admission_bound_twoPerMinute :
    (admittedBetween twoPerMinute 0 [] (fun _ => none) [100, 90, 130] 0 2 : ℚ) ≤
      2 + 2 / 60 * (latest [100, 90, 130] - latest [100]) := by
  have hbound := (checks_admission_bound twoPerMinute ⟨by decide, by decide, by decide⟩ 0 []
    (fun _ => none) rfl [100, 90, 130] (by simp)).2.2 0 2 (by decide) (by decide)
  simpa [twoPerMinute] using hbound

end RateLimit
end Modules
end Garcon
