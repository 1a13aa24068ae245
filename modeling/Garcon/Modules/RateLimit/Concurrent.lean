import Garcon.Library.Pool
import Garcon.Library.System
import Garcon.Modules.RateLimit.Isolation
import Garcon.Modules.RateLimit.RetryAfter

/-!
# Concurrent calls on the rate limit

The workers of the server call one module at the same time.  A call finds its rule, reads the
clock, runs `check_and_consume` under the lock and, when it was let through, takes the lock
once more to report the tokens that are left.  Other calls run between any two of these steps,
so the readings reach the lock in any order.

The clock is steady: it never goes back, and every reading is later than its zero.
-/

namespace Garcon
namespace Modules
namespace RateLimit

open Ascii Http TokenBucket

/-- A call of `handle` on its way. -/
structure Invocation where
  request : Request
  reading : Option ℚ := none
  outcome : Option (Except String (Option Response)) := none
  result : Option (Except String Module.Result) := none

/-- What was checked under the lock. -/
structure Check where
  ruleIndex : Nat
  subject : Bytes
  now : ℚ
  admitted : Bool
deriving DecidableEq, Repr

structure Limiter where
  time : ℚ
  buckets : Buckets
  calls : List Invocation
  /-- The checks so far, in the order of the lock. -/
  checked : List Check

namespace Limiter

/-- One step of one call, or of the clock. -/
inductive Step (rules : List Rule) : Limiter → Limiter → Prop where
  | tick (s : Limiter) (later : ℚ) (hlater : s.time ≤ later) :
      Step rules s { s with time := later }
  | enter (s : Limiter) (request : Request) :
      Step rules s { s with calls := s.calls ++ [{ request }] }
  | pass (s : Limiter) (j : Nat) (request : Request)
      (hcall : s.calls[j]? = some { request }) (hmatched : matched rules request = none) :
      Step rules s
        { s with calls := s.calls.set j { request, result := some (.ok .pass) } }
  | readClock (s : Limiter) (j : Nat) (request : Request) (i : Nat) (r : Rule)
      (hcall : s.calls[j]? = some { request }) (hmatched : matched rules request = some (i, r)) :
      Step rules s { s with calls := s.calls.set j { request, reading := some s.time } }
  | check (s : Limiter) (j : Nat) (request : Request) (now : ℚ) (i : Nat) (r : Rule)
      (hcall : s.calls[j]? = some { request, reading := some now })
      (hmatched : matched rules request = some (i, r)) :
      Step rules s
        { s with
          buckets := (checkAndConsume r i (extractSubject request r) now s.buckets).2
          calls := s.calls.set j
            { request, reading := some now,
              outcome := some (checkAndConsume r i (extractSubject request r) now s.buckets).1 }
          checked := s.checked ++ [⟨i, extractSubject request r, now,
            isAdmission (checkAndConsume r i (extractSubject request r) now s.buckets).1⟩] }
  | refuse (s : Limiter) (j : Nat) (request : Request) (now : ℚ) (i : Nat) (r : Rule)
      (outcome : Except String (Option Response))
      (hcall : s.calls[j]? = some { request, reading := some now, outcome := some outcome })
      (hmatched : matched rules request = some (i, r)) (hrefused : isAdmission outcome = false) :
      Step rules s
        { s with
          calls := s.calls.set j
            { request, reading := some now, outcome := some outcome,
              result := some (resultOf r outcome []) } }
  | report (s : Limiter) (j : Nat) (request : Request) (now : ℚ) (i : Nat) (r : Rule)
      (hcall : s.calls[j]? = some { request, reading := some now, outcome := some (.ok none) })
      (hmatched : matched rules request = some (i, r)) :
      Step rules s
        { s with
          calls := s.calls.set j
            { request, reading := some now, outcome := some (.ok none),
              result := some (resultOf r (.ok none)
                (remaining r i (extractSubject request r) s.buckets)) } }

/-- A new module, before its first call. -/
structure Initial (s : Limiter) : Prop where
  time_pos : 0 < s.time
  buckets : s.buckets = fun _ => none
  calls : s.calls = []
  checked : s.checked = []

def system (rules : List Rule) : System Limiter where
  Init := Initial
  Step := Step rules

/-! ## A call alone -/

theorem resultOf_of_refused (r : Rule) {outcome : Except String (Option Response)}
    (h : isAdmission outcome = false) (left left' : Bytes) :
    resultOf r outcome left = resultOf r outcome left' := by
  cases outcome with
  | error what => rfl
  | ok answer =>
      cases answer with
      | none => cases h
      | some resp => rfl

/-- A call whose steps are not interleaved with others returns what `handle` returns, and leaves
its buckets. -/
theorem handle_alone (rules : List Rule) {s : Limiter} {j : Nat} {request : Request}
    (hcall : s.calls[j]? = some { request }) :
    ∃ t call, Relation.ReflTransGen (Step rules) s t ∧ t.calls[j]? = some call ∧
      call.result = some (handle rules request s.time s.buckets).1 ∧
      t.buckets = (handle rules request s.time s.buckets).2 := by
  have hlt : j < s.calls.length := (List.getElem?_eq_some_iff.mp hcall).1
  rw [handle, handleFrom_eq]
  cases hmatched : matchedFrom 0 rules request with
  | none =>
      refine ⟨_, _, .single (.pass s j request hcall hmatched), List.getElem?_set_self hlt,
        rfl, rfl⟩
  | some p =>
      obtain ⟨i, r⟩ := p
      have hread := Step.readClock s j request i r hcall hmatched
      have hcheck := Step.check
        { s with calls := s.calls.set j { request, reading := some s.time } } j request s.time i r
        (List.getElem?_set_self hlt) hmatched
      have hlt' : j < (s.calls.set j { request, reading := some s.time }).length := by
        rwa [List.length_set]
      have hset : ∀ (calls : List Invocation) (call : Invocation), j < calls.length →
          (calls.set j call)[j]? = some call := fun calls call hj => List.getElem?_set_self hj
      dsimp only
      rw [applyRule_eq]
      dsimp only at hcheck ⊢
      generalize hsubject : extractSubject request r = subject at hcheck ⊢
      generalize checkAndConsume r i subject s.time s.buckets = checked at hcheck ⊢
      obtain ⟨outcome, buckets⟩ := checked
      have hchecked := (Relation.ReflTransGen.single hread).tail hcheck
      have hlt'' : j < ((s.calls.set j { request, reading := some s.time }).set j
          { request, reading := some s.time, outcome := some outcome }).length := by
        rwa [List.length_set]
      cases hadmitted : isAdmission outcome with
      | false =>
          rw [resultOf_of_refused r hadmitted (remaining r i subject buckets) []]
          exact ⟨_, _, hchecked.tail (.refuse _ j request s.time i r outcome (hset _ _ hlt')
            hmatched hadmitted), hset _ _ hlt'', rfl, rfl⟩
      | true =>
          have houtcome : outcome = .ok none := by
            cases outcome with
            | error what => cases hadmitted
            | ok answer =>
                cases answer with
                | none => rfl
                | some resp => cases hadmitted
          subst houtcome
          have hreport := hchecked.tail (.report _ j request s.time i r (hset _ _ hlt') hmatched)
          rw [hsubject] at hreport
          exact ⟨_, _, hreport, hset _ _ hlt'', rfl, rfl⟩

end Limiter

/-! ## One bucket -/

/-- The bucket of a rule, as every check leaves it. -/
structure Charged (r : Rule) (bucket : Bucket ℚ) : Prop where
  nonneg : 0 ≤ bucket.tokens
  lt_burst : bucket.tokens < maxTokens r

theorem Charged.within {r : Rule} {bucket : Bucket ℚ} (h : Charged r bucket) :
    Within (maxTokens r) bucket := ⟨h.nonneg, h.lt_burst.le⟩

/-- What a refused request is answered with. -/
structure Refusal (r : Rule) (resp : Response) : Prop where
  status : resp.status = 429
  limit : (resp.findHeader (ascii "X-RateLimit-Limit")).map (·.value) = some (decimalInt r.limit)
  retryAfter : ∃ k, 1 ≤ k ∧ k ≤ r.windowSeconds ∧
    (resp.findHeader (ascii "Retry-After")).map (·.value) = some (decimalInt k)

theorem exists_makeRateLimitResponse {r : Rule} {k : Int} (hpos : 1 ≤ k)
    (hle : k ≤ r.windowSeconds) :
    ∃ resp, makeRateLimitResponse r.limit r.windowSeconds k = .ok resp ∧ Refusal r resp := by
  have hvalue : ∀ n : Int, Response.validHeaderValue (decimalInt n) = true := fun n =>
    Response.validHeaderValue_iff.mpr
      ⟨not_mem_decimalInt (by decide) (by decide), not_mem_decimalInt (by decide) (by decide)⟩
  have hlimitName : Response.validHeaderName (ascii "X-RateLimit-Limit") = true := by
    decide +kernel
  have hretryName : Response.validHeaderName (ascii "Retry-After") = true := by decide +kernel
  have hresetName : Response.validHeaderName (ascii "X-RateLimit-Reset") = true := by
    decide +kernel
  obtain ⟨first, hfirst, -, hlimit, -⟩ := (Response.text 429 (ascii "Too Many Requests")
    (ascii "rate limit exceeded\n")).exists_setHeader hlimitName (hvalue r.limit)
  obtain ⟨second, hsecond, -, -, hothers⟩ := first.exists_setHeader hretryName (hvalue k)
  obtain ⟨third, hthird, -, -, hothers'⟩ :=
    second.exists_setHeader hresetName (hvalue r.windowSeconds)
  have hmade : makeRateLimitResponse r.limit r.windowSeconds k = .ok third := by
    unfold makeRateLimitResponse
    rw [if_pos (by omega : 0 < k)]
    show ((Response.text 429 (ascii "Too Many Requests")
      (ascii "rate limit exceeded\n")).setHeader _ _ >>= _) = _
    rw [hfirst]
    show (first.setHeader _ _ >>= _) = _
    rw [hsecond]
    exact hthird
  obtain ⟨hstatus, hretry⟩ := makeRateLimitResponse_eq_ok (by omega) hmade
  refine ⟨third, hmade, hstatus, ?_, k, hpos, hle, hretry⟩
  rw [hothers' _ (by decide +kernel), hothers _ (by decide +kernel)]
  exact hlimit

/-- The tokens before a check. -/
theorem refilled_within {r : Rule} (hr : r.Valid) (now : ℚ) {entry : Option (Bucket ℚ)}
    (h : ∀ bucket ∈ entry, Charged r bucket) : Within (maxTokens r) (refilled r now entry) := by
  rw [refilled_eq]
  apply refill_within hr.rate_nonneg hr.maxTokens_nonneg
  unfold opened
  by_cases hnew : (entry.getD ⟨0, 0⟩).last = 0
  · rw [if_pos hnew]
    exact full_within hr now
  · rw [if_neg hnew]
    cases entry with
    | none => exact absurd rfl hnew
    | some bucket => exact (h bucket rfl).within

/-- What a check answers, and the bucket that it leaves. -/
theorem checkAndConsume_cases {r : Rule} (hr : r.Valid) (i : Nat) (subject : Bytes) (now : ℚ)
    {buckets : Buckets} (h : ∀ bucket ∈ buckets (makeStateKey i subject), Charged r bucket) :
    ((checkAndConsume r i subject now buckets).1 = .ok none ∨
      ∃ resp, (checkAndConsume r i subject now buckets).1 = .ok (some resp) ∧ Refusal r resp) ∧
    ∃ bucket, (checkAndConsume r i subject now buckets).2 =
      buckets.set (makeStateKey i subject) bucket ∧ Charged r bucket := by
  have hwithin := refilled_within hr now h
  have hburst := hr.one_le_maxTokens
  rw [checkAndConsume_eq_ite]
  generalize refilled r now (buckets (makeStateKey i subject)) = bucket at hwithin
  have hnonneg := hwithin.nonneg
  have hcap := hwithin.le_cap
  by_cases hwhole : 1 ≤ bucket.tokens
  · rw [if_pos hwhole]
    refine ⟨.inl rfl, _, rfl, ?_, ?_⟩
    · dsimp only
      linarith
    · dsimp only
      linarith
  · rw [if_neg hwhole]
    obtain ⟨-, hseconds, hle⟩ := retryAfter_eq hr hwithin (not_le.mp hwhole)
    obtain ⟨resp, hmade, hrefusal⟩ := exists_makeRateLimitResponse (r := r)
      (k := retryAfter r bucket) (hseconds ▸ one_le_wholeSeconds _) (hseconds ▸ hle)
    refine ⟨.inr ⟨resp, ?_, hrefusal⟩, bucket, rfl, hnonneg, by linarith⟩
    rw [hmade]
    rfl

/-! ## Results -/

/-- The pass result with the tokens that are left. -/
def passLimits (r : Rule) (remaining : Bytes) : Module.Result :=
  ((Module.Result.pass.addResponseHeader (ascii "X-RateLimit-Limit")
    (decimalInt r.limit)).addResponseHeader (ascii "X-RateLimit-Remaining")
    remaining).addResponseHeader (ascii "X-RateLimit-Reset") (decimalInt r.windowSeconds)

/-- What a call may return. -/
inductive Answered (rules : List Rule) (request : Request) :
    Except String Module.Result → Prop where
  | pass (hmatched : matched rules request = none) : Answered rules request (.ok .pass)
  | admitted (i : Nat) (r : Rule) (left : Nat) (hmatched : matched rules request = some (i, r))
      (hleft : (left : Int) < r.burst) : Answered rules request (.ok (passLimits r (decimal left)))
  | refused (i : Nat) (r : Rule) (resp : Response) (hmatched : matched rules request = some (i, r))
      (hrefusal : Refusal r resp) : Answered rules request (.ok (.respond resp))

theorem remaining_of_charged {r : Rule} {i : Nat} {subject : Bytes} {buckets : Buckets}
    {bucket : Bucket ℚ} (hbucket : buckets (makeStateKey i subject) = some bucket)
    (h : Charged r bucket) :
    ∃ left : Nat, (left : Int) < r.burst ∧ remaining r i subject buckets = decimal left := by
  have htruncate : truncate bucket.tokens = ⌊bucket.tokens⌋ := if_pos h.nonneg
  have hnonneg : 0 ≤ ⌊bucket.tokens⌋ := Int.floor_nonneg.mpr h.nonneg
  have hlt : ⌊bucket.tokens⌋ < r.burst := Int.floor_lt.mpr h.lt_burst
  refine ⟨⌊bucket.tokens⌋.natAbs, by omega, ?_⟩
  unfold remaining
  rw [hbucket]
  dsimp only
  rw [htruncate, if_neg (not_lt.mpr hnonneg), decimalInt, if_neg (not_lt.mpr hnonneg)]

theorem resultOf_refusal {r : Rule} {resp : Response} (h : Refusal r resp) (left : Bytes) :
    resultOf r (.ok (some resp)) left = .ok (.respond resp) := by
  have hfound : (resp.findHeader (ascii "X-RateLimit-Limit")).isNone = false := by
    cases hheader : resp.findHeader (ascii "X-RateLimit-Limit") with
    | none =>
        have hlimit := h.limit
        rw [hheader] at hlimit
        cases hlimit
    | some header => rfl
  unfold resultOf
  dsimp only
  rw [hfound]
  rfl

/-! ## What is checked -/

/-- The check that a call has made. -/
def Invocation.check? (rules : List Rule) (call : Invocation) : Option Check :=
  match matched rules call.request, call.reading, call.outcome with
  | some (i, r), some now, some outcome =>
    some ⟨i, extractSubject call.request r, now, isAdmission outcome⟩
  | _, _, _ => none

theorem reading_of_check? {rules : List Rule} {call : Invocation} {c : Check}
    (h : call.check? rules = some c) : call.reading = some c.now := by
  unfold Invocation.check? at h
  cases hmatched : matched rules call.request with
  | none =>
      rw [hmatched] at h
      cases h
  | some p =>
      cases hreading : call.reading with
      | none =>
          rw [hmatched, hreading] at h
          cases h
      | some now =>
          cases houtcome : call.outcome with
          | none =>
              rw [hmatched, hreading, houtcome] at h
              cases h
          | some outcome =>
              rw [hmatched, hreading, houtcome] at h
              cases h
              rfl

/-- A check on the bucket of a rule and a subject. -/
def Check.own (i : Nat) (subject : Bytes) (c : Check) : Bool :=
  decide (c.ruleIndex = i ∧ c.subject = subject)

def ownChecks (i : Nat) (subject : Bytes) (checked : List Check) : List Check :=
  checked.filter (Check.own i subject)

theorem ownChecks_append (i : Nat) (subject : Bytes) (checked : List Check) (c : Check) :
    ownChecks i subject (checked ++ [c]) = ownChecks i subject checked ++
      if c.ruleIndex = i ∧ c.subject = subject then [c] else [] := by
  unfold ownChecks
  rw [List.filter_append]
  congr 1
  by_cases hown : c.ruleIndex = i ∧ c.subject = subject
  · rw [if_pos hown, List.filter_eq_self]
    intro c' hc'
    rw [List.mem_singleton.mp hc']
    exact decide_eq_true hown
  · rw [if_neg hown, List.filter_eq_nil_iff]
    intro c' hc' hown'
    rw [List.mem_singleton.mp hc'] at hown'
    exact hown (of_decide_eq_true hown')

/-- The checks of a run, and one more behind it. -/
theorem checks_append (r : Rule) (i : Nat) (subject : Bytes) (nows : List ℚ) (now : ℚ)
    (buckets : Buckets) :
    checks r i subject (nows ++ [now]) buckets =
      ((checks r i subject nows buckets).1 ++
          [isAdmission (checkAndConsume r i subject now (checks r i subject nows buckets).2).1],
        (checkAndConsume r i subject now (checks r i subject nows buckets).2).2) := by
  induction nows generalizing buckets with
  | nil => rfl
  | cons first nows ih =>
      rw [List.cons_append, checks, ih]
      rfl

/-! ## The invariant -/

namespace Limiter

structure Invariant (rules : List Rule) (s : Limiter) : Prop where
  time_pos : 0 < s.time
  reading : ∀ call ∈ s.calls, ∀ now ∈ call.reading, 0 < now ∧ now ≤ s.time
  /-- A call that was checked has read the clock. -/
  checked : s.checked.Perm (s.calls.filterMap (Invocation.check? rules))
  charged : ∀ i r, rules[i]? = some r → ∀ subject,
    ∀ bucket ∈ s.buckets (makeStateKey i subject), Charged r bucket
  /-- The checks on a bucket are a run of it. -/
  run : ∀ i r, rules[i]? = some r → ∀ subject,
    (ownChecks i subject s.checked).map (·.admitted) =
        (checks r i subject ((ownChecks i subject s.checked).map (·.now)) fun _ => none).1 ∧
      s.buckets (makeStateKey i subject) =
        (checks r i subject ((ownChecks i subject s.checked).map (·.now)) fun _ => none).2
          (makeStateKey i subject)
  outcome : ∀ call ∈ s.calls, ∀ outcome ∈ call.outcome, ∀ i r,
    matched rules call.request = some (i, r) →
      (∃ bucket, s.buckets (makeStateKey i (extractSubject call.request r)) = some bucket) ∧
        (outcome = .ok none ∨ ∃ resp, outcome = .ok (some resp) ∧ Refusal r resp)
  result : ∀ call ∈ s.calls, ∀ result ∈ call.result, Answered rules call.request result

variable {rules : List Rule} {s : Limiter}

theorem Initial.invariant (h : Initial s) : Invariant rules s := by
  have hnone : ∀ {call : Invocation}, call ∉ s.calls := by
    intro call
    rw [h.calls]
    exact List.not_mem_nil
  refine ⟨h.time_pos, fun _ hcall => absurd hcall hnone, ?_, ?_, ?_,
    fun _ hcall => absurd hcall hnone, fun _ hcall => absurd hcall hnone⟩
  · rw [h.calls, h.checked]
    exact List.Perm.refl _
  · intro i r _ subject bucket hbucket
    rw [h.buckets] at hbucket
    exact absurd hbucket (Option.not_mem_none bucket)
  · intro i r _ subject
    rw [h.buckets, h.checked]
    exact ⟨rfl, rfl⟩

/-- A step that leaves the checks alone keeps what was said about the buckets. -/
theorem Invariant.set_call (h : Invariant rules s) {j : Nat} {old new : Invocation}
    (hcall : s.calls[j]? = some old)
    (hchecked : new.check? rules = old.check? rules)
    (hreading : ∀ now ∈ new.reading, 0 < now ∧ now ≤ s.time)
    (houtcome : new.request = old.request ∧ new.outcome = old.outcome)
    (hresult : ∀ result ∈ new.result, Answered rules new.request result) :
    Invariant rules { s with calls := s.calls.set j new } where
  time_pos := h.time_pos
  reading := by
    intro call hmem
    rcases Pool.mem_set hmem with rfl | hmem
    · exact hreading
    · exact h.reading call hmem
  checked := by
    obtain ⟨rest, hold, hnew⟩ := Pool.filterMap_set (f := Invocation.check? rules) hcall new
    rw [hchecked] at hnew
    exact h.checked.trans (hold.trans hnew.symm)
  charged := h.charged
  run := h.run
  outcome := by
    intro call hmem
    rcases Pool.mem_set hmem with rfl | hmem
    · rw [houtcome.1, houtcome.2]
      exact h.outcome old (List.mem_of_getElem? hcall)
    · exact h.outcome call hmem
  result := by
    intro call hmem
    rcases Pool.mem_set hmem with rfl | hmem
    · exact hresult
    · exact h.result call hmem

theorem check?_of_outcome_none {call : Invocation} (h : call.outcome = none) :
    call.check? rules = none := by
  unfold Invocation.check?
  rw [h]
  cases matched rules call.request with
  | none => rfl
  | some p => cases call.reading <;> rfl

theorem check?_of_matched {request : Request} {i : Nat} {r : Rule}
    (hmatched : matched rules request = some (i, r)) (now : ℚ)
    (outcome : Except String (Option Response)) (result : Option (Except String Module.Result)) :
    Invocation.check? rules ⟨request, some now, some outcome, result⟩ =
      some ⟨i, extractSubject request r, now, isAdmission outcome⟩ := by
  unfold Invocation.check?
  dsimp only
  rw [hmatched]

theorem Invariant.tick (h : Invariant rules s) {later : ℚ} (hlater : s.time ≤ later) :
    Invariant rules { s with time := later } where
  time_pos := h.time_pos.trans_le hlater
  reading := by
    intro call hcall now hnow
    obtain ⟨hpos, hle⟩ := h.reading call hcall now hnow
    exact ⟨hpos, hle.trans hlater⟩
  checked := h.checked
  charged := h.charged
  run := h.run
  outcome := h.outcome
  result := h.result

theorem Invariant.enter (h : Invariant rules s) (request : Request) :
    Invariant rules { s with calls := s.calls ++ [{ request }] } where
  time_pos := h.time_pos
  reading := by
    intro call hcall now hnow
    rcases List.mem_append.mp hcall with hcall | hcall
    · exact h.reading call hcall now hnow
    · rw [List.mem_singleton.mp hcall] at hnow
      cases hnow
  checked := by
    have hnew : [({ request } : Invocation)].filterMap (Invocation.check? rules) = [] := by
      rw [List.filterMap_cons_none (check?_of_outcome_none rfl)]
      rfl
    rw [List.filterMap_append, hnew, List.append_nil]
    exact h.checked
  charged := h.charged
  run := h.run
  outcome := by
    intro call hcall outcome houtcome
    rcases List.mem_append.mp hcall with hcall | hcall
    · exact h.outcome call hcall outcome houtcome
    · rw [List.mem_singleton.mp hcall] at houtcome
      cases houtcome
  result := by
    intro call hcall result hresult
    rcases List.mem_append.mp hcall with hcall | hcall
    · exact h.result call hcall result hresult
    · rw [List.mem_singleton.mp hcall] at hresult
      cases hresult

/-- The check of a call adds to the run of its own bucket. -/
theorem Invariant.check (hvalid : ∀ r ∈ rules, r.Valid) (h : Invariant rules s) {j : Nat}
    {request : Request} {now : ℚ} {i : Nat} {r : Rule}
    (hcall : s.calls[j]? = some { request, reading := some now })
    (hmatched : matched rules request = some (i, r)) :
    Invariant rules
      { s with
        buckets := (checkAndConsume r i (extractSubject request r) now s.buckets).2
        calls := s.calls.set j
          { request, reading := some now,
            outcome := some (checkAndConsume r i (extractSubject request r) now s.buckets).1 }
        checked := s.checked ++ [⟨i, extractSubject request r, now,
          isAdmission (checkAndConsume r i (extractSubject request r) now s.buckets).1⟩] } := by
  obtain ⟨-, hrule⟩ := getElem?_of_matchedFrom hmatched
  rw [Nat.sub_zero] at hrule
  have hr := hvalid r (List.mem_of_getElem? hrule)
  obtain ⟨hanswer, bucket, hbuckets, hcharged⟩ := checkAndConsume_cases hr i
    (extractSubject request r) now (h.charged i r hrule (extractSubject request r))
  generalize hsubject : extractSubject request r = subject at hanswer hbuckets ⊢
  have hset : ∀ key b, s.buckets key = some b →
      ∃ b', s.buckets.set (makeStateKey i subject) bucket key = some b' := by
    intro key b hb
    by_cases hkey : key = makeStateKey i subject
    · rw [hkey]
      exact ⟨bucket, set_self _ _ _⟩
    · exact ⟨b, (if_neg hkey).trans hb⟩
  refine ⟨h.time_pos, ?_, ?_, ?_, ?_, ?_, ?_⟩
  · intro call hmem
    rcases Pool.mem_set hmem with rfl | hmem
    · exact fun _ hnow => h.reading _ (List.mem_of_getElem? hcall) _ hnow
    · exact h.reading call hmem
  · obtain ⟨rest, hold, hnew⟩ := Pool.filterMap_set (f := Invocation.check? rules) hcall
      { request, reading := some now,
        outcome := some (checkAndConsume r i subject now s.buckets).1 }
    rw [check?_of_outcome_none rfl] at hold
    rw [check?_of_matched hmatched, hsubject] at hnew
    exact ((h.checked.trans hold).append_right _).trans (List.perm_append_comm.trans hnew.symm)
  · intro i' r' hrule' subject' b hb
    rw [hbuckets] at hb
    change s.buckets.set (makeStateKey i subject) bucket (makeStateKey i' subject') = some b at hb
    by_cases hkey : makeStateKey i' subject' = makeStateKey i subject
    · obtain ⟨rfl, rfl⟩ := makeStateKey_inj hkey
      rw [hrule, Option.some.injEq] at hrule'
      rw [set_self, Option.some.injEq] at hb
      rw [← hrule', ← hb]
      exact hcharged
    · have hframe : s.buckets.set (makeStateKey i subject) bucket (makeStateKey i' subject') =
          s.buckets (makeStateKey i' subject') := if_neg hkey
      rw [hframe] at hb
      exact h.charged i' r' hrule' subject' b hb
  · intro i' r' hrule' subject'
    obtain ⟨hadmitted, hbucket⟩ := h.run i' r' hrule' subject'
    rw [ownChecks_append]
    dsimp only
    by_cases hown : i = i' ∧ subject = subject'
    · obtain ⟨rfl, rfl⟩ := hown
      rw [hrule, Option.some.injEq] at hrule'
      subst hrule'
      obtain ⟨hsame, hentry⟩ := checkAndConsume_congr r i subject now hbucket
      rw [if_pos ⟨rfl, rfl⟩, List.map_append, List.map_append, List.map_singleton,
        List.map_singleton, checks_append, hadmitted, hsame, hentry]
      exact ⟨rfl, rfl⟩
    · have hkey : makeStateKey i' subject' ≠ makeStateKey i subject := by
        intro hkey
        obtain ⟨hindex, hsubject'⟩ := makeStateKey_inj hkey
        exact hown ⟨hindex.symm, hsubject'.symm⟩
      rw [if_neg hown, List.append_nil, checkAndConsume_frame r i subject now s.buckets hkey]
      exact ⟨hadmitted, hbucket⟩
  · intro call hmem
    rw [hbuckets]
    rcases Pool.mem_set hmem with rfl | hmem
    · intro outcome houtcome i' r' hmatched'
      rw [hmatched, Option.some.injEq, Prod.mk.injEq] at hmatched'
      obtain ⟨rfl, rfl⟩ := hmatched'
      cases houtcome
      rw [hsubject]
      exact ⟨⟨bucket, set_self _ _ _⟩, hanswer⟩
    · intro outcome houtcome i' r' hmatched'
      obtain ⟨⟨b, hb⟩, hcases⟩ := h.outcome call hmem outcome houtcome i' r' hmatched'
      exact ⟨hset _ b hb, hcases⟩
  · intro call hmem
    rcases Pool.mem_set hmem with rfl | hmem
    · exact fun result hresult => absurd hresult (Option.not_mem_none result)
    · exact h.result call hmem

theorem Invariant.step (hvalid : ∀ r ∈ rules, r.Valid) {t : Limiter} (h : Invariant rules s)
    (hstep : Step rules s t) : Invariant rules t := by
  cases hstep with
  | tick later hlater => exact h.tick hlater
  | enter request => exact h.enter request
  | pass j request hcall hmatched =>
      refine h.set_call hcall ?_ nofun ⟨rfl, rfl⟩ ?_
      · rw [check?_of_outcome_none rfl, check?_of_outcome_none rfl]
      · intro result hresult
        cases hresult
        exact .pass hmatched
  | readClock j request i r hcall hmatched =>
      refine h.set_call hcall ?_ ?_ ⟨rfl, rfl⟩ fun result hresult =>
        absurd hresult (Option.not_mem_none result)
      · rw [check?_of_outcome_none rfl, check?_of_outcome_none rfl]
      · intro now hnow
        cases hnow
        exact ⟨h.time_pos, le_refl _⟩
  | check j request now i r hcall hmatched => exact h.check hvalid hcall hmatched
  | refuse j request now i r outcome hcall hmatched hrefused =>
      have hmem := List.mem_of_getElem? hcall
      refine h.set_call hcall ?_ (fun _ hnow => h.reading _ hmem _ hnow) ⟨rfl, rfl⟩ ?_
      · rw [check?_of_matched hmatched, check?_of_matched hmatched]
      · intro result hresult
        cases hresult
        obtain ⟨-, rfl | ⟨resp, rfl, hrefusal⟩⟩ := h.outcome _ hmem outcome rfl i r hmatched
        · cases hrefused
        · rw [resultOf_refusal hrefusal]
          exact .refused i r resp hmatched hrefusal
  | report j request now i r hcall hmatched =>
      have hmem := List.mem_of_getElem? hcall
      obtain ⟨-, hrule⟩ := getElem?_of_matchedFrom hmatched
      rw [Nat.sub_zero] at hrule
      refine h.set_call hcall ?_ (fun _ hnow => h.reading _ hmem _ hnow) ⟨rfl, rfl⟩ ?_
      · rw [check?_of_matched hmatched, check?_of_matched hmatched]
      · intro result hresult
        cases hresult
        obtain ⟨⟨bucket, hbucket⟩, -⟩ := h.outcome _ hmem _ rfl i r hmatched
        obtain ⟨left, hleft, hremaining⟩ :=
          remaining_of_charged hbucket (h.charged i r hrule _ bucket hbucket)
        rw [hremaining]
        exact .admitted i r left hmatched hleft

theorem invariant_of_reachable (hvalid : ∀ r ∈ rules, r.Valid)
    (h : (system rules).Reachable s) : Invariant rules s := by
  have hinit : ∀ s, (system rules).Init s → Invariant rules s := fun _ hs => Initial.invariant hs
  have hstep : ∀ s t, Invariant rules s → (system rules).Step s t → Invariant rules t :=
    fun _ _ hs hstep => Invariant.step hvalid hs hstep
  exact h.invariant hinit hstep

end Limiter

/-! ## Admissions over time -/

theorem foldl_max_bounds (nows : List ℚ) (now : ℚ) :
    (∀ x ∈ now :: nows, x ≤ nows.foldl max now) ∧
      ∀ t, (∀ x ∈ now :: nows, x ≤ t) → nows.foldl max now ≤ t := by
  induction nows generalizing now with
  | nil =>
      refine ⟨fun x hx => ?_, fun t h => h now List.mem_cons_self⟩
      rw [List.mem_singleton.mp hx]
      exact le_refl _
  | cons first nows ih =>
      obtain ⟨hle, hbound⟩ := ih (max now first)
      rw [List.forall_mem_cons] at hle
      refine ⟨?_, fun t h => hbound t ?_⟩
      · rw [List.forall_mem_cons, List.forall_mem_cons]
        exact ⟨(le_max_left _ _).trans hle.1, (le_max_right _ _).trans hle.1, hle.2⟩
      · rw [List.forall_mem_cons, List.forall_mem_cons] at h
        rw [List.forall_mem_cons]
        exact ⟨max_le h.1 h.2.1, h.2.2⟩

theorem le_latest {nows : List ℚ} {x : ℚ} (hx : x ∈ nows) : x ≤ latest nows := by
  cases nows with
  | nil => cases hx
  | cons now nows => exact (foldl_max_bounds nows now).1 x hx

theorem latest_le {nows : List ℚ} {t : ℚ} (hne : nows ≠ []) (h : ∀ x ∈ nows, x ≤ t) :
    latest nows ≤ t := by
  cases nows with
  | nil => exact absurd rfl hne
  | cons now nows => exact (foldl_max_bounds nows now).2 t h

/-- The checks behind some of the first ones. -/
theorem admittedBetween_append {r : Rule} {i : Nat} {subject : Bytes} {early late : List Check}
    {first : Check}
    (hrun : (early ++ first :: late).map (·.admitted) =
      (checks r i subject ((early ++ first :: late).map (·.now)) fun _ => none).1) :
    admittedBetween r i subject (fun _ => none) ((early ++ first :: late).map (·.now))
      early.length ((early ++ first :: late).length - 1) =
        (first :: late).countP (·.admitted) := by
  have hlength : (early ++ first :: late).length - 1 + 1 - early.length =
      ((first :: late).map (·.admitted)).length := by
    rw [List.length_append, List.length_map, List.length_cons]
    omega
  have hdrop : ((early ++ first :: late).map (·.admitted)).drop early.length =
      (first :: late).map (·.admitted) := by
    rw [List.map_append]
    exact List.drop_left' (List.length_map _)
  unfold admittedBetween admitted
  rw [← hrun, hdrop, hlength, List.take_length, List.count, List.countP_map]
  apply List.countP_congr
  intro c _
  exact iff_of_eq (congrArg (· = true) (beq_true c.admitted))

/-- Among the checks on one bucket, those with a reading since some time admit no more than the
burst and what the rate gives from then on. -/
theorem countP_since_le {r : Rule} (hr : r.Valid) {i : Nat} {subject : Bytes}
    {own : List Check} {time since : ℚ} (hsince : since ≤ time)
    (hrun : own.map (·.admitted) = (checks r i subject (own.map (·.now)) fun _ => none).1)
    (hreadings : ∀ c ∈ own, 0 < c.now ∧ c.now ≤ time) :
    (own.countP fun c => c.admitted && decide (since ≤ c.now) : ℚ) ≤
      r.burst + r.limit / r.windowSeconds * (time - since) := by
  have hrate := hr.rate_nonneg
  rw [hr.rate_eq] at hrate
  have hburst : (0 : ℚ) ≤ r.burst := hr.maxTokens_nonneg
  obtain ⟨early, late, rfl, hearly, hlate⟩ : ∃ early late, own = early ++ late ∧
      (∀ c ∈ early, ¬ since ≤ c.now) ∧ ∀ c ∈ late.head?, since ≤ c.now := by
    refine ⟨own.takeWhile fun c => !decide (since ≤ c.now),
      own.dropWhile fun c => !decide (since ≤ c.now), List.takeWhile_append_dropWhile.symm,
      fun c hc => ?_, fun c hc => ?_⟩
    · have hbefore := List.mem_takeWhile_imp hc
      rw [Bool.not_eq_true', decide_eq_false_iff_not] at hbefore
      exact hbefore
    · have hfirst := Trim.head_dropWhile _ c hc
      rw [Bool.not_eq_false', decide_eq_true_eq] at hfirst
      exact hfirst
  have hnone : early.countP (fun c => c.admitted && decide (since ≤ c.now)) = 0 := by
    rw [List.countP_eq_zero]
    intro c hc
    rw [decide_eq_false (hearly c hc), Bool.and_false]
    exact Bool.false_ne_true
  rw [List.countP_append, hnone, Nat.zero_add]
  cases late with
  | nil =>
      have hspan := mul_nonneg hrate (sub_nonneg.mpr hsince)
      rw [List.countP_nil, Nat.cast_zero]
      linarith
  | cons first late =>
      generalize hown : early ++ first :: late = own at hrun hreadings
      have hlength : own.length - 1 + 1 = own.length := by
        rw [← hown, List.length_append, List.length_cons]
        omega
      have hbefore : early.length < own.length := by
        rw [← hown, List.length_append, List.length_cons]
        omega
      have hnonzero : ∀ now ∈ own.map (·.now), now ≠ 0 := by
        intro now hnow
        obtain ⟨c, hc, rfl⟩ := List.mem_map.mp hnow
        exact (hreadings c hc).1.ne'
      have hbound := @admittedBetween_le r i subject (fun _ => none) (own.map (·.now)) hr rfl
        hnonzero early.length (own.length - 1) (by omega) (by rw [List.length_map]; omega)
      have hlast : latest ((own.map (·.now)).take (own.length - 1 + 1)) ≤ time := by
        rw [hlength, List.take_of_length_le (List.length_map _).le]
        apply latest_le
        · rw [← hown, List.map_append, List.map_cons]
          exact List.append_ne_nil_of_right_ne_nil _ (List.cons_ne_nil _ _)
        · intro now hnow
          obtain ⟨c, hc, rfl⟩ := List.mem_map.mp hnow
          exact (hreadings c hc).2
      have hfirst : since ≤ latest ((own.map (·.now)).take (early.length + 1)) := by
        refine (hlate first rfl).trans (le_latest ?_)
        rw [← hown, List.map_append, List.map_cons, ← List.length_map (f := (·.now)),
          List.take_length_add_append]
        exact List.mem_append_right _ List.mem_cons_self
      have hcount : (first :: late).countP (fun c => c.admitted && decide (since ≤ c.now)) ≤
          admittedBetween r i subject (fun _ => none) (own.map (·.now)) early.length
            (own.length - 1) := by
        rw [← hown, admittedBetween_append (hown ▸ hrun)]
        apply List.countP_mono_left
        intro c _ hc
        exact (Bool.and_eq_true _ _ ▸ hc).1
      have hspan : (r.limit / r.windowSeconds : ℚ) *
          (latest ((own.map (·.now)).take (own.length - 1 + 1)) -
            latest ((own.map (·.now)).take (early.length + 1))) ≤
          r.limit / r.windowSeconds * (time - since) :=
        mul_le_mul_of_nonneg_left (by linarith) hrate
      have hcount' : ((first :: late).countP
          (fun c => c.admitted && decide (since ≤ c.now)) : ℚ) ≤
          admittedBetween r i subject (fun _ => none) (own.map (·.now)) early.length
            (own.length - 1) := by
        exact_mod_cast hcount
      linarith

/-- A check that was passed, with a reading since some time. -/
def Check.counted (i : Nat) (subject : Bytes) (since : ℚ) (c : Check) : Bool :=
  (c.admitted && decide (since ≤ c.now)) && c.own i subject

/-- The calls on a bucket that were let through, of those that read the clock since some time. -/
def Limiter.admittedSince (rules : List Rule) (s : Limiter) (i : Nat) (subject : Bytes)
    (since : ℚ) : Nat :=
  (s.calls.filterMap (Invocation.check? rules)).countP (Check.counted i subject since)

theorem Limiter.Invariant.admittedSince_le {rules : List Rule} {s : Limiter}
    (h : Limiter.Invariant rules s) {i : Nat} {r : Rule} (hr : r.Valid)
    (hrule : rules[i]? = some r) (subject : Bytes) {since : ℚ} (hsince : since ≤ s.time) :
    (s.admittedSince rules i subject since : ℚ) ≤
      r.burst + r.limit / r.windowSeconds * (s.time - since) := by
  have hcount : s.admittedSince rules i subject since =
      (ownChecks i subject s.checked).countP fun c => c.admitted && decide (since ≤ c.now) := by
    rw [Limiter.admittedSince, ← h.checked.countP_eq, ownChecks, List.countP_filter]
    rfl
  rw [hcount]
  apply countP_since_le hr hsince (h.run i r hrule subject).1
  intro c hc
  have hmem : c ∈ s.calls.filterMap (Invocation.check? rules) :=
    h.checked.mem_iff.mp (List.mem_of_mem_filter hc)
  obtain ⟨call, hcall, hcheck⟩ := List.mem_filterMap.mp hmem
  exact h.reading call hcall c.now (reading_of_check? hcheck)

/-- Under every interleaving of concurrent calls, the requests of a subject that arrived since
some time and were let through are at most the burst and what the rate gives from then on.  A
call returns a refusal whose waiting time is within the window, or passes the request on with
fewer tokens left than the burst, and never throws. -/
theorem concurrent_limits (configText : Bytes) (rules : List Rule)
    (hrules : parseRules configText = .ok rules) (s : Limiter)
    (h : (Limiter.system rules).Reachable s) :
    (∀ i r, rules[i]? = some r → ∀ subject since, since ≤ s.time →
      (s.admittedSince rules i subject since : ℚ) ≤
        r.burst + r.limit / r.windowSeconds * (s.time - since)) ∧
    ∀ call ∈ s.calls, ∀ result ∈ call.result, Answered rules call.request result := by
  have hvalid : ∀ r ∈ rules, r.Valid := fun r hr => valid_of_parseRules hrules hr
  have hinvariant := Limiter.invariant_of_reachable hvalid h
  refine ⟨fun i r hrule subject since hsince => ?_, hinvariant.result⟩
  exact hinvariant.admittedSince_le (hvalid r (List.mem_of_getElem? hrule)) hrule subject hsince

def idle : Limiter where
  time := 1
  buckets := fun _ => none
  calls := []
  checked := []

theorem matched_getRoot : matched [onePerMinute] getRoot = some (0, onePerMinute) := by
  decide +kernel

/-- Of two calls that overlap, the one that read the clock later reaches the lock first. -/
def lateCheck : Except String (Option Response) × Buckets :=
  checkAndConsume onePerMinute 0 (extractSubject getRoot onePerMinute) 2 fun _ => none

def staleCheck : Except String (Option Response) × Buckets :=
  checkAndConsume onePerMinute 0 (extractSubject getRoot onePerMinute) 1 lateCheck.2

theorem exists_staleCheck : ∃ resp, staleCheck.1 = .ok (some resp) ∧
    Refusal onePerMinute resp := by
  obtain ⟨resp, hmade, hrefusal⟩ := exists_makeRateLimitResponse (r := onePerMinute) (k := 60)
    (by decide) (by decide)
  have hstale : staleCheck.1 = (makeRateLimitResponse onePerMinute.limit
      onePerMinute.windowSeconds 60).map some := by
    decide +kernel
  rw [hmade] at hstale
  exact ⟨resp, hstale, hrefusal⟩

/-- The later reading takes the only token, and the earlier one is refused behind it. -/
theorem concurrent_limits_onePerMinute : ∃ s resp,
    (Limiter.system [onePerMinute]).Reachable s ∧
      s.checked.map (·.now) = [2, 1] ∧
      s.calls.map (·.result) =
        [some (.ok (.respond resp)), some (.ok (passLimits onePerMinute (ascii "0")))] ∧
      resp.status = 429 ∧
      (s.admittedSince [onePerMinute] 0 anonymous 1 : ℚ) ≤ 1 + 1 / 60 * (2 - 1) ∧
      ∀ call ∈ s.calls, ∀ result ∈ call.result, Answered [onePerMinute] call.request result := by
  have hrules : parseRules (ascii "rule=*|/*|header:X-Api-Key|1|60s") = .ok [onePerMinute] := by
    decide +kernel
  obtain ⟨resp, hstale, hrefusal⟩ := exists_staleCheck
  have hrefused : isAdmission staleCheck.1 = false := by rw [hstale]; rfl
  have hadmitted : lateCheck.1 = .ok none := by decide +kernel
  have hleft : remaining onePerMinute 0 (extractSubject getRoot onePerMinute) staleCheck.2 =
      ascii "0" := by
    decide +kernel
  -- both calls arrive, and read the clock a second apart
  have hinit : (Limiter.system [onePerMinute]).Reachable idle :=
    .init ⟨by decide +kernel, rfl, rfl, rfl⟩
  have henter := (hinit.step (.enter idle getRoot)).step (.enter _ getRoot)
  have hfirst := henter.step (.readClock _ 0 getRoot 0 onePerMinute rfl matched_getRoot)
  have htick := hfirst.step (.tick _ 2 (by decide +kernel))
  have hsecond := htick.step (.readClock _ 1 getRoot 0 onePerMinute rfl matched_getRoot)
  -- the second one is faster
  have hlate := hsecond.step (.check _ 1 getRoot 2 0 onePerMinute rfl matched_getRoot)
  have hchecked := hlate.step (.check _ 0 getRoot 1 0 onePerMinute rfl matched_getRoot)
  have hcall := congrArg (fun outcome => some (Invocation.mk getRoot (some 2) (some outcome) none))
    hadmitted
  have hreport := hchecked.step (.report _ 1 getRoot 2 0 onePerMinute hcall matched_getRoot)
  have hdone := hreport.step (.refuse _ 0 getRoot 1 0 onePerMinute staleCheck.1 rfl
    matched_getRoot hrefused)
  obtain ⟨hbound, hanswers⟩ := concurrent_limits _ _ hrules _ hdone
  refine ⟨_, resp, hdone, rfl, ?_, hrefusal.status, ?_, hanswers⟩
  · have hresult : resultOf onePerMinute staleCheck.1 [] = .ok (.respond resp) := by
      rw [hstale]
      exact resultOf_refusal hrefusal []
    exact congrArg₂ (fun refused left =>
      [some refused, some (Except.ok (passLimits onePerMinute left))]) hresult hleft
  · exact hbound 0 onePerMinute rfl anonymous 1 (by decide +kernel)

end RateLimit
end Modules
end Garcon
