import Garcon.Modules.RateLimit.Admission

/-!
# Retry-After

A refused request is told a number of whole seconds to wait.  The source rounds the time
to the next token up by adding 0.999 and cutting the fraction off, which rounds a wait
down when it is a little over a whole number of seconds.  It also counts the seconds from
the last refill, and the reading of the request may be older than that.
-/

namespace Garcon
namespace Modules
namespace RateLimit

open Ascii Http TokenBucket

theorem Rule.Valid.rate_pos {r : Rule} (hr : r.Valid) : 0 < ratePerSec r := by
  have hlimit : (0 : ℚ) < r.limit := by exact_mod_cast hr.limit_pos
  have hwindow : (0 : ℚ) < r.windowSeconds := by exact_mod_cast hr.window_pos
  rw [hr.rate_eq]
  exact div_pos hlimit hwindow

theorem Rule.Valid.one_le_maxTokens {r : Rule} (hr : r.Valid) : 1 ≤ maxTokens r := by
  have hburst : 1 ≤ r.burst := hr.limit_pos.trans hr.limit_le
  unfold maxTokens
  exact_mod_cast hburst

/-! ## Rounding the wait -/

/-- A wait that the source rounds down. -/
def RoundsDown (left : ℚ) : Prop :=
  1 < left ∧ 0 < Int.fract left ∧ Int.fract left < 1 / 1000

/-- The whole seconds the source makes of a wait. -/
def wholeSeconds (left : ℚ) : Int :=
  if truncate (left + 999 / 1000) < 1 then 1 else truncate (left + 999 / 1000)

theorem truncate_add {left : ℚ} (hpos : 0 < left) :
    truncate (left + 999 / 1000) = ⌊left + 999 / 1000⌋ := by
  rw [truncate, if_pos (by linarith)]
  rfl

theorem wholeSeconds_of_roundsDown {left : ℚ} (h : RoundsDown left) :
    wholeSeconds left = ⌊left⌋ := by
  obtain ⟨hlarge, -, hthin⟩ := h
  have hfloor : 1 ≤ ⌊left⌋ := Int.le_floor.mpr (by exact_mod_cast hlarge.le)
  have hsplit := Int.floor_add_fract left
  have hsame : ⌊left + 999 / 1000⌋ = ⌊left⌋ := by
    rw [Int.floor_eq_iff]
    constructor
    · linarith [Int.fract_nonneg left]
    · linarith
  rw [wholeSeconds, truncate_add (zero_lt_one.trans hlarge), hsame, if_neg (by omega)]

theorem wholeSeconds_of_not_roundsDown {left : ℚ} (hpos : 0 < left) (h : ¬ RoundsDown left) :
    wholeSeconds left = ⌈left⌉ := by
  have hceil : 1 ≤ ⌈left⌉ := Int.one_le_ceil_iff.mpr hpos
  have hsplit := Int.floor_add_fract left
  rw [wholeSeconds, truncate_add hpos]
  by_cases hwhole : Int.fract left = 0
  · have hsame : ⌊left + 999 / 1000⌋ = ⌈left⌉ := by
      have hcast : left = (⌊left⌋ : ℚ) := by linarith
      rw [Int.floor_eq_iff, hcast, Int.ceil_intCast]
      constructor <;> linarith
    rw [hsame, if_neg (by omega)]
  · have hfract : 0 < Int.fract left := lt_of_le_of_ne (Int.fract_nonneg left) (Ne.symm hwhole)
    have hnext : (⌈left⌉ : ℚ) = left + 1 - Int.fract left :=
      Int.ceil_eq_add_one_sub_fract hwhole
    by_cases hthin : Int.fract left < 1 / 1000
    · -- Less than a second is left, and the code answers with its least value.
      have hsmall : left ≤ 1 := not_lt.mp fun hlarge => h ⟨hlarge, hfract, hthin⟩
      have hle : ⌈left⌉ ≤ 1 := Int.ceil_le.mpr (by exact_mod_cast hsmall)
      have hzero : ⌊left + 999 / 1000⌋ < 1 := by
        have hfloor : (⌊left⌋ : ℚ) = (⌈left⌉ : ℚ) - 1 := by linarith
        have hnonpos : (⌈left⌉ : ℚ) ≤ 1 := by exact_mod_cast hle
        exact Int.floor_lt.mpr (by push_cast; linarith)
      rw [if_pos hzero]
      omega
    · have hsame : ⌊left + 999 / 1000⌋ = ⌈left⌉ := by
        have hlt := Int.fract_lt_one left
        rw [Int.floor_eq_iff, hnext]
        constructor <;> linarith
      rw [hsame, if_neg (by omega)]

theorem wholeSeconds_le_ceil {left : ℚ} (hpos : 0 < left) : wholeSeconds left ≤ ⌈left⌉ := by
  by_cases h : RoundsDown left
  · rw [wholeSeconds_of_roundsDown h]
    exact Int.floor_le_ceil left
  · exact (wholeSeconds_of_not_roundsDown hpos h).le

theorem one_le_wholeSeconds (left : ℚ) : 1 ≤ wholeSeconds left := by
  unfold wholeSeconds
  split <;> omega

/-- The whole seconds cover a wait and the lag before it, if they are not rounded down and
the lag is no more than what rounding up adds. -/
theorem le_wholeSeconds_iff {left lag : ℚ} (hpos : 0 < left) (hlag : 0 ≤ lag) :
    lag + left ≤ wholeSeconds left ↔ ¬ RoundsDown left ∧ lag ≤ ⌈left⌉ - left := by
  by_cases h : RoundsDown left
  · rw [wholeSeconds_of_roundsDown h]
    refine iff_of_false ?_ fun hboth => hboth.1 h
    have hsplit := Int.floor_add_fract left
    have hfract := h.2.1
    intro hle
    linarith
  · rw [wholeSeconds_of_not_roundsDown hpos h, and_iff_right h, le_sub_iff_add_le]

/-! ## The response -/

theorem makeRateLimitResponse_eq_ok {limit windowSeconds retryAfterSeconds : Int}
    (hpos : 0 < retryAfterSeconds) {resp : Response}
    (h : makeRateLimitResponse limit windowSeconds retryAfterSeconds = .ok resp) :
    resp.status = 429 ∧ (resp.findHeader (ascii "Retry-After")).map (·.value) =
      some (decimalInt retryAfterSeconds) := by
  have hvalue : ∀ n : Int, Response.validHeaderValue (decimalInt n) = true := fun n =>
    Response.validHeaderValue_iff.mpr
      ⟨not_mem_decimalInt (by decide) (by decide), not_mem_decimalInt (by decide) (by decide)⟩
  have hset : ∀ {r r' : Response} {name : Bytes} {n : Int},
      Response.validHeaderName name = true → r.setHeader name (decimalInt n) = .ok r' →
        r.Decorates r' ∧ (r'.findHeader name).map (·.value) = some (decimalInt n) ∧
          ∀ other, headerNameEquals name other = false →
            r'.findHeader other = r.findHeader other := by
    intro r r' name n hname hset
    obtain ⟨made, hmade, hdecorates, hfound, hothers⟩ := r.exists_setHeader hname (hvalue n)
    rw [hset] at hmade
    cases hmade
    exact ⟨hdecorates, hfound, hothers⟩
  unfold makeRateLimitResponse at h
  obtain ⟨first, hfirst, h⟩ := Response.exists_of_bind_eq_ok h
  obtain ⟨second, hsecond, h⟩ := Response.exists_of_bind_eq_ok h
  rw [if_pos hpos] at hsecond
  obtain ⟨hdecorates, -, -⟩ := hset (by decide +kernel) hfirst
  obtain ⟨hdecorates', hfound, -⟩ := hset (by decide +kernel) hsecond
  obtain ⟨hdecorates'', -, hothers⟩ := hset (by decide +kernel) h
  obtain ⟨headers, rfl⟩ := hdecorates.trans (hdecorates'.trans hdecorates'')
  refine ⟨rfl, ?_⟩
  rw [hothers _ (by decide +kernel)]
  exact hfound

/-! ## The bucket of a refused request -/

theorem opened_of_last_ne {r : Rule} {entry : Bucket ℚ} (h : entry.last ≠ 0) (now : ℚ) :
    opened r now (some entry) = entry := if_neg h

/-- A bucket without a mark is full, so the call on it is admitted. -/
theorem isAdmission_of_opened_full {r : Rule} (hr : r.Valid) {ruleIndex : Nat} {subject : Bytes}
    {now : ℚ} {buckets : Buckets}
    (h : opened r now (buckets (makeStateKey ruleIndex subject)) = ⟨maxTokens r, now⟩) :
    isAdmission (checkAndConsume r ruleIndex subject now buckets).1 = true := by
  rw [(checkAndConsume_eq r ruleIndex subject now buckets).1, h, request_of_last_le le_rfl,
    consume_admits_iff]
  exact hr.one_le_maxTokens

/-- Whatever the readings are, an entry holds between no tokens and the burst. -/
theorem within_of_checks {r : Rule} (hr : r.Valid) {ruleIndex : Nat} {subject : Bytes}
    (nows : List ℚ) {buckets : Buckets}
    (hbuckets : ∀ entry, buckets (makeStateKey ruleIndex subject) = some entry →
      Within (maxTokens r) entry) :
    ∀ entry, (checks r ruleIndex subject nows buckets).2 (makeStateKey ruleIndex subject) =
      some entry → Within (maxTokens r) entry := by
  induction nows generalizing buckets with
  | nil => exact hbuckets
  | cons now nows ih =>
      apply ih
      intro entry hentry
      have hopened : Within (maxTokens r)
          (opened r now (buckets (makeStateKey ruleIndex subject))) := by
        unfold opened
        by_cases hnew : ((buckets (makeStateKey ruleIndex subject)).getD ⟨0, 0⟩).last = 0
        · rw [if_pos hnew]
          exact full_within hr now
        · rw [if_neg hnew]
          cases hfound : buckets (makeStateKey ruleIndex subject) with
          | none =>
              rw [hfound] at hnew
              exact absurd rfl hnew
          | some found => exact hbuckets found hfound
      rw [(checkAndConsume_eq r ruleIndex subject now buckets).2, set_self,
        Option.some.injEq] at hentry
      rw [← hentry]
      exact request_within hr.rate_nonneg hr.maxTokens_nonneg hopened now

/-- What a refused call found, left behind and answered. -/
theorem refused_cases {r : Rule} (hr : r.Valid) {ruleIndex : Nat} {subject : Bytes} {now : ℚ}
    {buckets after : Buckets} {resp : Response}
    (h : checkAndConsume r ruleIndex subject now buckets = (.ok (some resp), after)) :
    ∃ entry, buckets (makeStateKey ruleIndex subject) = some entry ∧ entry.last ≠ 0 ∧
      (refill (ratePerSec r) (maxTokens r) now entry).tokens < 1 ∧
      after (makeStateKey ruleIndex subject) =
        some (refill (ratePerSec r) (maxTokens r) now entry) ∧
      makeRateLimitResponse r.limit r.windowSeconds
        (retryAfter r (refill (ratePerSec r) (maxTokens r) now entry)) = .ok resp := by
  have hopened : opened r now (buckets (makeStateKey ruleIndex subject)) ≠ ⟨maxTokens r, now⟩ := by
    intro hfull
    have hadmits := isAdmission_of_opened_full hr hfull
    rw [h] at hadmits
    cases hadmits
  cases hfound : buckets (makeStateKey ruleIndex subject) with
  | none =>
      rw [hfound] at hopened
      exact absurd (if_pos rfl) hopened
  | some entry =>
      rw [hfound] at hopened
      have hlast : entry.last ≠ 0 := fun hzero => hopened (if_pos hzero)
      rw [checkAndConsume_eq_ite, hfound, refilled_eq, opened_of_last_ne hlast] at h
      by_cases hwhole : 1 ≤ (refill (ratePerSec r) (maxTokens r) now entry).tokens
      · rw [if_pos hwhole] at h
        cases h
      · rw [if_neg hwhole, Prod.mk.injEq] at h
        refine ⟨entry, rfl, hlast, not_le.mp hwhole, ?_, ?_⟩
        · rw [← h.2, set_self]
        · cases hmade : makeRateLimitResponse r.limit r.windowSeconds
              (retryAfter r (refill (ratePerSec r) (maxTokens r) now entry)) with
          | error what =>
              rw [hmade] at h
              cases h.1
          | ok made =>
              rw [hmade] at h
              cases h.1
              rfl

/-- Neither of the code's bounds on the seconds changes them, other than raising a zero. -/
theorem retryAfter_eq {r : Rule} (hr : r.Valid) {b : Bucket ℚ} (hb : Within (maxTokens r) b)
    (hshort : b.tokens < 1) :
    0 < wait (ratePerSec r) b ∧ retryAfter r b = wholeSeconds (wait (ratePerSec r) b) ∧
      wholeSeconds (wait (ratePerSec r) b) ≤ r.windowSeconds := by
  have hpos : 0 < wait (ratePerSec r) b := div_pos (sub_pos.mpr hshort) hr.rate_pos
  have hlimit : (1 : ℚ) ≤ r.limit := by exact_mod_cast hr.limit_pos
  have hwindow : (0 : ℚ) < r.windowSeconds := by exact_mod_cast hr.window_pos
  have hle : wait (ratePerSec r) b ≤ r.windowSeconds := by
    rw [wait, div_le_iff₀ hr.rate_pos, hr.rate_eq, mul_div_cancel₀ _ hwindow.ne']
    have hnonneg := hb.nonneg
    linarith
  have hseconds : wholeSeconds (wait (ratePerSec r) b) ≤ r.windowSeconds :=
    (wholeSeconds_le_ceil hpos).trans (Int.ceil_le.mpr hle)
  refine ⟨hpos, ?_, hseconds⟩
  have hcode : retryAfter r b =
      if r.windowSeconds < wholeSeconds (wait (ratePerSec r) b) then r.windowSeconds
      else wholeSeconds (wait (ratePerSec r) b) := if_pos hr.rate_pos
  rw [hcode, if_neg (by omega)]

/-! ## Sufficient waits -/

/-- The instant at which a bucket holds a whole token again. -/
def due (r : Rule) (b : Bucket ℚ) : ℚ := b.last + wait (ratePerSec r) b

/-- Behind a refused call, a call is admitted once the token is due. -/
theorem isAdmission_after_iff {r : Rule} (hr : r.Valid) {ruleIndex : Nat} {subject : Bytes}
    {now later : ℚ} {entry : Bucket ℚ} {buckets : Buckets}
    (hshort : (refill (ratePerSec r) (maxTokens r) now entry).tokens < 1)
    (hmark : max entry.last now ≠ 0)
    (hbuckets : buckets (makeStateKey ruleIndex subject) =
      some (refill (ratePerSec r) (maxTokens r) now entry)) :
    isAdmission (checkAndConsume r ruleIndex subject later buckets).1 = true ↔
      due r entry ≤ later := by
  have hlast : (refill (ratePerSec r) (maxTokens r) now entry).last ≠ 0 := by
    rw [refill_last]
    exact hmark
  rw [(checkAndConsume_eq r ruleIndex subject later buckets).1, hbuckets,
    opened_of_last_ne hlast, request_admits_iff hr.rate_pos hr.one_le_maxTokens hshort,
    due_refill hr.rate_pos hr.one_le_maxTokens now hshort]
  rfl

/-- The time from a reading, or from the last refill if that is later, to the next token is
not rounded down, and the reading is not further behind the last refill than what rounding
up adds.  A refill at time zero leaves no mark. -/
def Sufficient (r : Rule) (now : ℚ) (entry : Bucket ℚ) : Prop :=
  max entry.last now = 0 ∨
    ¬ RoundsDown (due r entry - max entry.last now) ∧
      max entry.last now - now ≤
        ⌈due r entry - max entry.last now⌉ - (due r entry - max entry.last now)

/-- In every state that calls at readings in any order lead to, a refused request is told
at most the window, and every request of the subject after that time is admitted exactly
where the wait is sufficient. -/
theorem retryAfter_sufficient_iff (r : Rule) (hr : r.Valid) (ruleIndex : Nat) (subject : Bytes)
    (buckets : Buckets) (hnew : buckets (makeStateKey ruleIndex subject) = none)
    (nows : List ℚ) (now : ℚ) (resp : Response) (after : Buckets)
    (hrefused : checkAndConsume r ruleIndex subject now
      (checks r ruleIndex subject nows buckets).2 = (.ok (some resp), after)) :
    ∃ entry k, (checks r ruleIndex subject nows buckets).2 (makeStateKey ruleIndex subject) =
        some entry ∧
      resp.status = 429 ∧
      (resp.findHeader (ascii "Retry-After")).map (·.value) = some (decimalInt k) ∧
      1 ≤ k ∧ k ≤ r.windowSeconds ∧
      ((∀ later, now + k ≤ later → ∀ buckets',
          buckets' (makeStateKey ruleIndex subject) = after (makeStateKey ruleIndex subject) →
            isAdmission (checkAndConsume r ruleIndex subject later buckets').1 = true) ↔
        Sufficient r now entry) := by
  obtain ⟨entry, hentry, hlast, hshort, hafter, hmade⟩ := refused_cases hr hrefused
  have hwithin : Within (maxTokens r) entry := by
    refine within_of_checks hr nows ?_ entry hentry
    intro found hfound
    rw [hnew] at hfound
    cases hfound
  have hstored := refill_within hr.rate_nonneg hr.maxTokens_nonneg hwithin now
  obtain ⟨hpos, hk, hwindow⟩ := retryAfter_eq hr hstored hshort
  have hdue := due_refill hr.rate_pos hr.one_le_maxTokens now hshort
  rw [hk] at hmade
  obtain ⟨hstatus, hheader⟩ := makeRateLimitResponse_eq_ok (one_le_wholeSeconds _) hmade
  have hleft : wait (ratePerSec r) (refill (ratePerSec r) (maxTokens r) now entry) =
      due r entry - max entry.last now := by
    rw [due, ← hdue, refill_last, add_sub_cancel_left]
  rw [hleft] at hpos hwindow hheader
  refine ⟨entry, _, hentry, hstatus, hheader, one_le_wholeSeconds _, hwindow, ?_⟩
  rw [hafter]
  by_cases hmark : max entry.last now = 0
  · refine iff_of_true ?_ (Or.inl hmark)
    intro later _ buckets' hbuckets'
    apply isAdmission_of_opened_full hr
    rw [hbuckets']
    exact if_pos (by rw [Option.getD_some, refill_last, hmark])
  · have hlag : 0 ≤ max entry.last now - now := sub_nonneg.mpr (le_max_right _ _)
    have hsum : max entry.last now - now + (due r entry - max entry.last now) =
        due r entry - now := by ring
    rw [Sufficient, or_iff_right hmark, ← le_wholeSeconds_iff hpos hlag, hsum, sub_le_iff_le_add']
    constructor
    · intro hall
      exact (isAdmission_after_iff hr hshort hmark rfl).mp (hall _ le_rfl (fun _ => some _) rfl)
    · intro hle later hlater buckets' hbuckets'
      exact (isAdmission_after_iff hr hshort hmark hbuckets').mpr (hle.trans hlater)

def oncePerTen : Rule where
  methodPattern := ascii "*"
  targetPattern := ascii "/"
  targetKind := .prefixed
  keyName := ascii "X-Api-Key"
  limit := 1
  windowSeconds := 10
  burst := 1

def waitFive : Response where
  status := 429
  reason := ascii "Too Many Requests"
  contentType := ascii "text/plain; charset=utf-8"
  headers := [⟨ascii "X-RateLimit-Limit", ascii "1"⟩, ⟨ascii "Retry-After", ascii "5"⟩,
    ⟨ascii "X-RateLimit-Reset", ascii "10"⟩]
  body := ascii "rate limit exceeded\n"

/-- Half a token is there five seconds after the first request. -/
theorem retryAfter_sufficient_iff_oncePerTen :
    isAdmission (checkAndConsume oncePerTen 0 [] 16
      (checkAndConsume oncePerTen 0 [] 6 (checks oncePerTen 0 [] [1] fun _ => none).2).2).1 =
        true := by
  have hrefused : checkAndConsume oncePerTen 0 [] 6 (checks oncePerTen 0 [] [1] fun _ => none).2 =
      (.ok (some waitFive),
        (checkAndConsume oncePerTen 0 [] 6 (checks oncePerTen 0 [] [1] fun _ => none).2).2) :=
    Prod.ext (by decide +kernel) rfl
  obtain ⟨entry, k, hentry, -, -, -, hwindow, hiff⟩ := retryAfter_sufficient_iff oncePerTen
    ⟨by decide, by decide, by decide⟩ 0 [] (fun _ => none) rfl [1] 6 waitFive _ hrefused
  have hfound : (checks oncePerTen 0 [] [1] fun _ => none).2 (makeStateKey 0 []) =
      some ⟨0, 1⟩ := by decide +kernel
  rw [hfound, Option.some.injEq] at hentry
  have hdue : due oncePerTen ⟨0, 1⟩ = 11 := by norm_num [due, wait, ratePerSec, oncePerTen]
  have hsufficient : Sufficient oncePerTen 6 entry := by
    rw [← hentry]
    refine Or.inr ⟨?_, ?_⟩
    · rw [hdue]
      norm_num [RoundsDown]
    · rw [hdue]
      norm_num
  refine hiff.mpr hsufficient 16 ?_ _ rfl
  have hk : (k : ℚ) ≤ 10 := by exact_mod_cast hwindow
  linarith

/-- Two seconds and half a millisecond before the next token, the wait is two seconds. -/
theorem retryAfter_cut_short :
    (checkAndConsume oncePerTen 0 [] (17999 / 2000)
        (checks oncePerTen 0 [] [1] fun _ => none).2).1.map
      (Option.bind · fun resp => (resp.findHeader (ascii "Retry-After")).map (·.value)) =
        .ok (some (decimalInt 2)) ∧
      isAdmission (checkAndConsume oncePerTen 0 [] (17999 / 2000 + 2)
        (checkAndConsume oncePerTen 0 [] (17999 / 2000)
          (checks oncePerTen 0 [] [1] fun _ => none).2).2).1 = false := by
  decide +kernel

end RateLimit
end Modules
end Garcon
