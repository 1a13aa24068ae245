import Garcon.Modules.RateLimit.Admission

/-!
# Conforming clients

A client that keeps every interval of its requests within the burst and the gain of the
rate is never refused, and no other client is always admitted.
-/

namespace Garcon
namespace Modules
namespace RateLimit

open TokenBucket

/-- The calls of one subject, at readings in order, are all admitted exactly where every
interval of them conforms to the rule. -/
theorem checks_all_admitted_iff (r : Rule) (hr : r.Valid) (ruleIndex : Nat) (subject : Bytes)
    (buckets : Buckets) (hnew : buckets (makeStateKey ruleIndex subject) = none)
    (nows : List ℚ) (hsorted : nows.Pairwise (· ≤ ·)) (hnows : ∀ now ∈ nows, now ≠ 0) :
    (∀ outcome ∈ (checks r ruleIndex subject nows buckets).1, outcome = true) ↔
      ∀ i j (hij : i ≤ j) (hj : j < nows.length),
        ((j - i + 1 : Nat) : ℚ) ≤ r.burst + r.limit / r.windowSeconds * (nows[j] - nows[i]) := by
  rw [← hr.rate_eq]
  cases nows with
  | nil =>
      refine iff_of_true ?_ ?_
      · exact fun outcome houtcome => absurd houtcome List.not_mem_nil
      · exact fun i j _ hj => absurd hj (Nat.not_lt_zero j)
  | cons now nows =>
      rw [(checks_new hnew hnows).1]
      exact run_full_admits_all_iff hsorted

/-- Two requests at once, and a third when the bucket has gained a token. -/
theorem checks_all_admitted_iff_twoPerMinute :
    (checks twoPerMinute 0 [] [100, 100, 130] fun _ => none).1.all id = true := by
  have hiff := checks_all_admitted_iff twoPerMinute ⟨by decide, by decide, by decide⟩ 0 []
    (fun _ => none) rfl [100, 100, 130] (by simp; norm_num) (by simp)
  refine List.all_eq_true.mpr (hiff.mpr ?_)
  intro i j hij hj
  have hj : j < 3 := hj
  interval_cases j <;> interval_cases i <;> norm_num [twoPerMinute]

end RateLimit
end Modules
end Garcon
