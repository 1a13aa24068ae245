import Garcon.Library.KeyedStore
import Garcon.Modules.RateLimit.Admission

/-!
# Subjects of the rate limit

The calls of concurrent requests interleave at the two sections that `handle` runs under
the lock.  Each section works on the bucket of one rule and subject, so the sections of
other subjects can be deleted from a run.  A request without the header shares its subject
with the requests that carry the substitute name as the header's value.
-/

namespace Garcon
namespace Modules
namespace RateLimit

open Ascii Http TokenBucket KeyedStore

/-- A request and the clock reading that its call takes. -/
structure Call where
  request : Request
  now : ℚ
deriving DecidableEq, Repr

/-- What runs under the lock: the consumption, and the later look at the tokens left. -/
inductive Section where
  | check (call : Call)
  | report (call : Call)
deriving DecidableEq, Repr

def Section.request : Section → Request
  | .check call => call.request
  | .report call => call.request

inductive Answer where
  | unmatched
  | checked (outcome : Except String (Option Response))
  | reported (remaining : Bytes)
deriving DecidableEq

/-- The first rule that a request matches, with its index from `i` on. -/
def matchedFrom (i : Nat) (rules : List Rule) (request : Request) : Option (Nat × Rule) :=
  match rules with
  | [] => none
  | r :: rules => if ruleMatches r request then some (i, r) else matchedFrom (i + 1) rules request

def matched (rules : List Rule) (request : Request) : Option (Nat × Rule) :=
  matchedFrom 0 rules request

def runSection (rules : List Rule) (sec : Section) (buckets : Buckets) : Answer × Buckets :=
  match matched rules sec.request with
  | none => (.unmatched, buckets)
  | some (i, r) =>
    let subject := extractSubject sec.request r
    match sec with
    | .check call =>
      let outcome := checkAndConsume r i subject call.now buckets
      (.checked outcome.1, outcome.2)
    | .report _ => (.reported (remaining r i subject buckets), buckets)

/-- The key of the bucket that a section works on. -/
def stateKey (rules : List Rule) (sec : Section) : Option Bytes :=
  (matched rules sec.request).map fun p => makeStateKey p.1 (extractSubject sec.request p.2)

/-! ## One call -/

/-- What `handle` makes of the answers of its two sections. -/
def resultOf (r : Rule) : Except String (Option Response) → Bytes → Except String Module.Result
  | .error what, _ => .error what
  | .ok (some resp), _ =>
    (if (resp.findHeader (ascii "X-RateLimit-Limit")).isNone then
        resp.setHeader (ascii "X-RateLimit-Limit") (decimalInt r.limit)
      else .ok resp).map Module.Result.respond
  | .ok none, remaining =>
    .ok (((Module.Result.pass.addResponseHeader (ascii "X-RateLimit-Limit")
        (decimalInt r.limit)).addResponseHeader (ascii "X-RateLimit-Remaining")
        remaining).addResponseHeader (ascii "X-RateLimit-Reset") (decimalInt r.windowSeconds))

theorem applyRule_eq (r : Rule) (i : Nat) (request : Request) (now : ℚ) (buckets : Buckets) :
    let outcome := checkAndConsume r i (extractSubject request r) now buckets
    applyRule r i request now buckets =
      (resultOf r outcome.1 (remaining r i (extractSubject request r) outcome.2), outcome.2) := by
  unfold applyRule
  dsimp only
  rcases checkAndConsume r i (extractSubject request r) now buckets with ⟨_ | _ | _, _⟩ <;> rfl

theorem handleFrom_eq (i : Nat) (rules : List Rule) (request : Request) (now : ℚ)
    (buckets : Buckets) :
    handleFrom i rules request now buckets =
      match matchedFrom i rules request with
      | none => (.ok .pass, buckets)
      | some (j, r) => applyRule r j request now buckets := by
  induction rules generalizing i with
  | nil => rfl
  | cons r rules ih =>
      rw [handleFrom, matchedFrom]
      by_cases hmatches : ruleMatches r request = true
      · rw [if_pos hmatches, if_pos hmatches]
      · rw [if_neg hmatches, if_neg hmatches]
        exact ih (i + 1)

/-- A call whose sections are not interleaved with others is the one section behind the
other. -/
theorem handle_eq_sections (rules : List Rule) (call : Call) (buckets : Buckets) :
    let checked := runSection rules (.check call) buckets
    let reported := runSection rules (.report call) checked.2
    handle rules call.request call.now buckets =
      (match matched rules call.request, checked.1, reported.1 with
        | some (_, r), .checked outcome, .reported remaining => resultOf r outcome remaining
        | _, _, _ => .ok .pass, checked.2) := by
  intro checked reported
  rw [handle, handleFrom_eq]
  show (match matched rules call.request with | none => _ | some (j, r) => _) = _
  cases hmatched : matched rules call.request with
  | none =>
      have hchecked : checked = (.unmatched, buckets) := by
        show runSection rules (.check call) buckets = _
        unfold runSection
        rw [Section.request, hmatched]
      rw [hchecked]
  | some p =>
      have hchecked : checked = (.checked (checkAndConsume p.2 p.1
          (extractSubject call.request p.2) call.now buckets).1, (checkAndConsume p.2 p.1
          (extractSubject call.request p.2) call.now buckets).2) := by
        show runSection rules (.check call) buckets = _
        unfold runSection
        rw [Section.request, hmatched]
      have hreported : reported.1 = .reported (remaining p.2 p.1
          (extractSubject call.request p.2) checked.2) := by
        show (runSection rules (.report call) checked.2).1 = _
        unfold runSection
        rw [Section.request, hmatched]
      rw [hreported, hchecked]
      exact applyRule_eq p.2 p.1 call.request call.now buckets

theorem getElem?_of_matchedFrom {i : Nat} {rules : List Rule} {request : Request} {j : Nat}
    {r : Rule} (h : matchedFrom i rules request = some (j, r)) :
    i ≤ j ∧ rules[j - i]? = some r := by
  induction rules generalizing i with
  | nil => cases h
  | cons first rules ih =>
      rw [matchedFrom] at h
      by_cases hmatches : ruleMatches first request = true
      · rw [if_pos hmatches] at h
        cases h
        rw [Nat.sub_self]
        exact ⟨Nat.le_refl _, rfl⟩
      · rw [if_neg hmatches] at h
        obtain ⟨hle, hget⟩ := ih h
        refine ⟨by omega, ?_⟩
        rw [show j - i = j - (i + 1) + 1 by omega, List.getElem?_cons_succ, hget]

/-! ## One bucket -/

theorem checkAndConsume_congr (r : Rule) (i : Nat) (subject : Bytes) (now : ℚ)
    {buckets buckets' : Buckets}
    (h : buckets (makeStateKey i subject) = buckets' (makeStateKey i subject)) :
    (checkAndConsume r i subject now buckets).1 = (checkAndConsume r i subject now buckets').1 ∧
      (checkAndConsume r i subject now buckets).2 (makeStateKey i subject) =
        (checkAndConsume r i subject now buckets').2 (makeStateKey i subject) := by
  rw [checkAndConsume_eq_ite, checkAndConsume_eq_ite, h]
  by_cases hwhole :
      1 ≤ (refilled r now (buckets' (makeStateKey i subject))).tokens
  · rw [if_pos hwhole, if_pos hwhole]
    exact ⟨rfl, (set_self _ _ _).trans (set_self _ _ _).symm⟩
  · rw [if_neg hwhole, if_neg hwhole]
    exact ⟨rfl, (set_self _ _ _).trans (set_self _ _ _).symm⟩

theorem checkAndConsume_frame (r : Rule) (i : Nat) (subject : Bytes) (now : ℚ)
    (buckets : Buckets) {key : Bytes} (hne : key ≠ makeStateKey i subject) :
    (checkAndConsume r i subject now buckets).2 key = buckets key := by
  rw [checkAndConsume_eq_ite]
  by_cases hwhole : 1 ≤ (refilled r now (buckets (makeStateKey i subject))).tokens
  · rw [if_pos hwhole]
    exact if_neg hne
  · rw [if_neg hwhole]
    exact if_neg hne

theorem local_runSection (rules : List Rule) : Local (runSection rules) (stateKey rules) where
  answer_eq := by
    intro sec buckets buckets' hsame
    unfold runSection
    unfold stateKey at hsame
    cases hmatched : matched rules sec.request with
    | none => rfl
    | some p =>
        rw [hmatched] at hsame
        have hkey := hsame _ rfl
        cases sec with
        | check call =>
            exact congrArg Answer.checked (checkAndConsume_congr p.2 p.1 _ call.now hkey).1
        | report call =>
            show Answer.reported (remaining p.2 p.1 _ _) = Answer.reported (remaining p.2 p.1 _ _)
            unfold remaining
            rw [hkey]
  entry_eq := by
    intro sec buckets buckets' key hkey hsame
    unfold runSection
    unfold stateKey at hkey
    cases hmatched : matched rules sec.request with
    | none => exact hsame
    | some p =>
        rw [hmatched] at hkey
        cases hkey
        cases sec with
        | check call => exact (checkAndConsume_congr p.2 p.1 _ call.now hsame).2
        | report call => exact hsame
  frame := by
    intro sec buckets key hkey
    unfold runSection
    unfold stateKey at hkey
    cases hmatched : matched rules sec.request with
    | none => rfl
    | some p =>
        rw [hmatched] at hkey
        cases sec with
        | check call =>
            apply checkAndConsume_frame
            intro hself
            exact hkey (congrArg some hself.symm)
        | report call => rfl

/-- The index and the subject of a bucket can be read off its key. -/
theorem makeStateKey_inj {i j : Nat} {subject subject' : Bytes}
    (h : makeStateKey i subject = makeStateKey j subject') : i = j ∧ subject = subject' := by
  have hdigits : ∀ (n : Nat) (rest : Bytes),
      (decimal n ++ ascii ":" ++ rest).takeWhile isDigit = decimal n := by
    intro n rest
    rw [List.append_assoc]
    apply takeWhile_digits fun b hb => isDigit_of_mem_decimal hb
    intro b hb
    cases hb
    rfl
  have hdecimal : decimal i = decimal j := by
    rw [← hdigits i subject, ← hdigits j subject']
    exact congrArg _ h
  refine ⟨?_, ?_⟩
  · rw [← decimalValue_decimal i, ← decimalValue_decimal j, hdecimal]
  · unfold makeStateKey at h
    rw [hdecimal] at h
    exact List.append_cancel_left h

/-! ## Subjects -/

/-- The substitute for a header that is absent or empty. -/
def anonymous : Bytes := ascii "<anonymous>"

/-- The value of the rule's header, where an absent and an empty header are alike. -/
def keyValue (r : Rule) (request : Request) : Option Bytes :=
  match findHeaderIcase request r.keyName with
  | none => none
  | some value => if value = [] then none else some value

theorem extractSubject_eq {r : Rule} (hkey : r.keyType = .header) (request : Request) :
    extractSubject request r = (keyValue r request).getD anonymous := by
  unfold extractSubject keyValue
  rw [hkey]
  cases hfind : findHeaderIcase request r.keyName with
  | none => rfl
  | some value =>
      by_cases hnil : value = []
      · dsimp only
        rw [if_pos hnil, if_pos hnil]
        rfl
      · dsimp only
        rw [if_neg hnil, if_neg hnil]
        rfl

/-- The requests that the rule with index `i` counts for a value. -/
def Counts (rules : List Rule) (i : Nat) (r : Rule) (v : Option Bytes) (request : Request) :
    Prop :=
  matched rules request = some (i, r) ∧ keyValue r request = v

instance (rules : List Rule) (i : Nat) (r : Rule) (v : Option Bytes) (request : Request) :
    Decidable (Counts rules i r v request) :=
  inferInstanceAs (Decidable (_ ∧ _))

/-- Deleting the requests with other values changes no answer to a request that the rule
counts for this value. -/
def Unaffected (rules : List Rule) (i : Nat) (r : Rule) (v : Option Bytes)
    (sections : List Section) : Prop :=
  answersTo (fun sec => decide (Counts rules i r v sec.request))
      (KeyedStore.run (runSection rules) sections fun _ => none).1 =
    answersTo (fun sec => decide (Counts rules i r v sec.request))
      (KeyedStore.run (runSection rules)
        (sections.filter fun sec => decide (keyValue r sec.request = v)) fun _ => none).1

/-- A run does not have both requests without the header and requests with the substitute
name in it, if the value is one of the two. -/
def Apart (rules : List Rule) (i : Nat) (r : Rule) (v : Option Bytes)
    (sections : List Section) : Prop :=
  (v = none → ∀ sec ∈ sections, ¬ Counts rules i r (some anonymous) sec.request) ∧
    (v = some anonymous → ∀ sec ∈ sections, ¬ Counts rules i r none sec.request)

/-- In a run that keeps the two kinds apart, the bucket of a value is its own. -/
theorem counts_iff_stateKey {rules : List Rule} {i : Nat} {r : Rule}
    (hrule : rules[i]? = some r) (hkey : r.keyType = .header) {v : Option Bytes}
    {sections : List Section} (h : Apart rules i r v sections) {sec : Section}
    (hsec : sec ∈ sections) :
    Counts rules i r v sec.request ↔
      stateKey rules sec = some (makeStateKey i (v.getD anonymous)) := by
  unfold stateKey
  constructor
  · intro hcounts
    rw [hcounts.1, Option.map_some, extractSubject_eq hkey, hcounts.2]
  · intro hstate
    obtain ⟨⟨j, r'⟩, hmatched, hsame⟩ := Option.map_eq_some_iff.mp hstate
    obtain ⟨rfl, hsubject⟩ := makeStateKey_inj hsame
    have hr : r' = r := by
      have hget := (getElem?_of_matchedFrom hmatched).2
      rw [Nat.sub_zero, hrule, Option.some.injEq] at hget
      exact hget.symm
    subst hr
    refine ⟨hmatched, ?_⟩
    rw [extractSubject_eq hkey] at hsubject
    cases hvalue : keyValue r' sec.request with
    | none =>
        rw [hvalue] at hsubject
        cases v with
        | none => rfl
        | some value =>
            exact absurd ⟨hmatched, hvalue⟩ (h.2 (congrArg some hsubject.symm) sec hsec)
    | some found =>
        rw [hvalue] at hsubject
        cases v with
        | none =>
            rw [show found = anonymous from hsubject] at hvalue
            exact absurd ⟨hmatched, hvalue⟩ (h.1 rfl sec hsec)
        | some value => exact congrArg some hsubject

theorem unaffected_of_apart {rules : List Rule} {i : Nat} {r : Rule}
    (hrule : rules[i]? = some r) (hkey : r.keyType = .header) {v : Option Bytes}
    {sections : List Section} (h : Apart rules i r v sections) :
    Unaffected rules i r v sections := by
  apply (local_runSection rules).run_filter (k := makeStateKey i (v.getD anonymous))
  · intro sec hsec
    rw [decide_eq_true_iff]
    exact counts_iff_stateKey hrule hkey h hsec
  · intro sec hsec hcounts
    rw [decide_eq_true_iff] at hcounts ⊢
    exact hcounts.2
  · rfl

/-! ## Requests without the header -/

/-- The request with this text in the rule's header, or without headers. -/
def withKeyValue (r : Rule) (v : Option Bytes) (request : Request) : Request :=
  { request with headers := (v.map fun value => ⟨r.keyName, value⟩).toList }

theorem matchedFrom_withKeyValue (i : Nat) (rules : List Rule) (r : Rule) (v : Option Bytes)
    (request : Request) :
    matchedFrom i rules (withKeyValue r v request) = matchedFrom i rules request := by
  induction rules generalizing i with
  | nil => rfl
  | cons first rules ih =>
      rw [matchedFrom, matchedFrom, ih]
      rfl

theorem keyValue_withKeyValue (r : Rule) {v : Option Bytes} (hv : v ≠ some [])
    (request : Request) : keyValue r (withKeyValue r v request) = v := by
  cases v with
  | none => rfl
  | some value =>
      have hfind : findHeaderIcase (withKeyValue r (some value) request) r.keyName =
          some value := by
        have hfound : [(⟨r.keyName, value⟩ : HeaderField)].find?
            (fun h => asciiLowercase h.name == asciiLowercase r.keyName) =
              some ⟨r.keyName, value⟩ := by
          rw [List.find?_eq_some_iff_append]
          exact ⟨beq_self_eq_true _, [], [], rfl, fun x hx => absurd hx List.not_mem_nil⟩
        exact congrArg (Option.map HeaderField.value) hfound
      have hne : value ≠ [] := fun hnil => hv (congrArg some hnil)
      unfold keyValue
      rw [hfind]
      exact if_neg hne

theorem runSection_check {rules : List Rule} {i : Nat} {r : Rule} {request : Request}
    (hmatched : matched rules request = some (i, r)) (now : ℚ) (buckets : Buckets) :
    runSection rules (.check ⟨request, now⟩) buckets =
      (.checked (checkAndConsume r i (extractSubject request r) now buckets).1,
        (checkAndConsume r i (extractSubject request r) now buckets).2) := by
  unfold runSection
  rw [Section.request, hmatched]

/-- Checks of one subject at one instant are a run of its bucket. -/
theorem run_checks {rules : List Rule} {i : Nat} {r : Rule} {request : Request}
    (hmatched : matched rules request = some (i, r)) (now : ℚ) (n : Nat) (buckets : Buckets) :
    (KeyedStore.run (runSection rules) (List.replicate n (.check ⟨request, now⟩)) buckets).2 =
      (checks r i (extractSubject request r) (List.replicate n now) buckets).2 := by
  induction n generalizing buckets with
  | zero => rfl
  | succ n ih =>
      rw [List.replicate_succ, List.replicate_succ, KeyedStore.run, runSection_check hmatched]
      exact ih _

/-- As many checks as the burst allows leave nothing for the next. -/
theorem isAdmission_behind_burst {r : Rule} (hr : r.Valid) (i : Nat) (subject : Bytes) {now : ℚ}
    (hnow : now ≠ 0) :
    isAdmission (checkAndConsume r i subject now fun _ => none).1 = true ∧
      isAdmission (checkAndConsume r i subject now
        (checks r i subject (List.replicate r.burst.toNat now) fun _ => none).2).1 = false := by
  have hlimit := hr.limit_pos
  have hle := hr.limit_le
  obtain ⟨n, hn⟩ : ∃ n, r.burst.toNat = n + 1 := ⟨r.burst.toNat - 1, by omega⟩
  have hburst : ((n + 1 : Nat) : ℚ) = maxTokens r := by
    have hcast : ((n + 1 : Nat) : Int) = r.burst := by omega
    unfold maxTokens
    rw [← hcast]
    rfl
  have hconsume : ∀ tokens : ℚ, (request (ratePerSec r) (maxTokens r) now ⟨tokens, now⟩).1 =
      decide (1 ≤ tokens) := by
    intro tokens
    rw [request_of_last_le le_rfl, Bool.eq_iff_iff, consume_admits_iff, decide_eq_true_iff]
  refine ⟨?_, ?_⟩
  · rw [(checkAndConsume_eq r i subject now _).1]
    show (request _ _ now ⟨maxTokens r, now⟩).1 = true
    rw [hconsume, decide_eq_true_iff, ← hburst, Nat.cast_succ]
    have hnonneg : (0 : ℚ) ≤ n := Nat.cast_nonneg n
    linarith
  · have hnows : ∀ x ∈ now :: List.replicate n now, x ≠ 0 := by
      intro x hx
      rw [← List.replicate_succ] at hx
      rw [List.eq_of_mem_replicate hx]
      exact hnow
    have hbucket : (checks r i subject (now :: List.replicate n now) fun _ => none).2
        (makeStateKey i subject) = some ⟨maxTokens r - (n + 1 : Nat), now⟩ := by
      rw [(checks_new rfl hnows).2, ← List.replicate_succ,
        run_replicate now (n + 1) (le_of_eq hburst)]
    rw [hn, List.replicate_succ, (checkAndConsume_eq r i subject now _).1, hbucket, hburst,
      sub_self]
    show (request _ _ now (if now = 0 then _ else ⟨0, now⟩)).1 = false
    rw [if_neg hnow, hconsume]
    exact decide_eq_false (not_le.mpr zero_lt_one)

/-- Two values with one subject: the one can spend the tokens of the other. -/
theorem not_unaffected_of_shared {rules : List Rule} {i : Nat} {r : Rule} (hr : r.Valid)
    (hkey : r.keyType = .header) {request : Request}
    (hmatched : matched rules request = some (i, r)) {v other : Option Bytes}
    (hv : v ≠ some []) (hother : other ≠ some []) (hne : other ≠ v)
    (hshared : other.getD anonymous = v.getD anonymous) :
    ¬ Unaffected rules i r v
      (List.replicate r.burst.toNat (.check ⟨withKeyValue r other request, 1⟩) ++
        [.check ⟨withKeyValue r v request, 1⟩]) := by
  have hown : matched rules (withKeyValue r v request) = some (i, r) := by
    unfold matched
    rw [matchedFrom_withKeyValue]
    exact hmatched
  have hfoe : matched rules (withKeyValue r other request) = some (i, r) := by
    unfold matched
    rw [matchedFrom_withKeyValue]
    exact hmatched
  have hsubject : extractSubject (withKeyValue r v request) r = v.getD anonymous := by
    rw [extractSubject_eq hkey, keyValue_withKeyValue r hv]
  have hsame : extractSubject (withKeyValue r other request) r = v.getD anonymous := by
    rw [extractSubject_eq hkey, keyValue_withKeyValue r hother, hshared]
  have hone : (1 : ℚ) ≠ 0 := one_ne_zero
  obtain ⟨hadmits, hrefuses⟩ := isAdmission_behind_burst hr i (v.getD anonymous) hone
  -- Nothing of the other value is owned, or kept by the deletion.
  have hforeign : ∀ sec ∈ List.replicate r.burst.toNat
      (Section.check ⟨withKeyValue r other request, 1⟩), keyValue r sec.request ≠ v := by
    intro sec hsec
    rw [List.eq_of_mem_replicate hsec]
    show keyValue r (withKeyValue r other request) ≠ v
    rw [keyValue_withKeyValue r hother]
    exact hne
  have hcounts : Counts rules i r v (Section.check ⟨withKeyValue r v request, 1⟩).request :=
    ⟨hown, keyValue_withKeyValue r hv request⟩
  have hcheck : ∀ buckets, answersTo (fun sec => decide (Counts rules i r v sec.request))
      (KeyedStore.run (runSection rules) [.check ⟨withKeyValue r v request, 1⟩] buckets).1 =
        [(.check ⟨withKeyValue r v request, 1⟩,
          .checked (checkAndConsume r i (v.getD anonymous) 1 buckets).1)] := by
    intro buckets
    rw [answersTo_run_cons, if_pos (decide_eq_true hcounts), runSection_check hown, hsubject]
    rfl
  have hkept : (List.replicate r.burst.toNat
      (Section.check ⟨withKeyValue r other request, 1⟩) ++
        [Section.check ⟨withKeyValue r v request, 1⟩]).filter
          (fun sec => decide (keyValue r sec.request = v)) =
      [Section.check ⟨withKeyValue r v request, 1⟩] := by
    rw [List.filter_append, List.filter_eq_nil_iff.mpr, List.nil_append]
    · exact List.filter_eq_self.mpr (List.forall_mem_singleton.mpr (decide_eq_true hcounts.2))
    · intro sec hsec hkept
      exact hforeign sec hsec (of_decide_eq_true hkept)
  intro h
  unfold Unaffected at h
  rw [hkept, hcheck, KeyedStore.run_append, answersTo_append, hcheck, run_checks hfoe, hsame,
    answersTo_run_of_none_owned, List.nil_append, List.cons.injEq, Prod.mk.injEq,
    Answer.checked.injEq] at h
  · rw [h.1.2, hadmits] at hrefuses
    cases hrefuses
  · intro sec hsec
    exact decide_eq_false fun hcounts => hforeign sec hsec hcounts.2

/-- In a run that keeps the two kinds of requests apart, deleting the requests with other
values changes no answer, whether it admits, refuses or reports the tokens left, however
the sections interleave.  In every run at all no answer changes exactly when the value is
neither of the two, or no request reaches the rule. -/
theorem unaffected_iff (configText : Bytes) (rules : List Rule)
    (hparse : parseRules configText = .ok rules) (i : Nat) (r : Rule)
    (hrule : rules[i]? = some r) (hkey : r.keyType = .header) (v : Option Bytes) :
    (∀ sections, Apart rules i r v sections → Unaffected rules i r v sections) ∧
    ((∀ sections, Unaffected rules i r v sections) ↔
      (v ≠ none ∧ v ≠ some anonymous) ∨ ∀ request, matched rules request ≠ some (i, r)) := by
  refine ⟨fun sections hapart => unaffected_of_apart hrule hkey hapart, ?_, ?_⟩
  · intro hall
    by_contra hneither
    rw [not_or, not_forall] at hneither
    obtain ⟨hvalue, request, hmatched⟩ := hneither
    rw [not_not] at hmatched
    have hr := valid_of_parseRules hparse (List.mem_of_getElem? hrule)
    have hnil : some anonymous ≠ some [] := by decide
    by_cases hnone : v = none
    · subst hnone
      exact not_unaffected_of_shared hr hkey hmatched (Option.some_ne_none _).symm hnil
        (Option.some_ne_none _) rfl (hall _)
    · have hsubstitute : v = some anonymous := by
        by_contra hother
        exact hvalue ⟨hnone, hother⟩
      subst hsubstitute
      exact not_unaffected_of_shared hr hkey hmatched hnil (Option.some_ne_none _).symm
        (Option.some_ne_none _).symm rfl (hall _)
  · intro hvalue sections
    apply unaffected_of_apart hrule hkey
    rcases hvalue with ⟨hnone, hsubstitute⟩ | hunmatched
    · exact ⟨fun h => absurd h hnone, fun h => absurd h hsubstitute⟩
    · exact ⟨fun _ sec _ hcounts => hunmatched _ hcounts.1,
        fun _ sec _ hcounts => hunmatched _ hcounts.1⟩

/-- One request for each key and minute. -/
def onePerMinute : Rule where
  methodPattern := ascii "*"
  targetPattern := ascii "/"
  targetKind := .prefixed
  keyName := ascii "X-Api-Key"
  limit := 1
  windowSeconds := 60
  burst := 1

def getRoot : Request where
  method := ascii "GET"
  target := ascii "/"
  headers := []

theorem unaffected_iff_onePerMinute : Unaffected [onePerMinute] 0 onePerMinute (some (ascii "a"))
    [.check ⟨withKeyValue onePerMinute (some (ascii "a")) getRoot, 5⟩,
      .check ⟨withKeyValue onePerMinute (some (ascii "b")) getRoot, 5⟩,
      .report ⟨withKeyValue onePerMinute (some (ascii "a")) getRoot, 5⟩] :=
  (unaffected_iff (ascii "rule=*|/*|header:X-Api-Key|1|60s") [onePerMinute] (by decide +kernel)
    0 onePerMinute rfl rfl (some (ascii "a"))).2.mpr (Or.inl ⟨by decide, by decide⟩) _

/-- The substitute name as a header value takes the token of the request without the
header. -/
theorem affected_by_substitute : ¬ Unaffected [onePerMinute] 0 onePerMinute none
    [.check ⟨withKeyValue onePerMinute (some anonymous) getRoot, 1⟩,
      .check ⟨withKeyValue onePerMinute none getRoot, 1⟩] :=
  not_unaffected_of_shared ⟨by decide, by decide, by decide⟩ rfl rfl
    (Option.some_ne_none _).symm (by decide) (Option.some_ne_none _) rfl

end RateLimit
end Modules
end Garcon
