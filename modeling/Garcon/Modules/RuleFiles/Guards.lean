import Garcon.Modules.HeaderGuard
import Garcon.Modules.HostGuard
import Garcon.Modules.RuleFiles

/-!
# Rule files of the guards

A guard rule is written again with its status in the usual notation, and with its hosts in
lower case and without the gaps between them.
-/

namespace Garcon
namespace Modules

open Ascii Search Http RouteEntry

theorem plainField_of_rule {line field : Bytes} (hlf : lf ∉ line)
    (h : field ∈ splitFields (line.drop 5) 0x7c) : PlainField field :=
  plainField_of_mem_splitFields (fun hmem => hlf (List.mem_of_mem_drop hmem)) h

/-! ## Header guards -/

namespace HeaderGuard

def GuardRule.fields (rule : GuardRule) : List Bytes :=
  rule.methodPattern :: printTarget rule.targetKind rule.targetPattern :: rule.headerName ::
    (rule.expectedValue.toList ++ [decimal rule.failureStatus.toNat, rule.failureBody])

def GuardRule.print (rule : GuardRule) : Bytes := ruleLine rule.fields

/-- The checks are passed again by the fields of a rule. -/
theorem makeRule_print {method target headerName status body : Bytes}
    {expectedValue : Option Bytes} {rule : GuardRule}
    (h : makeRule method target headerName expectedValue status body = .ok rule) :
    makeRule method target headerName expectedValue (decimal rule.failureStatus.toNat) body =
        .ok rule ∧
      rule.fields = method :: target :: headerName ::
        (expectedValue.toList ++ [decimal rule.failureStatus.toNat, body]) := by
  unfold makeRule at h ⊢
  dsimp only [bind, Except.bind, pure, Except.pure, throw, throwThe, MonadExceptOf.throw] at h ⊢
  split_ifs at h ⊢
  cases hstatus : parseStatusCode "header_guard" status with
  | error what =>
      rw [hstatus] at h
      cases h
  | ok failureStatus =>
      rw [hstatus] at h
      cases h
      dsimp only
      rw [parseStatusCode_toNat hstatus]
      refine ⟨rfl, ?_⟩
      unfold GuardRule.fields
      dsimp only
      rw [printTarget_classifyTargetPattern]

theorem readBack {line : Bytes} {rule : GuardRule} (hlf : lf ∉ line)
    (h : parseRuleLine line = .ok rule) :
    ReadBack isRuleLine parseRuleLine GuardRule.print rule := by
  have hplain := fun field => @plainField_of_rule line field hlf
  unfold parseRuleLine at h
  split at h
  · next method target headerName status body hfields =>
      obtain ⟨hmake, hprint⟩ := makeRule_print h
      rw [hfields] at hplain
      simp only [List.forall_mem_cons] at hplain
      obtain ⟨hmethod, htarget, hname, -, hbody, -⟩ := hplain
      have hwritten : rule.fields = [method, target, headerName,
          decimal rule.failureStatus.toNat, body] := hprint
      refine readBack_of_fields (congrArg ruleLine hwritten) ?_ fun hread => ?_
      · simp only [List.forall_mem_cons]
        exact ⟨hmethod, htarget, hname, plainField_decimal _, hbody, nofun⟩
      · unfold parseRuleLine
        rw [hread]
        exact hmake
  · next method target headerName expected status body hfields =>
      obtain ⟨hmake, hprint⟩ := makeRule_print h
      rw [hfields] at hplain
      simp only [List.forall_mem_cons] at hplain
      obtain ⟨hmethod, htarget, hname, hexpected, -, hbody, -⟩ := hplain
      have hwritten : rule.fields = [method, target, headerName, expected,
          decimal rule.failureStatus.toNat, body] := hprint
      refine readBack_of_fields (congrArg ruleLine hwritten) ?_ fun hread => ?_
      · simp only [List.forall_mem_cons]
        exact ⟨hmethod, htarget, hname, hexpected, plainField_decimal _, hbody, nofun⟩
      · unfold parseRuleLine
        rw [hread]
        exact hmake
  · cases h

end HeaderGuard

/-! ## Elements of lists -/

/-- What a field of elements is written from. -/
structure PlainElement (element : Bytes) : Prop extends PlainField element where
  ne_nil : element ≠ []
  no_comma : 0x2c ∉ element

theorem plainElement_of_mem {value element : Bytes} (hvalue : PlainField value)
    (h : element ∈ (splitFields value 0x2c).filter (· ≠ [])) : PlainElement element := by
  rw [List.mem_filter, decide_eq_true_eq] at h
  refine ⟨⟨?_, ?_, ?_⟩, h.2, fun hb => (mem_of_mem_splitFields h.1 hb).2 rfl⟩
  · exact fun hb => hvalue.no_bar (mem_of_mem_splitFields h.1 hb).1
  · exact fun hb => hvalue.no_lf (mem_of_mem_splitFields h.1 hb).1
  · obtain ⟨part, -, heq⟩ := List.mem_map.mp h.1
    rw [← heq]
    exact Trim.trimmed_trim part

theorem elements_intercalate {elements : List Bytes} (hne : elements ≠ [])
    (h : ∀ element ∈ elements, PlainElement element) :
    (splitFields (([0x2c] : Bytes).intercalate elements) 0x2c).filter (· ≠ []) = elements := by
  have htrim : ∀ element ∈ elements, trim element = element := fun element helement =>
    Trim.trim_of_trimmed (h element helement).trimmed
  rw [splitFields, splitAll_intercalate elements hne fun element helement =>
    (h element helement).no_comma, List.map_congr_left htrim, List.map_id', List.filter_eq_self]
  exact fun element helement => decide_eq_true (h element helement).ne_nil

theorem trimmed_intercalate {elements : List Bytes}
    (h : ∀ element ∈ elements, PlainElement element) :
    Trim.Trimmed isSpace (([0x2c] : Bytes).intercalate elements) := by
  induction elements with
  | nil => exact ⟨nofun, nofun⟩
  | cons first elements ih =>
      have hfirst := h first List.mem_cons_self
      by_cases hnil : elements = []
      · rw [hnil, List.intercalate_singleton]
        exact hfirst.trimmed
      · obtain ⟨second, rest, rfl⟩ := List.exists_cons_of_ne_nil hnil
        obtain ⟨b, bytes, rfl⟩ := List.exists_cons_of_ne_nil hfirst.ne_nil
        have hrest := ih fun element helement => h element (List.mem_cons_of_mem _ helement)
        rw [List.intercalate_cons_cons, List.append_assoc, List.cons_append]
        exact Trim.trimmed_cons_append (hfirst.trimmed.1 b rfl) rfl hrest.2

theorem plainField_intercalate {elements : List Bytes}
    (h : ∀ element ∈ elements, PlainElement element) :
    PlainField (([0x2c] : Bytes).intercalate elements) where
  no_bar := by
    intro hb
    rcases mem_of_mem_intercalate hb with hcomma | ⟨element, helement, hmem⟩
    · exact absurd hcomma (by decide)
    · exact (h element helement).no_bar hmem
  no_lf := by
    intro hb
    rcases mem_of_mem_intercalate hb with hcomma | ⟨element, helement, hmem⟩
    · exact absurd hcomma (by decide)
    · exact (h element helement).no_lf hmem
  trimmed := trimmed_intercalate h

theorem PlainElement.map_lower {element : Bytes} (h : PlainElement element) :
    PlainElement (element.map lower) := by
  have hbar : ∀ b, lower b = 0x7c → b = 0x7c := by decide +kernel
  have hlf : ∀ b, lower b = lf → b = lf := by decide +kernel
  have hcomma : ∀ b, lower b = 0x2c → b = 0x2c := by decide +kernel
  have hmem : ∀ c, (∀ b, lower b = c → b = c) → c ∈ element.map lower → c ∈ element := by
    intro c hc hc'
    obtain ⟨b, hb, heq⟩ := List.mem_map.mp hc'
    exact hc b heq ▸ hb
  refine ⟨⟨fun hb => h.no_bar (hmem _ hbar hb), fun hb => h.no_lf (hmem _ hlf hb), ?_⟩,
    List.map_eq_nil_iff.not.mpr h.ne_nil, fun hb => h.no_comma (hmem _ hcomma hb)⟩
  refine ⟨fun b hb => ?_, fun b hb => ?_⟩
  · rw [List.head?_map, Option.mem_map] at hb
    obtain ⟨a, ha, heq⟩ := hb
    rw [← heq, isSpace_lower]
    exact h.trimmed.1 a ha
  · rw [List.getLast?_map, Option.mem_map] at hb
    obtain ⟨a, ha, heq⟩ := hb
    rw [← heq, isSpace_lower]
    exact h.trimmed.2 a ha

/-! ## Host guards -/

namespace HostGuard

/-- A suffix pattern is written with its star. -/
def HostPattern.print (pattern : HostPattern) : Bytes :=
  match pattern.kind with
  | .exact => pattern.value
  | .suffix => 0x2a :: pattern.value

def GuardRule.fields (rule : GuardRule) : List Bytes :=
  [rule.methodPattern, printTarget rule.targetKind rule.targetPattern,
    ([0x2c] : Bytes).intercalate (rule.allowedHosts.map HostPattern.print),
    decimal rule.failureStatus.toNat, rule.failureBody]

def GuardRule.print (rule : GuardRule) : Bytes := ruleLine rule.fields

/-- A pattern is written in lower case. -/
theorem print_of_parseHostPattern {value : Bytes} {pattern : HostPattern}
    (h : parseHostPattern value = .ok pattern) :
    pattern.print = asciiLowercase value ∧ parseHostPattern pattern.print = .ok pattern := by
  have hidem : asciiLowercase (asciiLowercase value) = asciiLowercase value :=
    map_lower_idem value
  unfold parseHostPattern at h
  by_cases hnil : value = []
  · rw [if_pos hnil] at h
    cases h
  rw [if_neg hnil] at h
  have hlower : asciiLowercase value ≠ [] := List.map_eq_nil_iff.not.mpr hnil
  have hlength : (asciiLowercase value).length = value.length := List.length_map _
  by_cases hsuffix : 2 < value.length ∧ (asciiLowercase value).take 2 = ascii "*."
  · rw [if_pos hsuffix] at h
    cases h
    have hprint : HostPattern.print ⟨(asciiLowercase value).drop 1, .suffix⟩ =
        asciiLowercase value := by
      have hstar : (asciiLowercase value).take 1 = [0x2a] := by
        have htake : ((asciiLowercase value).take 2).take 1 = [0x2a] := by
          rw [hsuffix.2]
          rfl
        exact List.take_take.symm.trans htake
      rw [← List.take_append_drop 1 (asciiLowercase value), hstar]
      rfl
    refine ⟨hprint, ?_⟩
    rw [hprint, parseHostPattern, if_neg hlower, hidem, hlength, if_pos hsuffix]
  · rw [if_neg hsuffix] at h
    cases h
    refine ⟨rfl, ?_⟩
    show parseHostPattern (asciiLowercase value) = _
    rw [parseHostPattern, if_neg hlower, hidem, hlength, if_neg hsuffix]

theorem parseHostPatterns_print {values : List Bytes} {patterns : List HostPattern}
    (h : values.mapM parseHostPattern = .ok patterns) :
    patterns.map HostPattern.print = values.map asciiLowercase ∧
      (patterns.map HostPattern.print).mapM parseHostPattern = .ok patterns := by
  induction values generalizing patterns with
  | nil =>
      cases h
      exact ⟨rfl, rfl⟩
  | cons value values ih =>
      rw [List.mapM_cons] at h
      obtain ⟨pattern, hpattern, h⟩ := Response.exists_of_bind_eq_ok h
      obtain ⟨rest, hrest, h⟩ := Response.exists_of_bind_eq_ok h
      cases h
      obtain ⟨hprint, hparse⟩ := print_of_parseHostPattern hpattern
      obtain ⟨hprints, hparses⟩ := ih hrest
      refine ⟨?_, ?_⟩
      · rw [List.map_cons, List.map_cons, hprint, hprints]
      · rw [List.map_cons, List.mapM_cons, hparse, hparses]
        rfl

/-- The hosts of a rule are read back from their patterns. -/
theorem readBack_hosts {hosts : Bytes} {patterns : List HostPattern} (hplain : PlainField hosts)
    (h : parseHostPatterns hosts = .ok patterns) :
    PlainField (([0x2c] : Bytes).intercalate (patterns.map HostPattern.print)) ∧
      parseHostPatterns (([0x2c] : Bytes).intercalate (patterns.map HostPattern.print)) =
        .ok patterns := by
  unfold parseHostPatterns at h ⊢
  obtain ⟨parsed, hparsed, h⟩ := Response.exists_of_bind_eq_ok h
  by_cases hnil : parsed = []
  · rw [if_pos hnil] at h
    cases h
  rw [if_neg hnil] at h
  cases h
  obtain ⟨hprint, hparse⟩ := parseHostPatterns_print hparsed
  have hplain : ∀ element ∈ patterns.map HostPattern.print, PlainElement element := by
    rw [hprint]
    intro element helement
    obtain ⟨value, hvalue, heq⟩ := List.mem_map.mp helement
    rw [← heq]
    exact (plainElement_of_mem hplain hvalue).map_lower
  refine ⟨plainField_intercalate hplain, ?_⟩
  rw [elements_intercalate (List.map_eq_nil_iff.not.mpr hnil) hplain, hparse]
  exact if_neg hnil

theorem readBack {line : Bytes} {rule : GuardRule} (hlf : lf ∉ line)
    (h : parseRuleLine line = .ok rule) :
    ReadBack isRuleLine parseRuleLine GuardRule.print rule := by
  have hplain := fun field => @plainField_of_rule line field hlf
  unfold parseRuleLine at h
  split at h
  · next method target hosts status body hfields =>
      rw [hfields] at hplain
      simp only [List.forall_mem_cons] at hplain
      obtain ⟨hmethod, htarget, hhosts, -, hbody, -⟩ := hplain
      dsimp only [bind, Except.bind, pure, Except.pure, throw, throwThe,
        MonadExceptOf.throw] at h
      cases hallowed : parseHostPatterns hosts with
      | error what =>
          rw [hallowed] at h
          cases h
      | ok allowedHosts =>
          rw [hallowed] at h
          dsimp only at h
          split_ifs at h with hempty hpattern
          cases hstatus : parseStatusCode "host_guard" status with
          | error what =>
              rw [hstatus] at h
              cases h
          | ok failureStatus =>
              rw [hstatus] at h
              cases h
              obtain ⟨hwritten, hread⟩ := readBack_hosts hhosts hallowed
              have hprint : GuardRule.fields
                  { methodPattern := method, targetPattern := (classifyTargetPattern target).1,
                    targetKind := (classifyTargetPattern target).2, allowedHosts,
                    failureStatus, failureBody := body } =
                  [method, target, ([0x2c] : Bytes).intercalate
                    (allowedHosts.map HostPattern.print), decimal failureStatus.toNat, body] := by
                unfold GuardRule.fields
                dsimp only
                rw [printTarget_classifyTargetPattern]
              refine readBack_of_fields (congrArg ruleLine hprint) ?_ fun hfields' => ?_
              · simp only [List.forall_mem_cons]
                exact ⟨hmethod, htarget, hwritten, plainField_decimal _, hbody, nofun⟩
              · unfold parseRuleLine
                rw [hfields']
                dsimp only [bind, Except.bind, pure, Except.pure, throw, throwThe,
                  MonadExceptOf.throw]
                rw [hread]
                dsimp only
                rw [if_neg hempty, if_neg hpattern, parseStatusCode_toNat hstatus]
  · cases h

end HostGuard

end Modules
end Garcon
