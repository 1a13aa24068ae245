import Garcon.Modules.Cors
import Garcon.Modules.Decimals
import Garcon.Modules.RateLimit.Admission
import Garcon.Modules.RuleFiles.Guards

/-!
# Rule files of the policies

A CORS rule keeps the texts of its methods and headers, and is written with them.  A rate
limit rule is written with its window in seconds and with the burst that it was raised to.
-/

namespace Garcon
namespace Modules

open Ascii Search Http RouteEntry

/-! ## CORS -/

namespace Cors

def Rule.fields (rule : Rule) : List Bytes :=
  [printTarget rule.targetKind rule.targetPattern,
    ([0x2c] : Bytes).intercalate (rule.allowedOrigins.map OriginPattern.value),
    rule.allowMethodsHeader, rule.allowHeadersHeader]

def Rule.print (rule : Rule) : Bytes := ruleLine rule.fields

theorem value_of_parseOriginPattern {value : Bytes} {pattern : OriginPattern}
    (h : parseOriginPattern value = .ok pattern) : pattern.value = value := by
  unfold parseOriginPattern at h
  by_cases hnil : value = []
  · rw [if_pos hnil] at h
    cases h
  · rw [if_neg hnil] at h
    cases h
    rfl

/-- The origins are kept as they were read. -/
theorem values_of_mapM {values : List Bytes} {patterns : List OriginPattern}
    (h : values.mapM parseOriginPattern = .ok patterns) :
    patterns.map OriginPattern.value = values := by
  induction values generalizing patterns with
  | nil =>
      cases h
      rfl
  | cons value values ih =>
      rw [List.mapM_cons] at h
      obtain ⟨pattern, hpattern, h⟩ := Response.exists_of_bind_eq_ok h
      obtain ⟨rest, hrest, h⟩ := Response.exists_of_bind_eq_ok h
      cases h
      rw [List.map_cons, value_of_parseOriginPattern hpattern, ih hrest]

theorem readBack_origins {origins : Bytes} {patterns : List OriginPattern}
    (hplain : PlainField origins) (h : parseOriginPatterns origins = .ok patterns) :
    PlainField (([0x2c] : Bytes).intercalate (patterns.map OriginPattern.value)) ∧
      parseOriginPatterns (([0x2c] : Bytes).intercalate (patterns.map OriginPattern.value)) =
        .ok patterns := by
  unfold parseOriginPatterns at h ⊢
  obtain ⟨parsed, hparsed, h⟩ := Response.exists_of_bind_eq_ok h
  by_cases hnil : parsed = []
  · rw [if_pos hnil] at h
    cases h
  rw [if_neg hnil] at h
  cases h
  have hvalues := values_of_mapM hparsed
  have helements : ∀ element ∈ patterns.map OriginPattern.value, PlainElement element := by
    rw [hvalues]
    exact fun element helement => plainElement_of_mem hplain helement
  refine ⟨plainField_intercalate helements, ?_⟩
  rw [elements_intercalate (List.map_eq_nil_iff.not.mpr hnil) helements, hvalues, hparsed]
  exact if_neg hnil

theorem readBack {line : Bytes} {rule : Rule} (hlf : lf ∉ line)
    (h : parseRuleLine line = .ok rule) : ReadBack isRuleLine parseRuleLine Rule.print rule := by
  have hplain := fun field => @plainField_of_rule line field hlf
  unfold parseRuleLine at h
  split at h
  · next target origins methods headers hfields =>
      rw [hfields] at hplain
      simp only [List.forall_mem_cons] at hplain
      obtain ⟨htarget, horigins, hmethods, hheaders, -⟩ := hplain
      dsimp only [bind, Except.bind, pure, Except.pure, throw, throwThe, MonadExceptOf.throw] at h
      cases hallowed : parseOriginPatterns origins with
      | error what =>
          rw [hallowed] at h
          cases h
      | ok allowedOrigins =>
          cases hallowedMethods : parseAllowedMethods methods with
          | error what =>
              rw [hallowed, hallowedMethods] at h
              cases h
          | ok allowedMethods =>
              rw [hallowed, hallowedMethods] at h
              dsimp only at h
              split_ifs at h with hpattern
              cases h
              obtain ⟨hwritten, hread⟩ := readBack_origins horigins hallowed
              have hprint : Rule.fields
                  { targetPattern := (classifyTargetPattern target).1,
                    targetKind := (classifyTargetPattern target).2, allowedOrigins,
                    allowedMethods, allowMethodsHeader := methods,
                    allowHeadersHeader := headers } =
                  [target, ([0x2c] : Bytes).intercalate
                    (allowedOrigins.map OriginPattern.value), methods, headers] := by
                unfold Rule.fields
                dsimp only
                rw [printTarget_classifyTargetPattern]
              refine readBack_of_fields (congrArg ruleLine hprint) ?_ fun hfields' => ?_
              · simp only [List.forall_mem_cons]
                exact ⟨htarget, hwritten, hmethods, hheaders, nofun⟩
              · unfold parseRuleLine
                rw [hfields']
                dsimp only [bind, Except.bind, pure, Except.pure, throw, throwThe,
                  MonadExceptOf.throw]
                rw [hread, hallowedMethods]
                dsimp only
                rw [if_neg hpattern]
  · cases h

end Cors

/-! ## Rate limits -/

namespace RateLimit

def printKey (keyType : KeyKind) (keyName : Bytes) : Bytes :=
  match keyType with
  | .global => ascii "global"
  | .header => ascii "header:" ++ keyName

def Rule.fields (rule : Rule) : List Bytes :=
  [rule.methodPattern, printTarget rule.targetKind rule.targetPattern,
    printKey rule.keyType rule.keyName, decimal rule.limit.toNat,
    decimal rule.windowSeconds.toNat, decimal rule.burst.toNat]

def Rule.print (rule : Rule) : Bytes := ruleLine rule.fields

theorem wrapInt_lt (n : Int) : wrapInt n < 2 ^ 31 := by
  unfold wrapInt
  rw [Int.bmod_def]
  split <;> omega

theorem foldlM_lt {value : Bytes} {start v : Int} (hstart : start < 2 ^ 31)
    (h : value.foldlM (fun v ch =>
      if isDigit ch then some (wrapInt (v * 10 + digitValue ch)) else none) start = some v) :
    v < 2 ^ 31 := by
  induction value generalizing start with
  | nil =>
      cases h
      exact hstart
  | cons c value ih =>
      rw [List.foldlM_cons] at h
      by_cases hdigit : isDigit c = true
      · rw [if_pos hdigit, Option.bind_eq_bind, Option.bind_some] at h
        exact ih (wrapInt_lt _) h
      · rw [if_neg hdigit] at h
        cases h

/-- A number that is read fits an `int`. -/
theorem lt_of_parsePositiveInt {value : Bytes} {what : String} {v : Int}
    (h : parsePositiveInt value what = .ok v) : v < 2 ^ 31 := by
  unfold parsePositiveInt at h
  split at h
  · cases h
  · cases hread : readDecimal value with
    | none =>
        rw [hread] at h
        cases h
    | some read =>
        rw [hread] at h
        obtain ⟨rfl, -⟩ := ite_error_eq_ok_iff.mp h
        exact foldlM_lt (by decide) hread

theorem parsePositiveInt_decimal {v : Int} (hpos : 1 ≤ v) (hlt : v < 2 ^ 31) (what : String) :
    parsePositiveInt (decimal v.toNat) what = .ok v := by
  unfold parsePositiveInt
  rw [if_neg (decimal_ne_nil _), readDecimal_decimal (by omega)]
  show (if _ then _ else _) = _
  rw [ite_error_eq_ok_iff]
  omega

/-- A window is written in seconds. -/
theorem parseWindowSeconds_decimal {total : Int} (hpos : 1 ≤ total) (hle : total ≤ 1000000000) :
    parseWindowSeconds (decimal total.toNat) = .ok total := by
  have hdigits : ∀ b ∈ decimal total.toNat, isDigit b = true := fun _ hb =>
    isDigit_of_mem_decimal hb
  have hread := @parseWindowSeconds_eq_ok_iff _ hdigits ([], 1) List.mem_cons_self total
  have hvalue : wrapInt (decimalValue (decimal total.toNat)) = total := by
    rw [decimalValue_decimal, wrapInt, Int.bmod_eq_of_le (by omega) (by omega)]
    omega
  rw [List.append_nil, hvalue] at hread
  exact hread.mpr ⟨(Int.mul_one total).symm, hpos, hle⟩

theorem le_of_parseWindowSeconds {value : Bytes} {total : Int}
    (h : parseWindowSeconds value = .ok total) : total ≤ 1000000000 := by
  unfold parseWindowSeconds at h
  dsimp only at h
  by_cases hnil : value = []
  · rw [if_pos hnil] at h
    cases h
  · rw [if_neg hnil] at h
    obtain ⟨seconds, -, h⟩ := Response.exists_of_bind_eq_ok h
    by_cases hlarge : 1000000000 < seconds * (splitWindowUnit value).2
    · rw [if_pos hlarge] at h
      cases h
    · rw [if_neg hlarge] at h
      cases h
      omega

theorem parseKeySpec_header {name : Bytes} (hne : name ≠ []) :
    parseKeySpec (ascii "header:" ++ name) = .ok (.header, name) := by
  have hglobal : ascii "header:" ++ name ≠ ascii "global" := by
    intro heq
    cases heq
  have hlength : 7 < (ascii "header:" ++ name).length := by
    rw [List.length_append]
    exact Nat.lt_add_of_pos_right (List.length_pos_iff.mpr hne)
  have htake : (ascii "header:" ++ name).take 7 = ascii "header:" := List.take_left' (by decide)
  have hdrop : (ascii "header:" ++ name).drop 7 = name := List.drop_left' (by decide)
  rw [parseKeySpec, if_neg hglobal, if_pos ⟨hlength, htake⟩, hdrop, if_neg hne]

/-- A bare name is written behind the word that it may be written without. -/
theorem readBack_key {spec keyName : Bytes} {keyType : KeyKind} (hplain : PlainField spec)
    (h : parseKeySpec spec = .ok (keyType, keyName)) :
    PlainField (printKey keyType keyName) ∧
      parseKeySpec (printKey keyType keyName) = .ok (keyType, keyName) := by
  unfold parseKeySpec at h
  split_ifs at h with hglobal hheader hnil hbare
  · cases h
    exact ⟨plainField_of_trimmed (by decide +kernel), rfl⟩
  · cases h
    have hspec : printKey .header (spec.drop 7) = spec := by
      rw [printKey, ← hheader.2]
      exact List.take_append_drop 7 spec
    refine ⟨hspec.symm ▸ hplain, ?_⟩
    rw [printKey, parseKeySpec_header hnil]
  · cases h
    refine ⟨⟨?_, ?_, ?_⟩, parseKeySpec_header hbare.1⟩
    · intro hb
      rcases List.mem_append.mp hb with hb | hb
      · exact absurd hb (by decide)
      · exact hplain.no_bar hb
    · intro hb
      rcases List.mem_append.mp hb with hb | hb
      · exact absurd hb (by decide)
      · exact hplain.no_lf hb
    · refine ⟨fun b hb => ?_, fun b hb => ?_⟩
      · cases hb
        rfl
      · rw [printKey, List.getLast?_append_of_ne_nil _ hbare.1] at hb
        exact hplain.trimmed.2 b hb

/-- What a rule was read from. -/
structure ReadFrom (fields : List Bytes) (target key : Bytes) (rule : Rule) : Prop where
  method_mem : rule.methodPattern ∈ fields
  target_mem : target ∈ fields
  key_mem : key ∈ fields
  method_ne_nil : rule.methodPattern ≠ []
  target_ne_nil : rule.targetPattern ≠ []
  target_eq : classifyTargetPattern target = (rule.targetPattern, rule.targetKind)
  key_eq : parseKeySpec key = .ok (rule.keyType, rule.keyName)
  limit_lt : rule.limit < 2 ^ 31
  window_le : rule.windowSeconds ≤ 1000000000
  burst_lt : rule.burst < 2 ^ 31

theorem exists_readFrom {line : Bytes} {rule : Rule} (h : parseRule line = .ok rule) :
    ∃ target key, ReadFrom (splitFields (line.drop 5) 0x7c) target key rule := by
  unfold parseRule at h
  split at h
  · next methodPattern target key limitText window more hfields =>
      dsimp only at h
      by_cases hmethod : methodPattern = []
      · rw [if_pos hmethod] at h
        cases h
      rw [if_neg hmethod] at h
      by_cases htarget : (classifyTargetPattern target).1 = []
      · rw [if_pos htarget] at h
        cases h
      rw [if_neg htarget] at h
      obtain ⟨⟨keyType, keyName⟩, hkey, h⟩ := Response.exists_of_bind_eq_ok h
      obtain ⟨limit, hlimit, h⟩ := Response.exists_of_bind_eq_ok h
      obtain ⟨windowSeconds, hwindow, h⟩ := Response.exists_of_bind_eq_ok h
      have hlimit := lt_of_parsePositiveInt hlimit
      have hburst : ∀ burst : Int, burst < 2 ^ 31 →
          (if burst < limit then limit else burst) < 2 ^ 31 := by
        intro burst hburst
        split <;> omega
      have hread : ∀ burst : Int, burst < 2 ^ 31 → ReadFrom (splitFields (line.drop 5) 0x7c)
          target key
          { methodPattern, targetPattern := (classifyTargetPattern target).1,
            targetKind := (classifyTargetPattern target).2, keyType, keyName, limit,
            windowSeconds, burst := if burst < limit then limit else burst } := by
        intro burst hlt
        refine ⟨?_, ?_, ?_, hmethod, htarget, rfl, hkey, hlimit,
          le_of_parseWindowSeconds hwindow, hburst burst hlt⟩
        · simp only [hfields, List.mem_cons, true_or]
        · simp only [hfields, List.mem_cons, true_or, or_true]
        · simp only [hfields, List.mem_cons, true_or, or_true]
      cases more with
      | nil =>
          cases h
          exact ⟨target, key, hread _ hlimit⟩
      | cons burstText =>
          dsimp only at h
          by_cases hnil : burstText = []
          · rw [if_pos hnil] at h
            cases h
            exact ⟨target, key, hread _ hlimit⟩
          · rw [if_neg hnil] at h
            obtain ⟨burst, hburst, h⟩ := Response.exists_of_bind_eq_ok h
            cases h
            exact ⟨target, key, hread _ (lt_of_parsePositiveInt hburst)⟩
  · cases h

theorem readBack {line : Bytes} {rule : Rule} (hlf : lf ∉ line)
    (h : parseRule line = .ok rule) : ReadBack isRuleLine parseRule Rule.print rule := by
  have hvalid := valid_of_parseRule h
  obtain ⟨target, key, hfrom⟩ := exists_readFrom h
  have hlimit := hvalid.limit_pos
  have hburst := hvalid.limit_le
  obtain ⟨hkeyPlain, hkey⟩ := readBack_key (plainField_of_rule hlf hfrom.key_mem) hfrom.key_eq
  have htarget : printTarget rule.targetKind rule.targetPattern = target := by
    rw [← printTarget_classifyTargetPattern target, hfrom.target_eq]
  refine readBack_of_fields rfl ?_ fun hfields => ?_
  · simp only [List.forall_mem_cons, htarget]
    exact ⟨plainField_of_rule hlf hfrom.method_mem, plainField_of_rule hlf hfrom.target_mem,
      hkeyPlain, plainField_decimal _, plainField_decimal _, plainField_decimal _, nofun⟩
  · unfold parseRule
    rw [hfields]
    dsimp only
    rw [htarget, hfrom.target_eq, if_neg hfrom.method_ne_nil, if_neg hfrom.target_ne_nil, hkey,
      parsePositiveInt_decimal hlimit hfrom.limit_lt,
      parseWindowSeconds_decimal hvalid.window_pos hfrom.window_le]
    dsimp only [bind, Except.bind]
    rw [if_neg (decimal_ne_nil _), parsePositiveInt_decimal (by omega) hfrom.burst_lt]
    dsimp only
    rw [if_neg (Int.not_lt.mpr hburst)]
    rfl

end RateLimit

end Modules
end Garcon
