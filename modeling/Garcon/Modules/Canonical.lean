import Garcon.Modules.RuleFiles.Policies
import Garcon.Modules.RuleFiles.Settings

/-!
# Canonical configurations

Every configuration that a module accepts can be written again from the settings that the
module keeps: without comments, gaps or repeated keys, and with every number in its usual
notation.  The module reads the same settings back.
-/

namespace Garcon
namespace Modules

open Ascii Search Http RouteEntry

/-! ## Routes -/

namespace RouteEntry

def routeLine (fields : List Bytes) : Bytes := wordLine (ascii "route=") fields

theorem plainWord_route : PlainWord (ascii "route=") :=
  ⟨⟨0x72, ascii "oute=", by decide, by decide, by decide⟩, by decide +kernel⟩

def responseFields (response : Option Response) : List Bytes :=
  match response with
  | none => [ascii "pass"]
  | some response =>
    [ascii "respond", decimal response.status.toNat, response.contentType, response.body]

def entryFields (route : RouteEntry) : List Bytes :=
  route.methodPattern :: printTarget route.targetKind route.targetPattern ::
    responseFields route.response

def printEntry (route : RouteEntry) : Bytes := routeLine (entryFields route)

/-- What is read from behind the action of a route is read from its response. -/
theorem parseResponse_responseFields {moduleName : String} {fields : List Bytes}
    {response : Response} (h : parseResponse moduleName fields = .ok response) :
    parseResponse moduleName
        [decimal response.status.toNat, response.contentType, response.body] = .ok response ∧
      response.contentType ∈ fields ∧ response.body ∈ fields := by
  unfold parseResponse at h
  split at h
  · next statusText contentType body =>
      cases hstatus : parseStatusCode moduleName statusText with
      | error what =>
          rw [hstatus] at h
          cases h
      | ok status =>
          rw [hstatus] at h
          cases h
          refine ⟨?_, by simp only [List.mem_cons, true_or, or_true],
            by simp only [List.mem_cons, true_or, or_true]⟩
          unfold parseResponse
          dsimp only
          rw [parseStatusCode_toNat hstatus]
  · cases h

theorem readBack_of_routeFields {parse : Bytes → Except String RouteEntry} {route : RouteEntry}
    (hplain : ∀ field ∈ entryFields route, PlainField field)
    (hparsed : splitFields ((routeLine (entryFields route)).drop 6) 0x7c = entryFields route →
      parse (routeLine (entryFields route)) = .ok route) :
    ReadBack isRouteLine parse printEntry route := by
  refine ⟨?_, ?_, ?_⟩
  · exact plainConfigLine_wordLine plainWord_route (List.cons_ne_nil _ _) hplain
  · exact beq_iff_eq.mpr (take_wordLine (ascii "route=") _)
  · exact hparsed (splitFields_wordLine (ascii "route=") (List.cons_ne_nil _ _) hplain)

theorem readBack {moduleName : String} {line : Bytes} {route : RouteEntry} (hlf : lf ∉ line)
    (h : parseRouteLine moduleName line = .ok route) :
    ReadBack isRouteLine (parseRouteLine moduleName) printEntry route := by
  have hplain : ∀ field ∈ splitFields (line.drop 6) 0x7c, PlainField field := fun field hfield =>
    plainField_of_mem_splitFields (fun hmem => hlf (List.mem_of_mem_drop hmem)) hfield
  have hpass : PlainField (ascii "pass") := plainField_of_trimmed (by decide +kernel)
  have hrespond : PlainField (ascii "respond") := plainField_of_trimmed (by decide +kernel)
  unfold parseRouteLine at h
  split at h
  · next method target action fields hfields =>
      rw [hfields] at hplain
      simp only [List.forall_mem_cons] at hplain
      obtain ⟨hmethod, htarget, haction, hrest⟩ := hplain
      dsimp only [bind, Except.bind, pure, Except.pure, throw, throwThe,
        MonadExceptOf.throw] at h
      split_ifs at h with hnil hpattern haction haction
      · cases h
        refine readBack_of_routeFields ?_ fun hread => ?_
        · simp only [entryFields, responseFields, printTarget_classifyTargetPattern,
            List.forall_mem_cons]
          exact ⟨hmethod, htarget, hpass, nofun⟩
        · unfold parseRouteLine
          rw [hread, entryFields, printTarget_classifyTargetPattern, responseFields]
          dsimp only
          rw [if_neg hnil, if_neg hpattern, if_pos rfl]
          rfl
      · cases hresponse : parseResponse moduleName fields with
        | error what =>
            rw [hresponse] at h
            cases h
        | ok response =>
            rw [hresponse] at h
            cases h
            obtain ⟨hagain, hcontentType, hbody⟩ := parseResponse_responseFields hresponse
            have hne : ascii "respond" ≠ ascii "pass" := by decide
            refine readBack_of_routeFields ?_ fun hread => ?_
            · simp only [entryFields, responseFields, printTarget_classifyTargetPattern,
                List.forall_mem_cons]
              exact ⟨hmethod, htarget, hrespond, plainField_decimal _, hrest _ hcontentType,
                hrest _ hbody, nofun⟩
            · unfold parseRouteLine
              rw [hread, entryFields, printTarget_classifyTargetPattern, responseFields]
              dsimp only
              rw [if_neg hnil, if_neg hpattern, if_neg hne, if_neg (not_not.mpr rfl), hagain]
              rfl
  · cases h

end RouteEntry

/-! ## Files -/

section

variable {σ : Type}

/-- A way to write settings that a reader takes back. -/
structure Canonical (parse : Bytes → Except String σ) (print : σ → Bytes) : Prop where
  readBack : ∀ configText settings, parse configText = .ok settings →
    parse (print settings) = .ok settings
  same : ∀ left right settings settings', parse left = .ok settings →
    parse right = .ok settings' → (print settings = print settings' ↔ settings = settings')

/-- Settings that are read back differ where their files do. -/
theorem canonical_of_readBack {parse : Bytes → Except String σ} {print : σ → Bytes}
    (h : ∀ configText settings, parse configText = .ok settings →
      parse (print settings) = .ok settings) : Canonical parse print := by
  refine ⟨h, fun left right settings settings' hleft hright => ⟨fun hprint => ?_, ?_⟩⟩
  · have hread := h left settings hleft
    rw [hprint, h right settings' hright] at hread
    exact (Except.ok.inj hread).symm
  · exact fun heq => heq ▸ rfl

theorem canonical_printLines {ρ : Type} {isLine : Bytes → Bool} {parse : Bytes → Except String ρ}
    {print : ρ → Bytes} (hread : ∀ line rule, lf ∉ line → parse line = .ok rule →
      ReadBack isLine parse print rule) :
    Canonical (fun configText => ((configLines configText).filter isLine).mapM parse)
      fun rules => printLines (rules.map print) :=
  canonical_of_readBack fun _ _ h => parse_printed hread h

end

theorem RateLimit.parseRules_printLines {configText : Bytes} {rules : List RateLimit.Rule}
    (h : RateLimit.parseRules configText = .ok rules) :
    RateLimit.parseRules (printLines (rules.map RateLimit.Rule.print)) = .ok rules := by
  unfold RateLimit.parseRules at h ⊢
  obtain ⟨parsed, hparsed, h⟩ := Response.exists_of_bind_eq_ok h
  by_cases hnil : parsed = []
  · rw [if_pos hnil] at h
    cases h
  · rw [if_neg hnil] at h
    cases h
    rw [parse_printed (fun _ _ => RateLimit.readBack) hparsed]
    exact if_neg hnil

/-- The modules that read rules or routes. -/
structure CanonicalModules : Prop where
  headerGuard : Canonical HeaderGuard.parseRules
    fun rules => printLines (rules.map HeaderGuard.GuardRule.print)
  hostGuard : Canonical HostGuard.parseRules
    fun rules => printLines (rules.map HostGuard.GuardRule.print)
  cors : Canonical Cors.parseRules fun rules => printLines (rules.map Cors.Rule.print)
  rateLimit : Canonical RateLimit.parseRules
    fun rules => printLines (rules.map RateLimit.Rule.print)
  jwtAuth : Canonical JwtAuth.configure JwtAuth.Settings.print
  routeTable : Canonical RouteTable.parseRoutes fun routes => printLines (routes.map printEntry)
  router : Canonical Router.parseRoutes fun routes => printLines (routes.map printEntry)

/-- Every module reads its settings back from the file that is written from them. -/
theorem canonical_configurations : CanonicalModules where
  headerGuard := canonical_printLines fun _ _ => HeaderGuard.readBack
  hostGuard := canonical_printLines fun _ _ => HostGuard.readBack
  cors := canonical_printLines fun _ _ => Cors.readBack
  rateLimit := canonical_of_readBack fun _ _ => RateLimit.parseRules_printLines
  jwtAuth := canonical_of_readBack fun _ _ => JwtAuth.configure_print
  routeTable := canonical_printLines fun _ _ => RouteEntry.readBack
  router := canonical_printLines fun _ _ => RouteEntry.readBack

def minuteLimit : RateLimit.Rule where
  methodPattern := ascii "GET"
  targetPattern := ascii "/api/"
  targetKind := .prefixed
  keyType := .header
  keyName := ascii "X-Key"
  limit := 10
  windowSeconds := 60
  burst := 10

/-- A window of a minute, a bare key and a burst below the limit. -/
theorem canonical_configurations_minute :
    RateLimit.parseRules (ascii "# limits\n rule= GET |/api/*|X-Key|010|1m|5\n") =
        .ok [minuteLimit] ∧
      RateLimit.parseRules (ascii "rule=GET|/api/*|header:X-Key|10|60|10") =
        .ok [minuteLimit] := by
  have hread : RateLimit.parseRules
      (ascii "# limits\n rule= GET |/api/*|X-Key|010|1m|5\n") = .ok [minuteLimit] := by
    decide +kernel
  have hprint : printLines ([minuteLimit].map RateLimit.Rule.print) =
      ascii "rule=GET|/api/*|header:X-Key|10|60|10" := by
    decide +kernel
  have hagain := canonical_configurations.rateLimit.readBack _ _ hread
  rw [hprint] at hagain
  exact ⟨hread, hagain⟩

end Modules
end Garcon
