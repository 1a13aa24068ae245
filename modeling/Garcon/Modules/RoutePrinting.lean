import Garcon.Modules.RouteTable
import Garcon.Modules.Router

/-!
# Printed routes

A configuration is written one route to a line, between blank lines, comments and the
lines of other keys.  Both modules that read routes read back the routes it was written
from.
-/

namespace Garcon
namespace Modules
namespace RouteEntry

open Ascii Search Http

/-- A text that a field of a route line can hold. -/
structure PlainField (text : Bytes) : Prop where
  no_bar : 0x7c ∉ text
  no_lf : lf ∉ text
  trimmed : Trim.Trimmed isSpace text

/-- What a route does with its requests. -/
inductive Action where
  | pass
  | respond (status : Nat) (contentType body : Bytes) (hstatus : 100 ≤ status ∧ status ≤ 999)
      (hcontentType : PlainField contentType) (hbody : PlainField body)

/-- A route that can be written on a line. -/
structure Route where
  methodPattern : Bytes
  targetPattern : Bytes
  targetKind : PatternKind
  action : Action
  method_plain : PlainField methodPattern
  method_ne_nil : methodPattern ≠ []
  target_plain : PlainField targetPattern
  target_ne_nil : targetPattern ≠ []
  exact_target : targetKind = .exact → targetPattern.getLast? ≠ some 0x2a

/-- The entry that a module keeps for a route. -/
def Route.entry (route : Route) : RouteEntry :=
  match route.action with
  | .pass =>
    { methodPattern := route.methodPattern, targetPattern := route.targetPattern,
      targetKind := route.targetKind }
  | .respond status contentType body _ _ _ =>
    { methodPattern := route.methodPattern, targetPattern := route.targetPattern,
      targetKind := route.targetKind, outcome := .respond,
      response := some { status := status, reason := reasonPhraseForStatus status,
                         contentType := contentType, body := body } }

/-- A prefix pattern is written with a trailing `*`. -/
def printTarget (kind : PatternKind) (pattern : Bytes) : Bytes :=
  match kind with
  | .exact => pattern
  | .prefixed => pattern ++ ascii "*"

def Route.fields (route : Route) : List Bytes :=
  route.methodPattern :: printTarget route.targetKind route.targetPattern ::
    match route.action with
    | .pass => [ascii "pass"]
    | .respond status contentType body _ _ _ =>
      [ascii "respond", decimal status, contentType, body]

def Route.print (route : Route) : Bytes :=
  ascii "route=" ++ ([0x7c] : Bytes).intercalate route.fields

/-- The lines of a configuration. -/
inductive Line where
  | route (route : Route)
  | blank (text : Bytes) (hblank : ∀ b ∈ text, isSpace b = true) (hlf : lf ∉ text)
  | comment (indent text : Bytes) (hindent : ∀ b ∈ indent, isSpace b = true)
      (hlf : lf ∉ indent ∧ lf ∉ text)
  | setting (key value : Bytes) (hkey : 0x3d ∉ key) (hother : trim key ≠ ascii "route")
      (hlf : lf ∉ key ∧ lf ∉ value)

def Line.print : Line → Bytes
  | .route r => r.print
  | .blank text _ _ => text
  | .comment indent text _ _ => indent ++ 0x23 :: text
  | .setting key value _ _ _ => key ++ 0x3d :: value

def Line.route? : Line → Option Route
  | .route r => some r
  | _ => none

/-- A configuration, with or without a newline behind its last line. -/
def printConfig (lines : List Line) (finalNewline : Bool) : Bytes :=
  ([lf] : Bytes).intercalate (lines.map Line.print) ++ if finalNewline then [lf] else []

/-! ## Fields -/

theorem plainField_of_trimmed {text : Bytes} (h : ∀ b ∈ text, b ≠ 0x7c ∧ isSpace b = false) :
    PlainField text where
  no_bar := fun hb => (h _ hb).1 rfl
  no_lf := by
    intro hb
    have hspace := (h _ hb).2
    cases hspace
  trimmed := ⟨fun b hb => (h b (List.mem_of_mem_head? hb)).2,
    fun b hb => (h b (List.mem_of_mem_getLast? hb)).2⟩

theorem plainField_decimal (n : Nat) : PlainField (decimal n) := by
  apply plainField_of_trimmed
  intro b hb
  have hdigit := isDigit_of_mem_decimal hb
  refine ⟨?_, isSpace_eq_false hdigit⟩
  rintro rfl
  cases hdigit

theorem plainField_printTarget {kind : PatternKind} {pattern : Bytes} (h : PlainField pattern) :
    PlainField (printTarget kind pattern) := by
  cases kind with
  | exact => exact h
  | prefixed =>
      refine ⟨?_, ?_, ?_, ?_⟩
      · intro hb
        rcases List.mem_append.mp hb with hb | hb
        · exact h.no_bar hb
        · exact absurd hb (by decide)
      · intro hb
        rcases List.mem_append.mp hb with hb | hb
        · exact h.no_lf hb
        · exact absurd hb (by decide)
      · intro b hb
        cases pattern with
        | nil =>
            cases hb
            rfl
        | cons first pattern => exact h.trimmed.1 b hb
      · intro b hb
        rw [printTarget, List.getLast?_append] at hb
        cases hb
        rfl

theorem Route.plainField_of_mem_fields (route : Route) {field : Bytes}
    (h : field ∈ route.fields) : PlainField field := by
  rw [Route.fields, List.mem_cons, List.mem_cons] at h
  rcases h with rfl | rfl | h
  · exact route.method_plain
  · exact plainField_printTarget route.target_plain
  · cases haction : route.action with
    | pass =>
        rw [haction, List.mem_singleton] at h
        rw [h]
        exact plainField_of_trimmed (by decide +kernel)
    | respond status contentType body _ hcontentType hbody =>
        rw [haction] at h
        simp only [List.mem_cons, List.not_mem_nil, or_false] at h
        rcases h with rfl | rfl | rfl | rfl
        · exact plainField_of_trimmed (by decide +kernel)
        · exact plainField_decimal status
        · exact hcontentType
        · exact hbody

/-- The fields are read back from between the bars. -/
theorem Route.splitFields_print (route : Route) :
    splitFields (route.print.drop 6) 0x7c = route.fields := by
  have hdrop : route.print.drop 6 = ([0x7c] : Bytes).intercalate route.fields := rfl
  rw [hdrop, splitFields, splitAll_intercalate route.fields (List.cons_ne_nil _ _)
    fun field hfield => (route.plainField_of_mem_fields hfield).no_bar]
  have htrim : ∀ field ∈ route.fields, trim field = field := fun field hfield =>
    Trim.trim_of_trimmed (route.plainField_of_mem_fields hfield).trimmed
  rw [List.map_congr_left htrim, List.map_id']

/-! ## Lines -/

theorem Route.classifyTargetPattern_printTarget (route : Route) :
    classifyTargetPattern (printTarget route.targetKind route.targetPattern) =
      (route.targetPattern, route.targetKind) := by
  unfold classifyTargetPattern
  cases hkind : route.targetKind with
  | exact => exact if_neg (route.exact_target hkind)
  | prefixed =>
      have hlast : (printTarget .prefixed route.targetPattern).getLast? = some 0x2a :=
        List.getLast?_concat ..
      rw [if_pos hlast]
      exact congrArg (·, PatternKind.prefixed) List.dropLast_concat

theorem Route.parseRouteLine_print (route : Route) (moduleName : String) :
    parseRouteLine moduleName route.print = .ok route.entry := by
  unfold parseRouteLine
  rw [route.splitFields_print]
  cases haction : route.action with
  | pass =>
      have hfields : route.fields = [route.methodPattern,
          printTarget route.targetKind route.targetPattern, ascii "pass"] := by
        rw [Route.fields, haction]
      rw [hfields]
      dsimp only
      rw [route.classifyTargetPattern_printTarget, if_neg route.method_ne_nil,
        if_neg route.target_ne_nil, if_pos rfl, Route.entry, haction]
      rfl
  | respond status contentType body hstatus _ _ =>
      have hfields : route.fields = [route.methodPattern,
          printTarget route.targetKind route.targetPattern, ascii "respond", decimal status,
          contentType, body] := by
        rw [Route.fields, haction]
      have hpass : ascii "respond" ≠ ascii "pass" := by decide
      have hresponse : parseResponse moduleName [decimal status, contentType, body] = .ok
          { status := status, reason := reasonPhraseForStatus status, contentType := contentType
            body := body } := by
        unfold parseResponse
        dsimp only
        rw [parseStatusCode_decimal hstatus]
      rw [hfields]
      dsimp only
      rw [route.classifyTargetPattern_printTarget, if_neg route.method_ne_nil,
        if_neg route.target_ne_nil, if_neg hpass, if_neg (not_not.mpr rfl), hresponse,
        Route.entry, haction]
      rfl

/-- A printed route ends in a bar and a field. -/
theorem Route.exists_print_eq (route : Route) :
    ∃ front last, route.print = 0x72 :: (front ++ 0x7c :: last) ∧ PlainField last := by
  have hstart : ascii "route=" = 0x72 :: ascii "oute=" := by decide
  unfold Route.print Route.fields
  rw [hstart]
  cases haction : route.action with
  | pass =>
      refine ⟨ascii "oute=" ++ route.methodPattern ++ 0x7c ::
        printTarget route.targetKind route.targetPattern, ascii "pass", ?_,
        plainField_of_trimmed (by decide +kernel)⟩
      simp only [List.intercalate_cons_cons, List.intercalate_singleton, List.append_assoc,
        List.cons_append, List.nil_append]
  | respond status contentType body hstatus hcontentType hbody =>
      refine ⟨ascii "oute=" ++ route.methodPattern ++ 0x7c ::
        (printTarget route.targetKind route.targetPattern ++ 0x7c :: (ascii "respond" ++ 0x7c ::
          (decimal status ++ 0x7c :: contentType))), body, ?_, hbody⟩
      simp only [List.intercalate_cons_cons, List.intercalate_singleton, List.append_assoc,
        List.cons_append, List.nil_append]

theorem Route.trim_print (route : Route) : trim route.print = route.print := by
  obtain ⟨front, last, hprint, hlast⟩ := route.exists_print_eq
  rw [hprint]
  apply Trim.trim_of_trimmed
  exact Trim.trimmed_cons_append rfl rfl hlast.trimmed.2

/-- Only the lines of routes are read. -/
theorem Line.isRouteLine_trim_print (line : Line) :
    isRouteLine (trim line.print) = line.route?.isSome := by
  cases line with
  | route r =>
      show isRouteLine (trim r.print) = true
      rw [r.trim_print]
      have htake : (ascii "route=" ++ ([0x7c] : Bytes).intercalate r.fields).take 6 =
          ascii "route=" := List.take_left' (by decide)
      unfold isRouteLine Route.print
      rw [htake]
      exact beq_self_eq_true _
  | blank text hblank _ =>
      show isRouteLine (Trim.trim isSpace text) = false
      rw [Trim.trim_eq_nil hblank]
      rfl
  | comment indent text hindent _ =>
      obtain ⟨rest, htrim⟩ := Trim.exists_trim_eq_cons hindent (a := 0x23) rfl text
      show isRouteLine (Trim.trim isSpace (indent ++ 0x23 :: text)) = false
      rw [htrim]
      rfl
  | setting key value hkey hother _ =>
      show isRouteLine (Trim.trim isSpace (key ++ 0x3d :: value)) = false
      rw [Bool.eq_false_iff]
      intro hroute
      apply hother
      obtain ⟨front, back, htext, hfront, -⟩ :=
        Trim.exists_eq_trim (p := isSpace) (key ++ 0x3d :: value)
      -- The first `=` ends the key, and it ends the `route=` that the line starts with.
      have hkeyword : ascii "route=" <+: Trim.trim isSpace (key ++ 0x3d :: value) := by
        rw [List.prefix_iff_eq_take]
        exact (beq_iff_eq.mp hroute).symm
      obtain ⟨rest, hrest⟩ := hkeyword
      have hword : ascii "route=" = ascii "route" ++ [0x3d] := by decide
      have hsame : key ++ ([0x3d] ++ value) =
          (front ++ ascii "route") ++ ([0x3d] ++ (rest ++ back)) := by
        rw [← hrest, hword] at htext
        rw [List.singleton_append, htext]
        simp only [List.append_assoc]
      have hfresh : 0x3d ∉ front ++ ascii "route" := by
        intro hb
        rcases List.mem_append.mp hb with hb | hb
        · exact absurd (hfront _ hb) (by decide)
        · exact absurd hb (by decide)
      have hcut := cut_of_fresh (fresh_singleton.mpr hkey) value
      rw [hsame, cut_of_fresh (fresh_singleton.mpr hfresh), Option.some.injEq,
        Prod.mk.injEq] at hcut
      have htrimmed : Trim.Trimmed isSpace (ascii "route") := by
        exact (plainField_of_trimmed (by decide +kernel)).trimmed
      rw [← hcut.1, ← List.append_nil (ascii "route")]
      exact Trim.trim_append hfront htrimmed fun b hb => absurd hb List.not_mem_nil

theorem Line.lf_not_mem_print (line : Line) : lf ∉ line.print := by
  cases line with
  | route r =>
      intro hb
      rcases List.mem_append.mp hb with hb | hb
      · exact absurd hb (by decide +kernel)
      · rcases mem_of_mem_intercalate hb with hb | ⟨field, hfield, hb⟩
        · exact absurd hb (by decide)
        · exact (r.plainField_of_mem_fields hfield).no_lf hb
  | blank text _ hlf => exact hlf
  | comment indent text _ hlf =>
      intro hb
      rcases List.mem_append.mp hb with hb | hb
      · exact hlf.1 hb
      · rcases List.mem_cons.mp hb with hb | hb
        · cases hb
        · exact hlf.2 hb
  | setting key value _ _ hlf =>
      intro hb
      rcases List.mem_append.mp hb with hb | hb
      · exact hlf.1 hb
      · rcases List.mem_cons.mp hb with hb | hb
        · cases hb
        · exact hlf.2 hb

/-! ## Configurations -/

/-- Of the lines of a configuration those that start with the word `route` are read. -/
theorem filter_configLines (configText : Bytes) :
    (configLines configText).filter isRouteLine =
      (splitFields configText lf).filter isRouteLine := by
  unfold configLines
  rw [List.filter_filter]
  apply List.filter_congr
  intro line _
  cases hroute : isRouteLine line with
  | false => rfl
  | true =>
      rw [Bool.true_and]
      cases line with
      | nil => cases hroute
      | cons b rest =>
          have hb : b = 0x72 := (List.cons.inj (beq_iff_eq.mp hroute)).1
          subst hb
          rfl

theorem filter_map_trim_print (lines : List Line) :
    ((lines.map Line.print).map trim).filter isRouteLine =
      (lines.filterMap Line.route?).map Route.print := by
  induction lines with
  | nil => rfl
  | cons line lines ih =>
      have hroute := line.isRouteLine_trim_print
      rw [List.map_cons, List.map_cons, List.filter_cons, hroute, ih]
      cases line with
      | route r =>
          show trim r.print :: _ = r.print :: _
          rw [r.trim_print]
      | blank => rfl
      | comment => rfl
      | setting => rfl

theorem mapM_parseRouteLine (moduleName : String) (routes : List Route) :
    (routes.map Route.print).mapM (parseRouteLine moduleName) = .ok (routes.map Route.entry) := by
  induction routes with
  | nil => rfl
  | cons route routes ih =>
      rw [List.map_cons, List.mapM_cons, route.parseRouteLine_print, ih]
      rfl

/-- A newline behind the last line is an empty line more. -/
theorem exists_lines (lines : List Line) (finalNewline : Bool) :
    ∃ lines', lines' ≠ [] ∧ printConfig lines finalNewline =
        ([lf] : Bytes).intercalate (lines'.map Line.print) ∧
      lines'.filterMap Line.route? = lines.filterMap Line.route? := by
  let empty : Line := .blank [] (fun b hb => absurd hb List.not_mem_nil) List.not_mem_nil
  obtain ⟨written, hne, hwritten, hroutes⟩ : ∃ written : List Line, written ≠ [] ∧
      ([lf] : Bytes).intercalate (written.map Line.print) =
        ([lf] : Bytes).intercalate (lines.map Line.print) ∧
      written.filterMap Line.route? = lines.filterMap Line.route? := by
    by_cases hnil : lines = []
    · rw [hnil]
      exact ⟨[empty], List.cons_ne_nil _ _, rfl, rfl⟩
    · exact ⟨lines, hnil, rfl, rfl⟩
  unfold printConfig
  rw [← hwritten, ← hroutes]
  cases finalNewline with
  | false => exact ⟨written, hne, List.append_nil _, rfl⟩
  | true =>
      refine ⟨written ++ [empty], List.append_ne_nil_of_left_ne_nil hne _, ?_, ?_⟩
      · rw [List.map_append]
        exact (intercalate_concat_nil (List.map_eq_nil_iff.not.mpr hne) [lf]).symm
      · rw [List.filterMap_append]
        exact List.append_nil _

theorem parseRoutes_printConfig (moduleName : String) (lines : List Line) (finalNewline : Bool) :
    RouteEntry.parseRoutes moduleName (printConfig lines finalNewline) =
      .ok ((lines.filterMap Line.route?).map Route.entry) := by
  obtain ⟨lines', hne, hprint, hroutes⟩ := exists_lines lines finalNewline
  have hlines : ∀ l ∈ lines'.map Line.print, lf ∉ l := by
    intro l hl
    obtain ⟨line, -, rfl⟩ := List.mem_map.mp hl
    exact line.lf_not_mem_print
  unfold RouteEntry.parseRoutes
  rw [filter_configLines, hprint, splitFields,
    splitAll_intercalate _ (List.map_eq_nil_iff.not.mpr hne) hlines, filter_map_trim_print,
    mapM_parseRouteLine, hroutes]

/-- Both modules read back the routes that a configuration was written from, in order. -/
theorem parseRoutes_printed (lines : List Line) (finalNewline : Bool) :
    RouteTable.parseRoutes (printConfig lines finalNewline) =
        .ok ((lines.filterMap Line.route?).map Route.entry) ∧
      Router.parseRoutes (printConfig lines finalNewline) =
        .ok ((lines.filterMap Line.route?).map Route.entry) :=
  ⟨parseRoutes_printConfig "route_table" lines finalNewline,
    parseRoutes_printConfig "router" lines finalNewline⟩

def healthz : Route where
  methodPattern := ascii "GET"
  targetPattern := ascii "/healthz"
  targetKind := .exact
  action := .respond 200 (ascii "text/plain") (ascii "ok") (by decide)
    (plainField_of_trimmed (by decide +kernel)) (plainField_of_trimmed (by decide +kernel))
  method_plain := plainField_of_trimmed (by decide +kernel)
  method_ne_nil := by decide
  target_plain := plainField_of_trimmed (by decide +kernel)
  target_ne_nil := by decide
  exact_target := by decide

example : printConfig [.route healthz] true =
    ascii "route=GET|/healthz|respond|200|text/plain|ok\n" := by decide +kernel

end RouteEntry
end Modules
end Garcon
