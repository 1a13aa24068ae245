import Garcon.Modules.HeaderGuard
import Garcon.Modules.HostGuard

/-!
# Key lines and rule lines

A key line holds a key, an equals sign and a value, with whitespace around each.  The
guards look for their rule lines in another way: a rule line begins with `rule=`.  What
they enforce is what the key lines say exactly where no whitespace stands between the key
and the sign.
-/

namespace Garcon
namespace Modules

open Ascii Search

/-- The value of a line that has this key. -/
def keyValue (key line : Bytes) : Option Bytes :=
  match cut [0x3d] line with
  | none => none
  | some (foundKey, value) => if trim foundKey = key then some (trim value) else none

/-- The values of the lines with this key, in order. -/
def keyValues (configText key : Bytes) : List Bytes :=
  (configLines configText).filterMap (keyValue key)

/-- `key_value_config::get` reads the first of them. -/
theorem configGet_eq (configText key : Bytes) :
    configGet configText key = (keyValues configText key).head? := by
  rw [keyValues, List.head?_filterMap]
  rfl

/-- `parse_library_path` runs the same loop for the key `path`.  `resolve` makes a path
absolute, and `file` is the name of the configuration file. -/
def parseLibraryPath (resolve : Bytes → Bytes) (file : String) (configText : Bytes) :
    Except String Bytes :=
  match configGet configText (ascii "path") with
  | none => .error ("missing path= entry in module config file: " ++ file)
  | some value =>
    if value = [] then .error ("empty path= entry in module config file: " ++ file)
    else .ok (resolve value)

theorem parseLibraryPath_eq_ok_iff {resolve : Bytes → Bytes} {file : String}
    {configText path : Bytes} :
    parseLibraryPath resolve file configText = .ok path ↔
      ∃ value ≠ [], (keyValues configText (ascii "path")).head? = some value ∧
        resolve value = path := by
  rw [← configGet_eq, parseLibraryPath]
  cases configGet configText (ascii "path") with
  | none =>
      refine iff_of_false nofun ?_
      rintro ⟨value, -, hvalue, -⟩
      cases hvalue
  | some value =>
      dsimp only
      by_cases hnil : value = []
      · rw [if_pos hnil]
        refine iff_of_false nofun ?_
        rintro ⟨value', hne, hvalue, -⟩
        cases hvalue
        exact hne hnil
      · rw [if_neg hnil, Except.ok.injEq]
        constructor
        · intro h
          exact ⟨value, hnil, rfl, h⟩
        · rintro ⟨value', -, hvalue, h⟩
          cases hvalue
          exact h

theorem keyValue_eq_some_iff {key line value : Bytes} :
    keyValue key line = some value ↔
      ∃ foundKey text, line = foundKey ++ 0x3d :: text ∧ 0x3d ∉ foundKey ∧
        trim foundKey = key ∧ trim text = value := by
  unfold keyValue
  constructor
  · intro h
    cases hcut : cut [0x3d] line with
    | none =>
        rw [hcut] at h
        cases h
    | some parts =>
        obtain ⟨foundKey, text⟩ := parts
        obtain ⟨hline, hfresh⟩ := cut_eq_some_iff.mp hcut
        rw [hcut] at h
        dsimp only at h
        by_cases hkey : trim foundKey = key
        · rw [if_pos hkey, Option.some.injEq] at h
          exact ⟨foundKey, text, hline, fresh_singleton.mp hfresh, hkey, h⟩
        · rw [if_neg hkey] at h
          cases h
  · rintro ⟨foundKey, text, rfl, hfree, hkey, rfl⟩
    have hcut := cut_of_fresh (fresh_singleton.mpr hfree) text
    rw [show foundKey ++ 0x3d :: text = foundKey ++ ([0x3d] ++ text) from rfl, hcut]
    exact if_pos hkey

/-- Nothing stands between the key of a rule line and the sign. -/
theorem isRuleLine_iff {line : Bytes} :
    isRuleLine line = true ↔ ∃ text, line = ascii "rule" ++ 0x3d :: text := by
  have hlength : (ascii "rule=").length = 5 := by decide
  rw [isRuleLine, beq_iff_eq, ← hlength, eq_comm, ← List.prefix_iff_eq_take]
  constructor
  · rintro ⟨text, rfl⟩
    exact ⟨text, rfl⟩
  · rintro ⟨text, rfl⟩
    exact ⟨text, rfl⟩

theorem keyValue_of_isRuleLine {line : Bytes} (h : isRuleLine line = true) :
    keyValue (ascii "rule") line = some (trim (line.drop 5)) := by
  obtain ⟨text, rfl⟩ := isRuleLine_iff.mp h
  exact keyValue_eq_some_iff.mpr ⟨ascii "rule", text, rfl, by decide, by decide +kernel, rfl⟩

/-- Every line with the key `rule` is a rule line. -/
def Tight (configText : Bytes) : Prop :=
  ∀ line ∈ configLines configText,
    (keyValue (ascii "rule") line).isSome = true → isRuleLine line = true

instance (configText : Bytes) : Decidable (Tight configText) :=
  inferInstanceAs (Decidable (∀ line ∈ configLines configText, _))

section Rules

variable {ρ : Type} (parseRuleLine : Bytes → Except String ρ)

/-- The rules a guard enforces. -/
def enforced (configText : Bytes) : Except String (List ρ) :=
  ((configLines configText).filter isRuleLine).mapM parseRuleLine

/-- The rules its key lines say. -/
def stated (configText : Bytes) : Except String (List ρ) :=
  (keyValues configText (ascii "rule")).mapM fun value => parseRuleLine (ascii "rule=" ++ value)

variable {parseRuleLine}
  (hfields : ∀ left right, splitFields (left.drop 5) 0x7c = splitFields (right.drop 5) 0x7c →
    parseRuleLine left = parseRuleLine right)

include hfields

theorem parseRuleLine_trim (line : Bytes) :
    parseRuleLine (ascii "rule=" ++ trim (line.drop 5)) = parseRuleLine line := by
  apply hfields
  exact splitFields_trim (by decide) (line.drop 5)

theorem stated_eq_enforced {configText : Bytes} (h : Tight configText) :
    stated parseRuleLine configText = enforced parseRuleLine configText := by
  unfold Tight at h
  unfold stated keyValues enforced
  generalize configLines configText = lines at h
  induction lines with
  | nil => rfl
  | cons line lines ih =>
      obtain ⟨hline, hlines⟩ := List.forall_mem_cons.mp h
      by_cases hrule : isRuleLine line = true
      · rw [List.filterMap_cons_some (keyValue_of_isRuleLine hrule), List.filter_cons_of_pos hrule,
          List.mapM_cons, List.mapM_cons, ih hlines, parseRuleLine_trim hfields]
      · have hnone : keyValue (ascii "rule") line = none := by
          rw [← Option.not_isSome_iff_eq_none]
          exact fun hsome => hrule (hline hsome)
        rw [List.filterMap_cons_none hnone, List.filter_cons_of_neg hrule, ih hlines]

omit hfields in
/-- A line that is passed over leaves one rule too few. -/
theorem tight_of_stated {configText : Bytes} {rules : List ρ}
    (h : enforced parseRuleLine configText = .ok rules)
    (hstated : stated parseRuleLine configText = .ok rules) : Tight configText := by
  intro line hline hkey
  by_contra hrule
  have hlength := (length_of_mapM h).symm.trans (length_of_mapM hstated)
  have hsplit : (configLines configText).filter isRuleLine =
      ((configLines configText).filter fun line => (keyValue (ascii "rule") line).isSome).filter
        isRuleLine := by
    rw [List.filter_filter]
    apply List.filter_congr
    intro line' _
    cases hrule' : isRuleLine line' with
    | false => rfl
    | true => rw [keyValue_of_isRuleLine hrule']; rfl
  have hmem : line ∈ (configLines configText).filter fun line =>
      (keyValue (ascii "rule") line).isSome := List.mem_filter.mpr ⟨hline, hkey⟩
  have hlt := List.length_filter_lt_length_iff_exists.mpr ⟨line, hmem, hrule⟩
  rw [← hsplit, hlength, keyValues, List.length_filterMap_eq_countP, ← List.countP_eq_length_filter]
    at hlt
  exact absurd hlt (Nat.lt_irrefl _)

theorem stated_iff_tight {configText : Bytes} {rules : List ρ}
    (h : enforced parseRuleLine configText = .ok rules) :
    stated parseRuleLine configText = .ok rules ↔ Tight configText := by
  refine ⟨tight_of_stated h, ?_⟩
  intro htight
  rw [stated_eq_enforced hfields htight, h]

end Rules

theorem HeaderGuard.parseRuleLine_congr (left right : Bytes)
    (h : splitFields (left.drop 5) 0x7c = splitFields (right.drop 5) 0x7c) :
    HeaderGuard.parseRuleLine left = HeaderGuard.parseRuleLine right := by
  unfold HeaderGuard.parseRuleLine
  rw [h]

theorem HostGuard.parseRuleLine_congr (left right : Bytes)
    (h : splitFields (left.drop 5) 0x7c = splitFields (right.drop 5) 0x7c) :
    HostGuard.parseRuleLine left = HostGuard.parseRuleLine right := by
  unfold HostGuard.parseRuleLine
  rw [h]

/-- The SDK and the host read key lines.  The guards enforce what they say exactly where
every line with the key `rule` is a rule line.  Two such configurations with the same
values behind their rules, whatever the whitespace around them, have the same rules. -/
theorem guards_enforce_key_lines (configText : Bytes) :
    (∀ key, configGet configText key = (keyValues configText key).head?) ∧
    (∀ resolve file path, parseLibraryPath resolve file configText = .ok path ↔
      ∃ value ≠ [], (keyValues configText (ascii "path")).head? = some value ∧
        resolve value = path) ∧
    (∀ rules, HeaderGuard.parseRules configText = .ok rules →
      (stated HeaderGuard.parseRuleLine configText = .ok rules ↔ Tight configText)) ∧
    (∀ rules, HostGuard.parseRules configText = .ok rules →
      (stated HostGuard.parseRuleLine configText = .ok rules ↔ Tight configText)) ∧
    ∀ configText', Tight configText → Tight configText' →
      keyValues configText (ascii "rule") = keyValues configText' (ascii "rule") →
        HeaderGuard.parseRules configText = HeaderGuard.parseRules configText' ∧
          HostGuard.parseRules configText = HostGuard.parseRules configText' := by
  refine ⟨configGet_eq configText, fun _ _ _ => parseLibraryPath_eq_ok_iff, ?_, ?_, ?_⟩
  · intro rules h
    exact stated_iff_tight HeaderGuard.parseRuleLine_congr h
  · intro rules h
    exact stated_iff_tight HostGuard.parseRuleLine_congr h
  · intro configText' h h' hvalues
    have hheader := stated_eq_enforced HeaderGuard.parseRuleLine_congr h
    have hhost := stated_eq_enforced HostGuard.parseRuleLine_congr h
    rw [stated, hvalues] at hheader hhost
    have hheader' := stated_eq_enforced HeaderGuard.parseRuleLine_congr h'
    have hhost' := stated_eq_enforced HostGuard.parseRuleLine_congr h'
    exact ⟨hheader.symm.trans hheader', hhost.symm.trans hhost'⟩

/-- One rule, with a blank in front of the sign. -/
def spacedConfig : Bytes := ascii "rule = GET|/admin|X-Key|401|no key"

def tightConfig : Bytes := ascii "rule= GET|/admin|X-Key|401|no key"

def adminRule : HeaderGuard.GuardRule where
  methodPattern := ascii "GET"
  targetPattern := ascii "/admin"
  headerName := ascii "X-Key"
  failureStatus := 401
  failureBody := ascii "no key"

def getAdmin : Http.Request where
  method := ascii "GET"
  target := ascii "/admin"
  headers := []

/-- The guard starts without the rule and lets a request pass that the rule rejects. -/
theorem spaced_rule_dropped :
    HeaderGuard.parseRules spacedConfig = .ok [] ∧
      stated HeaderGuard.parseRuleLine spacedConfig = .ok [adminRule] ∧
      HeaderGuard.parseRules tightConfig = .ok [adminRule] ∧
      HeaderGuard.handle [] getAdmin = .pass ∧
      HeaderGuard.handle [adminRule] getAdmin =
        .respond (.text 401 (ascii "Unauthorized") (ascii "no key")) := by
  decide +kernel

end Modules
end Garcon
