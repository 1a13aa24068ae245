import Garcon.Modules.JwtAuth
import Garcon.Modules.RuleFiles.Guards
import Garcon.Modules.RuleLines

/-!
# Rule files with settings

The token module reads keys besides its rules.  A file is written with one line for each key
that is set, and the rules below them.
-/

namespace Garcon
namespace Modules

open Ascii Search Http RouteEntry

/-! ## Setting lines -/

def settingLine (key value : Bytes) : Bytes := key ++ 0x3d :: value

/-- A key that can be written before the sign. -/
structure PlainKey (key : Bytes) : Prop extends PlainConfigLine key where
  no_sign : 0x3d ∉ key
  not_rule : key ≠ ascii "rule"

theorem keyValue_settingLine {key value : Bytes} (hkey : PlainKey key)
    (hvalue : Trim.Trimmed isSpace value) (other : Bytes) :
    keyValue other (settingLine key value) = if key = other then some value else none := by
  have hcut := cut_of_fresh (fresh_singleton.mpr hkey.no_sign) value
  have hline : settingLine key value = key ++ ([0x3d] ++ value) := rfl
  rw [keyValue, hline, hcut]
  dsimp only
  rw [trim, trim, Trim.trim_of_trimmed hkey.trimmed, Trim.trim_of_trimmed hvalue]

theorem isRuleLine_settingLine {key value : Bytes} (hkey : PlainKey key)
    (hvalue : Trim.Trimmed isSpace value) : isRuleLine (settingLine key value) = false := by
  rw [Bool.eq_false_iff]
  intro hrule
  have hread := keyValue_of_isRuleLine hrule
  rw [keyValue_settingLine hkey hvalue, if_neg hkey.not_rule] at hread
  cases hread

/-- A rule line has no other key. -/
theorem keyValue_of_other {key : Bytes} (hkey : key ≠ ascii "rule") (text : Bytes) :
    keyValue key (ascii "rule" ++ 0x3d :: text) = none := by
  have htrim : trim (ascii "rule") = ascii "rule" := by decide +kernel
  have hcut : cut [0x3d] (ascii "rule" ++ 0x3d :: text) = some (ascii "rule", text) :=
    cut_of_fresh (fresh_singleton.mpr (by decide)) text
  rw [keyValue, hcut]
  dsimp only
  rw [htrim, if_neg hkey.symm]

theorem plainConfigLine_settingLine {key value : Bytes} (hkey : PlainKey key)
    (hlf : lf ∉ value) (hvalue : Trim.Trimmed isSpace value) :
    PlainConfigLine (settingLine key value) := by
  obtain ⟨b, rest, rfl⟩ := List.exists_cons_of_ne_nil hkey.ne_nil
  refine ⟨List.cons_ne_nil _ _, hkey.not_comment, ?_, ?_⟩
  · intro hb
    rcases List.mem_append.mp hb with hb | hb
    · exact hkey.no_lf hb
    · cases hb with
      | tail _ hb => exact hlf hb
  · exact Trim.trimmed_cons_append (hkey.trimmed.1 b rfl) rfl hvalue.2

/-- What a key is set to. -/
theorem plain_of_configGet {configText key value : Bytes}
    (h : configGet configText key = some value) : lf ∉ value ∧ Trim.Trimmed isSpace value := by
  obtain ⟨line, hline, hread⟩ := List.exists_of_findSome?_eq_some h
  obtain ⟨foundKey, text, rfl, -, -, rfl⟩ := keyValue_eq_some_iff.mp hread
  refine ⟨fun hlf => ?_, Trim.trimmed_trim text⟩
  have hmem : lf ∈ foundKey ++ 0x3d :: text :=
    List.mem_append_right _ (List.mem_cons_of_mem _ (Trim.mem_of_mem_trim hlf))
  exact (mem_of_mem_configLines hline hmem).2 rfl

/-! ## Files -/

section

variable {ρ : Type} {parse : Bytes → Except String ρ} {print : ρ → Bytes}

/-- A setting that can be written on a line. -/
structure PlainSetting (key value : Bytes) : Prop where
  key_plain : PlainKey key
  no_lf : lf ∉ value
  trimmed : Trim.Trimmed isSpace value

def settingLines (settings : List (Bytes × Bytes)) : List Bytes :=
  settings.map fun setting => settingLine setting.1 setting.2

def printFile (settings : List (Bytes × Bytes)) (print : ρ → Bytes) (rules : List ρ) : Bytes :=
  printLines (settingLines settings ++ rules.map print)

theorem configLines_printFile {settings : List (Bytes × Bytes)} {rules : List ρ}
    (hsettings : ∀ setting ∈ settings, PlainSetting setting.1 setting.2)
    (hrules : ∀ rule ∈ rules, ReadBack isRuleLine parse print rule) :
    configLines (printFile settings print rules) = settingLines settings ++ rules.map print := by
  apply configLines_printLines
  intro line hline
  cases List.mem_append.mp hline with
  | inl hline =>
      obtain ⟨setting, hsetting, rfl⟩ := List.mem_map.mp hline
      have hplain := hsettings setting hsetting
      exact plainConfigLine_settingLine hplain.key_plain hplain.no_lf hplain.trimmed
  | inr hline =>
      obtain ⟨rule, hrule, rfl⟩ := List.mem_map.mp hline
      exact (hrules rule hrule).plain

/-- The rules are read back from between the settings. -/
theorem parse_printFile {settings : List (Bytes × Bytes)} {rules : List ρ}
    (hsettings : ∀ setting ∈ settings, PlainSetting setting.1 setting.2)
    (hrules : ∀ rule ∈ rules, ReadBack isRuleLine parse print rule) :
    ((configLines (printFile settings print rules)).filter isRuleLine).mapM parse = .ok rules := by
  have hnone : (settingLines settings).filter isRuleLine = [] := by
    rw [List.filter_eq_nil_iff]
    intro line hline
    obtain ⟨setting, hsetting, rfl⟩ := List.mem_map.mp hline
    have hplain := hsettings setting hsetting
    rw [isRuleLine_settingLine hplain.key_plain hplain.trimmed]
    exact Bool.false_ne_true
  have hall : ∀ line ∈ rules.map print, isRuleLine line = true := by
    intro line hline
    obtain ⟨rule, hrule, rfl⟩ := List.mem_map.mp hline
    exact (hrules rule hrule).isRule
  rw [configLines_printFile hsettings hrules, List.filter_append, hnone, List.nil_append,
    List.filter_eq_self.mpr hall]
  exact mapM_readBack hrules

/-- A key has the value of the first setting with it. -/
theorem configGet_printFile {settings : List (Bytes × Bytes)} {rules : List ρ}
    (hsettings : ∀ setting ∈ settings, PlainSetting setting.1 setting.2)
    (hrules : ∀ rule ∈ rules, ReadBack isRuleLine parse print rule)
    {key : Bytes} (hkey : key ≠ ascii "rule") :
    configGet (printFile settings print rules) key =
      (settings.filterMap fun setting =>
        if setting.1 = key then some setting.2 else none).head? := by
  have hrest : (rules.map print).filterMap (keyValue key) = [] := by
    rw [List.filterMap_eq_nil_iff]
    intro line hline
    obtain ⟨rule, hrule, rfl⟩ := List.mem_map.mp hline
    obtain ⟨text, htext⟩ := isRuleLine_iff.mp (hrules rule hrule).isRule
    rw [htext]
    exact keyValue_of_other hkey text
  have hread : ∀ setting ∈ settings, keyValue key (settingLine setting.1 setting.2) =
      if setting.1 = key then some setting.2 else none := by
    intro setting hsetting
    have hplain := hsettings setting hsetting
    exact keyValue_settingLine hplain.key_plain hplain.trimmed key
  rw [configGet_eq, keyValues, configLines_printFile hsettings hrules, List.filterMap_append,
    hrest, List.append_nil, settingLines, List.filterMap_map]
  exact congrArg List.head? (List.filterMap_congr hread)

end

/-! ## Token settings -/

namespace JwtAuth

def AuthRule.fields (rule : AuthRule) : List Bytes :=
  [rule.methodPattern, printTarget rule.targetKind rule.targetPattern]

def AuthRule.print (rule : AuthRule) : Bytes := ruleLine rule.fields

/-- The keys that are set. -/
def Settings.settings (s : Settings) : List (Bytes × Bytes) :=
  (ascii "secret", s.secret) :: (ascii "alg", s.alg) ::
    (s.issuer.toList.map (ascii "issuer", ·) ++ s.audience.toList.map (ascii "audience", ·))

def Settings.print (s : Settings) : Bytes := printFile s.settings AuthRule.print s.rules

theorem readBack {line : Bytes} {rule : AuthRule} (hlf : lf ∉ line)
    (h : parseRuleLine line = .ok rule) :
    ReadBack isRuleLine parseRuleLine AuthRule.print rule := by
  have hplain := fun field => @plainField_of_rule line field hlf
  unfold parseRuleLine at h
  split at h
  · next method target hfields =>
      rw [hfields] at hplain
      simp only [List.forall_mem_cons] at hplain
      obtain ⟨hmethod, htarget, -⟩ := hplain
      dsimp only at h
      split_ifs at h with hnil hpattern
      cases h
      have hprint : AuthRule.fields
          { methodPattern := method, targetPattern := (classifyTargetPattern target).1,
            targetKind := (classifyTargetPattern target).2 } = [method, target] := by
        unfold AuthRule.fields
        dsimp only
        rw [printTarget_classifyTargetPattern]
      refine readBack_of_fields (congrArg ruleLine hprint) ?_ fun hfields' => ?_
      · simp only [List.forall_mem_cons]
        exact ⟨hmethod, htarget, nofun⟩
      · unfold parseRuleLine
        rw [hfields']
        dsimp only
        rw [if_neg hnil, if_neg hpattern]
  · cases h

/-- What the constructor makes sure of. -/
structure ConfiguredBy (configText : Bytes) (s : Settings) : Prop where
  rules_eq : parseRules configText = .ok s.rules
  secret_eq : configGet configText (ascii "secret") = some s.secret
  secret_ne_nil : s.secret ≠ []
  alg_eq : s.alg = ascii "HS256"
  issuer_eq : s.issuer = (configGet configText (ascii "issuer")).filter (· ≠ [])
  audience_eq : s.audience = (configGet configText (ascii "audience")).filter (· ≠ [])

theorem configuredBy_of_configure {configText : Bytes} {s : Settings}
    (h : configure configText = .ok s) : ConfiguredBy configText s := by
  unfold configure at h
  dsimp only [bind, Except.bind, pure, Except.pure, throw, throwThe, MonadExceptOf.throw] at h
  cases hrules : parseRules configText with
  | error what =>
      rw [hrules] at h
      cases h
  | ok rules =>
      rw [hrules] at h
      dsimp only at h
      split_ifs at h with hsecret halg
      cases h
      cases hget : configGet configText (ascii "secret") with
      | none =>
          rw [hget] at hsecret
          exact absurd rfl hsecret
      | some secret =>
          rw [hget] at hsecret
          exact ⟨hrules, hget, hsecret, not_not.mp halg, rfl, rfl⟩

theorem plainKeys : PlainKey (ascii "secret") ∧ PlainKey (ascii "alg") ∧
    PlainKey (ascii "issuer") ∧ PlainKey (ascii "audience") := by
  have hkey : ∀ key : Bytes, PlainField key → key ≠ [] → key.head? ≠ some 0x23 → 0x3d ∉ key →
      key ≠ ascii "rule" → PlainKey key := fun key hplain hne hcomment hsign hrule =>
    ⟨⟨hne, hcomment, hplain.no_lf, hplain.trimmed⟩, hsign, hrule⟩
  refine ⟨?_, ?_, ?_, ?_⟩ <;>
    exact hkey _ (plainField_of_trimmed (by decide +kernel)) (by decide) (by decide) (by decide)
      (by decide)

/-- An optional setting is not empty, and is written as it was read. -/
theorem optional_setting {configText key : Bytes} {value : Option Bytes}
    (h : value = (configGet configText key).filter (· ≠ [])) :
    value.filter (· ≠ []) = value ∧
      ∀ text ∈ value, lf ∉ text ∧ Trim.Trimmed isSpace text := by
  refine ⟨?_, fun text htext => ?_⟩
  · rw [h, Option.filter_filter]
    simp only [Bool.and_self]
  · rw [h, Option.mem_def, Option.filter_eq_some_iff] at htext
    exact plain_of_configGet htext.1

theorem plainSetting_of_mem {configText : Bytes} {s : Settings} (h : ConfiguredBy configText s)
    {setting : Bytes × Bytes} (hsetting : setting ∈ s.settings) :
    PlainSetting setting.1 setting.2 := by
  obtain ⟨hsecret, halg, hissuer, haudience⟩ := plainKeys
  simp only [Settings.settings, List.mem_cons, List.mem_append, List.mem_map,
    Option.mem_toList] at hsetting
  rcases hsetting with rfl | rfl | ⟨text, htext, rfl⟩ | ⟨text, htext, rfl⟩
  · obtain ⟨hlf, htrimmed⟩ := plain_of_configGet h.secret_eq
    exact ⟨hsecret, hlf, htrimmed⟩
  · have hplain : PlainField (ascii "HS256") := plainField_of_trimmed (by decide +kernel)
    rw [h.alg_eq]
    exact ⟨halg, hplain.no_lf, hplain.trimmed⟩
  · obtain ⟨hlf, htrimmed⟩ := (optional_setting h.issuer_eq).2 text htext
    exact ⟨hissuer, hlf, htrimmed⟩
  · obtain ⟨hlf, htrimmed⟩ := (optional_setting h.audience_eq).2 text htext
    exact ⟨haudience, hlf, htrimmed⟩

/-- The settings of a token module are read back from their file. -/
theorem configure_print {configText : Bytes} {s : Settings}
    (h : configure configText = .ok s) : configure s.print = .ok s := by
  have hfrom := configuredBy_of_configure h
  have hsettings := fun setting => @plainSetting_of_mem configText s hfrom setting
  have hrules : ∀ rule ∈ s.rules, ReadBack isRuleLine parseRuleLine AuthRule.print rule := by
    intro rule hrule
    exact readBack_of_mem (fun _ _ => readBack) hfrom.rules_eq hrule
  have hread : parseRules s.print = .ok s.rules := parse_printFile hsettings hrules
  have hget : ∀ key, key ≠ ascii "rule" → configGet s.print key =
      (s.settings.filterMap fun setting =>
        if setting.1 = key then some setting.2 else none).head? := fun key hkey =>
    configGet_printFile hsettings hrules hkey
  have hsecret : configGet s.print (ascii "secret") = some s.secret :=
    hget _ (by decide)
  have halg : configGet s.print (ascii "alg") = some s.alg :=
    hget _ (by decide)
  have hissuer : configGet s.print (ascii "issuer") = s.issuer := by
    rw [hget _ (by decide)]
    cases s with
    | mk secret alg issuer audience rules =>
        cases issuer with
        | none => cases audience <;> rfl
        | some issuer => rfl
  have haudience : configGet s.print (ascii "audience") = s.audience := by
    rw [hget _ (by decide)]
    cases s with
    | mk secret alg issuer audience rules => cases issuer <;> cases audience <;> rfl
  unfold configure
  dsimp only [bind, Except.bind, pure, Except.pure, throw, throwThe, MonadExceptOf.throw]
  rw [hread, hsecret, halg, hissuer, haudience, (optional_setting hfrom.issuer_eq).1,
    (optional_setting hfrom.audience_eq).1]
  dsimp only [Option.getD_some]
  rw [if_neg hfrom.secret_ne_nil, if_neg (not_not.mpr hfrom.alg_eq)]

end JwtAuth

end Modules
end Garcon
