import Garcon.Modules.RoutePrinting

/-!
# Rule files

What a module reads from the lines of a configuration can be written down again: one line a
rule, its fields between bars.  Read back, such a text gives the same rules.
-/

namespace Garcon
namespace Modules

open Ascii Search Http RouteEntry

/-! ## Lines -/

/-- A line that is read as it stands. -/
structure PlainConfigLine (line : Bytes) : Prop where
  ne_nil : line ≠ []
  not_comment : line.head? ≠ some 0x23
  no_lf : lf ∉ line
  trimmed : Trim.Trimmed isSpace line

def printLines (lines : List Bytes) : Bytes := ([lf] : Bytes).intercalate lines

theorem configLines_printLines {lines : List Bytes} (h : ∀ line ∈ lines, PlainConfigLine line) :
    configLines (printLines lines) = lines := by
  by_cases hnil : lines = []
  · rw [hnil]
    decide +kernel
  · have htrim : ∀ line ∈ lines, trim line = line := fun line hline =>
      Trim.trim_of_trimmed (h line hline).trimmed
    unfold configLines splitFields printLines
    rw [splitAll_intercalate lines hnil fun line hline => (h line hline).no_lf,
      List.map_congr_left htrim, List.map_id', List.filter_eq_self]
    intro line hline
    have hplain := h line hline
    rw [Bool.and_eq_true, Bool.not_eq_true', List.isEmpty_eq_false_iff, bne_iff_ne]
    exact ⟨hplain.ne_nil, hplain.not_comment⟩

/-- A line of fields, behind a word. -/
def wordLine (word : Bytes) (fields : List Bytes) : Bytes :=
  word ++ ([0x7c] : Bytes).intercalate fields

/-- A word that a line may begin with. -/
structure PlainWord (word : Bytes) : Prop where
  head : ∃ first rest, word = first :: rest ∧ first ≠ 0x23 ∧ isSpace first = false
  no_lf : lf ∉ word

def ruleLine (fields : List Bytes) : Bytes := wordLine (ascii "rule=") fields

theorem plainWord_rule : PlainWord (ascii "rule=") :=
  ⟨⟨0x72, ascii "ule=", by decide, by decide, by decide⟩, by decide +kernel⟩

theorem take_wordLine (word : Bytes) (fields : List Bytes) :
    (wordLine word fields).take word.length = word :=
  List.take_left' rfl

theorem splitFields_wordLine (word : Bytes) {fields : List Bytes} (hne : fields ≠ [])
    (h : ∀ field ∈ fields, PlainField field) :
    splitFields ((wordLine word fields).drop word.length) 0x7c = fields := by
  have hdrop : (wordLine word fields).drop word.length = ([0x7c] : Bytes).intercalate fields :=
    List.drop_left' rfl
  have htrim : ∀ field ∈ fields, trim field = field := fun field hfield =>
    Trim.trim_of_trimmed (h field hfield).trimmed
  rw [hdrop, splitFields, splitAll_intercalate fields hne fun field hfield =>
    (h field hfield).no_bar, List.map_congr_left htrim, List.map_id']

/-- Fields joined by bars end with the last of them. -/
theorem exists_intercalate_eq {fields : List Bytes} (hne : fields ≠ []) (first : Bytes) :
    ∃ front last, ([0x7c] : Bytes).intercalate (first :: fields) = front ++ 0x7c :: last ∧
      last ∈ fields := by
  induction fields generalizing first with
  | nil => exact absurd rfl hne
  | cons second fields ih =>
      rw [List.intercalate_cons_cons]
      by_cases hnil : fields = []
      · rw [hnil, List.intercalate_singleton]
        exact ⟨first, second, List.append_assoc .., List.mem_cons_self⟩
      · obtain ⟨front, last, heq, hlast⟩ := ih hnil second
        rw [heq]
        refine ⟨first ++ ([0x7c] ++ front), last, ?_, List.mem_cons_of_mem _ hlast⟩
        simp only [List.append_assoc]

theorem plainConfigLine_wordLine {word : Bytes} (hword : PlainWord word) {first : Bytes}
    {fields : List Bytes} (hne : fields ≠ []) (h : ∀ field ∈ first :: fields, PlainField field) :
    PlainConfigLine (wordLine word (first :: fields)) := by
  obtain ⟨b, rest, rfl, hhash, hspace⟩ := hword.head
  obtain ⟨front, last, heq, hlast⟩ := exists_intercalate_eq hne first
  have hline : wordLine (b :: rest) (first :: fields) =
      b :: ((rest ++ front) ++ 0x7c :: last) := by
    rw [wordLine, heq, List.cons_append, List.append_assoc]
  refine ⟨?_, ?_, ?_, ?_⟩
  · rw [hline]
    exact List.cons_ne_nil _ _
  · rw [hline]
    exact fun hhead => hhash (Option.some.inj hhead)
  · intro hlf
    cases List.mem_append.mp hlf with
    | inl hkeyword => exact hword.no_lf hkeyword
    | inr hrest =>
        rcases mem_of_mem_intercalate hrest with hbar | ⟨field, hfield, hmem⟩
        · exact absurd hbar (by decide)
        · exact (h field hfield).no_lf hmem
  · rw [hline]
    exact Trim.trimmed_cons_append hspace rfl (h last (List.mem_cons_of_mem _ hlast)).trimmed.2

/-! ## Fields -/

/-- What is read from between two bars of a line can be written there. -/
theorem plainField_of_mem_splitFields {line field : Bytes} (hlf : lf ∉ line)
    (h : field ∈ splitFields line 0x7c) : PlainField field where
  no_bar := fun hb => (mem_of_mem_splitFields h hb).2 rfl
  no_lf := fun hb => hlf (mem_of_mem_splitFields h hb).1
  trimmed := by
    obtain ⟨part, -, heq⟩ := List.mem_map.mp h
    rw [← heq]
    exact Trim.trimmed_trim part

/-- A target is written as it was read. -/
theorem printTarget_classifyTargetPattern (target : Bytes) :
    printTarget (classifyTargetPattern target).2 (classifyTargetPattern target).1 = target := by
  unfold classifyTargetPattern
  by_cases hstar : target.getLast? = some 0x2a
  · rw [if_pos hstar]
    exact List.dropLast_append_getLast? 0x2a hstar
  · rw [if_neg hstar]
    rfl

/-- The number that a status was read from may be written in the usual way. -/
theorem parseStatusCode_toNat {moduleName : String} {value : Bytes} {status : Int}
    (h : parseStatusCode moduleName value = .ok status) :
    parseStatusCode moduleName (decimal status.toNat) = .ok status := by
  have hrange := range_of_parseStatusCode h
  rw [parseStatusCode_decimal (by omega)]
  congr
  omega

/-! ## Files -/

section

variable {ρ : Type} {isLine : Bytes → Bool} {parse : Bytes → Except String ρ}
  {print : ρ → Bytes}

/-- A rule that is read back from its line. -/
structure ReadBack (isLine : Bytes → Bool) (parse : Bytes → Except String ρ)
    (print : ρ → Bytes) (rule : ρ) : Prop where
  plain : PlainConfigLine (print rule)
  isRule : isLine (print rule) = true
  parsed : parse (print rule) = .ok rule

/-- A rule of two fields or more that are read back. -/
theorem readBack_of_fields {rule : ρ} {first second : Bytes} {rest : List Bytes}
    (hprint : print rule = ruleLine (first :: second :: rest))
    (hplain : ∀ field ∈ first :: second :: rest, PlainField field)
    (hparsed : splitFields ((ruleLine (first :: second :: rest)).drop 5) 0x7c =
      first :: second :: rest → parse (ruleLine (first :: second :: rest)) = .ok rule) :
    ReadBack isRuleLine parse print rule := by
  have hne : second :: rest ≠ [] := List.cons_ne_nil _ _
  refine ⟨?_, ?_, ?_⟩
  · rw [hprint]
    exact plainConfigLine_wordLine plainWord_rule hne hplain
  · rw [hprint]
    exact beq_iff_eq.mpr (take_wordLine (ascii "rule=") _)
  · rw [hprint]
    exact hparsed (splitFields_wordLine (ascii "rule=") (List.cons_ne_nil _ _) hplain)

theorem mapM_readBack {rules : List ρ} (h : ∀ rule ∈ rules, ReadBack isLine parse print rule) :
    (rules.map print).mapM parse = .ok rules := by
  induction rules with
  | nil => rfl
  | cons rule rules ih =>
      rw [List.map_cons, List.mapM_cons, (h rule List.mem_cons_self).parsed,
        ih fun other hother => h other (List.mem_cons_of_mem _ hother)]
      rfl

/-- A file of rules that are read back from their lines. -/
theorem parse_printLines {rules : List ρ}
    (h : ∀ rule ∈ rules, ReadBack isLine parse print rule) :
    ((configLines (printLines (rules.map print))).filter isLine).mapM parse = .ok rules := by
  have hlines : ∀ line ∈ rules.map print, PlainConfigLine line := by
    intro line hline
    obtain ⟨rule, hrule, heq⟩ := List.mem_map.mp hline
    exact heq ▸ (h rule hrule).plain
  have hrules : ∀ line ∈ rules.map print, isLine line = true := by
    intro line hline
    obtain ⟨rule, hrule, heq⟩ := List.mem_map.mp hline
    exact heq ▸ (h rule hrule).isRule
  rw [configLines_printLines hlines, List.filter_eq_self.mpr hrules]
  exact mapM_readBack h

/-- Where every line gives a rule that is read back from its own, so does each rule of a
configuration. -/
theorem readBack_of_mem (hread : ∀ line rule, lf ∉ line → parse line = .ok rule →
      ReadBack isLine parse print rule) {configText : Bytes} {rules : List ρ}
    (h : ((configLines configText).filter isLine).mapM parse = .ok rules)
    {rule : ρ} (hrule : rule ∈ rules) : ReadBack isLine parse print rule := by
  obtain ⟨line, hline, hparse⟩ := exists_of_mem_mapM h hrule
  refine hread line rule ?_ hparse
  intro hlf
  exact (mem_of_mem_configLines (List.mem_of_mem_filter hline) hlf).2 rfl

/-- The rules of a configuration are read back from a file of their lines. -/
theorem parse_printed (hread : ∀ line rule, lf ∉ line → parse line = .ok rule →
      ReadBack isLine parse print rule) {configText : Bytes} {rules : List ρ}
    (h : ((configLines configText).filter isLine).mapM parse = .ok rules) :
    ((configLines (printLines (rules.map print))).filter isLine).mapM parse = .ok rules :=
  parse_printLines fun _ hrule => readBack_of_mem hread h hrule

end

end Modules
end Garcon
