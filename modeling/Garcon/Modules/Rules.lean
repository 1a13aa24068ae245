import Garcon.Http.Request
import Garcon.Http.Response

/-!
# Rule lines

The bundled modules carry their own copies of a few helpers that read rule lines and
match them against a request.  The copies agree up to the module's name in their
error messages, which is a parameter here.

An `int` is an `Int` reduced to 32 bits after each operation.
-/

namespace Garcon
namespace Modules

open Ascii Search Http

/-- The value of an `int` after an overflow. -/
def wrapInt (n : Int) : Int := n.bmod (2 ^ 32)

def trim (value : Bytes) : Bytes := Trim.trim isSpace value

def splitFields (value : Bytes) (delimiter : UInt8) : List Bytes :=
  (splitAll [delimiter] (List.cons_ne_nil _ _) value).map trim

/-- The lines a configuration is read by: trimmed, not empty, and no comments. -/
def configLines (configText : Bytes) : List Bytes :=
  (splitFields configText lf).filter fun line => !line.isEmpty && line.head? != some 0x23

/-- `key_value_config::get`: the value of the first line with this key. -/
def configGet (configText key : Bytes) : Option Bytes :=
  (configLines configText).findSome? fun line =>
    match cut [0x3d] line with
    | none => none
    | some (foundKey, value) => if trim foundKey = key then some (trim value) else none

def isRuleLine (line : Bytes) : Bool := line.take 5 == ascii "rule="

inductive PatternKind where
  | exact
  | prefixed
deriving DecidableEq, Repr

/-- A trailing `*` makes a prefix pattern and is dropped. -/
def classifyTargetPattern (pattern : Bytes) : Bytes × PatternKind :=
  if pattern.getLast? = some 0x2a then (pattern.dropLast, .prefixed) else (pattern, .exact)

def methodMatches (pattern actual : Bytes) : Bool := pattern == ascii "*" || pattern == actual

def targetMatches (kind : PatternKind) (pattern actual : Bytes) : Bool :=
  match kind with
  | .exact => pattern == actual
  | .prefixed => actual.take pattern.length == pattern

/-- The loop that reads a decimal number, or nothing at the first other character. -/
def readDecimal (value : Bytes) : Option Int :=
  value.foldlM (fun v ch =>
    if isDigit ch then some (wrapInt (v * 10 + digitValue ch)) else none) 0

def parseStatusCode (moduleName : String) (value : Bytes) : Except String Int :=
  if value = [] then .error (moduleName ++ ": empty status code")
  else
    match readDecimal value with
    | none => .error (moduleName ++ ": invalid status code")
    | some status =>
      if status < 100 ∨ 999 < status then .error (moduleName ++ ": status code out of range")
      else .ok status

/-- A field holds bytes of the text, and not the delimiter. -/
theorem mem_of_mem_splitFields {value field : Bytes} {delimiter b : UInt8}
    (hfield : field ∈ splitFields value delimiter) (hb : b ∈ field) :
    b ∈ value ∧ b ≠ delimiter := by
  obtain ⟨part, hpart, rfl⟩ := List.mem_map.mp hfield
  have hmem := Trim.mem_of_mem_trim hb
  refine ⟨mem_of_mem_splitAll hpart hmem, ?_⟩
  rintro rfl
  exact not_infix_of_mem_splitAll hpart ((List.singleton_infix_iff _ _).mpr hmem)

/-- Whitespace at either end does not change the fields. -/
theorem splitFields_append_run {delimiter : UInt8} (hd : isSpace delimiter = false)
    {l t : Bytes} (hl : ∀ b ∈ l, isSpace b = true) (ht : ∀ b ∈ t, isSpace b = true)
    (value : Bytes) : splitFields (l ++ (value ++ t)) delimiter = splitFields value delimiter := by
  have hfree : ∀ run : Bytes, (∀ b ∈ run, isSpace b = true) → delimiter ∉ run := by
    intro run hrun hmem
    rw [hrun delimiter hmem] at hd
    cases hd
  -- The run at the front joins the first field, the one at the back the last.
  induction value using splitAll.induct [delimiter] (List.cons_ne_nil _ _) generalizing l with
  | case1 value hc =>
      have hnot := cut_eq_none_iff.mp hc
      have hnot' : ¬ [delimiter] <:+: l ++ (value ++ t) := by
        rw [List.singleton_infix_iff] at hnot ⊢
        simp only [List.mem_append, not_or]
        exact ⟨hfree l hl, hnot, hfree t ht⟩
      rw [splitFields, splitFields, splitAll_of_not_occurs hnot, splitAll_of_not_occurs hnot',
        List.map_singleton, List.map_singleton, trim, Trim.trim_append_run hl ht]
      rfl
  | case2 value a b hc ih =>
      obtain ⟨rfl, hf⟩ := cut_eq_some_iff.mp hc
      have hfront : Fresh [delimiter] (l ++ a) :=
        (fresh_append_of_head_not_mem (hfree l hl)).mpr hf
      have hassoc : l ++ (a ++ ([delimiter] ++ b) ++ t) =
          (l ++ a) ++ ([delimiter] ++ ([] ++ (b ++ t))) := by
        simp only [List.append_assoc, List.nil_append]
      have hrest := ih (l := []) fun b hb => absurd hb List.not_mem_nil
      have htrim : Trim.trim isSpace (l ++ (a ++ [])) = Trim.trim isSpace a :=
        Trim.trim_append_run hl fun b hb => absurd hb List.not_mem_nil
      rw [splitFields, splitFields] at hrest
      rw [List.append_nil] at htrim
      rw [splitFields, splitFields, hassoc, splitAll_of_fresh hfront, splitAll_of_fresh hf,
        List.map_cons, List.map_cons, hrest, trim, htrim]
      rfl

theorem splitFields_trim {delimiter : UInt8} (hd : isSpace delimiter = false) (value : Bytes) :
    splitFields (trim value) delimiter = splitFields value delimiter := by
  obtain ⟨l, t, hvalue, hl, ht⟩ := Trim.exists_eq_trim (p := isSpace) value
  have hfields := splitFields_append_run hd hl ht (trim value)
  rw [← hfields]
  exact congrArg (splitFields · delimiter) hvalue.symm

theorem mem_of_mem_configLines {configText line : Bytes} {b : UInt8}
    (hline : line ∈ configLines configText) (hb : b ∈ line) : b ∈ configText ∧ b ≠ lf :=
  mem_of_mem_splitFields (List.mem_of_mem_filter hline) hb

/-- What is read from a list of lines is read from one of them each. -/
theorem exists_of_mem_mapM {α β : Type} {f : α → Except String β} {xs : List α} {ys : List β}
    (h : xs.mapM f = .ok ys) {y : β} (hy : y ∈ ys) : ∃ x ∈ xs, f x = .ok y := by
  induction xs generalizing ys with
  | nil =>
      cases h
      cases hy
  | cons x xs ih =>
      rw [List.mapM_cons] at h
      obtain ⟨first, hx, h⟩ := Response.exists_of_bind_eq_ok h
      obtain ⟨rest, hxs, h⟩ := Response.exists_of_bind_eq_ok h
      cases h
      rcases List.mem_cons.mp hy with rfl | hy
      · exact ⟨x, List.mem_cons_self, hx⟩
      · obtain ⟨x', hx', hfx'⟩ := ih hxs hy
        exact ⟨x', List.mem_cons_of_mem x hx', hfx'⟩

theorem length_of_mapM {α β : Type} {f : α → Except String β} {xs : List α} {ys : List β}
    (h : xs.mapM f = .ok ys) : ys.length = xs.length := by
  induction xs generalizing ys with
  | nil =>
      cases h
      rfl
  | cons x xs ih =>
      rw [List.mapM_cons] at h
      obtain ⟨y, -, h⟩ := Response.exists_of_bind_eq_ok h
      obtain ⟨rest, hrest, h⟩ := Response.exists_of_bind_eq_ok h
      cases h
      rw [List.length_cons, List.length_cons, ih hrest]

/-- A reason phrase that keeps the status line whole. -/
def PlainReason (reason : Bytes) : Prop := reason ≠ [] ∧ cr ∉ reason

instance (reason : Bytes) : Decidable (PlainReason reason) :=
  inferInstanceAs (Decidable (_ ∧ _))

theorem plainReason_ite {p : Prop} [Decidable p] {left right : Bytes} (hleft : PlainReason left)
    (hright : PlainReason right) : PlainReason (if p then left else right) := by
  by_cases h : p
  · rwa [if_pos h]
  · rwa [if_neg h]

/-- Among digits the loop is a fold. -/
theorem foldlM_digits {value : Bytes} (h : ∀ b ∈ value, isDigit b = true) (v : Int) :
    value.foldlM (fun v ch =>
      if isDigit ch then some (wrapInt (v * 10 + digitValue ch)) else none) v =
        some (value.foldl (fun v ch => wrapInt (v * 10 + digitValue ch)) v) := by
  induction value generalizing v with
  | nil => rfl
  | cons c value ih =>
      rw [List.foldlM_cons, if_pos (h c List.mem_cons_self), Option.bind_eq_bind,
        Option.bind_some, List.foldl_cons]
      exact ih (fun b hb => h b (List.mem_cons_of_mem c hb)) _

/-- The loop ends with the number of the digits, reduced to 32 bits. -/
theorem readDecimal_eq {value : Bytes} (h : ∀ b ∈ value, isDigit b = true) :
    readDecimal value = some (wrapInt (decimalValue value)) :=
  (foldlM_digits h 0).trans (congrArg some (foldl_bmod _ value))

/-- A number that fits an `int` is read back from its notation. -/
theorem readDecimal_decimal {n : Nat} (h : n < 2 ^ 31) :
    readDecimal (decimal n) = some (n : Int) := by
  rw [readDecimal_eq fun _ hb => isDigit_of_mem_decimal hb, decimalValue_decimal, wrapInt,
    Int.bmod_eq_of_le (by omega) (by omega)]

theorem parseStatusCode_decimal {moduleName : String} {n : Nat} (h : 100 ≤ n ∧ n ≤ 999) :
    parseStatusCode moduleName (decimal n) = .ok (n : Int) := by
  unfold parseStatusCode
  rw [if_neg (decimal_ne_nil n), readDecimal_decimal (by omega)]
  exact if_neg (by omega)

/-- A number that is refused or returned. -/
theorem ite_error_eq_ok_iff {p : Prop} [Decidable p] {what : String} {w n : Int} :
    (if p then Except.error what else .ok w) = .ok n ↔ n = w ∧ ¬ p := by
  by_cases hp : p
  · rw [if_pos hp]
    exact iff_of_false (fun h => nomatch h) fun h => h.2 hp
  · rw [if_neg hp, Except.ok.injEq, and_iff_left hp]
    exact eq_comm

theorem range_of_parseStatusCode {moduleName : String} {value : Bytes} {status : Int}
    (h : parseStatusCode moduleName value = .ok status) : 100 ≤ status ∧ status ≤ 999 := by
  unfold parseStatusCode at h
  split at h
  · cases h
  · split at h
    · cases h
    · obtain ⟨rfl, hrange⟩ := ite_error_eq_ok_iff.mp h
      omega

theorem targetMatches_exact {pattern actual : Bytes} :
    targetMatches .exact pattern actual = true ↔ pattern = actual := by
  show (pattern == actual) = true ↔ _
  rw [beq_iff_eq]

end Modules
end Garcon
