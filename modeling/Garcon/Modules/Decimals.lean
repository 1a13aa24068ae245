import Garcon.Modules.RateLimit

/-!
# Configured numbers

Every number of a rule is folded into an `int` before its range is checked.  A number that
does not fit is seen as its remainder, which is refused unless it lands in the range again.
-/

namespace Garcon
namespace Modules

open Ascii

/-- What an overflow leaves of a natural number. -/
theorem wrapInt_cases (v : Nat) :
    (v < 2 ^ 31 ∧ wrapInt v = v) ∨ (2 ^ 31 ≤ v ∧ wrapInt v < v ∧
      (0 < wrapInt v ↔ 0 < v % 2 ^ 32 ∧ v % 2 ^ 32 < 2 ^ 31)) := by
  unfold wrapInt
  rw [Int.bmod_def]
  split <;> omega

/-- A status code is the remainder, if that is one. -/
theorem parseStatusCode_eq_ok_iff {moduleName : String} {value : Bytes}
    (h : ∀ b ∈ value, isDigit b = true) {n : Int} :
    parseStatusCode moduleName value = .ok n ↔
      n = wrapInt (decimalValue value) ∧ 100 ≤ n ∧ n ≤ 999 := by
  unfold parseStatusCode
  by_cases hne : value = []
  · subst hne
    have hzero : wrapInt (decimalValue ([] : Bytes)) = 0 := rfl
    rw [if_pos rfl, hzero]
    exact iff_of_false (fun h => nomatch h) (by omega)
  · rw [if_neg hne, readDecimal_eq h]
    show (if _ then _ else _) = _ ↔ _
    rw [ite_error_eq_ok_iff]
    omega

namespace RateLimit

theorem parsePositiveInt_eq_ok_iff {value : Bytes} (h : ∀ b ∈ value, isDigit b = true)
    {what : String} {n : Int} :
    parsePositiveInt value what = .ok n ↔ n = wrapInt (decimalValue value) ∧ 0 < n := by
  unfold parsePositiveInt
  by_cases hne : value = []
  · subst hne
    have hzero : wrapInt (decimalValue ([] : Bytes)) = 0 := rfl
    rw [if_pos rfl, hzero]
    exact iff_of_false (fun h => nomatch h) (by omega)
  · rw [if_neg hne, readDecimal_eq h]
    show (if _ then _ else _) = _ ↔ _
    rw [ite_error_eq_ok_iff]
    omega

/-- The suffixes of a window, and the seconds they stand for. -/
def windowUnits : List (Bytes × Int) :=
  [([], 1), ([0x73], 1), ([0x53], 1), ([0x6d], 60), ([0x4d], 60), ([0x68], 3600), ([0x48], 3600)]

/-- Digits are not a unit. -/
theorem splitWindowUnit_digits {value : Bytes} (h : ∀ b ∈ value, isDigit b = true) :
    splitWindowUnit value = (value, 1) := by
  unfold splitWindowUnit
  split
  case h_7 => rfl
  all_goals
    next hlast =>
      have hdigit := h _ (List.mem_of_getLast? hlast)
      cases hdigit

theorem splitWindowUnit_append {value : Bytes} (h : ∀ b ∈ value, isDigit b = true)
    {unit : Bytes × Int} (hunit : unit ∈ windowUnits) :
    splitWindowUnit (value ++ unit.1) = (value, unit.2) := by
  have hletter : ∀ c : UInt8, (value ++ [c]).getLast? = some c ∧ (value ++ [c]).dropLast = value :=
    fun c => ⟨List.getLast?_concat, List.dropLast_concat⟩
  simp only [windowUnits, List.mem_cons, List.not_mem_nil, or_false] at hunit
  rcases hunit with rfl | hunit
  · rw [List.append_nil]
    exact splitWindowUnit_digits h
  · rcases hunit with rfl | rfl | rfl | rfl | rfl | rfl <;>
      · show splitWindowUnit (value ++ [_]) = _
        unfold splitWindowUnit
        rw [(hletter _).1, (hletter _).2]
        rfl

theorem parseWindowSeconds_eq_ok_iff {value : Bytes} (h : ∀ b ∈ value, isDigit b = true)
    {unit : Bytes × Int} (hunit : unit ∈ windowUnits) {n : Int} :
    parseWindowSeconds (value ++ unit.1) = .ok n ↔
      n = wrapInt (decimalValue value) * unit.2 ∧ 0 < wrapInt (decimalValue value) ∧
        n ≤ 1000000000 := by
  have hpositive := @parsePositiveInt_eq_ok_iff value h "window"
  generalize hw : wrapInt (decimalValue value) = w at hpositive ⊢
  by_cases hne : value ++ unit.1 = []
  · have hvalue : value = [] := (List.append_eq_nil_iff.mp hne).1
    have hzero : w = 0 := by
      rw [← hw, hvalue]
      rfl
    unfold parseWindowSeconds
    rw [if_pos hne]
    constructor
    · intro h
      cases h
    · intro hn
      omega
  · unfold parseWindowSeconds
    rw [if_neg hne, splitWindowUnit_append h hunit]
    dsimp only
    constructor
    · intro hok
      obtain ⟨seconds, hseconds, hok⟩ := Http.Response.exists_of_bind_eq_ok hok
      obtain ⟨rfl, hpos⟩ := hpositive.mp hseconds
      by_cases hlarge : 1000000000 < seconds * unit.2
      · rw [if_pos hlarge] at hok
        cases hok
      · rw [if_neg hlarge] at hok
        cases hok
        exact ⟨rfl, hpos, by omega⟩
    · rintro ⟨rfl, hpos, hle⟩
      have hseconds : parsePositiveInt value "window" = pure w := hpositive.mpr ⟨rfl, hpos⟩
      rw [hseconds, pure_bind, if_neg (Int.not_lt.mpr hle)]
      rfl

end RateLimit

/-- Every number that is read from these digits is their value. -/
structure ReadsExactly (moduleName : String) (value : Bytes) : Prop where
  statusCode : ∀ n, parseStatusCode moduleName value = .ok n ↔
    n = decimalValue value ∧ 100 ≤ n ∧ n ≤ 999
  positiveInt : ∀ what n, RateLimit.parsePositiveInt value what = .ok n → n = decimalValue value
  windowSeconds : ∀ unit ∈ RateLimit.windowUnits, ∀ n,
    RateLimit.parseWindowSeconds (value ++ unit.1) = .ok n → n = decimalValue value * unit.2
  overflow : 2 ^ 31 ≤ decimalValue value → ∀ n,
    parseStatusCode moduleName value ≠ .ok n ∧
      (∀ what, RateLimit.parsePositiveInt value what ≠ .ok n) ∧
      ∀ unit ∈ RateLimit.windowUnits, RateLimit.parseWindowSeconds (value ++ unit.1) ≠ .ok n

/-- The number fits an `int`, or what an overflow leaves of it is not positive. -/
def Unwrapped (n : Nat) : Prop := n < 2 ^ 31 ∨ n % 2 ^ 32 = 0 ∨ 2 ^ 31 ≤ n % 2 ^ 32

/-- The numbers are read as written exactly when no overflow leaves a positive one. -/
theorem readsExactly_iff {moduleName : String} {value : Bytes}
    (h : ∀ b ∈ value, isDigit b = true) :
    ReadsExactly moduleName value ↔ Unwrapped (decimalValue value) := by
  have hcases := wrapInt_cases (decimalValue value)
  have hpositive := @RateLimit.parsePositiveInt_eq_ok_iff value h
  constructor
  · intro hreads
    by_contra hwrapped
    unfold Unwrapped at hwrapped
    have hoverflow := hreads.overflow (by omega) (wrapInt (decimalValue value))
    exact hoverflow.2.1 "limit" (hpositive.mpr ⟨rfl, by omega⟩)
  · intro hunwrapped
    unfold Unwrapped at hunwrapped
    have hstatus := @parseStatusCode_eq_ok_iff moduleName value h
    have hwindow := @RateLimit.parseWindowSeconds_eq_ok_iff value h
    generalize wrapInt (decimalValue value) = w at hcases hpositive hstatus hwindow
    refine ⟨fun n => ?_, fun what n hok => ?_, fun unit hunit n hok => ?_, fun hlarge n => ?_⟩
    · rw [hstatus]
      omega
    · have hn := hpositive.mp hok
      omega
    · obtain ⟨hn, hpos, -⟩ := (hwindow hunit).mp hok
      have hw : w = decimalValue value := by omega
      rwa [← hw]
    · refine ⟨fun hok => ?_, fun what hok => ?_, fun unit hunit hok => ?_⟩
      · have hn := hstatus.mp hok
        omega
      · have hn := hpositive.mp hok
        omega
      · have hn := (hwindow hunit).mp hok
        omega

theorem readsExactly_iff_404 :
    ReadsExactly "router" (ascii "404") ↔ Unwrapped (decimalValue (ascii "404")) :=
  readsExactly_iff (by decide +kernel)

/-- A status code of ten digits is 200. -/
theorem wrapped_statusCode :
    parseStatusCode "host_guard" (ascii "4294967496") = .ok 200 ∧
      ¬ ReadsExactly "host_guard" (ascii "4294967496") := by
  have hread : parseStatusCode "host_guard" (ascii "4294967496") = .ok 200 := by decide +kernel
  have hvalue : 2 ^ 31 ≤ decimalValue (ascii "4294967496") := by decide +kernel
  exact ⟨hread, fun hreads => (hreads.overflow hvalue 200).1 hread⟩

end Modules
end Garcon
