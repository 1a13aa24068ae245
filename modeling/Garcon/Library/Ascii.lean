import Mathlib

/-!
# Byte strings and ASCII

A byte string is a list of `UInt8`, and `ascii` turns a string literal into one.
Beside the character classes this file holds the decimal notation of a natural
number and of an integer, with the two facts a reader of such text needs: the
notation is made of digits, and reading it back gives the number.
-/

abbrev Bytes := List UInt8

namespace Ascii

def ascii (s : String) : Bytes := s.toList.map fun c => UInt8.ofNat c.toNat

def isUpper (b : UInt8) : Bool := 0x41 ≤ b && b ≤ 0x5a

def isLower (b : UInt8) : Bool := 0x61 ≤ b && b ≤ 0x7a

def isAlpha (b : UInt8) : Bool := isUpper b || isLower b

def isDigit (b : UInt8) : Bool := 0x30 ≤ b && b ≤ 0x39

/-- The six bytes `isspace` accepts in the C locale. -/
def isSpace (b : UInt8) : Bool := b == 0x20 || (0x09 ≤ b && b ≤ 0x0d)

def lower (b : UInt8) : UInt8 := if isUpper b then b - 0x41 + 0x61 else b

def iequals (left right : Bytes) : Bool :=
  left.length == right.length && (left.zip right).all fun p => lower p.1 == lower p.2

theorem iequals_iff {left right : Bytes} :
    iequals left right = true ↔ left.map lower = right.map lower := by
  unfold iequals
  induction left generalizing right with
  | nil => cases right <;> simp
  | cons a left ih =>
    cases right with
    | nil => simp
    | cons b right =>
      have := @ih right
      simp only [List.length_cons, List.zip_cons_cons, List.all_cons, List.map_cons,
        List.cons.injEq, Bool.and_eq_true, beq_iff_eq, Nat.add_right_cancel_iff] at this ⊢
      tauto

theorem lower_lower : ∀ b : UInt8, lower (lower b) = lower b := by decide +kernel

theorem isSpace_lower : ∀ b : UInt8, isSpace (lower b) = isSpace b := by decide +kernel

theorem isDigit_lower : ∀ b : UInt8, isDigit (lower b) = isDigit b := by decide +kernel

theorem map_lower_idem (text : Bytes) : (text.map lower).map lower = text.map lower := by
  rw [List.map_map]
  exact List.map_congr_left fun b _ => lower_lower b

/-! ## Decimal notation -/

def digit (d : Nat) : UInt8 := 0x30 + UInt8.ofNat d

def digitValue (b : UInt8) : Nat := b.toNat - 0x30

/-- Decimal notation of a natural number, without leading zeros. -/
def decimal (n : Nat) : Bytes :=
  if n < 10 then [digit n] else decimal (n / 10) ++ [digit (n % 10)]

def decimalInt (n : Int) : Bytes :=
  if n < 0 then 0x2d :: decimal n.natAbs else decimal n.natAbs

/-- The number a digit string stands for. -/
def decimalValue (ds : Bytes) : Nat := ds.foldl (fun acc d => acc * 10 + digitValue d) 0

theorem isDigit_iff {b : UInt8} : isDigit b = true ↔ 0x30 ≤ b.toNat ∧ b.toNat ≤ 0x39 := by
  simp [isDigit, UInt8.le_iff_toNat_le]

theorem digit_toNat {d : Nat} (h : d < 10) : (digit d).toNat = 0x30 + d := by
  simp only [digit, UInt8.toNat_add, UInt8.toNat_ofNat', UInt8.reduceToNat]
  omega

theorem isDigit_digit {d : Nat} (h : d < 10) : isDigit (digit d) = true := by
  rw [isDigit_iff, digit_toNat h]
  omega

theorem digitValue_digit {d : Nat} (h : d < 10) : digitValue (digit d) = d := by
  rw [digitValue, digit_toNat h]
  omega

theorem decimal_ne_nil (n : Nat) : decimal n ≠ [] := by
  rw [decimal]
  split <;> simp

theorem isDigit_of_mem_decimal {n : Nat} {b : UInt8} (h : b ∈ decimal n) :
    isDigit b = true := by
  induction n using Nat.strong_induction_on with
  | _ n ih =>
    rw [decimal] at h
    split at h
    · next hn =>
      rw [List.mem_singleton] at h
      exact h ▸ isDigit_digit hn
    · next hn =>
      rw [List.mem_append, List.mem_singleton] at h
      rcases h with h | rfl
      · exact ih (n / 10) (by omega) h
      · exact isDigit_digit (Nat.mod_lt n (by decide))

theorem takeWhile_digits {digits tail : Bytes} (hdigits : ∀ b ∈ digits, isDigit b = true)
    (htail : ∀ b ∈ tail.head?, isDigit b = false) :
    (digits ++ tail).takeWhile isDigit = digits := by
  rw [List.takeWhile_append_of_pos hdigits]
  cases tail with
  | nil => simp
  | cons c tail => rw [List.takeWhile_cons_of_neg (by simp [htail c rfl]), List.append_nil]

theorem isSpace_eq_false {b : UInt8} (h : isDigit b = true) : isSpace b = false := by
  rw [Bool.eq_false_iff]
  intro hspace
  rw [isDigit_iff] at h
  simp only [isSpace, Bool.or_eq_true, beq_iff_eq, Bool.and_eq_true, decide_eq_true_eq,
    UInt8.le_iff_toNat_le, UInt8.reduceToNat] at hspace
  rcases hspace with rfl | hspace
  · simp at h
  · omega

theorem decimalValue_concat (ds : Bytes) (d : UInt8) :
    decimalValue (ds ++ [d]) = decimalValue ds * 10 + digitValue d := by
  simp [decimalValue]

theorem decimalValue_decimal (n : Nat) : decimalValue (decimal n) = n := by
  induction n using Nat.strong_induction_on with
  | _ n ih =>
    rw [decimal]
    split
    · next hn => simp [decimalValue, digitValue_digit hn]
    · next hn =>
      rw [decimalValue_concat, ih (n / 10) (by omega),
        digitValue_digit (Nat.mod_lt n (by decide))]
      omega

/-- A byte outside the digits and the sign occurs in no integer's notation. -/
theorem not_mem_decimalInt {n : Int} {b : UInt8} (hd : isDigit b = false)
    (hm : b ≠ 0x2d) : b ∉ decimalInt n := by
  have hnat : b ∉ decimal n.natAbs := fun h => by simp [isDigit_of_mem_decimal h] at hd
  unfold decimalInt
  split
  · simp [hm, hnat]
  · exact hnat

theorem decimal_injective {m n : Nat} (h : decimal m = decimal n) : m = n := by
  rw [← decimalValue_decimal m, h, decimalValue_decimal]

theorem decimal_ne_minus_cons (n : Nat) (tail : Bytes) : decimal n ≠ 0x2d :: tail := by
  intro h
  have hdigit : isDigit 0x2d = true := isDigit_of_mem_decimal (h ▸ List.mem_cons_self)
  cases hdigit

theorem decimalInt_injective {m n : Int} (h : decimalInt m = decimalInt n) : m = n := by
  unfold decimalInt at h
  by_cases hm : m < 0
  · by_cases hn : n < 0
    · rw [if_pos hm, if_pos hn] at h
      have habs := decimal_injective (List.cons.inj h).2
      omega
    · rw [if_pos hm, if_neg hn] at h
      exact absurd h.symm (decimal_ne_minus_cons _ _)
  · by_cases hn : n < 0
    · rw [if_neg hm, if_pos hn] at h
      exact absurd h (decimal_ne_minus_cons _ _)
    · rw [if_neg hm, if_neg hn] at h
      have habs := decimal_injective h
      omega

/-- A number may be reduced before a digit is added to it. -/
theorem bmod_mul_add (n : Int) (d m : Nat) :
    (n.bmod m * 10 + d).bmod m = (n * 10 + d).bmod m := by
  rw [← Int.bmod_add_bmod, Int.bmod_mul_bmod, Int.bmod_add_bmod]

/-- A digit loop that reduces every time ends with the number, reduced once. -/
theorem foldl_bmod (m : Nat) (digits : Bytes) :
    digits.foldl (fun (v : Int) c => (v * 10 + digitValue c).bmod m) 0 =
      (decimalValue digits : Int).bmod m := by
  induction digits using List.reverseRecOn with
  | nil => exact Int.zero_bmod.symm
  | append_singleton digits c ih =>
      rw [List.foldl_append, ih, List.foldl_cons, List.foldl_nil, bmod_mul_add,
        decimalValue_concat]
      push_cast
      rfl

end Ascii
