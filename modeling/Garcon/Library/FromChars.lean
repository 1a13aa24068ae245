import Garcon.Library.Ascii

/-!
# Numbers at the front of a text

`std::from_chars` for base 10: the longest run of digits, behind a minus sign if the type
is signed, and what follows it.  A number outside the type is an error.
-/

namespace Ascii

/-- For an unsigned type with this largest value. -/
def fromChars (max : Nat) (text : Bytes) : Option (Nat × Bytes) :=
  let digits := text.takeWhile isDigit
  if digits = [] ∨ max < decimalValue digits then none
  else some (decimalValue digits, text.dropWhile isDigit)

/-- For a signed type with this largest value, in two's complement. -/
def fromCharsSigned (max : Nat) (text : Bytes) : Option (Int × Bytes) :=
  match text with
  | 0x2d :: text => (fromChars (max + 1) text).map fun found => (-found.1, found.2)
  | _ => (fromChars max text).map fun found => (found.1, found.2)

/-- The text is the notation of the number, leading zeros allowed. -/
structure Denotes (text : Bytes) (n : Nat) : Prop where
  ne_nil : text ≠ []
  digits : ∀ b ∈ text, isDigit b = true
  value : decimalValue text = n

/-- The whole text is read exactly when it denotes a number of the type. -/
theorem fromChars_whole {max n : Nat} {text : Bytes} :
    fromChars max text = some (n, []) ↔ Denotes text n ∧ n ≤ max := by
  unfold fromChars
  constructor
  · intro h
    by_cases hbad : text.takeWhile isDigit = [] ∨ max < decimalValue (text.takeWhile isDigit)
    · rw [if_pos hbad] at h
      cases h
    · rw [if_neg hbad, Option.some.injEq, Prod.mk.injEq] at h
      obtain ⟨hvalue, hrest⟩ := h
      have hwhole : text.takeWhile isDigit = text := by
        have happ := List.takeWhile_append_dropWhile (p := isDigit) (l := text)
        rwa [hrest, List.append_nil] at happ
      rw [hwhole] at hbad hvalue
      rw [not_or] at hbad
      exact ⟨⟨hbad.1, List.dropWhile_eq_nil_iff.mp hrest, hvalue⟩, by omega⟩
  · rintro ⟨⟨hne, hdigits, rfl⟩, hmax⟩
    have hwhole : text.takeWhile isDigit = text := List.takeWhile_eq_self_iff.mpr hdigits
    have hrest : text.dropWhile isDigit = [] := List.dropWhile_eq_nil_iff.mpr hdigits
    rw [hwhole, hrest, if_neg (not_or.mpr ⟨hne, by omega⟩)]

/-- A positive number has no sign. -/
theorem fromCharsSigned_whole {max : Nat} {n : Int} (hn : 0 < n) {text : Bytes} :
    fromCharsSigned max text = some (n, []) ↔ ∃ m : Nat, n = m ∧ Denotes text m ∧ m ≤ max := by
  by_cases hminus : text.head? = some 0x2d
  · obtain ⟨tail, rfl⟩ := List.head?_eq_some_iff.mp hminus
    constructor
    · intro h
      obtain ⟨found, -, hfound⟩ := Option.map_eq_some_iff.mp h
      rw [Prod.mk.injEq] at hfound
      omega
    · rintro ⟨m, -, hdenotes, -⟩
      cases hdenotes.digits 0x2d List.mem_cons_self
  · have hunsigned : fromCharsSigned max text =
        (fromChars max text).map fun found => ((found.1 : Int), found.2) := by
      unfold fromCharsSigned
      split
      · exact absurd rfl hminus
      · rfl
    rw [hunsigned, Option.map_eq_some_iff]
    constructor
    · rintro ⟨⟨m, rest⟩, hfound, heq⟩
      rw [Prod.mk.injEq] at heq
      obtain ⟨rfl, rfl⟩ := heq
      exact ⟨m, rfl, fromChars_whole.mp hfound⟩
    · rintro ⟨m, rfl, hm⟩
      exact ⟨(m, []), fromChars_whole.mpr hm, rfl⟩

end Ascii
