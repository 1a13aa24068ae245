import Garcon.Library.Json
import Garcon.Modules.JwtAuth

/-!
# The claims read from a JSON object

The payload of a token is a JSON object, and the module reads it by text search.  `Reads`
says what text a search for a string member gives, without the two loops.  When the first
text found is the member of the object itself, the value read is the member's value
exactly if the text escapes characters by themselves only.
-/

namespace Garcon
namespace Modules
namespace JwtAuth

open Ascii Search Json

/-! ## What a text search reads -/

/-- `rest` stands behind the first occurrence of `pattern`. -/
def FirstBehind (pattern payload rest : Bytes) : Prop :=
  ∃ front, payload = front ++ (pattern ++ rest) ∧ Fresh pattern front

/-- A string from behind its opening quote on, and what it spells once the backslashes
are dropped. -/
inductive Spells : Bytes → Bytes → Prop where
  | closed (rest : Bytes) : Spells (0x22 :: rest) []
  | unclosed : Spells [] []
  | dangling : Spells [0x5c] []
  | escaped {c : UInt8} {rest v : Bytes} : Spells rest v → Spells (0x5c :: c :: rest) (c :: v)
  | plain {c : UInt8} {rest v : Bytes} : c ≠ 0x5c → c ≠ 0x22 → Spells rest v →
      Spells (c :: rest) (c :: v)

/-- The string a search for a member gives: the one behind the first tight spelling of its
key, else behind the first spaced one, else the empty string. -/
inductive Reads (payload name : Bytes) : Bytes → Prop where
  | tight {rest v : Bytes} : FirstBehind (tightKey name) payload rest → Spells rest v →
      Reads payload name v
  | spaced {rest v : Bytes} : ¬ tightKey name <:+: payload →
      FirstBehind (spacedKey name) payload rest → Spells rest v → Reads payload name v
  | absent : ¬ tightKey name <:+: payload → ¬ spacedKey name <:+: payload →
      Reads payload name []

theorem readJsonString_of_spells {rest v : Bytes} (h : Spells rest v) :
    readJsonString false rest = v := by
  induction h with
  | closed rest => rfl
  | unclosed => rfl
  | dangling => rfl
  | escaped _ ih => rw [readJsonString, if_pos rfl, readJsonString, ih]
  | plain hslash hquote _ ih => rw [readJsonString, if_neg hslash, if_neg hquote, ih]

theorem spells_readJsonString : ∀ rest : Bytes, Spells rest (readJsonString false rest)
  | [] => .unclosed
  | c :: rest => by
      by_cases hslash : c = 0x5c
      · subst hslash
        cases rest with
        | nil => exact .dangling
        | cons d rest =>
            rw [readJsonString, if_pos rfl, readJsonString]
            exact .escaped (spells_readJsonString rest)
      · rw [readJsonString, if_neg hslash]
        by_cases hquote : c = 0x22
        · subst hquote
          exact .closed rest
        · rw [if_neg hquote]
          exact .plain hslash hquote (spells_readJsonString rest)

theorem spells_iff {rest v : Bytes} : Spells rest v ↔ readJsonString false rest = v := by
  constructor
  · exact readJsonString_of_spells
  · intro h
    rw [← h]
    exact spells_readJsonString rest

theorem cut_of_firstBehind {pattern payload rest : Bytes}
    (h : FirstBehind pattern payload rest) : ∃ front, cut pattern payload = some (front, rest) := by
  obtain ⟨front, hpayload, hfresh⟩ := h
  exact ⟨front, cut_eq_some_iff.mpr ⟨hpayload, hfresh⟩⟩

theorem firstBehind_of_cut {pattern payload front rest : Bytes}
    (h : cut pattern payload = some (front, rest)) : FirstBehind pattern payload rest :=
  ⟨front, cut_eq_some_iff.mp h⟩

theorem extractJsonString_of_reads {payload name v : Bytes} (h : Reads payload name v) :
    extractJsonString payload name = v := by
  unfold extractJsonString
  cases h with
  | tight hfirst hspells =>
      obtain ⟨front, hcut⟩ := cut_of_firstBehind hfirst
      rw [hcut]
      exact readJsonString_of_spells hspells
  | spaced htight hfirst hspells =>
      obtain ⟨front, hcut⟩ := cut_of_firstBehind hfirst
      rw [cut_eq_none_iff.mpr htight, hcut]
      exact readJsonString_of_spells hspells
  | absent htight hspaced =>
      rw [cut_eq_none_iff.mpr htight, cut_eq_none_iff.mpr hspaced]

theorem reads_extractJsonString (payload name : Bytes) :
    Reads payload name (extractJsonString payload name) := by
  unfold extractJsonString
  cases htight : cut (tightKey name) payload with
  | some found => exact .tight (firstBehind_of_cut htight) (spells_readJsonString _)
  | none =>
      have hno := cut_eq_none_iff.mp htight
      cases hspaced : cut (spacedKey name) payload with
      | some found => exact .spaced hno (firstBehind_of_cut hspaced) (spells_readJsonString _)
      | none => exact .absent hno (cut_eq_none_iff.mp hspaced)

theorem extractJsonString_eq_iff {payload name v : Bytes} :
    extractJsonString payload name = v ↔ Reads payload name v := by
  constructor
  · intro h
    rw [← h]
    exact reads_extractJsonString payload name
  · exact extractJsonString_of_reads

theorem extractRoles_eq_iff {payload v : Bytes} :
    extractRoles payload = v ↔ v ≠ [] ∧ Reads payload (ascii "roles") v ∨
      Reads payload (ascii "roles") [] ∧ Reads payload (ascii "role") v := by
  rw [extractRoles, ← extractJsonString_eq_iff, ← extractJsonString_eq_iff,
    ← extractJsonString_eq_iff]
  by_cases hnil : extractJsonString payload (ascii "roles") = []
  · rw [if_pos hnil, hnil]
    constructor
    · exact fun h => Or.inr ⟨rfl, h⟩
    · rintro (⟨hne, h⟩ | ⟨-, h⟩)
      · exact absurd h.symm hne
      · exact h
  · rw [if_neg hnil]
    constructor
    · intro h
      rw [h] at hnil
      exact Or.inl ⟨hnil, h⟩
    · rintro (⟨-, h⟩ | ⟨h, -⟩)
      · exact h
      · exact absurd h hnil

/-! ## The member itself -/

theorem readJsonString_raw (t : Text) (rest : Bytes) :
    readJsonString false (t.raw ++ 0x22 :: rest) = t.letters := by
  unfold Text.raw Text.letters
  induction t with
  | nil => rfl
  | cons piece t ih =>
      rw [List.flatMap_cons, List.append_assoc, List.flatMap_cons, ← ih]
      cases piece with
      | plain b h =>
          simp only [isPlain, Bool.and_eq_true, decide_eq_true_eq] at h
          show readJsonString false (b :: _) = _
          rw [readJsonString, if_neg h.2, if_neg h.1.2]
          rfl
      | escape e => rfl
      | unit a b c d =>
          have hplain : ∀ (x : HexDigit) (more : Bytes),
              readJsonString false (x.byte :: more) = x.byte :: readJsonString false more := by
            intro x more
            have hslash : x.byte ≠ 0x5c := fun h => absurd x.valid (by rw [h]; decide)
            have hquote : x.byte ≠ 0x22 := fun h => absurd x.valid (by rw [h]; decide)
            rw [readJsonString, if_neg hslash, if_neg hquote]
          show readJsonString false (0x5c :: 0x75 :: a.byte :: b.byte :: c.byte :: d.byte :: _) = _
          rw [readJsonString, if_pos rfl, readJsonString, hplain, hplain, hplain, hplain]
          rfl

variable {o : ObjectText}

/-- The first text a search for `name` finds is the member at this place. -/
def FoundFirst (p : o.Place) (name : Bytes) : Prop :=
  p.member.key.raw = name ∧ p.member.gap.bytes = [] ∧
    (p.member.pad.bytes = [] ∧ Fresh (tightKey name) p.front ∨
      p.member.pad.bytes = [0x20] ∧ ¬ tightKey name <:+: o.bytes ∧
        Fresh (spacedKey name) p.front)

theorem extractJsonString_of_foundFirst {p : o.Place} {name : Bytes} {t : Text}
    (hvalue : p.member.value = .string t) (h : FoundFirst p name) :
    extractJsonString o.bytes name = t.letters := by
  obtain ⟨hname, hgap, hplace⟩ := h
  obtain ⟨c, rest, -, hbytes⟩ := p.bytes_eq
  rw [extractJsonString_eq_iff]
  have hspells : Spells (t.raw ++ 0x22 :: (p.member.trail.bytes ++ c :: rest)) t.letters :=
    spells_iff.mpr (readJsonString_raw t _)
  rcases hplace with ⟨hpad, hfresh⟩ | ⟨hpad, htight, hfresh⟩
  · refine .tight ⟨p.front, ?_, hfresh⟩ hspells
    rw [hbytes, Member.core, hvalue, hgap, hpad, Text.bytes, hname]
    simp [tightKey, ascii, Value.bytes, Text.bytes]
  · refine .spaced htight ⟨p.front, ?_, hfresh⟩ hspells
    rw [hbytes, Member.core, hvalue, hgap, hpad, Text.bytes, hname]
    simp [spacedKey, ascii, Value.bytes, Text.bytes]

end JwtAuth
end Modules
end Garcon
