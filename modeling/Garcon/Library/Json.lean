import Garcon.Library.Ascii

/-!
# JSON texts

The grammar of JSON as a syntax tree that keeps every byte: the white space, the digits of
a number and the escapes of a string.  `bytes` writes a tree out, and `Text.value` and
`Number.value` say what the leaves stand for.  A well-formed text is one that `bytes`
gives.
-/

namespace Json

open Ascii

/-! ## Strings -/

inductive Escape where
  | quote
  | backslash
  | slash
  | backspace
  | formFeed
  | lineFeed
  | carriageReturn
  | tab
deriving DecidableEq, Repr

/-- The character behind the backslash. -/
def Escape.letter : Escape → UInt8
  | .quote => 0x22
  | .backslash => 0x5c
  | .slash => 0x2f
  | .backspace => 0x62
  | .formFeed => 0x66
  | .lineFeed => 0x6e
  | .carriageReturn => 0x72
  | .tab => 0x74

/-- The character an escape stands for. -/
def Escape.value : Escape → UInt8
  | .quote => 0x22
  | .backslash => 0x5c
  | .slash => 0x2f
  | .backspace => 0x08
  | .formFeed => 0x0c
  | .lineFeed => 0x0a
  | .carriageReturn => 0x0d
  | .tab => 0x09

def isHexDigit (b : UInt8) : Bool :=
  isDigit b || (0x41 ≤ b && b ≤ 0x46) || (0x61 ≤ b && b ≤ 0x66)

structure HexDigit where
  byte : UInt8
  valid : isHexDigit byte = true
deriving DecidableEq

def HexDigit.value (d : HexDigit) : Nat :=
  if isDigit d.byte then digitValue d.byte
  else if isUpper d.byte then d.byte.toNat - 0x41 + 10
  else d.byte.toNat - 0x61 + 10

/-- A byte that stands for itself in a string. -/
def isPlain (b : UInt8) : Bool := 0x20 ≤ b && b ≠ 0x22 && b ≠ 0x5c

/-- What a string is made of; `unit` is a `\u` escape. -/
inductive Piece where
  | plain (b : UInt8) (valid : isPlain b = true)
  | escape (e : Escape)
  | unit (a b c d : HexDigit)
deriving DecidableEq

def Piece.bytes : Piece → Bytes
  | .plain b _ => [b]
  | .escape e => [0x5c, e.letter]
  | .unit a b c d => [0x5c, 0x75, a.byte, b.byte, c.byte, d.byte]

/-- A string between its quotes. -/
abbrev Text := List Piece

def Text.raw (t : Text) : Bytes := t.flatMap Piece.bytes

def Text.bytes (t : Text) : Bytes := 0x22 :: (t.raw ++ [0x22])

/-- The text of a string whose characters all stand for themselves. -/
def Text.ofPlain (s : Bytes) : Text :=
  s.filterMap fun b => if valid : isPlain b = true then some (.plain b valid) else none

/-- UTF-8, of a lone surrogate as of any other code point. -/
def utf8 (n : Nat) : Bytes :=
  if n < 0x80 then [UInt8.ofNat n]
  else if n < 0x800 then [UInt8.ofNat (0xc0 + n / 64), UInt8.ofNat (0x80 + n % 64)]
  else if n < 0x10000 then
    [UInt8.ofNat (0xe0 + n / 4096), UInt8.ofNat (0x80 + n / 64 % 64), UInt8.ofNat (0x80 + n % 64)]
  else
    [UInt8.ofNat (0xf0 + n / 262144), UInt8.ofNat (0x80 + n / 4096 % 64),
      UInt8.ofNat (0x80 + n / 64 % 64), UInt8.ofNat (0x80 + n % 64)]

def codeUnit (a b c d : HexDigit) : Nat :=
  ((a.value * 16 + b.value) * 16 + c.value) * 16 + d.value

/-- Two code units that make up one character. -/
def isPair (high low : Nat) : Bool :=
  0xd800 ≤ high && high < 0xdc00 && 0xdc00 ≤ low && low < 0xe000

def pairValue (high low : Nat) : Nat := 0x10000 + (high - 0xd800) * 0x400 + (low - 0xdc00)

/-- The string a text stands for. -/
def Text.value : Text → Bytes
  | [] => []
  | .plain b _ :: rest => b :: Text.value rest
  | .escape e :: rest => e.value :: Text.value rest
  | .unit a b c d :: .unit a' b' c' d' :: rest =>
    if isPair (codeUnit a b c d) (codeUnit a' b' c' d') then
      utf8 (pairValue (codeUnit a b c d) (codeUnit a' b' c' d')) ++ Text.value rest
    else utf8 (codeUnit a b c d) ++ Text.value (.unit a' b' c' d' :: rest)
  | .unit a b c d :: rest => utf8 (codeUnit a b c d) ++ Text.value rest

/-- A piece without its backslash. -/
def Piece.letters : Piece → Bytes
  | .plain b _ => [b]
  | .escape e => [e.letter]
  | .unit a b c d => [0x75, a.byte, b.byte, c.byte, d.byte]

/-- A text with every escape replaced by what follows its backslash. -/
def Text.letters (t : Text) : Bytes := t.flatMap Piece.letters

/-- A piece that stands for what follows its backslash. -/
def Piece.IsLiteral : Piece → Prop
  | .plain _ _ => True
  | .escape e => e.letter = e.value
  | .unit _ _ _ _ => False

def Text.IsLiteral (t : Text) : Prop := ∀ p ∈ t, p.IsLiteral

theorem length_utf8_le (n : Nat) : (utf8 n).length ≤ 4 := by
  unfold utf8
  split_ifs <;> simp

/-- A `\u` escape has more characters than what it stands for. -/
theorem length_value_le (t : Text) : t.value.length ≤ t.letters.length := by
  unfold Text.letters
  fun_induction Text.value t with
  | case1 => exact Nat.le_refl 0
  | case2 b _ rest ih => simpa [Piece.letters] using ih
  | case3 e rest ih => simpa [Piece.letters] using ih
  | case4 a b c d a' b' c' d' rest _ ih =>
      have hlen := length_utf8_le (pairValue (codeUnit a b c d) (codeUnit a' b' c' d'))
      simp only [List.flatMap_cons, List.length_append, Piece.letters, List.length_cons,
        List.length_nil] at ih ⊢
      omega
  | case5 a b c d a' b' c' d' rest _ ih =>
      have hlen := length_utf8_le (codeUnit a b c d)
      simp only [List.flatMap_cons, List.length_append, Piece.letters, List.length_cons,
        List.length_nil] at ih ⊢
      omega
  | case6 a b c d rest _ ih =>
      have hlen := length_utf8_le (codeUnit a b c d)
      simp only [List.flatMap_cons, List.length_append, Piece.letters, List.length_cons,
        List.length_nil] at ih ⊢
      omega

theorem length_value_lt (a b c d : HexDigit) (rest : Text) :
    (Text.value (.unit a b c d :: rest)).length <
      (Text.letters (.unit a b c d :: rest)).length := by
  have hcode := length_utf8_le (codeUnit a b c d)
  have hletters : ∀ (a b c d : HexDigit) (rest : Text),
      (Text.letters (.unit a b c d :: rest)).length = 5 + rest.letters.length := by
    intro a b c d rest
    simp only [Text.letters, List.flatMap_cons, List.length_append, Piece.letters,
      List.length_cons, List.length_nil]
  have hsingle : Text.value (.unit a b c d :: rest) = utf8 (codeUnit a b c d) ++ rest.value →
      (Text.value (.unit a b c d :: rest)).length <
        (Text.letters (.unit a b c d :: rest)).length := by
    intro h
    have hrest := length_value_le rest
    rw [h, hletters, List.length_append]
    omega
  cases rest with
  | nil => exact hsingle rfl
  | cons piece rest =>
      cases piece with
      | plain b h => exact hsingle rfl
      | escape e => exact hsingle rfl
      | unit a' b' c' d' =>
          by_cases hpair : isPair (codeUnit a b c d) (codeUnit a' b' c' d') = true
          · have hlen := length_utf8_le (pairValue (codeUnit a b c d) (codeUnit a' b' c' d'))
            have hrest := length_value_le rest
            rw [Text.value, if_pos hpair, hletters, hletters, List.length_append]
            omega
          · refine hsingle ?_
            rw [Text.value, if_neg hpair]

/-- Dropping the backslashes gives the value of exactly the texts that escape a
character by itself only. -/
theorem letters_eq_value_iff (t : Text) : t.letters = t.value ↔ t.IsLiteral := by
  induction t with
  | nil => exact iff_of_true rfl fun p hp => absurd hp List.not_mem_nil
  | cons piece rest ih =>
      rw [Text.IsLiteral, List.forall_mem_cons]
      cases piece with
      | plain b h =>
          rw [Text.value, Text.letters, List.flatMap_cons]
          show b :: Text.letters rest = _ ↔ True ∧ _
          rw [List.cons.injEq, and_iff_right rfl, and_iff_right trivial]
          exact ih
      | escape e =>
          rw [Text.value, Text.letters, List.flatMap_cons]
          show e.letter :: Text.letters rest = _ ↔ _
          rw [List.cons.injEq]
          exact and_congr_right fun _ => ih
      | unit a b c d =>
          refine iff_of_false ?_ fun h => h.1
          intro heq
          have hlong : (Text.value (.unit a b c d :: rest)).length <
              (Text.letters (.unit a b c d :: rest)).length := length_value_lt a b c d rest
          rw [heq] at hlong
          exact Nat.lt_irrefl _ hlong

/-! ## Numbers -/

structure Digits where
  bytes : Bytes
  ne_nil : bytes ≠ []
  digits : ∀ b ∈ bytes, isDigit b = true

def Digits.value (d : Digits) : Nat := decimalValue d.bytes

/-- `upper` and `sign` are the spelling of `e`, and of the sign when there is one. -/
structure Exponent where
  upper : Bool
  sign : Option Bool
  digits : Digits

def signBytes : Option Bool → Bytes
  | none => []
  | some true => [0x2d]
  | some false => [0x2b]

def Exponent.bytes (e : Exponent) : Bytes :=
  (if e.upper then 0x45 else 0x65) :: (signBytes e.sign ++ e.digits.bytes)

def Exponent.value (e : Exponent) : Int :=
  if e.sign = some true then -e.digits.value else e.digits.value

structure Number where
  negative : Bool
  whole : Digits
  noLeadingZero : whole.bytes.head? = some 0x30 → whole.bytes = [0x30]
  fraction : Option Digits
  exponent : Option Exponent

namespace Number

/-- What follows the whole part. -/
def tail (n : Number) : Bytes :=
  n.fraction.elim [] (fun d => 0x2e :: d.bytes) ++ n.exponent.elim [] Exponent.bytes

def bytes (n : Number) : Bytes :=
  (if n.negative then [0x2d] else []) ++ n.whole.bytes ++ n.tail

/-- The whole part with its sign. -/
def truncated (n : Number) : Int := if n.negative then -n.whole.value else n.whole.value

def magnitude (n : Number) : Rat :=
  (n.whole.value + n.fraction.elim 0 fun d => d.value / 10 ^ d.bytes.length) *
    10 ^ n.exponent.elim 0 Exponent.value

def value (n : Number) : Rat := if n.negative then -n.magnitude else n.magnitude

theorem value_of_integer {n : Number} (hfraction : n.fraction = none)
    (hexponent : n.exponent = none) : n.value = n.truncated := by
  unfold value magnitude truncated
  rw [hfraction, hexponent]
  by_cases hneg : n.negative
  · simp [hneg]
  · simp [hneg]

/-- What follows the whole part does not begin with a digit. -/
theorem isDigit_head?_tail {n : Number} {b : UInt8} (h : b ∈ n.tail.head?) :
    isDigit b = false := by
  unfold tail at h
  cases hfraction : n.fraction with
  | some d =>
      rw [hfraction] at h
      obtain rfl : 0x2e = b := by simpa using h
      decide
  | none =>
      rw [hfraction] at h
      cases hexponent : n.exponent with
      | none =>
          rw [hexponent] at h
          cases h
      | some e =>
          rw [hexponent] at h
          have hhead : (if e.upper then 0x45 else 0x65) = b := by
            simpa [Exponent.bytes] using h
          rw [← hhead]
          cases e.upper <;> decide

end Number

/-! ## Values -/

def isBlank (b : UInt8) : Bool := b == 0x20 || b == 0x09 || b == 0x0a || b == 0x0d

structure Blank where
  bytes : Bytes
  blank : ∀ b ∈ bytes, isBlank b = true

def Blank.none : Blank := ⟨[], fun _ h => absurd h List.not_mem_nil⟩

def Blank.space : Blank := ⟨[0x20], fun b h => by rw [List.mem_singleton.mp h]; rfl⟩

/-- An array's item with the white space around it. -/
structure Item (α : Type) where
  lead : Blank
  value : α
  trail : Blank

/-- An object's member, with the white space in front of the key, on both sides of the
colon and behind the value. -/
structure Member (α : Type) where
  lead : Blank
  key : Text
  gap : Blank
  pad : Blank
  value : α
  trail : Blank

/-- `inner` is the white space of an array or an object without anything else in it. -/
inductive Value where
  | null
  | true
  | false
  | number (n : Number)
  | string (t : Text)
  | array (inner : Blank) (items : List (Item Value))
  | object (inner : Blank) (members : List (Member Value))

mutual

def Value.bytes : Value → Bytes
  | .null => ascii "null"
  | .true => ascii "true"
  | .false => ascii "false"
  | .number n => n.bytes
  | .string t => t.bytes
  | .array inner items => 0x5b :: (itemsBytes inner items ++ [0x5d])
  | .object inner members => 0x7b :: (membersBytes inner members ++ [0x7d])

def itemsBytes : Blank → List (Item Value) → Bytes
  | inner, [] => inner.bytes
  | _, [item] => itemBytes item
  | inner, item :: next :: items => itemBytes item ++ 0x2c :: itemsBytes inner (next :: items)

def itemBytes : Item Value → Bytes
  | ⟨lead, value, trail⟩ => lead.bytes ++ value.bytes ++ trail.bytes

def membersBytes : Blank → List (Member Value) → Bytes
  | inner, [] => inner.bytes
  | _, [member] => memberBytes member
  | inner, member :: next :: members =>
    memberBytes member ++ 0x2c :: membersBytes inner (next :: members)

def memberBytes : Member Value → Bytes
  | ⟨lead, key, gap, pad, value, trail⟩ =>
    lead.bytes ++ key.bytes ++ gap.bytes ++ 0x3a :: pad.bytes ++ value.bytes ++ trail.bytes

end

/-! ## Objects -/

/-- A text that holds one object, with white space around it. -/
structure ObjectText where
  lead : Blank
  inner : Blank
  members : List (Member Value)
  trail : Blank

namespace ObjectText

variable (o : ObjectText)

def bytes : Bytes := o.lead.bytes ++ (Value.object o.inner o.members).bytes ++ o.trail.bytes

/-- A member at its place between the members before and after it. -/
structure Place where
  before : List (Member Value)
  member : Member Value
  after : List (Member Value)
  members_eq : o.members = before ++ member :: after

/-- Everything in front of the member's key. -/
def Place.front {o : ObjectText} (p : o.Place) : Bytes :=
  o.lead.bytes ++ 0x7b :: (p.before.flatMap fun m => memberBytes m ++ [0x2c]) ++
    p.member.lead.bytes

end ObjectText

/-- A member from its key to its value. -/
def Member.core (m : Member Value) : Bytes :=
  m.key.bytes ++ m.gap.bytes ++ 0x3a :: (m.pad.bytes ++ m.value.bytes)

theorem memberBytes_eq (m : Member Value) :
    memberBytes m = m.lead.bytes ++ m.core ++ m.trail.bytes := by
  obtain ⟨lead, key, gap, pad, value, trail⟩ := m
  simp [memberBytes, Member.core]

theorem membersBytes_append (inner : Blank) (before : List (Member Value)) (m : Member Value)
    (after : List (Member Value)) :
    membersBytes inner (before ++ m :: after) =
      (before.flatMap fun m => memberBytes m ++ [0x2c]) ++ membersBytes inner (m :: after) := by
  induction before with
  | nil => rfl
  | cons first before ih =>
      obtain ⟨next, more, hmore⟩ : ∃ next more, before ++ m :: after = next :: more := by
        cases before with
        | nil => exact ⟨m, after, rfl⟩
        | cons next before => exact ⟨next, before ++ m :: after, rfl⟩
      rw [List.cons_append, hmore, membersBytes, ← hmore, ih, List.flatMap_cons]
      simp

/-- Behind a member's value and its white space stands a comma or the closing brace. -/
theorem ObjectText.Place.bytes_eq {o : ObjectText} (p : o.Place) :
    ∃ c rest, (c = 0x2c ∨ c = 0x7d) ∧
      o.bytes = p.front ++ (p.member.core ++ (p.member.trail.bytes ++ c :: rest)) := by
  have hbytes : o.bytes = o.lead.bytes ++ 0x7b :: (p.before.flatMap fun m =>
      memberBytes m ++ [0x2c]) ++ membersBytes o.inner (p.member :: p.after) ++ 0x7d ::
        o.trail.bytes := by
    rw [ObjectText.bytes, Value.bytes, p.members_eq, membersBytes_append]
    simp
  cases hafter : p.after with
  | nil =>
      refine ⟨0x7d, o.trail.bytes, Or.inr rfl, ?_⟩
      rw [hbytes, hafter, membersBytes, memberBytes_eq, front]
      simp
  | cons next after =>
      refine ⟨0x2c, membersBytes o.inner (next :: after) ++ 0x7d :: o.trail.bytes, Or.inl rfl, ?_⟩
      rw [hbytes, hafter, membersBytes, memberBytes_eq, front]
      simp

end Json
