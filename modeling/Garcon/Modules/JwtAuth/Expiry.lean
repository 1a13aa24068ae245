import Garcon.Modules.JwtAuth.Identity

/-!
# Expired tokens

The expiry of a token is a number read by text search, in 64 bits, with 0 for none.
Whether an expired token is refused is decided by which number the search finds first, and
by what is left of it in 64 bits.
-/

namespace Garcon
namespace Modules
namespace JwtAuth

open Ascii Search Json Base64

/-! ## What a number search reads -/

def signed (negative : Bool) (n : Nat) : Int := if negative then -n else n

/-- White space, a sign and digits, with no further digit behind them, and their number in
64 bits. -/
inductive SpellsInt : Bytes → Int → Prop where
  | mk {blanks digits tail : Bytes} (negative : Bool) : (∀ b ∈ blanks, isSpace b = true) →
      digits ≠ [] → (∀ b ∈ digits, isDigit b = true) →
      (∀ b ∈ tail.head?, isDigit b = false) →
      SpellsInt (blanks ++ ((if negative then [0x2d] else []) ++ (digits ++ tail)))
        (wrapLong (signed negative (decimalValue digits)))

/-- The number is that of the digits behind the white space and the sign. -/
theorem readJsonInt_eq {rest text : Bytes} (negative : Bool) (d : Int)
    (h : rest.dropWhile isSpace = (if negative then [0x2d] else []) ++ text)
    (hsign : negative = false → text.head? ≠ some 0x2d) :
    readJsonInt rest d =
      if text.takeWhile isDigit = [] then d
      else wrapLong (signed negative (decimalValue (text.takeWhile isDigit))) := by
  unfold readJsonInt
  rw [h]
  cases negative with
  | true =>
      show (if text.takeWhile isDigit = [] then d
        else wrapLong (-readDigits (text.takeWhile isDigit))) = _
      have hneg : wrapLong (-readDigits (text.takeWhile isDigit)) =
          wrapLong (signed true (decimalValue (text.takeWhile isDigit))) := by
        rw [readDigits_eq]
        exact Int.bmod_neg_bmod
      rw [hneg]
  | false =>
      cases text with
      | nil => rfl
      | cons c more =>
          have hc : c ≠ 0x2d := fun e => hsign rfl (by rw [e]; rfl)
          have hvalue : readDigits ((c :: more).takeWhile isDigit) =
            wrapLong (signed false (decimalValue ((c :: more).takeWhile isDigit))) :=
              readDigits_eq _
          simp only [Bool.false_eq_true, if_false, List.nil_append, if_neg hc]
          rw [hvalue]

theorem readJsonInt_of_spellsInt {rest : Bytes} {v : Int} (h : SpellsInt rest v) (d : Int) :
    readJsonInt rest d = v := by
  cases h with
  | @mk blanks digits tail negative hblanks hne hdigits htail =>
      obtain ⟨first, more, rfl⟩ := List.exists_cons_of_ne_nil hne
      have hfirst := hdigits first List.mem_cons_self
      have hdrop : (blanks ++ ((if negative then [0x2d] else []) ++
          ((first :: more) ++ tail))).dropWhile isSpace =
            (if negative then [0x2d] else []) ++ ((first :: more) ++ tail) := by
        rw [List.dropWhile_append_of_pos hblanks]
        cases negative with
        | true => rfl
        | false => exact List.dropWhile_cons_of_neg (by simp [isSpace_eq_false hfirst])
      have hsign : negative = false → ((first :: more) ++ tail).head? ≠ some 0x2d := by
        rintro - hhead
        rw [List.cons_append, List.head?_cons, Option.some.injEq] at hhead
        rw [hhead] at hfirst
        cases hfirst
      rw [readJsonInt_eq negative d hdrop hsign, takeWhile_digits hdigits htail, if_neg hne]

theorem spellsInt_readJsonInt {rest text : Bytes} (negative : Bool) (d : Int)
    (h : rest.dropWhile isSpace = (if negative then [0x2d] else []) ++ text)
    (hsign : negative = false → text.head? ≠ some 0x2d) :
    SpellsInt rest (readJsonInt rest d) ∨ readJsonInt rest d = d := by
  rw [readJsonInt_eq negative d h hsign]
  by_cases hne : text.takeWhile isDigit = []
  · rw [if_pos hne]
    exact Or.inr rfl
  · rw [if_neg hne]
    have hrest : rest = rest.takeWhile isSpace ++ ((if negative then [0x2d] else []) ++
        (text.takeWhile isDigit ++ text.dropWhile isDigit)) := by
      rw [List.takeWhile_append_dropWhile, ← h, List.takeWhile_append_dropWhile]
    have hspells : SpellsInt (rest.takeWhile isSpace ++ ((if negative then [0x2d] else []) ++
        (text.takeWhile isDigit ++ text.dropWhile isDigit)))
          (wrapLong (signed negative (decimalValue (text.takeWhile isDigit)))) := by
      refine .mk negative (fun b hb => List.mem_takeWhile_imp hb) hne
        (fun b hb => List.mem_takeWhile_imp hb) ?_
      intro b hb
      have hstop := List.head?_dropWhile_not isDigit text
      rw [Option.mem_def.mp hb] at hstop
      simpa using hstop
    rw [← hrest] at hspells
    exact Or.inl hspells

/-- A number read is one that is spelled there, or the default. -/
theorem spellsInt_or_readJsonInt_eq (rest : Bytes) (d : Int) :
    SpellsInt rest (readJsonInt rest d) ∨ readJsonInt rest d = d := by
  by_cases hminus : (rest.dropWhile isSpace).head? = some 0x2d
  · obtain ⟨text, htext⟩ := List.head?_eq_some_iff.mp hminus
    exact spellsInt_readJsonInt true d htext (fun h => by cases h)
  · exact spellsInt_readJsonInt false d rfl fun _ => hminus

/-- A number other than 0 is read exactly when it stands behind the first occurrence of
the key. -/
theorem extractJsonInt_eq_iff {payload name : Bytes} {v : Int} (hv : v ≠ 0) :
    extractJsonInt payload name = v ↔
      ∃ rest, FirstBehind (intKey name) payload rest ∧ SpellsInt rest v := by
  unfold extractJsonInt
  constructor
  · intro h
    cases hcut : cut (intKey name) payload with
    | none =>
        rw [hcut] at h
        exact absurd h.symm hv
    | some found =>
        rw [hcut] at h
        have hread : readJsonInt found.2 0 = v := h
        refine ⟨found.2, firstBehind_of_cut hcut, ?_⟩
        rcases spellsInt_or_readJsonInt_eq found.2 0 with hspells | hzero
        · rwa [hread] at hspells
        · exact absurd (hread.symm.trans hzero) hv
  · rintro ⟨rest, hfirst, hspells⟩
    obtain ⟨front, hcut⟩ := cut_of_firstBehind hfirst
    rw [hcut]
    exact readJsonInt_of_spellsInt hspells 0

/-! ## The member itself -/

theorem isSpace_of_isBlank {b : UInt8} (h : isBlank b = true) : isSpace b = true := by
  simp only [isBlank, Bool.or_eq_true, beq_iff_eq] at h
  rcases h with ((rfl | rfl) | rfl) | rfl <;> decide

theorem isDigit_of_isBlank {b : UInt8} (h : isBlank b = true) : isDigit b = false := by
  simp only [isBlank, Bool.or_eq_true, beq_iff_eq] at h
  rcases h with ((rfl | rfl) | rfl) | rfl <;> decide

/-- The first key a search for `name` finds is the member's at this place. -/
def KeyFoundFirst {o : ObjectText} (p : o.Place) (name : Bytes) : Prop :=
  p.member.key.raw = name ∧ p.member.gap.bytes = [] ∧ Fresh (intKey name) p.front

theorem extractJsonInt_of_keyFoundFirst {o : ObjectText} {p : o.Place} {name : Bytes}
    {n : Number} (hvalue : p.member.value = .number n) (h : KeyFoundFirst p name) :
    extractJsonInt o.bytes name = wrapLong n.truncated := by
  obtain ⟨hname, hgap, hfresh⟩ := h
  obtain ⟨c, rest, hc, hbytes⟩ := p.bytes_eq
  have hsplit : o.bytes = p.front ++ (intKey name ++ (p.member.pad.bytes ++
      ((if n.negative then [0x2d] else []) ++ (n.whole.bytes ++
        (n.tail ++ (p.member.trail.bytes ++ c :: rest)))))) := by
    rw [hbytes, Member.core, hvalue, hgap, Text.bytes, hname]
    simp [intKey, ascii, Value.bytes, Number.bytes]
  have hcDigit : isDigit c = false := by
    rcases hc with rfl | rfl <;> decide
  have htail : ∀ b ∈ (n.tail ++ (p.member.trail.bytes ++ c :: rest)).head?,
      isDigit b = false := by
    intro b hb
    cases hn : n.tail with
    | cons first tail =>
        rw [hn] at hb
        exact n.isDigit_head?_tail (by rw [hn]; exact hb)
    | nil =>
        rw [hn, List.nil_append] at hb
        cases htrail : p.member.trail.bytes with
        | cons first trail =>
            rw [htrail] at hb
            obtain rfl := Option.some.inj hb
            have hmem : first ∈ p.member.trail.bytes := by
              rw [htrail]
              exact List.mem_cons_self
            exact isDigit_of_isBlank (p.member.trail.blank first hmem)
        | nil =>
            rw [htrail] at hb
            obtain rfl := Option.some.inj hb
            exact hcDigit
  have hspells := SpellsInt.mk n.negative
    (fun b hb => isSpace_of_isBlank (p.member.pad.blank b hb)) n.whole.ne_nil n.whole.digits htail
  rw [extractJsonInt, hsplit, cut_of_fresh hfresh]
  exact readJsonInt_of_spellsInt hspells 0

/-! ## Tokens of three parts -/

def joinToken (h p s : Bytes) : Bytes := h ++ 0x2e :: (p ++ 0x2e :: s)

/-- Three segments, none of them empty. -/
def Compact (h p s : Bytes) : Prop :=
  (0x2e ∉ h ∧ 0x2e ∉ p ∧ 0x2e ∉ s) ∧ h ≠ [] ∧ p ≠ [] ∧ s ≠ []

theorem splitToken_of_compact {h p s : Bytes} (hc : Compact h p s) :
    splitToken (joinToken h p s) = some (h, p, s) := by
  obtain ⟨⟨hh, hp, hs⟩, hhne, hpne, hsne⟩ := hc
  have hfirst : cut [0x2e] (joinToken h p s) = some (h, p ++ 0x2e :: s) :=
    cut_of_fresh (fresh_singleton.mpr hh) _
  have hsecond : cut [0x2e] (p ++ 0x2e :: s) = some (p, s) :=
    cut_of_fresh (fresh_singleton.mpr hp) _
  have hnonempty : ¬ (h = [] ∨ p = [] ∨ s = []) := by
    rintro (h | h | h)
    · exact hhne h
    · exact hpne h
    · exact hsne h
  rw [splitToken, hfirst]
  simp only [hsecond]
  rw [if_neg hs, if_neg hnonempty]

theorem compact_of_splitToken {token h p s : Bytes} (hsplit : splitToken token = some (h, p, s)) :
    Compact h p s ∧ token = joinToken h p s := by
  unfold splitToken at hsplit
  cases hfirst : cut [0x2e] token with
  | none =>
      rw [hfirst] at hsplit
      cases hsplit
  | some first =>
      obtain ⟨h', rest⟩ := first
      rw [hfirst] at hsplit
      simp only at hsplit
      cases hsecond : cut [0x2e] rest with
      | none =>
          rw [hsecond] at hsplit
          cases hsplit
      | some second =>
          obtain ⟨p', s'⟩ := second
          rw [hsecond] at hsplit
          simp only at hsplit
          split_ifs at hsplit with hdot hempty
          cases hsplit
          obtain ⟨htoken, hfreshH⟩ := cut_eq_some_iff.mp hfirst
          obtain ⟨hrest, hfreshP⟩ := cut_eq_some_iff.mp hsecond
          rw [not_or, not_or] at hempty
          refine ⟨⟨⟨fresh_singleton.mp hfreshH, fresh_singleton.mp hfreshP, hdot⟩, hempty⟩, ?_⟩
          rw [htoken, hrest]
          rfl

theorem count_joinToken (h p s : Bytes) :
    (joinToken h p s).count 0x2e = h.count 0x2e + p.count 0x2e + s.count 0x2e + 2 := by
  simp only [joinToken, List.count_append, List.count_cons, beq_self_eq_true, if_true]
  omega

theorem splitToken_joinToken {h p s : Bytes} :
    splitToken (joinToken h p s) = some (h, p, s) ∨
      splitToken (joinToken h p s) = none ∧ ¬ Compact h p s := by
  cases hsplit : splitToken (joinToken h p s) with
  | none =>
      refine Or.inr ⟨rfl, fun hc => ?_⟩
      rw [splitToken_of_compact hc] at hsplit
      cases hsplit
  | some segments =>
      -- As many dots as in three segments without dots.
      obtain ⟨h', p', s'⟩ := segments
      obtain ⟨⟨⟨hh', hp', hs'⟩, -⟩, hjoin⟩ := compact_of_splitToken hsplit
      have hcount := count_joinToken h p s
      rw [hjoin, count_joinToken, List.count_eq_zero_of_not_mem hh',
        List.count_eq_zero_of_not_mem hp', List.count_eq_zero_of_not_mem hs'] at hcount
      have hh : 0x2e ∉ h := List.count_eq_zero.mp (by omega)
      have hp : 0x2e ∉ p := List.count_eq_zero.mp (by omega)
      have hfirst : cut [0x2e] (joinToken h p s) = some (h, p ++ 0x2e :: s) :=
        cut_of_fresh (fresh_singleton.mpr hh) _
      have hfirst' : cut [0x2e] (joinToken h' p' s') = some (h', p' ++ 0x2e :: s') :=
        cut_of_fresh (fresh_singleton.mpr hh') _
      rw [hjoin, hfirst', Option.some.injEq, Prod.mk.injEq] at hfirst
      obtain ⟨rfl, hrest⟩ := hfirst
      have hsecond : cut [0x2e] (p ++ 0x2e :: s) = some (p, s) :=
        cut_of_fresh (fresh_singleton.mpr hp) _
      have hsecond' : cut [0x2e] (p' ++ 0x2e :: s') = some (p', s') :=
        cut_of_fresh (fresh_singleton.mpr hp') _
      rw [← hrest, hsecond', Option.some.injEq, Prod.mk.injEq] at hsecond
      obtain ⟨rfl, rfl⟩ := hsecond
      exact Or.inl rfl

/-! ## Refused tokens -/

/-- What refuses a token before its expiry is looked at. -/
inductive RefusedBefore (hmac : Hmac) (secret : Bytes) (issuer audience : Option Bytes)
    (h p s : Bytes) : Prop where
  | segments : ¬ Compact h p s → RefusedBefore hmac secret issuer audience h p s
  | header : isHs256 (base64urlDecode h) = false → RefusedBefore hmac secret issuer audience h p s
  | signature : (hmac secret (h ++ ascii "." ++ p)).toList ≠ base64urlDecode s →
      RefusedBefore hmac secret issuer audience h p s
  | issuer : mismatched issuer (extractJsonString (base64urlDecode p) (ascii "iss")) = true →
      RefusedBefore hmac secret issuer audience h p s
  | audience : mismatched audience (extractAudience (base64urlDecode p)) = true →
      RefusedBefore hmac secret issuer audience h p s

def Refuses (hmac : Hmac) (secret : Bytes) (issuer audience : Option Bytes) (now : Int)
    (token : Bytes) : Prop :=
  ∃ failure, validateAndExtract hmac secret issuer audience now token = .error failure

theorem checkClaims_refuses_iff (issuer audience : Option Bytes) (now : Int)
    (claims : JwtClaims) :
    (∃ failure, checkClaims issuer audience now claims = .error failure) ↔
      mismatched issuer claims.iss = true ∨ mismatched audience claims.aud = true ∨
        claims.exp ≠ 0 ∧ claims.exp ≤ now := by
  unfold checkClaims
  by_cases hissuer : mismatched issuer claims.iss = true
  · rw [if_pos hissuer]
    exact iff_of_true ⟨_, rfl⟩ (Or.inl hissuer)
  · rw [if_neg hissuer, or_iff_right hissuer]
    by_cases haudience : mismatched audience claims.aud = true
    · rw [if_pos haudience]
      exact iff_of_true ⟨_, rfl⟩ (Or.inl haudience)
    · rw [if_neg haudience, or_iff_right haudience]
      by_cases hexp : claims.exp ≠ 0 ∧ claims.exp ≤ now
      · rw [if_pos hexp]
        exact iff_of_true ⟨_, rfl⟩ hexp
      · rw [if_neg hexp]
        refine iff_of_false ?_ hexp
        rintro ⟨failure, hfailure⟩
        cases hfailure

theorem refuses_joinToken_iff (hmac : Hmac) (secret : Bytes) (issuer audience : Option Bytes)
    (now : Int) (h p s : Bytes) :
    Refuses hmac secret issuer audience now (joinToken h p s) ↔
      RefusedBefore hmac secret issuer audience h p s ∨
        extractJsonInt (base64urlDecode p) (ascii "exp") ≠ 0 ∧
          extractJsonInt (base64urlDecode p) (ascii "exp") ≤ now := by
  unfold Refuses validateAndExtract
  rcases splitToken_joinToken (h := h) (p := p) (s := s) with hsplit | ⟨hsplit, hnot⟩
  · have hcompact := (compact_of_splitToken hsplit).1
    rw [hsplit]
    by_cases hheader : isHs256 (base64urlDecode h) = false
    · simp only [hheader, Bool.not_false, if_true]
      exact iff_of_true ⟨_, rfl⟩ (Or.inl (.header hheader))
    · by_cases hsignature : (hmac secret (h ++ ascii "." ++ p)).toList ≠ base64urlDecode s
      · rw [Bool.not_eq_false] at hheader
        simp only [hheader, Bool.not_true, Bool.false_eq_true, if_false, if_pos hsignature]
        exact iff_of_true ⟨_, rfl⟩ (Or.inl (.signature hsignature))
      · have hbefore : RefusedBefore hmac secret issuer audience h p s ↔
            mismatched issuer (extractJsonString (base64urlDecode p) (ascii "iss")) = true ∨
              mismatched audience (extractAudience (base64urlDecode p)) = true := by
          constructor
          · intro hrefused
            cases hrefused with
            | segments hno => exact absurd hcompact hno
            | header hno => exact absurd hno hheader
            | signature hno => exact absurd hno hsignature
            | issuer hno => exact Or.inl hno
            | audience hno => exact Or.inr hno
          · rintro (hno | hno)
            · exact .issuer hno
            · exact .audience hno
        rw [Bool.not_eq_false] at hheader
        simp only [hheader, Bool.not_true, Bool.false_eq_true, if_false, if_neg hsignature]
        rw [checkClaims_refuses_iff, hbefore, or_assoc]
        rfl
  · rw [hsplit]
    exact iff_of_true ⟨_, rfl⟩ (Or.inl (.segments hnot))

/-! ## Expired payloads -/

/-- A payload whose `exp` is an integer that is not in the future. -/
structure ExpiredPayload (now : Int) where
  object : ObjectText
  place : object.Place
  number : Number
  exp : Int
  key_eq : place.member.key.value = ascii "exp"
  value_eq : place.member.value = .number number
  number_eq : number.value = exp
  exp_le : exp ≤ now

/-- The search finds the member itself, and what is left in 64 bits of its whole part is
neither 0 nor in the future; or it finds another number, and the same is true of that. -/
def ExpiredPayload.ReadAsExpired {now : Int} (x : ExpiredPayload now) : Prop :=
  KeyFoundFirst x.place (ascii "exp") ∧
      (wrapLong x.number.truncated ≠ 0 ∧ wrapLong x.number.truncated ≤ now) ∨
    ¬ KeyFoundFirst x.place (ascii "exp") ∧
      ∃ rest v, FirstBehind (intKey (ascii "exp")) x.object.bytes rest ∧ SpellsInt rest v ∧
        v ≠ 0 ∧ v ≤ now

theorem ExpiredPayload.readAsExpired_iff {now : Int} (x : ExpiredPayload now) :
    x.ReadAsExpired ↔ extractJsonInt x.object.bytes (ascii "exp") ≠ 0 ∧
      extractJsonInt x.object.bytes (ascii "exp") ≤ now := by
  unfold ReadAsExpired
  by_cases hfirst : KeyFoundFirst x.place (ascii "exp")
  · rw [and_iff_right hfirst, extractJsonInt_of_keyFoundFirst x.value_eq hfirst]
    exact or_iff_left fun h => h.1 hfirst
  · rw [and_iff_right hfirst]
    constructor
    · rintro (h | ⟨rest, v, hrest, hspells, hv, hle⟩)
      · exact absurd h.1 hfirst
      · rw [(extractJsonInt_eq_iff hv).mpr ⟨rest, hrest, hspells⟩]
        exact ⟨hv, hle⟩
    · rintro ⟨hv, hle⟩
      obtain ⟨rest, hrest, hspells⟩ := (extractJsonInt_eq_iff hv).mp rfl
      exact Or.inr ⟨rest, _, hrest, hspells, hv, hle⟩

/-- An expired token is refused exactly when something in front of the expiry refuses it,
or the number that is read is expired too. -/
theorem refuses_expired_iff (hmac : Hmac) (secret : Bytes) (issuer audience : Option Bytes)
    (now : Int) (h p s : Bytes) (x : ExpiredPayload now)
    (hpayload : base64urlDecode p = x.object.bytes) :
    Refuses hmac secret issuer audience now (joinToken h p s) ↔
      RefusedBefore hmac secret issuer audience h p s ∨ x.ReadAsExpired := by
  rw [refuses_joinToken_iff, hpayload, x.readAsExpired_iff]

/-! ## A space in front of the colon -/

def five : Number where
  negative := false
  whole := ⟨ascii "5", by decide, by decide +kernel⟩
  noLeadingZero := by decide
  fraction := none
  exponent := none

def spacedMember : Member Value where
  lead := .none
  key := .ofPlain (ascii "exp")
  gap := .space
  pad := .none
  value := .number five
  trail := .none

def spacedPayload : ObjectText where
  lead := .none
  inner := .none
  members := [spacedMember]
  trail := .none

def longExpired : ExpiredPayload 99 where
  object := spacedPayload
  place := ⟨[], spacedMember, [], rfl⟩
  number := five
  exp := 5
  key_eq := by decide +kernel
  value_eq := rfl
  number_eq := Number.value_of_integer rfl rfl
  exp_le := by decide

def spacedSignature : Bytes := (sumHmac (ascii "s") (mintFirst spacedPayload.bytes)).toList

theorem refuses_expired_iff_spaced :
    Refuses sumHmac (ascii "s") none none 99 (joinToken (encode urlAlphabet mintHeader)
        (encode urlAlphabet spacedPayload.bytes) (encode urlAlphabet spacedSignature)) ↔
      RefusedBefore sumHmac (ascii "s") none none (encode urlAlphabet mintHeader)
        (encode urlAlphabet spacedPayload.bytes) (encode urlAlphabet spacedSignature) ∨
      longExpired.ReadAsExpired :=
  refuses_expired_iff sumHmac (ascii "s") none none 99 _ _ _ longExpired
    (base64urlDecode_encode sextet_urlAlphabet _)

/-- The expiry is not found, and the token is accepted. -/
theorem spaced_expiry_accepted :
    ¬ ∀ (hmac : Hmac) (secret : Bytes) (issuer audience : Option Bytes) (now : Int)
      (h p s : Bytes) (x : ExpiredPayload now), 0 ≤ now →
      base64urlDecode p = x.object.bytes →
      Refuses hmac secret issuer audience now (joinToken h p s) := by
  intro h
  obtain ⟨failure, hfailure⟩ := h sumHmac (ascii "s") none none 99
    (encode urlAlphabet mintHeader) (encode urlAlphabet spacedPayload.bytes)
    (encode urlAlphabet spacedSignature) longExpired (by decide)
    (base64urlDecode_encode sextet_urlAlphabet _)
  have htoken : joinToken (encode urlAlphabet mintHeader) (encode urlAlphabet spacedPayload.bytes)
      (encode urlAlphabet spacedSignature) = mintToken spacedPayload.bytes spacedSignature := by
    simp [joinToken, mintToken, mintFirst, ascii]
  have hclaims : extractClaims spacedPayload.bytes =
      { sub := [], roles := [], iss := [], aud := [], exp := 0 } := by decide +kernel
  rw [htoken, validateAndExtract_mintToken _ _ _ _ _ (by decide +kernel),
    if_neg (by decide +kernel), if_neg (fun hne => hne rfl), hclaims] at hfailure
  cases hfailure

end JwtAuth
end Modules
end Garcon
