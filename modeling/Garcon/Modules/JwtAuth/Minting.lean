import Garcon.Modules.JwtAuth.Base64url

/-!
# Minted tokens

A token minted the plain way, compact JSON with claims free of quotes and backslashes,
is read back by the text searches of the module.  A search for a key looks at every
quote in front of it: behind a quote that opens a key stands another name, and behind
any other quote something that begins no name.
-/

namespace Garcon
namespace Modules
namespace JwtAuth

open Ascii Search Http Base64

/-! ## Compact JSON -/

/-- A string free of quotes and backslashes. -/
def Plain (text : Bytes) : Prop := 0x22 ∉ text ∧ 0x5c ∉ text

instance (text : Bytes) : Decidable (Plain text) := inferInstanceAs (Decidable (_ ∧ _))

/-- A string member, followed by `rest`. -/
def stringMember (key value rest : Bytes) : Bytes :=
  0x22 :: (key ++ 0x22 :: 0x3a :: 0x22 :: (value ++ 0x22 :: rest))

/-- A number member, followed by `rest`. -/
def intMember (key : Bytes) (value : Int) (rest : Bytes) : Bytes :=
  0x22 :: (key ++ 0x22 :: 0x3a :: (decimalInt value ++ rest))

def mintHeader : Bytes := ascii "\x7b\"alg\":\"HS256\",\"typ\":\"JWT\"\x7d"

def mintPayload (sub : Bytes) (exp : Int) (iss aud roles : Bytes) : Bytes :=
  0x7b :: stringMember (ascii "sub") sub (0x2c :: intMember (ascii "exp") exp
    (0x2c :: stringMember (ascii "iss") iss (0x2c :: stringMember (ascii "aud") aud
      (0x2c :: stringMember (ascii "roles") roles [0x7d]))))

/-! ## Searching for a key -/

/-- The text searched for: a quoted name, a colon and what follows it. -/
def keyPattern (name follow : Bytes) : Bytes := 0x22 :: (name ++ 0x22 :: 0x3a :: follow)

theorem tightKey_eq (claim : Bytes) : tightKey claim = keyPattern claim [0x22] := by
  simp [tightKey, keyPattern, ascii]

theorem spacedKey_eq (claim : Bytes) : spacedKey claim = keyPattern claim [0x20, 0x22] := by
  simp [spacedKey, keyPattern, ascii]

theorem intKey_eq (claim : Bytes) : intKey claim = keyPattern claim [] := by
  simp [intKey, keyPattern, ascii]

/-- A name that no punctuation begins. -/
structure Name (name : Bytes) : Prop where
  noQuote : 0x22 ∉ name
  start : ∃ c rest, name = c :: rest ∧ c ≠ 0x2c ∧ c ≠ 0x3a ∧ c ≠ 0x7d

variable {name follow : Bytes}

/-- A quote behind which no name begins. -/
theorem fresh_quote_punctuation (hname : Name name) {c : UInt8} {rest : Bytes}
    (hc : c = 0x2c ∨ c = 0x3a ∨ c = 0x7d) :
    Fresh (keyPattern name follow) (0x22 :: c :: rest) ↔
      Fresh (keyPattern name follow) rest := by
  obtain ⟨n, ns, rfl, hcomma, hcolon, hbrace⟩ := hname.start
  have hne : n ≠ c := by
    rcases hc with rfl | rfl | rfl
    · exact hcomma
    · exact hcolon
    · exact hbrace
  have hquote : (0x22 : UInt8) ≠ c := by
    rcases hc with rfl | rfl | rfl <;> decide
  have hfirst : ¬ keyPattern (n :: ns) follow <+:
      0x22 :: ((c :: rest) ++ keyPattern (n :: ns) follow) := by
    simp [keyPattern, hne]
  have hsecond : ¬ keyPattern (n :: ns) follow <+:
      c :: (rest ++ keyPattern (n :: ns) follow) := by
    simp [keyPattern, hquote]
  rw [fresh_cons, fresh_cons]
  exact ⟨fun h => h.2.2, fun h => ⟨hfirst, hsecond, h⟩⟩

/-- A quote that opens a text, with `rest` behind the closing quote. -/
theorem fresh_quoted (hname : Name name) {text rest : Bytes} (htext : 0x22 ∉ text)
    (hne : text = name → ¬ 0x3a :: follow <+: rest ++ keyPattern name follow) :
    Fresh (keyPattern name follow) (0x22 :: (text ++ 0x22 :: rest)) ↔
      Fresh (keyPattern name follow) (0x22 :: rest) := by
  have hopen : ¬ keyPattern name follow <+:
      0x22 :: ((text ++ 0x22 :: rest) ++ keyPattern name follow) := by
    rw [List.append_assoc, List.cons_append]
    show ¬ (0x22 :: (name ++ 0x22 :: 0x3a :: follow)) <+: _
    rw [List.cons_prefix_cons, append_cons_prefix_iff hname.noQuote htext]
    rintro ⟨-, rfl, hfollow⟩
    exact hne rfl hfollow
  rw [fresh_cons, and_iff_right hopen]
  exact fresh_append_of_head_not_mem htext

/-- A string member with another key is passed over. -/
theorem fresh_stringMember (hname : Name name) {key value rest : Bytes} {c : UInt8}
    (hkey : 0x22 ∉ key) (hvalue : 0x22 ∉ value)
    (hne : key = name → ∀ more, ¬ follow <+: 0x22 :: more) (hc : c = 0x2c ∨ c = 0x7d) :
    Fresh (keyPattern name follow) (stringMember key value (c :: rest)) ↔
      Fresh (keyPattern name follow) rest := by
  have hother : key = name → ¬ 0x3a :: follow <+:
      (0x3a :: 0x22 :: (value ++ 0x22 :: c :: rest)) ++ keyPattern name follow := by
    intro hsame hpref
    rw [List.cons_append, List.cons_append, List.cons_prefix_cons] at hpref
    exact hne hsame _ hpref.2
  have hclose : value = name → ¬ 0x3a :: follow <+: (c :: rest) ++ keyPattern name follow := by
    intro _ hpref
    rw [List.cons_append, List.cons_prefix_cons] at hpref
    rcases hc with rfl | rfl
    · exact absurd hpref.1 (by decide)
    · exact absurd hpref.1 (by decide)
  rw [stringMember, fresh_quoted hname hkey hother,
    fresh_quote_punctuation hname (Or.inr (Or.inl rfl)), fresh_quoted hname hvalue hclose]
  rcases hc with rfl | rfl
  · exact fresh_quote_punctuation hname (Or.inl rfl)
  · exact fresh_quote_punctuation hname (Or.inr (Or.inr rfl))

theorem not_mem_decimalInt_quote (value : Int) : 0x22 ∉ decimalInt value :=
  not_mem_decimalInt (by decide) (by decide)

theorem fresh_intMember (hname : Name name) {key rest : Bytes} {value : Int}
    (hkey : 0x22 ∉ key) (hne : key ≠ name) :
    Fresh (keyPattern name follow) (intMember key value rest) ↔
      Fresh (keyPattern name follow) rest := by
  rw [intMember, fresh_quoted hname hkey fun h => absurd h hne,
    fresh_quote_punctuation hname (Or.inr (Or.inl rfl))]
  exact fresh_append_of_head_not_mem (not_mem_decimalInt_quote value)

theorem fresh_other {c : UInt8} (hc : c ≠ 0x22) (rest : Bytes) :
    Fresh (keyPattern name follow) (c :: rest) ↔ Fresh (keyPattern name follow) rest := by
  have hmem : 0x22 ∉ [c] := by
    rw [List.mem_singleton]
    exact fun e => hc e.symm
  exact fresh_append_of_head_not_mem hmem

/-! ## Reading the claims back -/

theorem readJsonString_plain {value : Bytes} (h : Plain value) (rest : Bytes) :
    readJsonString false (value ++ 0x22 :: rest) = value := by
  induction value with
  | nil => rfl
  | cons c value ih =>
      obtain ⟨hquote, hslash⟩ := h
      rw [List.mem_cons, not_or] at hquote hslash
      rw [List.cons_append, readJsonString, if_neg fun e => hslash.1 e.symm,
        if_neg fun e => hquote.1 e.symm, ih ⟨hquote.2, hslash.2⟩]

/-- A string member is read when nothing in front of it looks like its key. -/
theorem extractJsonString_stringMember {pre value rest : Bytes} (hvalue : Plain value)
    (hfresh : Fresh (keyPattern name [0x22]) pre) :
    extractJsonString (pre ++ stringMember name value rest) name = value := by
  have hsplit : pre ++ stringMember name value rest =
      pre ++ (keyPattern name [0x22] ++ (value ++ 0x22 :: rest)) := by
    simp [stringMember, keyPattern]
  rw [extractJsonString, tightKey_eq, hsplit, cut_of_fresh hfresh]
  exact readJsonString_plain hvalue rest

/-- No member is read when neither spelling of the key occurs. -/
theorem extractJsonString_of_fresh {payload : Bytes}
    (htight : Fresh (keyPattern name [0x22]) payload)
    (hspaced : Fresh (keyPattern name [0x20, 0x22]) payload) :
    extractJsonString payload name = [] := by
  have hnone : ∀ follow, Fresh (keyPattern name follow) payload →
      cut (keyPattern name follow) payload = none := by
    intro follow hfresh
    exact cut_eq_none_iff.mpr (not_infix_of_fresh (by simp [keyPattern]) hfresh)
  rw [extractJsonString, tightKey_eq, spacedKey_eq, hnone _ htight, hnone _ hspaced]

theorem wrapLong_of_lt {n : Int} (h : 0 ≤ n) (hlt : n < 2 ^ 63) : wrapLong n = n := by
  have hmod : 2 ^ 64 = 18446744073709551616 := by norm_num
  rw [wrapLong, hmod, Int.bmod_def]
  omega

/-- The digit loop ends with the number of the digits, reduced to 64 bits. -/
theorem readDigits_eq (digits : Bytes) : readDigits digits = wrapLong (decimalValue digits) :=
  foldl_bmod _ digits

/-- A number below `2 ^ 63` is read from its decimal notation. -/
theorem readDigits_decimal {n : Nat} (h : (n : Int) < 2 ^ 63) : readDigits (decimal n) = n := by
  rw [readDigits_eq, decimalValue_decimal]
  exact wrapLong_of_lt (Int.natCast_nonneg n) h

theorem readJsonInt_decimalInt {n : Int} (h : 0 < n) (hlt : n < 2 ^ 63) (rest : Bytes) :
    readJsonInt (decimalInt n ++ 0x2c :: rest) 0 = n := by
  have hnonneg : ¬ n < 0 := by omega
  obtain ⟨c, more, hdigits⟩ := List.exists_cons_of_ne_nil (decimal_ne_nil n.natAbs)
  have hall : ∀ b ∈ c :: more, isDigit b = true := by
    intro b hb
    rw [← hdigits] at hb
    exact isDigit_of_mem_decimal hb
  have hc := isDigit_iff.mp (hall c List.mem_cons_self)
  have hspace : isSpace c = false := isSpace_eq_false (hall c List.mem_cons_self)
  have hminus : c ≠ 0x2d := by
    rintro rfl
    simp at hc
  have htake : (c :: (more ++ 0x2c :: rest)).takeWhile isDigit = c :: more := by
    rw [← List.cons_append, List.takeWhile_append_of_pos hall]
    simp [isDigit]
  rw [decimalInt, if_neg hnonneg, hdigits, List.cons_append, readJsonInt,
    List.dropWhile_cons_of_neg (by simp [hspace])]
  simp only [if_neg hminus, htake, List.cons_ne_nil, if_false]
  rw [← hdigits, readDigits_decimal (by omega)]
  omega

theorem extractJsonInt_intMember {pre rest : Bytes} {n : Int} (h : 0 < n) (hlt : n < 2 ^ 63)
    (hfresh : Fresh (keyPattern name []) pre) :
    extractJsonInt (pre ++ intMember name n (0x2c :: rest)) name = n := by
  have hsplit : pre ++ intMember name n (0x2c :: rest) =
      pre ++ (keyPattern name [] ++ (decimalInt n ++ 0x2c :: rest)) := by
    simp [intMember, keyPattern]
  rw [extractJsonInt, intKey_eq, hsplit, cut_of_fresh hfresh]
  exact readJsonInt_decimalInt h hlt rest

/-! ## The claims of a minted payload -/

theorem name_exp : Name (ascii "exp") := ⟨by decide, 0x65, _, rfl, by decide⟩

theorem name_iss : Name (ascii "iss") := ⟨by decide, 0x69, _, rfl, by decide⟩

theorem name_aud : Name (ascii "aud") := ⟨by decide, 0x61, _, rfl, by decide⟩

theorem name_roles : Name (ascii "roles") := ⟨by decide, 0x72, _, rfl, by decide⟩

theorem name_role : Name (ascii "role") := ⟨by decide, 0x72, _, rfl, by decide⟩

section Payload

variable {sub iss aud roles : Bytes} {exp : Int}

/-- A search in front of the audience passes over the members before it. -/
theorem fresh_front (hname : Name name) (hsub : Plain sub) (hiss : Plain iss)
    (hne : ∀ key ∈ [ascii "sub", ascii "exp", ascii "iss"], key ≠ name) (rest : Bytes) :
    Fresh (keyPattern name follow) (0x7b :: stringMember (ascii "sub") sub
        (0x2c :: intMember (ascii "exp") exp
          (0x2c :: stringMember (ascii "iss") iss (0x2c :: rest)))) ↔
      Fresh (keyPattern name follow) rest := by
  rw [fresh_other (by decide),
    fresh_stringMember hname (by decide) hsub.1 (fun h => absurd h (hne _ (by simp)))
      (Or.inl rfl),
    fresh_intMember hname (by decide) (hne _ (by simp)), fresh_other (by decide),
    fresh_stringMember hname (by decide) hiss.1 (fun h => absurd h (hne _ (by simp)))
      (Or.inl rfl)]

/-- A search through the whole payload for a key it does not have. -/
theorem fresh_payload (hname : Name name) (hsub : Plain sub) (hiss : Plain iss)
    (haud : Plain aud) (hroles : Plain roles)
    (hne : ∀ key ∈ [ascii "sub", ascii "exp", ascii "iss"], key ≠ name)
    (haudne : ascii "aud" = name → ∀ more, ¬ follow <+: 0x22 :: more)
    (hrolesne : ascii "roles" ≠ name) :
    Fresh (keyPattern name follow) (mintPayload sub exp iss aud roles) := by
  rw [mintPayload, fresh_front hname hsub hiss hne,
    fresh_stringMember hname (by decide) haud.1 haudne (Or.inl rfl),
    fresh_stringMember hname (by decide) hroles.1 (fun h => absurd h hrolesne) (Or.inr rfl)]
  exact fresh_nil _

theorem extract_sub (hsub : Plain sub) :
    extractJsonString (mintPayload sub exp iss aud roles) (ascii "sub") = sub := by
  have hfresh : Fresh (keyPattern (ascii "sub") [0x22]) [0x7b] := by
    rw [fresh_other (by decide)]
    exact fresh_nil _
  exact extractJsonString_stringMember hsub hfresh

theorem extract_exp (hsub : Plain sub) (hpos : 0 < exp) (hlt : exp < 2 ^ 63) :
    extractJsonInt (mintPayload sub exp iss aud roles) (ascii "exp") = exp := by
  have hfresh : Fresh (keyPattern (ascii "exp") [])
      (0x7b :: stringMember (ascii "sub") sub [0x2c]) := by
    rw [fresh_other (by decide), fresh_stringMember name_exp (by decide) hsub.1
      (fun h => absurd h (by decide)) (Or.inl rfl)]
    exact fresh_nil _
  have hsplit : mintPayload sub exp iss aud roles =
      (0x7b :: stringMember (ascii "sub") sub [0x2c]) ++ intMember (ascii "exp") exp
        (0x2c :: stringMember (ascii "iss") iss (0x2c :: stringMember (ascii "aud") aud
          (0x2c :: stringMember (ascii "roles") roles [0x7d]))) := by
    simp [mintPayload, stringMember]
  rw [hsplit]
  exact extractJsonInt_intMember hpos hlt hfresh

theorem extract_iss (hsub : Plain sub) (hiss : Plain iss) :
    extractJsonString (mintPayload sub exp iss aud roles) (ascii "iss") = iss := by
  have hfresh : Fresh (keyPattern (ascii "iss") [0x22])
      (0x7b :: stringMember (ascii "sub") sub (0x2c :: intMember (ascii "exp") exp [0x2c])) := by
    rw [fresh_other (by decide), fresh_stringMember name_iss (by decide) hsub.1
      (fun h => absurd h (by decide)) (Or.inl rfl), fresh_intMember name_iss (by decide)
      (by decide), fresh_other (by decide)]
    exact fresh_nil _
  have hsplit : mintPayload sub exp iss aud roles =
      (0x7b :: stringMember (ascii "sub") sub (0x2c :: intMember (ascii "exp") exp [0x2c])) ++
        stringMember (ascii "iss") iss (0x2c :: stringMember (ascii "aud") aud
          (0x2c :: stringMember (ascii "roles") roles [0x7d])) := by
    simp [mintPayload, stringMember, intMember]
  rw [hsplit]
  exact extractJsonString_stringMember hiss hfresh

theorem extract_aud (hsub : Plain sub) (hiss : Plain iss) (haud : Plain aud)
    (hroles : Plain roles) : extractAudience (mintPayload sub exp iss aud roles) = aud := by
  have hfresh : Fresh (keyPattern (ascii "aud") [0x22])
      (0x7b :: stringMember (ascii "sub") sub (0x2c :: intMember (ascii "exp") exp
        (0x2c :: stringMember (ascii "iss") iss [0x2c]))) := by
    rw [fresh_front name_aud hsub hiss (by decide)]
    exact fresh_nil _
  have hsplit : mintPayload sub exp iss aud roles =
      (0x7b :: stringMember (ascii "sub") sub (0x2c :: intMember (ascii "exp") exp
        (0x2c :: stringMember (ascii "iss") iss [0x2c]))) ++
        stringMember (ascii "aud") aud (0x2c :: stringMember (ascii "roles") roles [0x7d]) := by
    simp [mintPayload, stringMember, intMember]
  have hstring : extractJsonString (mintPayload sub exp iss aud roles) (ascii "aud") = aud := by
    rw [hsplit]
    exact extractJsonString_stringMember haud hfresh
  have harray : extractAudienceArray (mintPayload sub exp iss aud roles) = [] := by
    have hopen : ascii "\"aud\":[" = keyPattern (ascii "aud") [0x5b] := by decide
    have hfreshArray : Fresh (keyPattern (ascii "aud") [0x5b])
        (mintPayload sub exp iss aud roles) :=
      fresh_payload name_aud hsub hiss haud hroles (by decide) (by simp) (by decide)
    have hnone := not_infix_of_fresh (by simp [keyPattern]) hfreshArray
    rw [extractAudienceArray, hopen, cut_eq_none_iff.mpr hnone]
  rw [extractAudience, hstring, harray]
  by_cases hnil : aud = []
  · rw [if_pos hnil, hnil]
  · rw [if_neg hnil]

theorem extract_roles (hsub : Plain sub) (hiss : Plain iss) (haud : Plain aud)
    (hroles : Plain roles) : extractRoles (mintPayload sub exp iss aud roles) = roles := by
  have hfresh : Fresh (keyPattern (ascii "roles") [0x22])
      (0x7b :: stringMember (ascii "sub") sub (0x2c :: intMember (ascii "exp") exp
        (0x2c :: stringMember (ascii "iss") iss
          (0x2c :: stringMember (ascii "aud") aud [0x2c])))) := by
    rw [fresh_front name_roles hsub hiss (by decide), fresh_stringMember name_roles (by decide)
      haud.1 (fun h => absurd h (by decide)) (Or.inl rfl)]
    exact fresh_nil _
  have hsplit : mintPayload sub exp iss aud roles =
      (0x7b :: stringMember (ascii "sub") sub (0x2c :: intMember (ascii "exp") exp
        (0x2c :: stringMember (ascii "iss") iss
          (0x2c :: stringMember (ascii "aud") aud [0x2c])))) ++
        stringMember (ascii "roles") roles [0x7d] := by
    simp [mintPayload, stringMember, intMember]
  have hstring : extractJsonString (mintPayload sub exp iss aud roles) (ascii "roles") =
      roles := by
    rw [hsplit]
    exact extractJsonString_stringMember hroles hfresh
  have hrole : extractJsonString (mintPayload sub exp iss aud roles) (ascii "role") = [] :=
    extractJsonString_of_fresh
      (fresh_payload name_role hsub hiss haud hroles (by decide)
        (fun h => absurd h (by decide)) (by decide))
      (fresh_payload name_role hsub hiss haud hroles (by decide)
        (fun h => absurd h (by decide)) (by decide))
  rw [extractRoles, hstring, hrole]
  by_cases hnil : roles = []
  · rw [if_pos hnil, hnil]
  · rw [if_neg hnil]

/-- The claims read from a minted payload are the claims it was minted with. -/
theorem extractClaims_mintPayload (hsub : Plain sub) (hiss : Plain iss) (haud : Plain aud)
    (hroles : Plain roles) (hpos : 0 < exp) (hlt : exp < 2 ^ 63) :
    extractClaims (mintPayload sub exp iss aud roles) = { sub, roles, iss, aud, exp } := by
  rw [extractClaims, extract_sub hsub, extract_roles hsub hiss haud hroles,
    extract_iss hsub hiss, extract_aud hsub hiss haud hroles, extract_exp hsub hpos hlt]

end Payload

/-! ## Tokens -/

/-- The first two segments, which are what is signed. -/
def mintFirst (payload : Bytes) : Bytes :=
  encode urlAlphabet mintHeader ++ ascii "." ++ encode urlAlphabet payload

def mintToken (payload signature : Bytes) : Bytes :=
  mintFirst payload ++ ascii "." ++ encode urlAlphabet signature

theorem sextet_urlAlphabet : ∀ n < 64, sextet (urlAlphabet n) = some (n : Int) := by decide

/-- A segment has no dots and no white space. -/
theorem of_mem_encode {bytes : Bytes} {b : UInt8} (h : b ∈ encode urlAlphabet bytes) :
    b ≠ 0x2e ∧ isSpace b = false := by
  obtain ⟨n, hn, rfl⟩ := List.mem_map.mp h
  have hall : ∀ n < 64, urlAlphabet n ≠ 0x2e ∧ isSpace (urlAlphabet n) = false := by decide +kernel
  exact hall n (lt_of_mem_sextets hn)

theorem noSpace_mintToken {payload signature : Bytes} {b : UInt8}
    (h : b ∈ mintToken payload signature) : isSpace b = false := by
  simp only [mintToken, mintFirst, List.mem_append] at h
  have hdot : ∀ b ∈ ascii ".", isSpace b = false := by decide +kernel
  rcases h with (((h | h) | h) | h) | h
  · exact (of_mem_encode h).2
  · exact hdot b h
  · exact (of_mem_encode h).2
  · exact hdot b h
  · exact (of_mem_encode h).2

theorem splitToken_mintToken {payload : Bytes} (hpayload : payload ≠ []) (signature : Bytes) :
    splitToken (mintToken payload signature) =
      if signature = [] then none
      else some (encode urlAlphabet mintHeader, encode urlAlphabet payload,
        encode urlAlphabet signature) := by
  have hfresh : ∀ bytes, Fresh [0x2e] (encode urlAlphabet bytes) := fun bytes =>
    fresh_singleton.mpr fun hm => (of_mem_encode hm).1 rfl
  have htoken : mintToken payload signature = encode urlAlphabet mintHeader ++
      ([0x2e] ++ (encode urlAlphabet payload ++ ([0x2e] ++ encode urlAlphabet signature))) := by
    simp [mintToken, mintFirst, ascii]
  have hdot : 0x2e ∉ encode urlAlphabet signature := fun hm => (of_mem_encode hm).1 rfl
  have hheader : mintHeader ≠ [] := by simp [mintHeader, ascii]
  rw [splitToken, htoken, cut_of_fresh (hfresh _)]
  simp only [cut_of_fresh (hfresh payload)]
  simp only [if_neg hdot, encode_eq_nil_iff]
  by_cases hnil : signature = []
  · rw [if_pos (Or.inr (Or.inr hnil)), if_pos hnil]
  · rw [if_neg (by simp [hheader, hpayload, hnil]), if_neg hnil]

/-- What validation makes of a minted token with some payload and signature. -/
theorem validateAndExtract_mintToken (hmac : Hmac) (secret : Bytes)
    (issuer audience : Option Bytes) (now : Int) {payload : Bytes} (hpayload : payload ≠ [])
    (signature : Bytes) :
    validateAndExtract hmac secret issuer audience now (mintToken payload signature) =
      if signature = [] then .error .malformed
      else if (hmac secret (mintFirst payload)).toList ≠ signature then .error .badSignature
      else checkClaims issuer audience now (extractClaims payload) := by
  have hhs256 : isHs256 mintHeader = true := by decide +kernel
  rw [validateAndExtract, splitToken_mintToken hpayload]
  by_cases hnil : signature = []
  · rw [if_pos hnil, if_pos hnil]
  · rw [if_neg hnil, if_neg hnil]
    simp only [base64urlDecode_encode sextet_urlAlphabet, hhs256, Bool.not_true,
      Bool.false_eq_true, if_false]
    rfl

theorem extractBearerToken_eq {scheme token : Bytes} (hscheme : scheme.map lower = ascii "bearer")
    (spaces : Nat) (htoken : ∀ b ∈ token, isSpace b = false) (hne : token ≠ []) :
    extractBearerToken (scheme ++ List.replicate (spaces + 1) sp ++ token) = some token := by
  have hplain : ∀ b ∈ scheme, isSpace b = false := by
    intro b hb
    have hall : ∀ b ∈ ascii "bearer", isSpace b = false := by decide +kernel
    have hmem : lower b ∈ ascii "bearer" := by
      rw [← hscheme]
      exact List.mem_map_of_mem hb
    rw [← isSpace_lower]
    exact hall _ hmem
  have htrimmed : ∀ v : Bytes, (∀ b ∈ v, isSpace b = false) → Trim.Trimmed isSpace v :=
    fun v hv => ⟨fun b hb => hv b (List.mem_of_mem_head? hb),
      fun b hb => hv b (List.mem_of_mem_getLast? hb)⟩
  have hspace : sp ∉ scheme := by
    intro hm
    have h := hplain sp hm
    revert h
    decide
  have hscheme_ne : scheme ≠ [] := by
    intro hnil
    rw [hnil] at hscheme
    exact absurd hscheme (by decide)
  have hvalue : scheme ++ List.replicate (spaces + 1) sp ++ token =
      scheme ++ ([sp] ++ (List.replicate spaces sp ++ token)) := by
    simp [List.replicate_succ]
  have hwhole : trim (scheme ++ List.replicate (spaces + 1) sp ++ token) =
      scheme ++ List.replicate (spaces + 1) sp ++ token := by
    refine Trim.trim_of_trimmed ⟨?_, ?_⟩
    · intro b hb
      obtain ⟨first, rest, rfl⟩ := List.exists_cons_of_ne_nil hscheme_ne
      simp only [List.cons_append, List.head?_cons, Option.mem_some_iff] at hb
      exact hb ▸ hplain first List.mem_cons_self
    · intro b hb
      rw [List.getLast?_append_of_ne_nil _ hne] at hb
      exact htoken b (List.mem_of_mem_getLast? hb)
  have hrest : trim (List.replicate spaces sp ++ token) = token := by
    have hblank : isSpace sp = true := by decide
    have happend := Trim.trim_append (l := List.replicate spaces sp) (t := [])
      (fun b hb => by rw [List.eq_of_mem_replicate hb, hblank]) (htrimmed token htoken) (by simp)
    rwa [List.append_nil] at happend
  have hvalue_ne : scheme ++ List.replicate (spaces + 1) sp ++ token ≠ [] := by simp [hne]
  rw [extractBearerToken, hwhole, if_neg hvalue_ne, hvalue,
    cut_of_fresh (fresh_singleton.mpr hspace)]
  have htrimScheme : trim scheme = scheme := Trim.trim_of_trimmed (htrimmed scheme hplain)
  simp only [htrimScheme, hscheme, hrest, ne_eq, not_true_eq_false, if_false, hne]

/-! ## Minted requests -/

/-- Claims a token can be minted with. -/
structure Minted where
  sub : Bytes
  iss : Bytes
  aud : Bytes
  roles : Bytes
  exp : Int
  sub_plain : Plain sub
  iss_plain : Plain iss
  aud_plain : Plain aud
  roles_plain : Plain roles
  exp_pos : 0 < exp
  exp_lt : exp < 2 ^ 63

namespace Minted

variable (m : Minted)

def payload : Bytes := mintPayload m.sub m.exp m.iss m.aud m.roles

def claims : JwtClaims where
  sub := m.sub
  roles := m.roles
  iss := m.iss
  aud := m.aud
  exp := m.exp

/-- The header fields that hand the claims on, without the empty ones. -/
def headers : List HeaderField :=
  [⟨ascii "X-Garcon-User-Id", m.sub⟩, ⟨ascii "X-Garcon-Roles", m.roles⟩,
    ⟨ascii "X-Garcon-Claim-iss", m.iss⟩, ⟨ascii "X-Garcon-Claim-aud", m.aud⟩].filter
    (·.value ≠ [])

theorem extractClaims_payload : extractClaims m.payload = m.claims :=
  extractClaims_mintPayload m.sub_plain m.iss_plain m.aud_plain m.roles_plain m.exp_pos m.exp_lt

theorem passClaims_claims :
    passClaims m.claims = { next := .pass, responseHeaders := m.headers } := by
  unfold passClaims headers claims addClaim
  by_cases hsub : m.sub = [] <;> by_cases hroles : m.roles = [] <;>
    by_cases hiss : m.iss = [] <;> by_cases haud : m.aud = [] <;>
    simp [hsub, hroles, hiss, haud, Module.Result.pass, Module.Result.addResponseHeader]

theorem mismatched_eq_false {required : Option Bytes} {claim : Bytes}
    (h : ∀ value ∈ required, value = claim) : mismatched required claim = false := by
  cases required with
  | none => rfl
  | some value =>
      rw [h value rfl]
      simp [mismatched]

end Minted

/-- A request with a minted token: with the right signature and claims it passes, with the
claims attached, until the token expires, and with any other signature it is refused. -/
theorem handle_minted (hmac : Hmac) (settings : Settings) (now : Int) (m : Minted)
    (request : Request) (hscope : enforces settings.rules request = true) (scheme : Bytes)
    (hscheme : scheme.map lower = ascii "bearer") (spaces : Nat) (signature : Bytes)
    (hauth : request.headerValue (ascii "Authorization") =
      some (scheme ++ List.replicate (spaces + 1) sp ++ mintToken m.payload signature)) :
    (signature = (hmac settings.secret (mintFirst m.payload)).toList →
      (∀ issuer ∈ settings.issuer, issuer = m.iss) →
      (∀ audience ∈ settings.audience, audience = m.aud) →
      (now < m.exp → handle hmac now settings request =
        { next := .pass, responseHeaders := m.headers }) ∧
      (m.exp ≤ now → handle hmac now settings request =
        .respond (.text 401 (ascii "Unauthorized") (ascii "token expired\n")))) ∧
    (signature ≠ (hmac settings.secret (mintFirst m.payload)).toList →
      handle hmac now settings request =
        .respond (.text 401 (ascii "Unauthorized") (ascii "invalid token\n"))) := by
  have hne : mintToken m.payload signature ≠ [] := by simp [mintToken, ascii]
  have hpayload : m.payload ≠ [] := by simp [Minted.payload, mintPayload]
  have htoken : (request.headerValue (ascii "Authorization")).bind extractBearerToken =
      some (mintToken m.payload signature) := by
    rw [hauth]
    exact extractBearerToken_eq hscheme spaces (fun b hb => noSpace_mintToken hb) hne
  unfold handle
  rw [hscope, htoken, Bool.not_true, if_neg Bool.false_ne_true]
  dsimp only
  rw [validateAndExtract_mintToken _ _ _ _ _ hpayload, m.extractClaims_payload]
  constructor
  · intro hsignature hissuer haudience
    have hlen : signature.length = 32 := by
      rw [hsignature]
      exact Vector.length_toList
    have hnil : signature ≠ [] := by
      rintro rfl
      cases hlen
    have hsame : ¬ (hmac settings.secret (mintFirst m.payload)).toList ≠ signature :=
      not_not.mpr hsignature.symm
    have hissuerOk : mismatched settings.issuer m.claims.iss = false :=
      Minted.mismatched_eq_false hissuer
    have haudienceOk : mismatched settings.audience m.claims.aud = false :=
      Minted.mismatched_eq_false haudience
    have hexp := m.exp_pos
    rw [if_neg hnil, if_neg hsame, checkClaims, hissuerOk, haudienceOk,
      if_neg Bool.false_ne_true, if_neg Bool.false_ne_true]
    constructor
    · intro hlt
      rw [if_neg (by show ¬ (m.exp ≠ 0 ∧ m.exp ≤ now); omega)]
      exact m.passClaims_claims
    · intro hle
      rw [if_pos (by show m.exp ≠ 0 ∧ m.exp ≤ now; omega)]
      rfl
  · intro hsignature
    by_cases hnil : signature = []
    · rw [if_pos hnil]
      rfl
    · rw [if_neg hnil, if_pos fun h => hsignature h.symm]
      rfl

def visitor : Minted where
  sub := ascii "u"
  iss := []
  aud := []
  roles := []
  exp := 100
  sub_plain := by decide
  iss_plain := by decide
  aud_plain := by decide
  roles_plain := by decide
  exp_pos := by decide
  exp_lt := by decide

/-- A keyed sum in place of the hash. -/
def sumHmac : Hmac := fun key message => Vector.replicate 32 ((key ++ message).foldl (· + ·) 0)

def visitorRequest : Request where
  method := ascii "GET"
  target := ascii "/api/hello"
  headers := [⟨ascii "Authorization", ascii "bEARER" ++ List.replicate (1 + 1) sp ++
    mintToken visitor.payload (sumHmac (ascii "s") (mintFirst visitor.payload)).toList⟩]

theorem handle_minted_visitor :
    handle sumHmac 99 ⟨ascii "s", ascii "HS256", none, none, []⟩ visitorRequest =
      { next := .pass, responseHeaders := visitor.headers } :=
  have hauth : visitorRequest.headerValue (ascii "Authorization") =
      some (ascii "bEARER" ++ List.replicate (1 + 1) sp ++
        mintToken visitor.payload (sumHmac (ascii "s") (mintFirst visitor.payload)).toList) := rfl
  ((handle_minted sumHmac ⟨ascii "s", ascii "HS256", none, none, []⟩ 99 visitor visitorRequest
    rfl (ascii "bEARER") (by decide) 1 _ hauth).1 rfl (by simp) (by simp)).1 (by decide)

end JwtAuth
end Modules
end Garcon
