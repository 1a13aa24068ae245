import Garcon.Modules.JwtAuth.Expiry

/-!
# Malleable signatures

The signature check compares bytes, and the decoder gives the same bytes for many texts:
it skips what is not in its table, reads two characters in two spellings each, and drops
the bits behind the last whole byte.  Every signature that is accepted at all is accepted
in all of these spellings.
-/

namespace Garcon
namespace Modules
namespace JwtAuth

open Ascii Http Base64

/-! ## What the decoder reads -/

/-- The sextets of the characters that the decoder does not skip. -/
def sextetsOf (s : Bytes) : List Nat := s.filterMap fun c => (sextet c).map Int.toNat

theorem exists_of_sextet {c : UInt8} {b : Int} (h : sextet c = some b) :
    ∃ n : Nat, n < 64 ∧ b = n := by
  have hle := c.toNat_lt
  unfold sextet at h
  split_ifs at h with hminus hline hdigit hupper hlower
  · exact ⟨62, by decide, (Option.some.inj h).symm⟩
  · exact ⟨63, by decide, (Option.some.inj h).symm⟩
  · rw [isDigit_iff] at hdigit
    exact ⟨52 + (c.toNat - 0x30), by omega, by rw [← Option.some.inj h]; omega⟩
  · simp only [isUpper, Bool.and_eq_true, decide_eq_true_eq, UInt8.le_iff_toNat_le,
      UInt8.reduceToNat] at hupper
    exact ⟨c.toNat - 0x41, by omega, by rw [← Option.some.inj h]; omega⟩
  · simp only [isLower, Bool.and_eq_true, decide_eq_true_eq, UInt8.le_iff_toNat_le,
      UInt8.reduceToNat] at hlower
    exact ⟨26 + (c.toNat - 0x61), by omega, by rw [← Option.some.inj h]; omega⟩

theorem lt_of_mem_sextetsOf {s : Bytes} {n : Nat} (h : n ∈ sextetsOf s) : n < 64 := by
  obtain ⟨c, -, hc⟩ := List.mem_filterMap.mp h
  obtain ⟨b, hb, rfl⟩ := Option.map_eq_some_iff.mp hc
  obtain ⟨m, hm, rfl⟩ := exists_of_sextet hb
  exact hm

theorem step_congr (d : Decoder) {c c' : UInt8} (h : sextet c = sextet c') :
    d.step c = d.step c' := by
  rw [Decoder.step, Decoder.step, h]

/-- The decoder does the same with a text and with its sextets in the url alphabet. -/
theorem foldl_step_eq (s : Bytes) (d : Decoder) :
    s.foldl Decoder.step d = ((sextetsOf s).map urlAlphabet).foldl Decoder.step d := by
  induction s generalizing d with
  | nil => rfl
  | cons c s ih =>
      cases hc : sextet c with
      | none =>
          have hskip : d.step c = d := by rw [Decoder.step, hc]
          have hrest : sextetsOf (c :: s) = sextetsOf s :=
            List.filterMap_cons_none (by rw [hc, Option.map_none])
          rw [List.foldl_cons, hskip, hrest, ih]
      | some b =>
          obtain ⟨n, hn, rfl⟩ := exists_of_sextet hc
          have hrest : sextetsOf (c :: s) = n :: sextetsOf s :=
            List.filterMap_cons_some (by rw [hc, Option.map_some, Int.toNat_natCast])
          have hsame : d.step c = d.step (urlAlphabet n) :=
            step_congr d (hc.trans (sextet_urlAlphabet n hn).symm)
          rw [List.foldl_cons, hrest, List.map_cons, List.foldl_cons, hsame, ih]

/-- Sextets in the url alphabet are decoded to the bytes they fill. -/
theorem foldl_bytesOf {vs : List Nat} (hvs : ∀ v ∈ vs, v < 64) {d : Decoder} {out : Bytes}
    (hd : Holds d 0 0 out) :
    ((vs.map urlAlphabet).foldl Decoder.step d).out = out ++ bytesOf vs := by
  have hbyte : ∀ {n : Nat}, n < 256 → (UInt8.ofNat n).toNat = n := fun h =>
    ((ofNat_eq_iff h).mp rfl).symm
  induction vs using bytesOf.induct generalizing d out with
  | case1 a b c e rest ih =>
      have ha := hvs a (by simp)
      have hb := hvs b (by simp)
      have hc := hvs c (by simp)
      have he := hvs e (by simp)
      have hgroup := holds_three sextet_urlAlphabet hd (UInt8.ofNat (a * 4 + b / 16))
        (UInt8.ofNat (b % 16 * 16 + c / 4)) (UInt8.ofNat (c % 4 * 64 + e))
      rw [hbyte (by omega), hbyte (by omega), hbyte (by omega),
        show (a * 4 + b / 16) / 4 = a by omega,
        show (a * 4 + b / 16) % 4 * 16 + (b % 16 * 16 + c / 4) / 16 = b by omega,
        show (b % 16 * 16 + c / 4) % 16 * 4 + (c % 4 * 64 + e) / 64 = c by omega,
        show (c % 4 * 64 + e) % 64 = e by omega] at hgroup
      have hrest := ih (fun v hv => hvs v (by simp [hv])) hgroup
      rw [List.append_assoc] at hrest
      exact hrest
  | case2 a b c =>
      have ha := hvs a (by simp)
      have hb := hvs b (by simp)
      have hc := hvs c (by simp)
      have hgroup := holds_two sextet_urlAlphabet hd (UInt8.ofNat (a * 4 + b / 16))
        (UInt8.ofNat (b % 16 * 16 + c / 4)) (Nat.mod_lt c (by decide : 4 > 0))
      rw [hbyte (by omega), hbyte (by omega), show (a * 4 + b / 16) / 4 = a by omega,
        show (a * 4 + b / 16) % 4 * 16 + (b % 16 * 16 + c / 4) / 16 = b by omega,
        show (b % 16 * 16 + c / 4) % 16 * 4 + c % 4 = c by omega] at hgroup
      exact hgroup.out
  | case3 a b =>
      have ha := hvs a (by simp)
      have hb := hvs b (by simp)
      have hgroup := holds_one sextet_urlAlphabet hd (UInt8.ofNat (a * 4 + b / 16))
        (Nat.mod_lt b (by decide : 16 > 0))
      rw [hbyte (by omega), show (a * 4 + b / 16) / 4 = a by omega,
        show (a * 4 + b / 16) % 4 * 16 + b % 16 = b by omega] at hgroup
      exact hgroup.out
  | case4 vs hfour hthree htwo =>
      rcases vs with _ | ⟨a, _ | ⟨b, _ | ⟨c, _ | ⟨e, vs⟩⟩⟩⟩
      · simpa [bytesOf] using hd.out
      · have hfirst := hd.step_first (sextet_urlAlphabet a (hvs a (by simp))) (hvs a (by simp))
        simpa [bytesOf] using hfirst.out
      · exact absurd rfl (htwo a b)
      · exact absurd rfl (hthree a b c)
      · exact absurd rfl (hfour a b c e vs)

theorem base64urlDecode_eq (s : Bytes) : base64urlDecode s = bytesOf (sextetsOf s) := by
  rw [base64urlDecode, foldl_step_eq]
  exact foldl_bytesOf (fun v hv => lt_of_mem_sextetsOf hv) ⟨rfl, rfl, rfl⟩

/-- A text is decoded to a signature exactly where its sextets are those of the signature,
up to the two bits behind the last byte. -/
theorem base64urlDecode_eq_mac_iff (s : Bytes) (mac : Vector UInt8 32) :
    base64urlDecode s = mac.toList ↔ AgreeToLast (sextetsOf s) (sextets mac.toList) := by
  have hlen : mac.toList.length % 3 = 2 := by rw [Vector.length_toList]
  rw [base64urlDecode_eq, bytesOf_eq_iff hlen fun v hv => lt_of_mem_sextetsOf hv]

theorem sextetsOf_encode (bytes : Bytes) :
    sextetsOf (encode urlAlphabet bytes) = sextets bytes := by
  have hall : ∀ vs : List Nat, (∀ v ∈ vs, v < 64) → sextetsOf (vs.map urlAlphabet) = vs := by
    intro vs hvs
    rw [sextetsOf, List.filterMap_map]
    refine (List.filterMap_congr ?_).trans List.filterMap_some
    intro v hv
    show (sextet (urlAlphabet v)).map Int.toNat = some v
    rw [sextet_urlAlphabet v (hvs v hv), Option.map_some, Int.toNat_natCast]
  exact hall _ fun v hv => lt_of_mem_sextets hv

/-! ## Accepted tokens -/

def Accepts (hmac : Hmac) (secret : Bytes) (issuer audience : Option Bytes) (now : Int)
    (token : Bytes) : Prop :=
  ∃ claims, validateAndExtract hmac secret issuer audience now token = .ok claims

/-- A header and a payload segment that everything but the signature check lets pass. -/
structure Signable (issuer audience : Option Bytes) (now : Int) (h p : Bytes) : Prop where
  noDot : 0x2e ∉ h ∧ 0x2e ∉ p
  nonempty : h ≠ [] ∧ p ≠ []
  header : isHs256 (base64urlDecode h) = true
  claims : ∃ claims, checkClaims issuer audience now (extractClaims (base64urlDecode p)) =
    .ok claims

theorem accepts_joinToken_iff (hmac : Hmac) (secret : Bytes) (issuer audience : Option Bytes)
    (now : Int) (h p s : Bytes) :
    Accepts hmac secret issuer audience now (joinToken h p s) ↔
      Signable issuer audience now h p ∧ (0x2e ∉ s ∧ s ≠ []) ∧
        base64urlDecode s = (hmac secret (h ++ ascii "." ++ p)).toList := by
  unfold Accepts validateAndExtract
  constructor
  · rintro ⟨claims, hclaims⟩
    rcases splitToken_joinToken (h := h) (p := p) (s := s) with hsplit | ⟨hsplit, -⟩
    · obtain ⟨⟨hh, hp, hs⟩, hhne, hpne, hsne⟩ := (compact_of_splitToken hsplit).1
      rw [hsplit] at hclaims
      dsimp only at hclaims
      by_cases hheader : isHs256 (base64urlDecode h) = true
      · rw [hheader, Bool.not_true, if_neg Bool.false_ne_true] at hclaims
        by_cases hmac' : (hmac secret (h ++ ascii "." ++ p)).toList ≠ base64urlDecode s
        · rw [if_pos hmac'] at hclaims
          cases hclaims
        · rw [if_neg hmac'] at hclaims
          exact ⟨⟨⟨hh, hp⟩, ⟨hhne, hpne⟩, hheader, claims, hclaims⟩, ⟨hs, hsne⟩,
            (not_not.mp hmac').symm⟩
      · rw [Bool.not_eq_true] at hheader
        rw [hheader, Bool.not_false, if_pos rfl] at hclaims
        cases hclaims
    · rw [hsplit] at hclaims
      cases hclaims
  · rintro ⟨⟨⟨hh, hp⟩, ⟨hhne, hpne⟩, hheader, claims, hclaims⟩, ⟨hs, hsne⟩, hmac'⟩
    refine ⟨claims, ?_⟩
    rw [splitToken_of_compact ⟨⟨hh, hp, hs⟩, hhne, hpne, hsne⟩]
    dsimp only
    rw [hheader, Bool.not_true, if_neg Bool.false_ne_true, if_neg (not_not.mpr hmac'.symm)]
    exact hclaims

/-- The accepted signatures of a header and a payload, by their sextets. -/
theorem accepts_iff_agreeToLast (hmac : Hmac) (secret : Bytes) (issuer audience : Option Bytes)
    (now : Int) (h p s : Bytes) :
    Accepts hmac secret issuer audience now (joinToken h p s) ↔
      Signable issuer audience now h p ∧ 0x2e ∉ s ∧
        AgreeToLast (sextetsOf s) (sextets (hmac secret (h ++ ascii "." ++ p)).toList) := by
  rw [accepts_joinToken_iff, base64urlDecode_eq_mac_iff]
  constructor
  · rintro ⟨hsignable, ⟨hs, -⟩, hagree⟩
    exact ⟨hsignable, hs, hagree⟩
  · rintro ⟨hsignable, hs, hagree⟩
    refine ⟨hsignable, ⟨hs, ?_⟩, hagree⟩
    rintro rfl
    refine not_agreeToLast_nil ?_ hagree
    apply sextets_ne_nil
    intro hnil
    have hlen : (hmac secret (h ++ ascii "." ++ p)).toList.length = 32 := Vector.length_toList
    rw [hnil] at hlen
    cases hlen

/-! ## Uniqueness -/

def isBase64url (c : UInt8) : Bool :=
  isDigit c || isUpper c || isLower c || c == 0x2d || c == 0x5f

/-- At most one signature text is accepted behind a header and a payload, and only with
segments of the alphabet. -/
structure Tight (hmac : Hmac) (secret : Bytes) (issuer audience : Option Bytes) (now : Int)
    (h p : Bytes) : Prop where
  unique : ∀ s s', Accepts hmac secret issuer audience now (joinToken h p s) →
    Accepts hmac secret issuer audience now (joinToken h p s') → s = s'
  plain : ∀ s, Accepts hmac secret issuer audience now (joinToken h p s) →
    ∀ segment ∈ [h, p, s], ∀ c ∈ segment, isBase64url c = true

/-- A signature is still accepted with an asterisk behind it. -/
theorem not_tight_of_signable (hmac : Hmac) (secret : Bytes) {issuer audience : Option Bytes}
    {now : Int} {h p : Bytes} (hsignable : Signable issuer audience now h p) :
    ¬ Tight hmac secret issuer audience now h p := by
  intro htight
  let mac := (hmac secret (h ++ ascii "." ++ p)).toList
  have hdot : 0x2e ∉ encode urlAlphabet mac := fun hm => (of_mem_encode hm).1 rfl
  have hdot' : 0x2e ∉ encode urlAlphabet mac ++ [0x2a] := by
    rw [List.mem_append, not_or]
    exact ⟨hdot, by decide⟩
  have hsame : sextetsOf (encode urlAlphabet mac ++ [0x2a]) = sextets mac := by
    have hskip : sextetsOf [0x2a] = [] := by decide
    rw [← sextetsOf_encode mac, sextetsOf, List.filterMap_append]
    exact (congrArg _ hskip).trans (List.append_nil _)
  have haccepts := (accepts_iff_agreeToLast hmac secret issuer audience now h p _).mpr
    ⟨hsignable, hdot, by rw [sextetsOf_encode]; exact ⟨rfl, rfl⟩⟩
  have haccepts' := (accepts_iff_agreeToLast hmac secret issuer audience now h p _).mpr
    ⟨hsignable, hdot', by rw [hsame]; exact ⟨rfl, rfl⟩⟩
  have hlength := congrArg List.length (htight.unique _ _ haccepts haccepts')
  rw [List.length_append, List.length_singleton] at hlength
  omega

/-- A signature text is accepted exactly where its sextets are those of the hash, up to the
two bits not used, whatever else stands in it.  So it is the only one and in the alphabet
exactly where no signature would be accepted at all. -/
theorem tight_iff_not_signable (hmac : Hmac) (secret : Bytes) (issuer audience : Option Bytes)
    (now : Int) (h p : Bytes) :
    (∀ s, Accepts hmac secret issuer audience now (joinToken h p s) ↔
      Signable issuer audience now h p ∧ 0x2e ∉ s ∧
        AgreeToLast (sextetsOf s) (sextets (hmac secret (h ++ ascii "." ++ p)).toList)) ∧
    (Tight hmac secret issuer audience now h p ↔ ¬ Signable issuer audience now h p) := by
  refine ⟨accepts_iff_agreeToLast hmac secret issuer audience now h p, ?_, ?_⟩
  · exact fun htight hsignable => not_tight_of_signable hmac secret hsignable htight
  · intro hnot
    have hnone : ∀ s, ¬ Accepts hmac secret issuer audience now (joinToken h p s) := fun s h' =>
      hnot ((accepts_iff_agreeToLast hmac secret issuer audience now h p s).mp h').1
    exact ⟨fun s _ haccepts => absurd haccepts (hnone s),
      fun s haccepts => absurd haccepts (hnone s)⟩

def visitorSignature : Bytes :=
  encode urlAlphabet (sumHmac (ascii "s") (mintFirst visitor.payload)).toList

/-- The visitor's token is accepted as it is and with an asterisk behind it. -/
theorem visitor_signature_respelled :
    ¬ Tight sumHmac (ascii "s") none none 99 (encode urlAlphabet mintHeader)
      (encode urlAlphabet visitor.payload) := by
  intro htight
  have haccepts : validateAndExtract sumHmac (ascii "s") none none 99
      (joinToken (encode urlAlphabet mintHeader) (encode urlAlphabet visitor.payload)
        visitorSignature) = .ok visitor.claims := by decide +kernel
  have haccepts' : validateAndExtract sumHmac (ascii "s") none none 99
      (joinToken (encode urlAlphabet mintHeader) (encode urlAlphabet visitor.payload)
        (visitorSignature ++ [0x2a])) = .ok visitor.claims := by decide +kernel
  have hsame := htight.unique _ _ ⟨_, haccepts⟩ ⟨_, haccepts'⟩
  exact absurd hsame (by decide +kernel)

end JwtAuth
end Modules
end Garcon
