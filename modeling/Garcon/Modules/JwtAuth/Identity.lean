import Garcon.Modules.JwtAuth.Claims
import Garcon.Modules.JwtAuth.Minting

/-!
# The claims handed on

Whether the claims an accepted token hands on are the claims of its payload is decided
member by member: by which text the search finds first, and by the escapes in it.
-/

namespace Garcon
namespace Modules
namespace JwtAuth

open Ascii Search Json Http Base64

/-- The decoded payload of a token with three segments. -/
def payloadOf (token : Bytes) : Option Bytes :=
  (splitToken token).map fun segments => base64urlDecode segments.2.1

theorem checkClaims_eq_ok {issuer audience : Option Bytes} {now : Int} {claims claims' : JwtClaims}
    (h : checkClaims issuer audience now claims = .ok claims') : claims' = claims := by
  unfold checkClaims at h
  split_ifs at h
  cases h
  rfl

/-- The claims of an accepted token are read from its payload. -/
theorem eq_extractClaims {hmac : Hmac} {secret : Bytes} {issuer audience : Option Bytes}
    {now : Int} {token payload : Bytes} {claims : JwtClaims}
    (hok : validateAndExtract hmac secret issuer audience now token = .ok claims)
    (hpayload : payloadOf token = some payload) : claims = extractClaims payload := by
  unfold validateAndExtract at hok
  cases hsplit : splitToken token with
  | none =>
      rw [hsplit] at hok
      cases hok
  | some segments =>
      obtain ⟨h64, p64, s64⟩ := segments
      rw [payloadOf, hsplit, Option.map_some, Option.some.injEq] at hpayload
      rw [hsplit] at hok
      simp only at hok hpayload
      split_ifs at hok
      rw [hpayload] at hok
      exact checkClaims_eq_ok hok

section Payload

variable {o : ObjectText}

/-- A string member is read as it is: the search finds the member itself first, and its text
escapes characters by themselves only; or it finds something else first (or nothing), and
that happens to spell the same. -/
def ReadAsIs (p : o.Place) (t : Text) (name : Bytes) : Prop :=
  FoundFirst p name ∧ t.IsLiteral ∨ ¬ FoundFirst p name ∧ Reads o.bytes name t.value

/-- The same for the roles, where an empty reading is replaced by the reading of `role`. -/
def RolesReadAsIs (p : o.Place) (t : Text) : Prop :=
  t.value ≠ [] ∧ ReadAsIs p t (ascii "roles") ∨
    Reads o.bytes (ascii "roles") [] ∧ Reads o.bytes (ascii "role") t.value

theorem reads_iff_readAsIs {p : o.Place} {t : Text} (hvalue : p.member.value = .string t)
    (name : Bytes) : Reads o.bytes name t.value ↔ ReadAsIs p t name := by
  by_cases hfirst : FoundFirst p name
  · rw [ReadAsIs, ← extractJsonString_eq_iff, extractJsonString_of_foundFirst hvalue hfirst,
      letters_eq_value_iff]
    constructor
    · exact fun h => Or.inl ⟨hfirst, h⟩
    · rintro (⟨-, h⟩ | ⟨hno, -⟩)
      · exact h
      · exact absurd hfirst hno
  · constructor
    · exact fun h => Or.inr ⟨hfirst, h⟩
    · rintro (⟨hyes, -⟩ | ⟨-, h⟩)
      · exact absurd hyes hfirst
      · exact h

/-- The claims are those of the object's string members. -/
def HandedOn (o : ObjectText) (claims : JwtClaims) : Prop :=
  ∀ (p : o.Place) (t : Text), p.member.value = .string t →
    (p.member.key.value = ascii "sub" → claims.sub = t.value) ∧
      (p.member.key.value = ascii "iss" → claims.iss = t.value) ∧
      (p.member.key.value = ascii "roles" → claims.roles = t.value)

/-- Every string member the claims are made from is read as it is. -/
def Legible (o : ObjectText) : Prop :=
  ∀ (p : o.Place) (t : Text), p.member.value = .string t →
    (p.member.key.value = ascii "sub" → ReadAsIs p t (ascii "sub")) ∧
      (p.member.key.value = ascii "iss" → ReadAsIs p t (ascii "iss")) ∧
      (p.member.key.value = ascii "roles" → RolesReadAsIs p t)

/-- An accepted token hands on the claims of its payload exactly when they are legible. -/
theorem handedOn_iff_legible (hmac : Hmac) (secret : Bytes) (issuer audience : Option Bytes)
    (now : Int) (token : Bytes) (claims : JwtClaims)
    (hok : validateAndExtract hmac secret issuer audience now token = .ok claims)
    (o : ObjectText) (hpayload : payloadOf token = some o.bytes) :
    HandedOn o claims ↔ Legible o := by
  obtain rfl := eq_extractClaims hok hpayload
  refine forall_congr' fun p => forall_congr' fun t => forall_congr' fun hvalue => ?_
  refine and_congr (forall_congr' fun _ => ?_)
    (and_congr (forall_congr' fun _ => ?_) (forall_congr' fun _ => ?_))
  · exact extractJsonString_eq_iff.trans (reads_iff_readAsIs hvalue _)
  · exact extractJsonString_eq_iff.trans (reads_iff_readAsIs hvalue _)
  · show extractRoles o.bytes = t.value ↔ _
    rw [extractRoles_eq_iff, reads_iff_readAsIs hvalue]
    rfl

end Payload

/-! ## Delegated tokens -/

theorem payloadOf_mintToken {payload signature : Bytes} (hpayload : payload ≠ [])
    (hsignature : signature ≠ []) : payloadOf (mintToken payload signature) = some payload := by
  rw [payloadOf, splitToken_mintToken hpayload, if_neg hsignature, Option.map_some,
    base64urlDecode_encode sextet_urlAlphabet]

/-- A member without white space. -/
def compactMember (name : String) (value : Value) : Member Value where
  lead := .none
  key := .ofPlain (ascii name)
  gap := .none
  pad := .none
  value := value
  trail := .none

def subjectMember (name : String) : Member Value :=
  compactMember "sub" (.string (.ofPlain (ascii name)))

/-- A payload that names its actor in front of its subject. -/
def delegatedPayload : ObjectText where
  lead := .none
  inner := .none
  members := [compactMember "act" (.object .none [subjectMember "root"]), subjectMember "bob"]
  trail := .none

def subjectPlace : delegatedPayload.Place where
  before := [compactMember "act" (.object .none [subjectMember "root"])]
  member := subjectMember "bob"
  after := []
  members_eq := rfl

def delegatedToken : Bytes :=
  mintToken delegatedPayload.bytes
    (sumHmac (ascii "s") (mintFirst delegatedPayload.bytes)).toList

theorem payloadOf_delegatedToken : payloadOf delegatedToken = some delegatedPayload.bytes :=
  payloadOf_mintToken (by decide +kernel) (by decide +kernel)

theorem validateAndExtract_delegatedToken :
    validateAndExtract sumHmac (ascii "s") none none 99 delegatedToken =
      .ok { sub := ascii "root", roles := [], iss := [], aud := [], exp := 0 } := by
  have hclaims : extractClaims delegatedPayload.bytes =
      { sub := ascii "root", roles := [], iss := [], aud := [], exp := 0 } := by decide +kernel
  rw [delegatedToken, validateAndExtract_mintToken _ _ _ _ _ (by decide +kernel),
    if_neg (by decide +kernel), if_neg (fun h => h rfl), hclaims]
  rfl

theorem handedOn_iff_legible_delegated : HandedOn delegatedPayload
      { sub := ascii "root", roles := [], iss := [], aud := [], exp := 0 } ↔
    Legible delegatedPayload :=
  handedOn_iff_legible sumHmac (ascii "s") none none 99 delegatedToken _
    validateAndExtract_delegatedToken delegatedPayload payloadOf_delegatedToken

/-- The actor's name is handed on as the user's. -/
theorem delegated_subject_replaced :
    ¬ ∀ (hmac : Hmac) (secret : Bytes) (issuer audience : Option Bytes) (now : Int)
      (token : Bytes) (claims : JwtClaims) (o : ObjectText),
      validateAndExtract hmac secret issuer audience now token = .ok claims →
      payloadOf token = some o.bytes → (o.members.map (·.key.value)).Nodup →
      HandedOn o claims := by
  intro h
  have hnodup : (delegatedPayload.members.map (·.key.value)).Nodup := by decide +kernel
  have hsub := (h sumHmac (ascii "s") none none 99 delegatedToken _ delegatedPayload
    validateAndExtract_delegatedToken payloadOf_delegatedToken hnodup subjectPlace
    (.ofPlain (ascii "bob")) rfl).1 (by decide +kernel)
  revert hsub
  decide +kernel

end JwtAuth
end Modules
end Garcon
