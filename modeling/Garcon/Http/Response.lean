import Garcon.Http.Header

/-!
# Responses

The outbound message and its wire format.  `serialize` drops header fields that
are reserved or malformed, and writes the status line and the body as they are.
-/

namespace Garcon
namespace Http

open Ascii

inductive ConnectionPolicy where
  | close
  | keepAlive
deriving DecidableEq, Repr

structure Response where
  status : Int := 200
  reason : Bytes := ascii "OK"
  contentType : Bytes := []
  headers : List HeaderField := []
  body : Bytes := []
  contentLength : Option Nat := none
deriving DecidableEq, Repr

def isReservedHeader (name : Bytes) (contentTypeWritten : Bool) : Bool :=
  headerNameEquals name (ascii "Connection") ||
    headerNameEquals name (ascii "Content-Length") ||
    (contentTypeWritten && headerNameEquals name (ascii "Content-Type"))

namespace Response

def validHeaderName (name : Bytes) : Bool := isToken name

/-- `find_first_of("\r\n")` finds nothing. -/
def validHeaderValue (value : Bytes) : Bool := !value.any fun ch => ch == cr || ch == lf

/-- The message of the `std::invalid_argument` thrown, if one is. -/
def validateHeader (name value : Bytes) : Except String Unit :=
  if !validHeaderName name then .error "invalid response header name"
  else if !validHeaderValue value then .error "invalid response header value"
  else .ok ()

def findHeader (r : Response) (name : Bytes) : Option HeaderField :=
  Http.findHeader r.headers name

def addHeader (r : Response) (name value : Bytes) : Except String Response := do
  validateHeader name value
  return { r with headers := r.headers ++ [⟨name, value⟩] }

/-- Overwrites the value of the first header with this name. -/
def replaceFirst (name value : Bytes) : List HeaderField → List HeaderField
  | [] => []
  | h :: hs =>
    if headerNameEquals h.name name then { h with value := value } :: hs
    else h :: replaceFirst name value hs

def setHeader (r : Response) (name value : Bytes) : Except String Response := do
  validateHeader name value
  if (r.findHeader name).isSome then
    return { r with headers := replaceFirst name value r.headers }
  else
    r.addHeader name value

def text (status : Int) (reason msg : Bytes) : Response where
  status := status
  reason := reason
  contentType := ascii "text/plain; charset=utf-8"
  body := msg

def policyText : ConnectionPolicy → Bytes
  | .keepAlive => ascii "keep-alive"
  | .close => ascii "close"

def wireBodySize (r : Response) : Nat := r.contentLength.getD r.body.length

def contentTypeWritten (r : Response) : Bool :=
  !r.contentType.isEmpty && validHeaderValue r.contentType

/-- What the header loop of `serialize` writes for one field. -/
def serializeHeader (contentTypeWritten : Bool) (header : HeaderField) : Bytes :=
  if isReservedHeader header.name contentTypeWritten then []
  else if !validHeaderName header.name || !validHeaderValue header.value then []
  else header.name ++ (ascii ": " ++ (header.value ++ crlf))

def serialize (r : Response) (policy : ConnectionPolicy) : Bytes :=
  ascii "HTTP/1.1 " ++ decimalInt r.status ++ ascii " " ++ r.reason ++ crlf ++
    (ascii "Connection: " ++ policyText policy ++ crlf) ++
    (ascii "Content-Length: " ++ decimal r.wireBodySize ++ crlf) ++
    (if r.contentTypeWritten then ascii "Content-Type: " ++ r.contentType ++ crlf else []) ++
    r.headers.flatMap (serializeHeader r.contentTypeWritten) ++ crlf ++ r.body

theorem validHeaderValue_iff {value : Bytes} :
    validHeaderValue value = true ↔ cr ∉ value ∧ lf ∉ value := by
  simp only [validHeaderValue, Bool.not_eq_true', List.any_eq_false, Bool.or_eq_true,
    beq_iff_eq, not_or]
  constructor
  · exact fun h => ⟨fun hm => (h cr hm).1 rfl, fun hm => (h lf hm).2 rfl⟩
  · exact fun h b hb => ⟨fun e => h.1 (e ▸ hb), fun e => h.2 (e ▸ hb)⟩

/-- What a computation that succeeded went through. -/
theorem exists_of_bind_eq_ok {α β : Type} {x : Except String α} {f : α → Except String β} {b : β}
    (h : x >>= f = .ok b) : ∃ a, x = .ok a ∧ f a = .ok b := by
  cases x with
  | error what => cases h
  | ok a => exact ⟨a, rfl, h⟩

/-- The two responses differ in nothing but their headers. -/
def Decorates (r r' : Response) : Prop := ∃ headers, r' = { r with headers }

theorem Decorates.refl (r : Response) : r.Decorates r := ⟨r.headers, rfl⟩

theorem Decorates.trans {r r' r'' : Response} (h : r.Decorates r') (h' : r'.Decorates r'') :
    r.Decorates r'' := by
  obtain ⟨headers, rfl⟩ := h
  obtain ⟨headers', rfl⟩ := h'
  exact ⟨headers', rfl⟩

theorem decorates_of_addHeader {r r' : Response} {name value : Bytes}
    (h : r.addHeader name value = .ok r') : r.Decorates r' := by
  obtain ⟨_, -, h⟩ := exists_of_bind_eq_ok h
  cases h
  exact ⟨_, rfl⟩

theorem decorates_of_setHeader {r r' : Response} {name value : Bytes}
    (h : r.setHeader name value = .ok r') : r.Decorates r' := by
  obtain ⟨_, -, h⟩ := exists_of_bind_eq_ok h
  by_cases hfound : (r.findHeader name).isSome = true
  · rw [if_pos hfound] at h
    cases h
    exact ⟨_, rfl⟩
  · rw [if_neg hfound] at h
    exact decorates_of_addHeader h

theorem validateHeader_of_valid {name value : Bytes} (hname : validHeaderName name = true)
    (hvalue : validHeaderValue value = true) : validateHeader name value = .ok () := by
  rw [validateHeader, hname, hvalue]
  rfl

/-- Adding a well-formed header never fails, and changes what is found by no other name. -/
theorem exists_addHeader (r : Response) {name value : Bytes}
    (hname : validHeaderName name = true) (hvalue : validHeaderValue value = true) :
    ∃ r', r.addHeader name value = .ok r' ∧ r.Decorates r' ∧
      ∀ other, headerNameEquals name other = false → r'.findHeader other = r.findHeader other := by
  refine ⟨{ r with headers := r.headers ++ [⟨name, value⟩] }, ?_, ⟨_, rfl⟩, ?_⟩
  · rw [addHeader, validateHeader_of_valid hname hvalue]
    rfl
  · intro other hother
    have hnone : [(⟨name, value⟩ : HeaderField)].find? (fun h => headerNameEquals h.name other) =
        none := by
      rw [List.find?_cons_of_neg (by simp [hother]), List.find?_nil]
    rw [findHeader, findHeader, Http.findHeader, Http.findHeader, List.find?_append, hnone,
      Option.or_none]

theorem find_replaceFirst {headers : List HeaderField} {name : Bytes} (value : Bytes)
    (h : ∃ field ∈ headers, headerNameEquals field.name name = true) :
    ((replaceFirst name value headers).find? fun field => headerNameEquals field.name name).map
        (·.value) = some value ∧
      ∀ other, headerNameEquals name other = false →
        (replaceFirst name value headers).find? (fun field => headerNameEquals field.name other) =
          headers.find? fun field => headerNameEquals field.name other := by
  induction headers with
  | nil =>
      obtain ⟨field, hmem, -⟩ := h
      cases hmem
  | cons field headers ih =>
      rw [replaceFirst]
      by_cases hfirst : headerNameEquals field.name name = true
      · rw [if_pos hfirst]
        refine ⟨by simp [hfirst], ?_⟩
        intro other hother
        have hfield : headerNameEquals field.name other = false := by
          rw [← Bool.not_eq_true, headerNameEquals_iff] at hother ⊢
          rw [headerNameEquals_iff.mp hfirst]
          exact hother
        rw [List.find?_cons_of_neg (by simp [hfield]), List.find?_cons_of_neg (by simp [hfield])]
      · have hrest : ∃ field ∈ headers, headerNameEquals field.name name = true := by
          obtain ⟨found, hmem, hequal⟩ := h
          rcases List.mem_cons.mp hmem with rfl | hmem
          · exact absurd hequal hfirst
          · exact ⟨found, hmem, hequal⟩
        obtain ⟨hfound, hothers⟩ := ih hrest
        rw [if_neg hfirst, List.find?_cons_of_neg (by simp [hfirst])]
        refine ⟨hfound, ?_⟩
        intro other hother
        rw [List.find?_cons, List.find?_cons, hothers other hother]

/-- Setting a well-formed header never fails, and changes what is found by its name only. -/
theorem exists_setHeader (r : Response) {name value : Bytes}
    (hname : validHeaderName name = true) (hvalue : validHeaderValue value = true) :
    ∃ r', r.setHeader name value = .ok r' ∧ r.Decorates r' ∧
      (r'.findHeader name).map (·.value) = some value ∧
      ∀ other, headerNameEquals name other = false → r'.findHeader other = r.findHeader other := by
  have hself : headerNameEquals name name = true := headerNameEquals_iff.mpr rfl
  by_cases hfound : (r.findHeader name).isSome = true
  · have hset : r.setHeader name value =
        .ok { r with headers := replaceFirst name value r.headers } := by
      rw [setHeader, validateHeader_of_valid hname hvalue]
      dsimp only [bind, Except.bind]
      rw [if_pos hfound]
      rfl
    have hexists : ∃ field ∈ r.headers, headerNameEquals field.name name = true := by
      rw [findHeader, Http.findHeader, List.find?_isSome] at hfound
      exact hfound
    obtain ⟨hvalue', hothers⟩ := find_replaceFirst value hexists
    exact ⟨_, hset, ⟨_, rfl⟩, hvalue', hothers⟩
  · obtain ⟨r', hadd, hd, hothers⟩ := r.exists_addHeader hname hvalue
    have hset : r.setHeader name value = .ok r' := by
      rw [setHeader, validateHeader_of_valid hname hvalue]
      dsimp only [bind, Except.bind]
      rw [if_neg hfound]
      exact hadd
    refine ⟨r', hset, hd, ?_, hothers⟩
    have hr' : r' = { r with headers := r.headers ++ [⟨name, value⟩] } := by
      rw [addHeader, validateHeader_of_valid hname hvalue] at hadd
      cases hadd
      rfl
    rw [Bool.not_eq_true, Option.isSome_eq_false_iff, Option.isNone_iff_eq_none, findHeader,
      Http.findHeader] at hfound
    rw [hr', findHeader, Http.findHeader, List.find?_append, hfound, Option.none_or,
      List.find?_cons_of_pos (by exact hself)]
    rfl

end Response
end Http
end Garcon
