import Garcon.Http.Request
import Garcon.Http.Wire

/-!
# A client on a kept-alive connection

The client reads one response after the other from the concatenated wire text.  A response
to HEAD and a response with status 1xx, 204 or 304 ends with its head; any other one has
as many bytes of body as its `Content-Length` says.
-/

namespace Garcon
namespace Http

open Ascii Search

namespace Client

/-- A response as the client reads it. -/
structure Received where
  lines : List Bytes
  body : Bytes
deriving DecidableEq, Repr

/-- A response that has no body whatever its header fields say. -/
def hasNoBody (isHead : Bool) (status : Nat) : Bool :=
  isHead || (100 ≤ status && status < 200) || status == 204 || status == 304

def statusCode (line : Bytes) : Option Nat :=
  match cut [sp] line with
  | none => none
  | some (_, rest) =>
    let digits := rest.takeWhile isDigit
    if digits = [] then none else some (decimalValue digits)

/-- The value of a field line with this name. -/
def fieldValue (name line : Bytes) : Option Bytes :=
  match cut [0x3a] line with
  | none => none
  | some (found, value) =>
    if iequals found name then some (trimOptionalWhitespace value) else none

def announcedLength (lines : List Bytes) : Option Nat :=
  match lines.findSome? (fieldValue (ascii "Content-Length")) with
  | none => none
  | some value => if value = [] ∨ !value.all isDigit then none else some (decimalValue value)

/-- The body that the head announces, and what is behind it. -/
def readBody (isHead : Bool) (lines : List Bytes) (rest : Bytes) : Option (Bytes × Bytes) :=
  match lines with
  | [] => none
  | statusLine :: fields =>
    match statusCode statusLine with
    | none => none
    | some status =>
      if hasNoBody isHead status then some ([], rest)
      else
        match announcedLength fields with
        | none => none
        | some n => if rest.length < n then none else some (rest.take n, rest.drop n)

def readResponse (isHead : Bool) (wire : Bytes) : Option (Received × Bytes) :=
  match cut headerEnd wire with
  | none => none
  | some (head, rest) =>
    let lines := splitAll crlf crlf_ne_nil head
    (readBody isHead lines rest).map fun found => (⟨lines, found.1⟩, found.2)

/-- The responses to requests of which some were HEAD, and the bytes left over. -/
def readResponses : List Bool → Bytes → Option (List Received × Bytes)
  | [], wire => some ([], wire)
  | isHead :: more, wire =>
    match readResponse isHead wire with
    | none => none
    | some (first, rest) =>
      (readResponses more rest).map fun found => (first :: found.1, found.2)

end Client

namespace Response

open Client

variable {r : Response} {policy : ConnectionPolicy}

/-- The response as a client should read it. -/
def received (r : Response) (policy : ConnectionPolicy) : Received := ⟨r.headLines policy, r.body⟩

theorem statusCode_statusLine (h : 0 ≤ r.status) :
    statusCode r.statusLine = some r.status.toNat := by
  have hline : r.statusLine =
      ascii "HTTP/1.1" ++ ([sp] ++ (decimal r.status.natAbs ++ (sp :: r.reason))) := by
    rw [statusLine, decimalInt, if_neg (by omega)]
    simp [ascii, sp]
  have hfresh : Fresh [sp] (ascii "HTTP/1.1") := fresh_singleton.mpr (by decide)
  have hdigits : (decimal r.status.natAbs ++ (sp :: r.reason)).takeWhile isDigit =
      decimal r.status.natAbs := by
    rw [List.takeWhile_append_of_pos fun b hb => isDigit_of_mem_decimal hb,
      List.takeWhile_cons_of_neg (by decide), List.append_nil]
  have hsize : r.status.natAbs = r.status.toNat := by omega
  rw [statusCode, hline, cut_of_fresh hfresh]
  simp only [hdigits]
  rw [if_neg (decimal_ne_nil _), decimalValue_decimal, hsize]

theorem isOptionalWhitespace_of_isDigit {b : UInt8} (h : isDigit b = true) :
    isOptionalWhitespace b = false := by
  have hsp : b ≠ sp := by
    rintro rfl
    cases h
  have htab : b ≠ tab := by
    rintro rfl
    cases h
  simp [isOptionalWhitespace, hsp, htab]

theorem fieldValue_contentLengthLine :
    fieldValue (ascii "Content-Length") r.contentLengthLine = some (decimal r.wireBodySize) := by
  have hline : r.contentLengthLine =
      ascii "Content-Length" ++ ([0x3a] ++ ([sp] ++ (decimal r.wireBodySize ++ []))) := by
    simp [contentLengthLine, ascii, sp]
  have hfresh : Fresh [0x3a] (ascii "Content-Length") := fresh_singleton.mpr (by decide +kernel)
  have hname : iequals (ascii "Content-Length") (ascii "Content-Length") = true :=
    iequals_iff.mpr rfl
  have hdigit : ∀ b ∈ decimal r.wireBodySize, isOptionalWhitespace b = false :=
    fun b hb => isOptionalWhitespace_of_isDigit (isDigit_of_mem_decimal hb)
  have htrimmed : Trim.Trimmed isOptionalWhitespace (decimal r.wireBodySize) :=
    ⟨fun b hb => hdigit b (List.mem_of_mem_head? hb),
      fun b hb => hdigit b (List.mem_of_mem_getLast? hb)⟩
  have hblank : ∀ b ∈ [sp], isOptionalWhitespace b = true := by
    intro b hb
    rw [List.mem_singleton.mp hb]
    rfl
  have htrim : trimOptionalWhitespace ([sp] ++ (decimal r.wireBodySize ++ [])) =
      decimal r.wireBodySize := Trim.trim_append hblank htrimmed (by simp)
  rw [fieldValue, hline, cut_of_fresh hfresh]
  simp only [hname, if_true, htrim]

/-- A response announces the body size it was made with. -/
theorem announcedLength_fields :
    announcedLength (r.headLines policy).tail = some r.wireBodySize := by
  have hconnection : fieldValue (ascii "Content-Length") (connectionLine policy) = none := by
    cases policy <;> decide +kernel
  have hfields : (r.headLines policy).tail.findSome? (fieldValue (ascii "Content-Length")) =
      some (decimal r.wireBodySize) := by
    rw [headLines, List.tail_cons, List.findSome?_cons, hconnection, List.findSome?_cons,
      fieldValue_contentLengthLine]
  have hdigits : (decimal r.wireBodySize).all isDigit = true :=
    List.all_eq_true.mpr fun b hb => isDigit_of_mem_decimal hb
  rw [announcedLength, hfields]
  simp only [hdigits, Bool.not_true, Bool.false_eq_true, or_false]
  rw [if_neg (decimal_ne_nil _), decimalValue_decimal]

/-- What makes a response fit for a client: a status, a reason phrase without line break,
and a body of the announced size where there may be one. -/
structure Sound (r : Response) (isHead : Bool) : Prop where
  status_nonneg : 0 ≤ r.status
  reason_plain : ¬ crlf <:+: r.reason
  size_eq : hasNoBody isHead r.status.toNat = false → r.wireBodySize = r.body.length

/-- A body where the client expects none. -/
def StrayBody (r : Response) (isHead : Bool) : Prop :=
  hasNoBody isHead r.status.toNat = true ∧ r.body ≠ []

/-- The first response read from a wire text. -/
theorem readResponse_serialize {isHead : Bool} (h : r.Sound isHead) (more : Bytes) :
    readResponse isHead (r.serialize policy ++ more) =
      if hasNoBody isHead r.status.toNat then some (⟨r.headLines policy, []⟩, r.body ++ more)
      else some (r.received policy, more) := by
  have hsplit : splitAll crlf crlf_ne_nil (joinLines (r.headLines policy)) =
      r.headLines policy :=
    splitAll_joinLines (fun hi => h.reason_plain (r.crlf_infix_statusLine.mp hi))
      fun l hl => r.plainLine_of_mem policy hl
  have hbody : readBody isHead (r.headLines policy) (r.body ++ more) =
      if hasNoBody isHead r.status.toNat then some ([], r.body ++ more)
      else some (r.body, more) := by
    rw [headLines_eq, readBody, statusCode_statusLine h.status_nonneg]
    by_cases hno : hasNoBody isHead r.status.toNat = true
    · simp only [hno, if_true]
    · rw [Bool.not_eq_true] at hno
      have hlen : ¬ (r.body ++ more).length < r.body.length := by
        rw [List.length_append]
        omega
      simp only [hno, Bool.false_eq_true, if_false, announcedLength_fields, h.size_eq hno,
        if_neg hlen, List.take_left, List.drop_left]
  rw [readResponse, cut_serialize_append h.reason_plain]
  simp only [hsplit, hbody]
  by_cases hno : hasNoBody isHead r.status.toNat = true
  · rw [if_pos hno, if_pos hno]
    rfl
  · rw [if_neg hno, if_neg hno]
    rfl

end Response

/-! ## Runs of responses -/

/-- A response sent, with the policy it was sent with and whether it answers HEAD. -/
structure Sent where
  isHead : Bool
  policy : ConnectionPolicy
  response : Response

namespace Sent

open Client

def wire (x : Sent) : Bytes := x.response.serialize x.policy

def received (x : Sent) : Received := x.response.received x.policy

def Stray (x : Sent) : Prop := x.response.StrayBody x.isHead

/-- A client reads the responses sent, one for each request, and nothing is left over of
them, exactly when none of them has a stray body. -/
theorem readResponses_eq_iff {run : List Sent} (hsound : ∀ x ∈ run, x.response.Sound x.isHead)
    (more : Bytes) :
    readResponses (run.map (·.isHead)) (run.flatMap wire ++ more) =
        some (run.map received, more) ↔ ∀ x ∈ run, ¬ x.Stray := by
  induction run with
  | nil => exact iff_of_true rfl fun x hx => absurd hx List.not_mem_nil
  | cons x run ih =>
      have hrest := ih fun y hy => hsound y (List.mem_cons_of_mem x hy)
      rw [List.map_cons, List.flatMap_cons, List.append_assoc, readResponses, wire,
        Response.readResponse_serialize (hsound x List.mem_cons_self), List.map_cons,
        List.forall_mem_cons]
      by_cases hno : hasNoBody x.isHead x.response.status.toNat = true
      · by_cases hbody : x.response.body = []
        · have hfirst : (⟨x.response.headLines x.policy, []⟩ : Received) = x.received := by
            rw [received, Response.received, hbody]
          have hquiet : ¬ x.Stray := fun h => h.2 hbody
          rw [if_pos hno, hbody, List.nil_append, and_iff_right hquiet, ← hrest]
          simp only [hfirst]
          rw [Option.map_eq_some_iff]
          constructor
          · rintro ⟨found, hfound, heq⟩
            rw [Prod.mk.injEq, List.cons.injEq] at heq
            rw [hfound, ← heq.1.2, ← heq.2]
          · intro h
            exact ⟨_, h, rfl⟩
        · refine iff_of_false ?_ fun h => h.1 ⟨hno, hbody⟩
          rw [if_pos hno]
          simp only
          rw [Option.map_eq_some_iff]
          rintro ⟨found, -, heq⟩
          rw [Prod.mk.injEq, List.cons.injEq] at heq
          exact hbody (congrArg Received.body heq.1.1).symm
      · have hquiet : ¬ x.Stray := fun h => hno h.1
        rw [if_neg hno, and_iff_right hquiet, ← hrest]
        simp only
        rw [Option.map_eq_some_iff]
        constructor
        · rintro ⟨found, hfound, heq⟩
          rw [Prod.mk.injEq, List.cons.injEq] at heq
          rw [hfound, ← heq.1.2, ← heq.2]
        · intro h
          exact ⟨_, h, rfl⟩

end Sent
end Http
end Garcon
