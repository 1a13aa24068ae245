import Garcon.App.DynamicModule

/-!
# The wire format read back

A serialized response is a head, an empty line and the body.  `headLines` lists
the lines the head is meant to consist of, and `Decodes` says that cutting the wire
text at its first empty line and splitting the head at its line breaks gives
these lines and the body.

Every line but the first is checked by `serialize` or made of fixed text.  The
status line carries the reason phrase as it is, so a response decodes exactly when
its reason phrase holds no line break.
-/

namespace Garcon
namespace Http

open Ascii Search

/-! ## Lines joined by line breaks -/

/-- Lines with a line break between each two. -/
def joinLines : List Bytes → Bytes
  | [] => []
  | [line] => line
  | line :: next :: lines => line ++ (crlf ++ joinLines (next :: lines))

theorem joinLines_cons {lines : List Bytes} (line : Bytes) (h : lines ≠ []) :
    joinLines (line :: lines) = line ++ (crlf ++ joinLines lines) := by
  cases lines with
  | nil => exact absurd rfl h
  | cons next lines => rfl

theorem flatMap_crlf {lines : List Bytes} (h : lines ≠ []) :
    lines.flatMap (· ++ crlf) = joinLines lines ++ crlf := by
  induction lines with
  | nil => exact absurd rfl h
  | cons line lines ih =>
    cases lines with
    | nil => simp [joinLines]
    | cons next lines =>
      rw [List.flatMap_cons, ih (by simp), joinLines_cons line (by simp)]
      simp

theorem fresh_crlf_iff {text : Bytes} : Fresh crlf text ↔ ¬ crlf <:+: text :=
  fresh_pair (by decide)

/-- A line after the first: not empty, and without carriage returns. -/
def PlainLine (line : Bytes) : Prop := line ≠ [] ∧ cr ∉ line

theorem not_crlf_prefix_joinLines {lines : List Bytes} (hne : lines ≠ [])
    (h : ∀ l ∈ lines, PlainLine l) (post : Bytes) : ¬ crlf <+: joinLines lines ++ post := by
  obtain ⟨line, lines, rfl⟩ := List.exists_cons_of_ne_nil hne
  obtain ⟨hline, hcr⟩ := h line List.mem_cons_self
  obtain ⟨b, line, rfl⟩ := List.exists_cons_of_ne_nil hline
  have hb : cr ≠ b := fun e => hcr (e ▸ List.mem_cons_self)
  cases lines with
  | nil => simp [joinLines, crlf, hb]
  | cons next lines => simp [joinLines, crlf, hb]

theorem crlf_prefix_append {x : UInt8} {l post : Bytes} :
    crlf <+: x :: (l ++ (crlf ++ post)) ↔ crlf <+: x :: (l ++ crlf) := by
  cases l <;> simp [crlf]

theorem not_headerEnd_prefix_of_fresh {x : UInt8} {l post : Bytes}
    (h : Fresh crlf (x :: l)) : ¬ headerEnd <+: x :: (l ++ (crlf ++ post)) := fun hp =>
  (fresh_cons.mp h).1 (crlf_prefix_append.mp ((List.prefix_append crlf crlf).trans hp))

/-- A last line is followed by the first empty line. -/
theorem fresh_headerEnd_of_fresh {line : Bytes} (h : Fresh crlf line) :
    Fresh headerEnd line := by
  induction line with
  | nil => exact fresh_nil headerEnd
  | cons x line ih =>
    exact fresh_cons.mpr ⟨not_headerEnd_prefix_of_fresh h, ih (fresh_cons.mp h).2⟩

/-- A line break followed by another line does not end the head. -/
theorem fresh_headerEnd_append {line rest : Bytes} (h : Fresh crlf line)
    (hnext : ¬ crlf <+: rest ++ headerEnd) (hrest : Fresh headerEnd rest) :
    Fresh headerEnd (line ++ (crlf ++ rest)) := by
  induction line with
  | nil =>
    have hhead : ¬ headerEnd <+: cr :: (lf :: rest ++ headerEnd) := by
      simpa [headerEnd, crlf] using hnext
    have hlf : ¬ headerEnd <+: lf :: (rest ++ headerEnd) := by simp [headerEnd, crlf, cr, lf]
    exact fresh_cons.mpr ⟨hhead, fresh_cons.mpr ⟨hlf, hrest⟩⟩
  | cons x line ih =>
    refine fresh_cons.mpr ⟨?_, ih (fresh_cons.mp h).2⟩
    have hassoc :
        (line ++ (crlf ++ rest)) ++ headerEnd = line ++ (crlf ++ (rest ++ headerEnd)) := by
      rw [List.append_assoc, List.append_assoc]
    show ¬ headerEnd <+: x :: ((line ++ (crlf ++ rest)) ++ headerEnd)
    rw [hassoc]
    exact not_headerEnd_prefix_of_fresh h

theorem fresh_headerEnd_joinLines {line : Bytes} {lines : List Bytes}
    (h : Fresh crlf line) (hlines : ∀ l ∈ lines, PlainLine l) :
    Fresh headerEnd (joinLines (line :: lines)) := by
  induction lines generalizing line with
  | nil => exact fresh_headerEnd_of_fresh h
  | cons next lines ih =>
    have hnext := hlines next List.mem_cons_self
    rw [joinLines_cons line (by simp)]
    exact fresh_headerEnd_append h (not_crlf_prefix_joinLines (by simp) hlines _)
      (ih (fresh_crlf hnext.2) fun l hl => hlines l (List.mem_cons_of_mem next hl))

theorem splitAll_joinLines {line : Bytes} {lines : List Bytes} (h : ¬ crlf <:+: line)
    (hlines : ∀ l ∈ lines, PlainLine l) :
    splitAll crlf crlf_ne_nil (joinLines (line :: lines)) = line :: lines := by
  induction lines generalizing line with
  | nil => exact splitAll_of_not_occurs h
  | cons next lines ih =>
    have hnext := hlines next List.mem_cons_self
    have hplain : ¬ crlf <:+: next := fun hi => hnext.2 (hi.subset (by simp [crlf]))
    have hfresh : Fresh crlf line := fresh_crlf_iff.mpr h
    rw [joinLines_cons line (by simp), splitAll_of_fresh hfresh,
      ih hplain fun l hl => hlines l (List.mem_cons_of_mem next hl)]

/-! ## The lines of a response -/

namespace Response

variable (r : Response) (policy : ConnectionPolicy)

def statusLine : Bytes := ascii "HTTP/1.1 " ++ (decimalInt r.status ++ (ascii " " ++ r.reason))

def connectionLine : Bytes := ascii "Connection: " ++ policyText policy

def contentLengthLine : Bytes := ascii "Content-Length: " ++ decimal r.wireBodySize

/-- The content type line, when the content type is set and free of line breaks. -/
def contentTypeLines : List Bytes :=
  if r.contentType ≠ [] ∧ cr ∉ r.contentType ∧ lf ∉ r.contentType then
    [ascii "Content-Type: " ++ r.contentType]
  else []

/-- The header fields that reach the wire: named by a token that is not reserved,
with a value free of line breaks. -/
def wireHeaders : List HeaderField :=
  r.headers.filter fun h =>
    !isReservedHeader h.name r.contentTypeWritten && validHeaderName h.name &&
      validHeaderValue h.value

def headerLine (h : HeaderField) : Bytes := h.name ++ (ascii ": " ++ h.value)

/-- A header field that is written beside this content type: no name that the server writes
itself, in any case, and nothing that is no line of its own. -/
structure Writable (contentType : Bytes) (h : HeaderField) : Prop where
  name : isToken h.name = true
  value : cr ∉ h.value ∧ lf ∉ h.value
  not_connection : h.name.map lower ≠ ascii "connection"
  not_contentLength : h.name.map lower ≠ ascii "content-length"
  not_contentType : h.name.map lower = ascii "content-type" →
    contentType = [] ∨ cr ∈ contentType ∨ lf ∈ contentType

instance (contentType : Bytes) (h : HeaderField) : Decidable (Writable contentType h) :=
  decidable_of_iff (isToken h.name = true ∧ (cr ∉ h.value ∧ lf ∉ h.value) ∧
      h.name.map lower ≠ ascii "connection" ∧ h.name.map lower ≠ ascii "content-length" ∧
      (h.name.map lower = ascii "content-type" →
        contentType = [] ∨ cr ∈ contentType ∨ lf ∈ contentType))
    ⟨fun h => ⟨h.1, h.2.1, h.2.2.1, h.2.2.2.1, h.2.2.2.2⟩,
      fun h => ⟨h.name, h.value, h.not_connection, h.not_contentLength, h.not_contentType⟩⟩

/-- The lines that a head with these contents is meant to have. -/
def meantLines (policy : ConnectionPolicy) (status : Int) (reason contentType : Bytes)
    (length : Nat) (headers : List HeaderField) : List Bytes :=
  [ascii "HTTP/1.1 " ++ (decimalInt status ++ (ascii " " ++ reason)),
    ascii "Connection: " ++ (if policy = .keepAlive then ascii "keep-alive" else ascii "close"),
    ascii "Content-Length: " ++ decimal length] ++
  (if contentType = [] ∨ cr ∈ contentType ∨ lf ∈ contentType then []
    else [ascii "Content-Type: " ++ contentType]) ++
  (headers.filter fun h => Writable contentType h).map fun h => h.name ++ (ascii ": " ++ h.value)

/-- The head of the response, line by line. -/
def headLines : List Bytes :=
  r.statusLine :: connectionLine policy :: r.contentLengthLine ::
    (r.contentTypeLines ++ r.wireHeaders.map headerLine)

/-- Reading the wire text back gives the intended lines and the body. -/
def Decodes : Prop :=
  ∃ head, cut headerEnd (r.serialize policy) = some (head, r.body) ∧
    splitAll crlf crlf_ne_nil head = r.headLines policy

theorem contentTypeWritten_iff :
    r.contentTypeWritten = true ↔
      r.contentType ≠ [] ∧ cr ∉ r.contentType ∧ lf ∉ r.contentType := by
  rw [contentTypeWritten, Bool.and_eq_true, validHeaderValue_iff]
  simp

theorem not_contentTypeWritten_iff :
    r.contentTypeWritten = false ↔
      r.contentType = [] ∨ cr ∈ r.contentType ∨ lf ∈ r.contentType := by
  rw [← Bool.not_eq_true, contentTypeWritten_iff, not_and_or, not_and_or, not_not, not_not,
    not_not]

/-- The filter of `serialize` keeps the fields that may be written. -/
theorem writable_iff (h : HeaderField) :
    Writable r.contentType h ↔
      (!isReservedHeader h.name r.contentTypeWritten && validHeaderName h.name &&
        validHeaderValue h.value) = true := by
  have hconnection : headerNameEquals h.name (ascii "Connection") = true ↔
      h.name.map lower = ascii "connection" := by
    rw [headerNameEquals_iff, show (ascii "Connection").map lower = ascii "connection" by
      decide +kernel]
  have hlength : headerNameEquals h.name (ascii "Content-Length") = true ↔
      h.name.map lower = ascii "content-length" := by
    rw [headerNameEquals_iff, show (ascii "Content-Length").map lower = ascii "content-length" by
      decide +kernel]
  have htype : headerNameEquals h.name (ascii "Content-Type") = true ↔
      h.name.map lower = ascii "content-type" := by
    rw [headerNameEquals_iff, show (ascii "Content-Type").map lower = ascii "content-type" by
      decide +kernel]
  have hreserved : isReservedHeader h.name r.contentTypeWritten = false ↔
      h.name.map lower ≠ ascii "connection" ∧ h.name.map lower ≠ ascii "content-length" ∧
        (h.name.map lower = ascii "content-type" →
          r.contentType = [] ∨ cr ∈ r.contentType ∨ lf ∈ r.contentType) := by
    rw [← not_contentTypeWritten_iff, ne_eq, ne_eq, ← hconnection, ← hlength, ← htype,
      isReservedHeader]
    cases headerNameEquals h.name (ascii "Connection") <;>
      cases headerNameEquals h.name (ascii "Content-Length") <;>
      cases headerNameEquals h.name (ascii "Content-Type") <;> simp
  rw [Bool.and_eq_true, Bool.and_eq_true, Bool.not_eq_true', hreserved, validHeaderValue_iff]
  constructor
  · rintro ⟨hname, hvalue, hconnection, hlength, htype⟩
    exact ⟨⟨⟨hconnection, hlength, htype⟩, hname⟩, hvalue⟩
  · rintro ⟨⟨hnot, hname⟩, hvalue⟩
    exact ⟨hname, hvalue, hnot.1, hnot.2.1, hnot.2.2⟩

theorem headLines_eq_meantLines :
    r.headLines policy = meantLines policy r.status r.reason r.contentType r.wireBodySize
      r.headers := by
  have hpolicy : policyText policy =
      if policy = .keepAlive then ascii "keep-alive" else ascii "close" := by
    cases policy <;> rfl
  have hfields : r.wireHeaders = r.headers.filter fun h => Writable r.contentType h := by
    unfold wireHeaders
    apply List.filter_congr
    intro h _
    rw [← Bool.coe_iff_coe, decide_eq_true_iff, r.writable_iff]
  have htype : r.contentTypeLines =
      if r.contentType = [] ∨ cr ∈ r.contentType ∨ lf ∈ r.contentType then []
      else [ascii "Content-Type: " ++ r.contentType] := by
    unfold contentTypeLines
    cases hset : r.contentTypeWritten with
    | true =>
      have hnot : ¬ (r.contentType = [] ∨ cr ∈ r.contentType ∨ lf ∈ r.contentType) := fun h =>
        absurd hset (r.not_contentTypeWritten_iff.mpr h ▸ Bool.false_ne_true)
      rw [if_pos (r.contentTypeWritten_iff.mp hset), if_neg hnot]
    | false =>
      have hnot : ¬ (r.contentType ≠ [] ∧ cr ∉ r.contentType ∧ lf ∉ r.contentType) := fun h =>
        absurd (r.contentTypeWritten_iff.mpr h) (hset ▸ Bool.false_ne_true)
      rw [if_neg hnot, if_pos (r.not_contentTypeWritten_iff.mp hset)]
  rw [headLines, connectionLine, hpolicy, hfields, htype]
  rfl

theorem flatMap_serializeHeader (written : Bool) (headers : List HeaderField) :
    headers.flatMap (serializeHeader written) =
      ((headers.filter fun h => !isReservedHeader h.name written && validHeaderName h.name &&
        validHeaderValue h.value).map headerLine).flatMap (· ++ crlf) := by
  induction headers with
  | nil => rfl
  | cons h headers ih =>
    rw [List.flatMap_cons, ih, serializeHeader]
    cases hres : isReservedHeader h.name written <;> cases hname : validHeaderName h.name <;>
      cases hvalue : validHeaderValue h.value <;>
      simp [hres, hname, hvalue, headerLine]

/-- The wire text is the lines of the head, an empty line and the body. -/
theorem serialize_eq :
    r.serialize policy = joinLines (r.headLines policy) ++ (headerEnd ++ r.body) := by
  have hlines : joinLines (r.headLines policy) ++ crlf =
      (r.headLines policy).flatMap (· ++ crlf) := (flatMap_crlf (by simp [headLines])).symm
  rw [headerEnd, ← List.append_assoc, ← List.append_assoc, hlines, serialize,
    flatMap_serializeHeader]
  simp only [headLines, contentTypeLines, ← contentTypeWritten_iff, wireHeaders,
    List.flatMap_cons, List.flatMap_append, statusLine, connectionLine, contentLengthLine]
  cases r.contentTypeWritten <;> simp

theorem plainLine_of_mem {line : Bytes} (h : line ∈ (r.headLines policy).tail) :
    PlainLine line := by
  simp only [headLines, List.tail_cons, List.mem_cons, List.mem_append, List.mem_map] at h
  rcases h with rfl | rfl | h | ⟨f, hf, rfl⟩
  · cases policy <;> exact ⟨by decide, by decide⟩
  · refine ⟨by simp [contentLengthLine, ascii], ?_⟩
    have hdigits : cr ∉ decimal r.wireBodySize := fun hm => by
      simpa [isDigit, cr] using isDigit_of_mem_decimal hm
    simp only [contentLengthLine, List.mem_append, not_or]
    exact ⟨by decide, hdigits⟩
  · unfold contentTypeLines at h
    split at h
    · next hct =>
      rw [List.mem_singleton] at h
      subst h
      refine ⟨by simp [ascii], ?_⟩
      rw [List.mem_append, not_or]
      exact ⟨by decide, hct.2.1⟩
    · simp at h
  · simp only [wireHeaders, List.mem_filter, Bool.and_eq_true] at hf
    obtain ⟨-, ⟨-, hname⟩, hvalue⟩ := hf
    have hne := isToken_ne_nil hname
    refine ⟨by simp [headerLine, hne], ?_⟩
    simp only [headerLine, List.mem_append, not_or]
    exact ⟨not_mem_of_isToken hname (by decide), by decide, (validHeaderValue_iff.mp hvalue).1⟩

theorem headLines_eq : r.headLines policy = r.statusLine :: (r.headLines policy).tail := rfl

/-- The status line in front of the reason phrase. -/
def statusPrefix : Bytes := ascii "HTTP/1.1 " ++ (decimalInt r.status ++ ascii " ")

theorem cr_not_mem_statusPrefix : cr ∉ r.statusPrefix := by
  simp only [statusPrefix, List.mem_append, not_or]
  exact ⟨by decide, not_mem_decimalInt (by decide) (by decide), by decide⟩

theorem statusLine_eq : r.statusLine = r.statusPrefix ++ r.reason := by
  simp [statusLine, statusPrefix]

/-- A status line holds a line break exactly when its reason phrase does. -/
theorem crlf_infix_statusLine : crlf <:+: r.statusLine ↔ crlf <:+: r.reason := by
  rw [← not_iff_not, ← find_eq_none_iff, ← find_eq_none_iff, statusLine_eq]
  show find (cr :: [lf]) _ = none ↔ find (cr :: [lf]) _ = none
  rw [find_append_of_head_not_mem r.cr_not_mem_statusPrefix, Option.map_eq_none_iff]

variable {r policy}

/-- With anything behind it, a response whose reason phrase holds no line break is
cut at the end of its head. -/
theorem cut_serialize_append (h : ¬ crlf <:+: r.reason) (more : Bytes) :
    cut headerEnd (r.serialize policy ++ more) =
      some (joinLines (r.headLines policy), r.body ++ more) := by
  have hline : Fresh crlf r.statusLine :=
    fresh_crlf_iff.mpr fun hi => h (r.crlf_infix_statusLine.mp hi)
  rw [serialize_eq, List.append_assoc, List.append_assoc]
  exact cut_of_fresh
    (fresh_headerEnd_joinLines hline fun l hl => r.plainLine_of_mem policy hl) _

/-- A response decodes exactly when its reason phrase holds no line break. -/
theorem decodes_iff : r.Decodes policy ↔ ¬ crlf <:+: r.reason := by
  constructor
  · rintro ⟨head, -, hsplit⟩ hi
    have hmem : r.statusLine ∈ splitAll crlf crlf_ne_nil head := by
      rw [hsplit]
      exact List.mem_cons_self
    exact not_infix_of_mem_splitAll hmem (r.crlf_infix_statusLine.mpr hi)
  · intro h
    refine ⟨joinLines (r.headLines policy), ?_, ?_⟩
    · have hcut : cut headerEnd (r.serialize policy ++ []) =
          some (joinLines (r.headLines policy), r.body ++ []) := cut_serialize_append h []
      rwa [List.append_nil, List.append_nil] at hcut
    · exact splitAll_joinLines (fun hi => h (r.crlf_infix_statusLine.mp hi))
        fun l hl => r.plainLine_of_mem policy hl

end Response

/-! ## Published responses -/

/-- For every response a module may publish and either policy, the wire text decodes to the
lines that the published view means and its body exactly when the published reason phrase
holds no line break.  A status of 0 means 200, and an empty reason phrase means OK. -/
theorem published_decodes_iff (view : Abi.ResponseView) (policy : ConnectionPolicy) :
    (∃ head, cut headerEnd ((App.toHttpResponse view).serialize policy) =
        some (head, view.body.copy) ∧
      splitAll crlf crlf_ne_nil head = Response.meantLines policy
        (if view.status = 0 then 200 else view.status)
        (if view.reason.copy = [] then ascii "OK" else view.reason.copy) view.contentType.copy
        (if view.hasContentLength then view.contentLength else view.body.copy.length)
        (view.headers.map fun h => ⟨h.name.copy, h.value.copy⟩)) ↔
      ¬ crlf <:+: view.reason.copy := by
  have hmeant : (App.toHttpResponse view).headLines policy = Response.meantLines policy
      (if view.status = 0 then 200 else view.status)
      (if view.reason.copy = [] then ascii "OK" else view.reason.copy) view.contentType.copy
      (if view.hasContentLength then view.contentLength else view.body.copy.length)
      (view.headers.map fun h => ⟨h.name.copy, h.value.copy⟩) := by
    have hreason : (App.toHttpResponse view).reason =
        if view.reason.copy = [] then ascii "OK" else view.reason.copy := by
      cases h : view.reason.copy <;> simp [App.toHttpResponse, h]
    have hlength : (App.toHttpResponse view).wireBodySize =
        if view.hasContentLength then view.contentLength else view.body.copy.length := by
      cases h : view.hasContentLength <;> simp [App.toHttpResponse, Response.wireBodySize, h]
    rw [Response.headLines_eq_meantLines, hreason, hlength]
    rfl
  rw [← hmeant]
  show (App.toHttpResponse view).Decodes policy ↔ _
  rw [Response.decodes_iff]
  cases h : view.reason.copy with
  | nil =>
    simp only [App.toHttpResponse, h, List.isEmpty_nil, if_true]
    exact iff_of_true (by decide) (by simp [crlf])
  | cons b reason => simp [App.toHttpResponse, h]

/-- A reason phrase that smuggles a header line into the head. -/
def splittingView : Abi.ResponseView where
  status := 200
  reason := .of (ascii "OK" ++ crlf ++ ascii "Set-Cookie: a=b")
  contentType := .null
  headers := []
  body := .of (ascii "hi")
  contentLength := 2
  hasContentLength := true

theorem published_response_splits :
    ¬ ∀ (view : Abi.ResponseView) (policy : ConnectionPolicy),
      ∃ head, cut headerEnd ((App.toHttpResponse view).serialize policy) =
          some (head, view.body.copy) ∧
        splitAll crlf crlf_ne_nil head = Response.meantLines policy
          (if view.status = 0 then 200 else view.status)
          (if view.reason.copy = [] then ascii "OK" else view.reason.copy) view.contentType.copy
          (if view.hasContentLength then view.contentLength else view.body.copy.length)
          (view.headers.map fun h => ⟨h.name.copy, h.value.copy⟩) := fun h => by
  obtain ⟨head, hcut, hsplit⟩ := h splittingView .close
  have hcut' : cut headerEnd ((App.toHttpResponse splittingView).serialize .close) =
      some (ascii "HTTP/1.1 200 OK" ++ crlf ++ ascii "Set-Cookie: a=b" ++ crlf ++
        ascii "Connection: close" ++ crlf ++ ascii "Content-Length: 2", ascii "hi") := by
    decide +kernel
  rw [hcut', Option.some.injEq, Prod.mk.injEq] at hcut
  rw [← hcut.1] at hsplit
  exact absurd hsplit (by decide +kernel)

end Http
end Garcon
