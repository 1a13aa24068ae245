import Garcon.Http.Client

/-!
# Header fields on the wire

The lines behind the status line are field lines.  By a name that `serialize` writes
itself, or that a module has given, they hold just the fields that were meant.

A client finds its field lines in the head that ends at the first empty line, so the reason
phrase has a say in them: each of its line breaks begins another line, and an empty line of
its own ends the head before the fields that were meant.
-/

namespace Garcon
namespace Http

open Ascii Search

/-- A field line has a value for the names that equal its own. -/
theorem fieldValue_line {found value : Bytes} (hfound : (0x3a : UInt8) ∉ found) (name : Bytes) :
    Client.fieldValue name (found ++ (ascii ": " ++ value)) =
      if iequals found name then some (trimOptionalWhitespace (sp :: value)) else none := by
  have hline : found ++ (ascii ": " ++ value) = found ++ ([0x3a] ++ (sp :: value)) := rfl
  rw [Client.fieldValue, hline, cut_of_fresh (fresh_singleton.mpr hfound)]

namespace Response

variable (r : Response) (policy : ConnectionPolicy)

/-- The values of the field lines with this name, in order. -/
def fieldsNamed (name : Bytes) : List Bytes :=
  (r.headLines policy).tail.filterMap (Client.fieldValue name)

theorem fieldValue_contentLengthLine_of_ne {name : Bytes}
    (hname : iequals (ascii "Content-Length") name = false) :
    Client.fieldValue name r.contentLengthLine = none := by
  have hline : r.contentLengthLine =
      ascii "Content-Length" ++ (ascii ": " ++ decimal r.wireBodySize) := by
    simp [contentLengthLine, ascii]
  rw [hline, fieldValue_line (by decide +kernel), hname]
  rfl

theorem fieldValue_connectionLine (name : Bytes) :
    Client.fieldValue name (connectionLine policy) =
      if iequals (ascii "Connection") name then some (policyText policy) else none := by
  have hline : connectionLine policy =
      ascii "Connection" ++ (ascii ": " ++ policyText policy) := by
    simp [connectionLine, ascii]
  have htrim : trimOptionalWhitespace (sp :: policyText policy) = policyText policy := by
    cases policy <;> decide +kernel
  rw [hline, fieldValue_line (by decide +kernel), htrim]

theorem fieldValue_contentTypeLines_of_ne {name : Bytes}
    (hname : iequals (ascii "Content-Type") name = false) :
    r.contentTypeLines.filterMap (Client.fieldValue name) = [] := by
  unfold contentTypeLines
  split
  · have hline : ascii "Content-Type: " ++ r.contentType =
        ascii "Content-Type" ++ (ascii ": " ++ r.contentType) := by
      simp [ascii]
    rw [hline]
    apply List.filterMap_cons_none
    rw [fieldValue_line (by decide +kernel), hname]
    rfl
  · rfl

theorem fieldValue_headerLine {h : HeaderField} (hmem : h ∈ r.wireHeaders) (name : Bytes) :
    Client.fieldValue name (headerLine h) =
      if headerNameEquals h.name name then some (trimOptionalWhitespace (sp :: h.value))
      else none := by
  simp only [wireHeaders, List.mem_filter, Bool.and_eq_true] at hmem
  have hcolon : (0x3a : UInt8) ∉ h.name :=
    not_mem_of_isToken hmem.2.1.2 (by simp)
  exact fieldValue_line hcolon name

/-- No header field has a name that `serialize` has reserved. -/
theorem filterMap_wireHeaders_of_reserved {name : Bytes}
    (hreserved : ∀ h ∈ r.wireHeaders, headerNameEquals h.name name = false) :
    (r.wireHeaders.map headerLine).filterMap (Client.fieldValue name) = [] := by
  rw [List.filterMap_eq_nil_iff]
  intro line hline
  obtain ⟨h, hmem, rfl⟩ := List.mem_map.mp hline
  rw [r.fieldValue_headerLine hmem, hreserved h hmem]
  rfl

theorem reserved_of_mem_wireHeaders {h : HeaderField} (hmem : h ∈ r.wireHeaders) :
    headerNameEquals h.name (ascii "Connection") = false ∧
      headerNameEquals h.name (ascii "Content-Length") = false := by
  simp only [wireHeaders, List.mem_filter, isReservedHeader, Bool.and_eq_true,
    Bool.not_eq_true', Bool.or_eq_false_iff] at hmem
  exact hmem.2.1.1.1

/-- No module adds to the connection field. -/
theorem fieldsNamed_connection :
    r.fieldsNamed policy (ascii "Connection") = [policyText policy] := by
  have hheaders := r.filterMap_wireHeaders_of_reserved fun h hmem =>
    (r.reserved_of_mem_wireHeaders hmem).1
  have hlength : iequals (ascii "Content-Length") (ascii "Connection") = false := by
    decide +kernel
  have htype : iequals (ascii "Content-Type") (ascii "Connection") = false := by decide +kernel
  have hself : iequals (ascii "Connection") (ascii "Connection") = true := iequals_iff.mpr rfl
  unfold fieldsNamed
  rw [headLines, List.tail_cons,
    List.filterMap_cons_some (by rw [fieldValue_connectionLine, hself]; rfl),
    List.filterMap_cons_none (r.fieldValue_contentLengthLine_of_ne hlength),
    List.filterMap_append, r.fieldValue_contentTypeLines_of_ne htype, hheaders]
  rfl

/-- Nor to the length of the content. -/
theorem fieldsNamed_contentLength :
    r.fieldsNamed policy (ascii "Content-Length") = [decimal r.wireBodySize] := by
  have hheaders := r.filterMap_wireHeaders_of_reserved fun h hmem =>
    (r.reserved_of_mem_wireHeaders hmem).2
  have hconnection : iequals (ascii "Connection") (ascii "Content-Length") = false := by
    decide +kernel
  have htype : iequals (ascii "Content-Type") (ascii "Content-Length") = false := by
    decide +kernel
  unfold fieldsNamed
  rw [headLines, List.tail_cons,
    List.filterMap_cons_none (by rw [fieldValue_connectionLine, hconnection]; rfl),
    List.filterMap_cons_some r.fieldValue_contentLengthLine,
    List.filterMap_append, r.fieldValue_contentTypeLines_of_ne htype, hheaders]
  rfl

/-- A name that `serialize` does not write itself is on the wire when a header field that
reaches the wire has it. -/
theorem fieldsNamed_ne_nil_iff {name : Bytes}
    (hconnection : iequals (ascii "Connection") name = false)
    (hlength : iequals (ascii "Content-Length") name = false)
    (htype : iequals (ascii "Content-Type") name = false) :
    r.fieldsNamed policy name ≠ [] ↔
      ∃ h ∈ r.wireHeaders, headerNameEquals h.name name = true := by
  unfold fieldsNamed
  rw [headLines, List.tail_cons,
    List.filterMap_cons_none (by rw [fieldValue_connectionLine, hconnection]; rfl),
    List.filterMap_cons_none (r.fieldValue_contentLengthLine_of_ne hlength),
    List.filterMap_append, r.fieldValue_contentTypeLines_of_ne htype, List.nil_append, ne_eq,
    List.filterMap_eq_nil_iff]
  constructor
  · intro hsome
    by_contra hnone
    apply hsome
    intro line hline
    obtain ⟨h, hmem, rfl⟩ := List.mem_map.mp hline
    have hother : headerNameEquals h.name name = false := by
      rw [← Bool.not_eq_true]
      exact fun hequal => hnone ⟨h, hmem, hequal⟩
    rw [r.fieldValue_headerLine hmem, hother]
    rfl
  · rintro ⟨h, hmem, hequal⟩ hnone
    have hvalue := hnone (headerLine h) (List.mem_map.mpr ⟨h, hmem, rfl⟩)
    rw [r.fieldValue_headerLine hmem, hequal] at hvalue
    cases hvalue

end Response

/-! ## The head as it is read -/

/-- The field lines that a client finds: those behind the first line of the head. -/
def fieldLines (wire : Bytes) : List Bytes :=
  match cut headerEnd wire with
  | none => []
  | some (head, _) => (splitAll crlf crlf_ne_nil head).tail

def hasField (name wire : Bytes) : Bool :=
  (fieldLines wire).any fun line => (Client.fieldValue name line).isSome

/-- The lines that a reason phrase puts behind its first, up to an empty one. -/
def reasonLines (reason : Bytes) : List Bytes :=
  match cut headerEnd (reason ++ crlf) with
  | none => (splitAll crlf crlf_ne_nil reason).tail
  | some (head, _) => (splitAll crlf crlf_ne_nil head).tail

/-- With no empty line in the text before them, plain lines go on to the end of the head. -/
theorem fresh_headerEnd_append_joinLines {text : Bytes} {lines : List Bytes}
    (htext : ¬ headerEnd <:+: text ++ crlf) (hne : lines ≠ [])
    (hlines : ∀ l ∈ lines, PlainLine l) :
    Fresh headerEnd (text ++ (crlf ++ joinLines lines)) := by
  have hnext := not_crlf_prefix_joinLines hne hlines
  induction text with
  | nil =>
    obtain ⟨line, lines, rfl⟩ := List.exists_cons_of_ne_nil hne
    have hline := hlines line List.mem_cons_self
    exact fresh_headerEnd_append (fresh_nil crlf) (hnext headerEnd)
      (fresh_headerEnd_joinLines (fresh_crlf hline.2) fun l hl =>
        hlines l (List.mem_cons_of_mem line hl))
  | cons x text ih =>
    rw [List.cons_append, List.infix_cons_iff, not_or] at htext
    refine fresh_cons.mpr ⟨?_, ih htext.2⟩
    intro hstarts
    -- four bytes fit into the text and its line break, unless the text is one byte
    cases text with
    | nil => simp [headerEnd, crlf, cr, lf] at hstarts
    | cons y text =>
      have hsplit : x :: ((y :: text) ++ (crlf ++ joinLines lines) ++ headerEnd) =
          x :: ((y :: text) ++ crlf) ++ (joinLines lines ++ headerEnd) := by simp
      replace hstarts :
          headerEnd <+: x :: ((y :: text) ++ (crlf ++ joinLines lines) ++ headerEnd) := hstarts
      rw [hsplit] at hstarts
      refine htext.1 (List.prefix_of_prefix_length_le hstarts (List.prefix_append _ _) ?_)
      simp [headerEnd, crlf]

namespace Response

variable (r : Response) (policy : ConnectionPolicy)

/-- The wire text from the reason phrase on. -/
theorem serialize_eq_statusPrefix :
    r.serialize policy = r.statusPrefix ++ (r.reason ++ (crlf ++
      (joinLines (r.headLines policy).tail ++ (headerEnd ++ r.body)))) := by
  rw [serialize_eq, headLines_eq, joinLines_cons r.statusLine (by simp [headLines]),
    statusLine_eq]
  simp

/-- No head ends in front of the reason phrase. -/
theorem fresh_statusPrefix_append {head : Bytes} (h : Fresh headerEnd head) :
    Fresh headerEnd (r.statusPrefix ++ head) :=
  (fresh_append_of_head_not_mem r.cr_not_mem_statusPrefix).mpr h

/-- An empty line in the reason phrase, or at its end, ends the head. -/
theorem cut_serialize_of_ended {head rest : Bytes}
    (hcut : cut headerEnd (r.reason ++ crlf) = some (head, rest)) :
    ∃ behind, cut headerEnd (r.serialize policy) = some (r.statusPrefix ++ head, behind) := by
  obtain ⟨hsplit, hfresh⟩ := cut_eq_some_iff.mp hcut
  have hwire : r.serialize policy = (r.statusPrefix ++ head) ++ (headerEnd ++ (rest ++
      (joinLines (r.headLines policy).tail ++ (headerEnd ++ r.body)))) := by
    rw [serialize_eq_statusPrefix, ← List.append_assoc r.reason, hsplit]
    simp
  rw [hwire]
  exact ⟨_, cut_of_fresh (r.fresh_statusPrefix_append hfresh) _⟩

/-- Otherwise it ends behind the lines that were meant. -/
theorem cut_serialize_of_open (hopen : ¬ headerEnd <:+: r.reason ++ crlf) :
    cut headerEnd (r.serialize policy) = some (r.statusPrefix ++ (r.reason ++ (crlf ++
      joinLines (r.headLines policy).tail)), r.body) := by
  have hplain : ∀ l ∈ (r.headLines policy).tail, PlainLine l :=
    fun l hl => r.plainLine_of_mem policy hl
  have hfresh := fresh_headerEnd_append_joinLines hopen (by simp [headLines]) hplain
  have hwire : r.serialize policy = (r.statusPrefix ++ (r.reason ++ (crlf ++
      joinLines (r.headLines policy).tail))) ++ (headerEnd ++ r.body) := by
    rw [serialize_eq_statusPrefix]
    simp
  rw [hwire]
  exact cut_of_fresh (r.fresh_statusPrefix_append hfresh) _

/-- The lines from the reason phrase on. -/
theorem splitAll_reason_append :
    splitAll crlf crlf_ne_nil (r.reason ++ (crlf ++ joinLines (r.headLines policy).tail)) =
      splitAll crlf crlf_ne_nil r.reason ++ (r.headLines policy).tail := by
  have hplain : ∀ l ∈ (r.headLines policy).tail, PlainLine l :=
    fun l hl => r.plainLine_of_mem policy hl
  have hfirst := hplain (connectionLine policy) List.mem_cons_self
  have hlines : splitAll crlf crlf_ne_nil (joinLines (r.headLines policy).tail) =
      (r.headLines policy).tail :=
    splitAll_joinLines (fun hi => hfirst.2 (hi.subset (by simp [crlf])))
      fun l hl => hplain l (List.mem_cons_of_mem _ hl)
  rw [splitAll_append_of_fresh fun a => fresh_crlf_iff.mpr, hlines]

/-- The field lines that are read: those of the reason phrase, and behind them those that
were meant unless the reason phrase has ended the head. -/
theorem fieldLines_serialize :
    fieldLines (r.serialize policy) =
      if headerEnd <:+: r.reason ++ crlf then reasonLines r.reason
      else reasonLines r.reason ++ (r.headLines policy).tail := by
  have hpre := r.cr_not_mem_statusPrefix
  unfold fieldLines reasonLines
  by_cases hends : headerEnd <:+: r.reason ++ crlf
  · cases hcut : cut headerEnd (r.reason ++ crlf) with
    | none => exact absurd hends (cut_eq_none_iff.mp hcut)
    | some found =>
      obtain ⟨head, rest⟩ := found
      obtain ⟨behind, hwire⟩ := r.cut_serialize_of_ended policy hcut
      rw [if_pos hends, hwire]
      exact tail_splitAll_append hpre head
  · rw [if_neg hends, r.cut_serialize_of_open policy hends, cut_eq_none_iff.mpr hends]
    calc (splitAll crlf crlf_ne_nil (r.statusPrefix ++ (r.reason ++ (crlf ++
          joinLines (r.headLines policy).tail)))).tail
        = (splitAll crlf crlf_ne_nil (r.reason ++ (crlf ++
            joinLines (r.headLines policy).tail))).tail := tail_splitAll_append hpre _
      _ = (splitAll crlf crlf_ne_nil r.reason).tail ++ (r.headLines policy).tail := by
          rw [splitAll_reason_append, List.tail_append_of_ne_nil (splitAll_ne_nil _)]

theorem hasField_serialize_iff (name : Bytes) :
    hasField name (r.serialize policy) = true ↔
      (∃ line ∈ reasonLines r.reason, (Client.fieldValue name line).isSome = true) ∨
        ¬ headerEnd <:+: r.reason ++ crlf ∧ r.fieldsNamed policy name ≠ [] := by
  have hnamed : r.fieldsNamed policy name ≠ [] ↔
      ∃ line ∈ (r.headLines policy).tail, (Client.fieldValue name line).isSome = true := by
    unfold fieldsNamed
    simp only [ne_eq, List.filterMap_eq_nil_iff, not_forall, exists_prop, Option.isSome_iff_ne_none]
  rw [hasField, List.any_eq_true, fieldLines_serialize, hnamed]
  by_cases hends : headerEnd <:+: r.reason ++ crlf
  · rw [if_pos hends]
    exact ⟨Or.inl, fun h => h.resolve_right fun hright => hright.1 hends⟩
  · rw [if_neg hends, and_iff_right hends]
    simp only [List.mem_append, or_and_right, exists_or]

end Response
end Http
end Garcon
