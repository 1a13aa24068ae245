import Garcon.Http.Request
import Garcon.Http.Framing

/-!
# The request grammar

`Grammar s r rest` spells out the texts a request may be read from: a request
line, header lines with free whitespace around each value, an empty line, and an
arbitrary `rest`.  `parse_ok_iff` shows that `request::parse` accepts exactly these
texts and returns exactly the request they spell.

A header block delivered by the framing loop has a single empty line, at its end.
The grammar then leaves nothing for `rest`, which is `grammar_of_block`.
-/

namespace Garcon
namespace Http

open Ascii Search Trim

/-- A header line with the whitespace around its value kept apart. -/
structure HeaderLine where
  name : Bytes
  lead : Bytes
  value : Bytes
  trail : Bytes

namespace HeaderLine

def text (l : HeaderLine) : Bytes := l.name ++ (0x3a :: (l.lead ++ (l.value ++ l.trail)))

def field (l : HeaderLine) : HeaderField := ⟨l.name, l.value⟩

/-- The value starts and ends outside the whitespace and holds no control byte
but tabs. -/
structure Valid (l : HeaderLine) : Prop where
  name : isToken l.name = true
  lead : ∀ b ∈ l.lead, b = sp ∨ b = tab
  trail : ∀ b ∈ l.trail, b = sp ∨ b = tab
  trimmed : Trimmed isOptionalWhitespace l.value
  clean : ∀ b ∈ l.value, b = tab ∨ (0x20 ≤ b.toNat ∧ b.toNat ≠ 0x7f)

end HeaderLine

/-- The two versions with the numbers they stand for. -/
def VersionText (version : Bytes) (major minor : Int) : Prop :=
  (version = ascii "HTTP/1.0" ∧ major = 1 ∧ minor = 0) ∨
    (version = ascii "HTTP/1.1" ∧ major = 1 ∧ minor = 1)

/-- An origin-form target: a slash and printable bytes without `#` and `\`. -/
def TargetText (target : Bytes) : Prop :=
  target.head? = some 0x2f ∧
    ∀ b ∈ target, 0x21 ≤ b.toNat ∧ b.toNat ≤ 0x7e ∧ b ≠ 0x23 ∧ b ≠ 0x5c

def headerText (lines : List HeaderLine) : Bytes := lines.flatMap fun l => l.text ++ crlf

/-- The text `s` spells the request `r`, followed by `rest`. -/
def Grammar (s : Bytes) (r : Request) (rest : Bytes) : Prop :=
  ∃ (version : Bytes) (lines : List HeaderLine),
    isToken r.method = true ∧ TargetText r.target ∧
      VersionText version r.versionMajor r.versionMinor ∧
      (∀ l ∈ lines, l.Valid) ∧ r.headers = lines.map HeaderLine.field ∧
      s = r.method ++ (sp :: (r.target ++ (sp :: version))) ++
        (crlf ++ (headerText lines ++ (crlf ++ rest)))

/-! ## Character classes -/

theorem isValidTarget_iff {target : Bytes} : isValidTarget target = true ↔ TargetText target := by
  simp only [isValidTarget, TargetText, Bool.and_eq_true, beq_iff_eq, List.all_eq_true,
    Bool.not_eq_true', Bool.or_eq_false_iff, decide_eq_false_iff_not,
    UInt8.le_iff_toNat_le, UInt8.reduceToNat, beq_eq_false_iff_ne, ne_eq]
  refine and_congr_right fun _ => forall₂_congr fun b _ => ?_
  constructor
  · rintro ⟨h₁, h₂⟩
    exact ⟨by omega, by omega, h₂⟩
  · rintro ⟨h₁, h₂, h₃⟩
    exact ⟨by omega, h₃⟩

theorem isValidHeaderValue_iff {value : Bytes} : isValidHeaderValue value = true ↔
    ∀ b ∈ value, b = tab ∨ (0x20 ≤ b.toNat ∧ b.toNat ≠ 0x7f) := by
  simp only [isValidHeaderValue, List.all_eq_true, Bool.or_eq_true, beq_iff_eq,
    Bool.not_eq_true', Bool.or_eq_false_iff, decide_eq_false_iff_not,
    UInt8.lt_iff_toNat_lt, UInt8.reduceToNat, beq_eq_false_iff_ne, ne_eq]
  refine forall₂_congr fun b _ => or_congr_right ?_
  rw [← UInt8.toNat_inj]
  simp

theorem isOptionalWhitespace_iff {ch : UInt8} :
    isOptionalWhitespace ch = true ↔ ch = sp ∨ ch = tab := by
  simp [isOptionalWhitespace]

theorem parseVersion_of_isValidVersion {version : Bytes} {major minor : Int} :
    isValidVersion version = true ∧ parseVersion version = some (major, minor) ↔
      VersionText version major minor := by
  simp only [isValidVersion, Bool.or_eq_true, beq_iff_eq, VersionText]
  constructor
  · rintro ⟨rfl | rfl, h⟩
    · rw [show parseVersion (ascii "HTTP/1.0") = some (1, 0) by decide +kernel] at h
      simp at h
      exact Or.inl ⟨rfl, h.1.symm, h.2.symm⟩
    · rw [show parseVersion (ascii "HTTP/1.1") = some (1, 1) by decide +kernel] at h
      simp at h
      exact Or.inr ⟨rfl, h.1.symm, h.2.symm⟩
  · rintro (⟨rfl, rfl, rfl⟩ | ⟨rfl, rfl, rfl⟩)
    · exact ⟨Or.inl rfl, by decide +kernel⟩
    · exact ⟨Or.inr rfl, by decide +kernel⟩

/-! ## Header lines -/

namespace HeaderLine

variable {l : HeaderLine}

theorem Valid.not_mem_value (h : l.Valid) {ch : UInt8} (hlt : ch.toNat < 0x20)
    (hne : ch ≠ tab) : ch ∉ l.value := fun hm => by
  rcases h.clean ch hm with rfl | hb
  · exact hne rfl
  · omega

/-- Neither byte of a line break occurs in a header line. -/
theorem Valid.not_mem_text (h : l.Valid) {ch : UInt8} (hch : ch = cr ∨ ch = lf) :
    ch ∉ l.text := by
  have hname : ch ∉ l.name :=
    not_mem_of_isToken h.name (by rcases hch with rfl | rfl <;> decide)
  have hvalue : ch ∉ l.value :=
    h.not_mem_value (by rcases hch with rfl | rfl <;> decide)
      (by rcases hch with rfl | rfl <;> decide)
  have hows : ¬ (ch = sp ∨ ch = tab) := by rcases hch with rfl | rfl <;> decide
  have hcolon : ch ≠ 0x3a := by rcases hch with rfl | rfl <;> decide
  simp only [text, List.mem_append, List.mem_cons, not_or]
  exact ⟨hname, hcolon, fun hm => hows (h.lead ch hm), hvalue, fun hm => hows (h.trail ch hm)⟩

theorem Valid.parseHeaderLine (h : l.Valid) : parseHeaderLine l.text = some l.field := by
  have hne := isToken_ne_nil h.name
  have hcut : cut [0x3a] l.text = some (l.name, l.lead ++ (l.value ++ l.trail)) :=
    cut_of_fresh (fresh_singleton.mpr (not_mem_of_isToken h.name (by decide))) _
  have htrim : trimOptionalWhitespace (l.lead ++ (l.value ++ l.trail)) = l.value :=
    trim_append (fun b hb => isOptionalWhitespace_iff.mpr (h.lead b hb)) h.trimmed
      (fun b hb => isOptionalWhitespace_iff.mpr (h.trail b hb))
  obtain ⟨front, name, hname⟩ := List.exists_cons_of_ne_nil hne
  have hfront : isOptionalWhitespace front = false := by
    by_contra hws
    rw [Bool.not_eq_false, isOptionalWhitespace_iff] at hws
    refine not_mem_of_isToken h.name ?_ (hname ▸ List.mem_cons_self)
    rcases hws with rfl | rfl <;> decide
  have htext : l.text = front :: (name ++ (0x3a :: (l.lead ++ (l.value ++ l.trail)))) := by
    rw [text, hname, List.cons_append]
  unfold Http.parseHeaderLine
  rw [htext]
  simp only [hfront, Bool.false_eq_true, if_false]
  rw [← htext, hcut]
  simp only [hne, if_false, htrim]
  rw [if_pos]
  · rfl
  · rw [Bool.and_eq_true]
    exact ⟨h.name, isValidHeaderValue_iff.mpr h.clean⟩

end HeaderLine

theorem exists_of_parseHeaderLine {line : Bytes} {header : HeaderField}
    (h : parseHeaderLine line = some header) :
    ∃ l : HeaderLine, l.Valid ∧ l.text = line ∧ l.field = header := by
  unfold parseHeaderLine at h
  split at h
  · cases h
  · split at h
    · cases h
    · split at h
      · cases h
      · next name afterColon hcut =>
        obtain ⟨hline, -⟩ := cut_eq_some_iff.mp hcut
        split at h
        · cases h
        · simp only at h
          split at h
          · next hvalid =>
            rw [Bool.and_eq_true] at hvalid
            obtain ⟨lead, trail, hsplit, hlead, htrail⟩ :=
              exists_eq_trim (p := isOptionalWhitespace) afterColon
            refine ⟨⟨name, lead, trimOptionalWhitespace afterColon, trail⟩, ?_, ?_, ?_⟩
            · exact ⟨hvalid.1, fun b hb => isOptionalWhitespace_iff.mp (hlead b hb),
                fun b hb => isOptionalWhitespace_iff.mp (htrail b hb), trimmed_trim _,
                isValidHeaderValue_iff.mp hvalid.2⟩
            · rw [hline, HeaderLine.text]
              exact congrArg (fun t => name ++ (0x3a :: t)) hsplit.symm
            · exact Option.some.inj h
          · cases h

theorem headerText_cons (l : HeaderLine) (lines : List HeaderLine) :
    headerText (l :: lines) = l.text ++ (crlf ++ headerText lines) := by
  simp [headerText]

theorem parseHeaderLines_headerText {lines : List HeaderLine} (h : ∀ l ∈ lines, l.Valid)
    (rest : Bytes) :
    parseHeaderLines (headerText lines ++ (crlf ++ rest)) =
      .ok (lines.map HeaderLine.field) := by
  induction lines with
  | nil =>
    have hcut : cut crlf (crlf ++ rest) = some ([], rest) := cut_of_fresh (fresh_nil crlf) rest
    rw [headerText, List.flatMap_nil, List.nil_append, parseHeaderLines_of_cut hcut,
      if_pos rfl, List.map_nil]
  | cons l lines ih =>
    have hl := h l List.mem_cons_self
    have hcut : cut crlf (l.text ++ (crlf ++ (headerText lines ++ (crlf ++ rest)))) =
        some (l.text, headerText lines ++ (crlf ++ rest)) :=
      cut_of_fresh (fresh_crlf (hl.not_mem_text (Or.inl rfl))) _
    have hne : l.text ≠ [] := by simp [HeaderLine.text]
    rw [headerText_cons, List.append_assoc, List.append_assoc, parseHeaderLines_of_cut hcut,
      if_neg hne, hl.parseHeaderLine, ih fun l' hl' => h l' (List.mem_cons_of_mem l hl')]
    rfl

theorem exists_of_parseHeaderLines {rest : Bytes} {headers : List HeaderField}
    (h : parseHeaderLines rest = .ok headers) :
    ∃ (lines : List HeaderLine) (rest' : Bytes), (∀ l ∈ lines, l.Valid) ∧
      headers = lines.map HeaderLine.field ∧ rest = headerText lines ++ (crlf ++ rest') := by
  induction rest using parseHeaderLines.induct generalizing headers with
  | case1 rest hc =>
    rw [parseHeaderLines_of_none hc] at h
    cases h
  | case2 rest rest' hc =>
    obtain ⟨rfl, -⟩ := cut_eq_some_iff.mp hc
    rw [parseHeaderLines_of_cut hc, if_pos rfl] at h
    cases h
    exact ⟨[], rest', by simp, rfl, by simp [headerText]⟩
  | case3 rest line rest' hc hne hbad =>
    rw [parseHeaderLines_of_cut hc, if_neg hne, hbad] at h
    cases h
  | case4 rest line rest' hc hne header hline ih =>
    obtain ⟨rfl, -⟩ := cut_eq_some_iff.mp hc
    rw [parseHeaderLines_of_cut hc, if_neg hne, hline] at h
    simp only at h
    cases hrest : parseHeaderLines rest' with
    | error e => rw [hrest] at h; cases h
    | ok headers' =>
      rw [hrest] at h
      cases h
      obtain ⟨l, hl, htext, hfield⟩ := exists_of_parseHeaderLine hline
      obtain ⟨lines, rest'', hlines, rfl, rfl⟩ := ih hrest
      refine ⟨l :: lines, rest'', ?_, by simp [hfield], ?_⟩
      · intro l' hl'
        rcases List.mem_cons.mp hl' with rfl | hl'
        · exact hl
        · exact hlines l' hl'
      · rw [headerText_cons, htext]
        simp

/-! ## The request line -/

theorem TargetText.not_mem {target : Bytes} (h : TargetText target) {ch : UInt8}
    (hch : ch ∈ [sp, tab, cr, lf]) : ch ∉ target := fun hm => by
  obtain ⟨hlow, -⟩ := h.2 ch hm
  simp only [List.mem_cons, List.not_mem_nil, or_false] at hch
  rcases hch with rfl | rfl | rfl | rfl <;> revert hlow <;> decide

theorem VersionText.not_mem {version : Bytes} {major minor : Int}
    (h : VersionText version major minor) {ch : UInt8} (hch : ch ∈ [sp, tab, cr, lf]) :
    ch ∉ version := by
  simp only [List.mem_cons, List.not_mem_nil, or_false] at hch
  rcases h with ⟨rfl, -⟩ | ⟨rfl, -⟩ <;> rcases hch with rfl | rfl | rfl | rfl <;> decide

theorem parse_of_grammar {s : Bytes} {r : Request} {rest : Bytes} (h : Grammar s r rest) :
    Request.parse s = .ok r := by
  obtain ⟨version, lines, hmethod, htarget, hversion, hlines, hheaders, rfl⟩ := h
  have hspm : sp ∉ r.method := not_mem_of_isToken hmethod (by decide)
  have hspt : sp ∉ r.target := htarget.not_mem (by decide)
  have hspv : sp ∉ version := hversion.not_mem (by decide)
  have hcr : cr ∉ r.method ++ (sp :: (r.target ++ (sp :: version))) := by
    simp only [List.mem_append, List.mem_cons, not_or]
    exact ⟨not_mem_of_isToken hmethod (by decide), by decide, htarget.not_mem (by decide),
      by decide, hversion.not_mem (by decide)⟩
  have hline := cut_of_fresh (fresh_crlf hcr) (headerText lines ++ (crlf ++ rest))
  have hsp1 : cut [sp] (r.method ++ (sp :: (r.target ++ (sp :: version)))) =
      some (r.method, r.target ++ (sp :: version)) :=
    cut_of_fresh (fresh_singleton.mpr hspm) _
  have hsp2 : cut [sp] (r.target ++ (sp :: version)) = some (r.target, version) :=
    cut_of_fresh (fresh_singleton.mpr hspt) _
  have hsp3 : find [sp] version = none :=
    find_eq_none_iff.mpr fun hi => hspv ((List.singleton_infix_iff sp version).mp hi)
  obtain ⟨hvalid, hparse⟩ := parseVersion_of_isValidVersion.mpr hversion
  unfold Request.parse
  rw [hline]
  simp only [hsp1, hsp2, hsp3, Option.isSome_none, Bool.false_eq_true, if_false, isValidMethod,
    hmethod, isValidTarget_iff.mpr htarget, hvalid, Bool.not_true, hparse]
  rw [parseHeaderLines_headerText hlines, ← hheaders]
  rfl

theorem grammar_of_parse {s : Bytes} {r : Request} (h : Request.parse s = .ok r) :
    ∃ rest, Grammar s r rest := by
  unfold Request.parse at h
  split at h
  · cases h
  · next line rest hline =>
    obtain ⟨rfl, -⟩ := cut_eq_some_iff.mp hline
    split at h
    · cases h
    · next method afterMethod hsp1 =>
      obtain ⟨rfl, -⟩ := cut_eq_some_iff.mp hsp1
      split at h
      · cases h
      · next target version hsp2 =>
        obtain ⟨rfl, -⟩ := cut_eq_some_iff.mp hsp2
        split at h
        · cases h
        split at h
        · cases h
        · next hmethod =>
          split at h
          · cases h
          · next htarget =>
            split at h
            · cases h
            · next hversion =>
              split at h
              · cases h
              · next major minor hparse =>
                simp only [Bool.not_eq_true', Bool.not_eq_false] at hmethod htarget hversion
                cases hheaders : parseHeaderLines rest with
                | error e => rw [hheaders] at h; cases h
                | ok headers =>
                  rw [hheaders] at h
                  cases h
                  obtain ⟨lines, rest', hlines, rfl, rfl⟩ :=
                    exists_of_parseHeaderLines hheaders
                  exact ⟨rest', version, lines, hmethod, isValidTarget_iff.mp htarget,
                    parseVersion_of_isValidVersion.mp ⟨hversion, hparse⟩, hlines, rfl, by simp⟩

/-- `request::parse` accepts exactly the texts of the grammar, and the request it
returns is the one the text spells. -/
theorem parse_ok_iff {s : Bytes} {r : Request} :
    Request.parse s = .ok r ↔ ∃ rest, Grammar s r rest :=
  ⟨grammar_of_parse, fun ⟨_, h⟩ => parse_of_grammar h⟩

/-! ## Rendering -/

/-- A request the parser can return. -/
structure Request.Valid (r : Request) : Prop where
  method : isToken r.method = true
  target : TargetText r.target
  version : r.versionMajor = 1 ∧ (r.versionMinor = 0 ∨ r.versionMinor = 1)
  name : ∀ h ∈ r.headers, isToken h.name = true
  trimmed : ∀ h ∈ r.headers, Trimmed isOptionalWhitespace h.value
  clean : ∀ h ∈ r.headers, ∀ b ∈ h.value, b = tab ∨ (0x20 ≤ b.toNat ∧ b.toNat ≠ 0x7f)

/-- The header block of a request, one space before each value. -/
def Request.render (r : Request) : Bytes :=
  r.method ++ (sp :: (r.target ++ (sp :: r.versionString))) ++
    (crlf ++ (r.headers.flatMap (fun h => h.name ++ (0x3a :: sp :: h.value) ++ crlf) ++ crlf))

theorem Request.Valid.versionText {r : Request} (h : r.Valid) :
    VersionText r.versionString r.versionMajor r.versionMinor := by
  obtain ⟨hmajor, hminor⟩ := h.version
  unfold Request.versionString
  rw [hmajor]
  rcases hminor with hminor | hminor <;> rw [hminor]
  · exact Or.inl ⟨by decide +kernel, rfl, rfl⟩
  · exact Or.inr ⟨by decide +kernel, rfl, rfl⟩

/-- A rendered request is a text of the grammar with nothing after it. -/
theorem grammar_render {r : Request} (h : r.Valid) : Grammar r.render r [] := by
  let line (f : HeaderField) : HeaderLine := ⟨f.name, [sp], f.value, []⟩
  refine ⟨r.versionString, r.headers.map line, h.method, h.target, h.versionText, ?_, ?_, ?_⟩
  · intro l hl
    obtain ⟨f, hf, rfl⟩ := List.mem_map.mp hl
    exact ⟨h.name f hf, by simp [line], by simp [line], h.trimmed f hf, h.clean f hf⟩
  · rw [List.map_map]
    exact (List.map_id r.headers).symm
  · simp only [Request.render, headerText, List.flatMap_map, HeaderLine.text, line,
      List.append_nil, List.singleton_append]

/-! ## Delivered header blocks -/

/-- The text before the empty line ends with a line break. -/
theorem exists_append_crlf (line : Bytes) (lines : List HeaderLine) :
    ∃ x, line ++ (crlf ++ headerText lines) = x ++ crlf := by
  rcases List.eq_nil_or_concat lines with rfl | ⟨lines, l, rfl⟩
  · exact ⟨line, by simp [headerText]⟩
  · exact ⟨line ++ (crlf ++ (headerText lines ++ l.text)), by simp [headerText]⟩

/-- In a block whose only empty line is its end the grammar leaves no `rest`. -/
theorem grammar_of_block {pre rest : Bytes} {r : Request} (hpre : Fresh headerEnd pre)
    (h : Grammar (pre ++ headerEnd) r rest) : Grammar (pre ++ headerEnd) r [] := by
  obtain ⟨version, lines, hmethod, htarget, hversion, hlines, hheaders, htext⟩ := h
  obtain ⟨x, hx⟩ := exists_append_crlf (r.method ++ (sp :: (r.target ++ (sp :: version)))) lines
  have hblock : pre ++ headerEnd = x ++ (headerEnd ++ rest) := by
    rw [htext, headerEnd, ← List.append_assoc crlf, ← List.append_assoc, hx]
    simp
  have hrest : rest = [] := by
    obtain ⟨i, hi, hle⟩ := exists_find_le headerEnd x rest
    rw [← hblock] at hi
    have hpos : i = pre.length := Option.some.inj (hi.symm.trans hpre)
    have hlen := congrArg List.length hblock
    simp only [List.length_append] at hlen
    exact List.length_eq_zero_iff.mp (by omega)
  exact ⟨version, lines, hmethod, htarget, hversion, hlines, hheaders, hrest ▸ htext⟩

/-- `request::parse` accepts exactly its grammar, inverts rendering, and consumes a
delivered header block to its last byte. -/
theorem request_parse_exact :
    (∀ s r, Request.parse s = .ok r ↔ ∃ rest, Grammar s r rest) ∧
    (∀ r : Request, r.Valid → Request.parse r.render = .ok r) ∧
    (∀ (σ : Type) (stream : Net.Stream σ) (maxBytes fuel : Nat) (b : Buffer) (s : σ)
      (block : Bytes) (r : Request),
      (readHeaderBlock stream maxBytes fuel b s).1 = .block block →
      Request.parse block = .ok r → Grammar block r []) := by
  refine ⟨fun s r => parse_ok_iff, fun r hr => parse_of_grammar (grammar_render hr), ?_⟩
  intro σ stream maxBytes fuel b s block r hblock hparse
  obtain ⟨pre, rfl, hpre⟩ := readHeaderBlock_block hblock
  obtain ⟨rest, hrest⟩ := grammar_of_parse hparse
  exact grammar_of_block hpre hrest

/-- The request of the source's own unit test. -/
def helloRequest : Request where
  method := ascii "GET"
  target := ascii "/hello"
  headers := [⟨ascii "Host", ascii "localhost"⟩, ⟨ascii "Connection", ascii "keep-alive"⟩]

theorem request_parse_exact_hello :
    Request.parse helloRequest.render = .ok helloRequest := by
  refine request_parse_exact.2.1 helloRequest ?_
  exact
    { method := by decide
      target := by unfold TargetText; decide +kernel
      version := by decide
      name := by decide +kernel
      trimmed := by unfold Trimmed; decide +kernel
      clean := by decide +kernel }

end Http
end Garcon
