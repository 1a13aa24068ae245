import Garcon.Modules.HostGuard

/-!
# The names a host guard lets through

An allowlist names hosts, one by one or by a suffix.  A request should get through with
one of these names, alone or with a numeric port behind it.  A bracketed literal is cut
off behind its bracket without a look at what follows, so a guard that allows such a
literal lets other text through as well.
-/

namespace Garcon
namespace Modules
namespace HostGuard

open Ascii Search Http

/-- The entries of the allowlist in a rule line. -/
def allowlist (line : Bytes) : List Bytes :=
  (splitFields ((splitFields (line.drop 5) 0x7c)[2]?.getD []) 0x2c).filter (· ≠ [])

/-- An entry `*.suffix`, in lower case. -/
def IsWild (entry : Bytes) : Prop := ∃ suffix ≠ [], entry.map lower = ascii "*." ++ suffix

/-- The names that an entry allows. -/
inductive Allows (entry : Bytes) : Bytes → Prop where
  | exact (hentry : ¬ IsWild entry) : Allows entry (entry.map lower)
  | suffix {front suffix : Bytes} (hentry : entry.map lower = ascii "*." ++ suffix)
      (hsuffix : suffix ≠ []) (hfront : front ≠ []) : Allows entry (front ++ 0x2e :: suffix)

def Names (entries : List Bytes) (name : Bytes) : Prop := ∃ entry ∈ entries, Allows entry name

/-- The text of a host, without whitespace around it and in lower case. -/
def hostText (value : Bytes) : Bytes := (trim value).map lower

/-- A name on the list, with nothing or a port behind it. -/
def Written (entries : List Bytes) (text : Bytes) : Prop :=
  ∃ name, Names entries name ∧
    (text = name ∨ ∃ port, isNumericPort port = true ∧ text = name ++ 0x3a :: port)

/-- An opening bracket and everything up to the first closing one. -/
def Bracketed (text : Bytes) : Prop := ∃ inner, text = 0x5b :: (inner ++ [0x5d]) ∧ 0x5d ∉ inner

/-! ## Patterns -/

theorem parseHostPattern_spec {entry : Bytes} {pattern : HostPattern}
    (h : parseHostPattern entry = .ok pattern) :
    entry ≠ [] ∧ (¬ IsWild entry ∧ pattern = ⟨entry.map lower, .exact⟩ ∨
      ∃ suffix ≠ [], entry.map lower = ascii "*." ++ suffix ∧
        pattern = ⟨0x2e :: suffix, .suffix⟩) := by
  unfold parseHostPattern at h
  by_cases hnil : entry = []
  · rw [if_pos hnil] at h
    cases h
  rw [if_neg hnil] at h
  refine ⟨hnil, ?_⟩
  have hlength : (entry.map lower).length = entry.length := List.length_map _
  by_cases hwild : 2 < entry.length ∧ (asciiLowercase entry).take 2 = ascii "*."
  · rw [if_pos hwild] at h
    cases h
    obtain ⟨hlong, htake⟩ := hwild
    have hsplit : entry.map lower = ascii "*." ++ (entry.map lower).drop 2 := by
      conv_lhs => rw [← List.take_append_drop 2 (entry.map lower)]
      exact congrArg (· ++ (entry.map lower).drop 2) htake
    refine Or.inr ⟨(entry.map lower).drop 2, ?_, hsplit, ?_⟩
    · rw [← List.length_pos_iff, List.length_drop]
      omega
    · rw [asciiLowercase, hsplit]
      rfl
  · rw [if_neg hwild] at h
    cases h
    refine Or.inl ⟨?_, rfl⟩
    rintro ⟨suffix, hne, hentry⟩
    apply hwild
    rw [asciiLowercase, hentry]
    have hpos := List.length_pos_iff.mpr hne
    have hsum := congrArg List.length hentry
    rw [List.length_append, hlength] at hsum
    have htwo : (ascii "*.").length = 2 := by decide
    exact ⟨by omega, List.take_left' htwo⟩

/-- A pattern matches the names in lower case that its entry allows. -/
theorem hostMatches_iff {entry : Bytes} {pattern : HostPattern}
    (h : parseHostPattern entry = .ok pattern) {name : Bytes} (hname : name.map lower = name) :
    hostMatches pattern name = true ↔ Allows entry name := by
  obtain ⟨-, ⟨hwild, rfl⟩ | ⟨suffix, hne, hentry, rfl⟩⟩ := parseHostPattern_spec h
  · show iequals (entry.map lower) name = true ↔ _
    rw [iequals_iff, map_lower_idem, hname]
    constructor
    · rintro rfl
      exact .exact hwild
    · intro hallows
      cases hallows with
      | exact => rfl
      | suffix hentry hsuffix => exact absurd ⟨_, hsuffix, hentry⟩ hwild
  · show ((0x2e :: suffix).length < name.length &&
      name.drop (name.length - (0x2e :: suffix).length) == 0x2e :: suffix) = true ↔ _
    rw [Bool.and_eq_true, decide_eq_true_eq, beq_iff_eq]
    constructor
    · rintro ⟨hlong, hdrop⟩
      have hsplit := List.take_append_drop (name.length - (0x2e :: suffix).length) name
      rw [hdrop] at hsplit
      rw [← hsplit]
      refine .suffix hentry hne ?_
      rw [← List.length_pos_iff, List.length_take]
      omega
    · intro hallows
      cases hallows with
      | exact hnot => exact absurd ⟨suffix, hne, hentry⟩ hnot
      | @suffix front suffix' hentry' _ hfront =>
          rw [hentry'] at hentry
          obtain rfl := List.append_cancel_left hentry
          have hpos := List.length_pos_iff.mpr hfront
          rw [List.length_append, Nat.add_sub_cancel]
          exact ⟨by omega, List.drop_left⟩

theorem mapM_parseHostPattern {entries : List Bytes} {patterns : List HostPattern}
    (h : entries.mapM parseHostPattern = .ok patterns) {name : Bytes}
    (hname : name.map lower = name) :
    patterns.any (hostMatches · name) = true ↔ Names entries name := by
  induction entries generalizing patterns with
  | nil =>
      cases h
      refine iff_of_false Bool.false_ne_true ?_
      rintro ⟨entry, hentry, -⟩
      exact absurd hentry List.not_mem_nil
  | cons entry entries ih =>
      rw [List.mapM_cons] at h
      obtain ⟨pattern, hpattern, h⟩ := Response.exists_of_bind_eq_ok h
      obtain ⟨rest, hrest, h⟩ := Response.exists_of_bind_eq_ok h
      cases h
      rw [List.any_cons, Bool.or_eq_true, hostMatches_iff hpattern hname, ih hrest, Names, Names,
        List.exists_mem_cons_iff]

/-- A rule's patterns are those of the entries in its line. -/
theorem allowedHosts_of_parseRuleLine {line : Bytes} {rule : GuardRule}
    (h : parseRuleLine line = .ok rule) :
    (allowlist line).mapM parseHostPattern = .ok rule.allowedHosts := by
  unfold parseRuleLine at h
  split at h
  · next method target hosts status body hfields =>
      obtain ⟨allowedHosts, hallowed, h⟩ := Response.exists_of_bind_eq_ok h
      have hsame : rule.allowedHosts = allowedHosts := by
        dsimp only [bind, Except.bind, pure, Except.pure, throw, throwThe,
          MonadExceptOf.throw] at h
        split_ifs at h
        cases hstatus : parseStatusCode "host_guard" status with
        | error what =>
            rw [hstatus] at h
            cases h
        | ok failureStatus =>
            rw [hstatus] at h
            cases h
            rfl
      unfold parseHostPatterns at hallowed
      obtain ⟨patterns, hpatterns, hallowed⟩ := Response.exists_of_bind_eq_ok hallowed
      dsimp only [bind, Except.bind, pure, Except.pure, throw, throwThe,
        MonadExceptOf.throw] at hallowed
      split_ifs at hallowed
      cases hallowed
      rw [hsame, allowlist, hfields]
      exact hpatterns
  · cases h

/-! ## Normalisation -/

def uptoBracket (text : Bytes) : Bytes :=
  match cut [0x5d] text with
  | none => text
  | some (literal, _) => literal ++ [0x5d]

def withoutPort (text : Bytes) : Bytes :=
  match cut [0x3a] text with
  | none => text
  | some (name, port) => if 0x3a ∉ port ∧ isNumericPort port = true then name else text

/-- What is left of the text of a host. -/
def normalizeText (text : Bytes) : Bytes :=
  if text.head? = some 0x5b then uptoBracket text else withoutPort text

theorem isNumericPort_map_lower (port : Bytes) :
    isNumericPort (port.map lower) = isNumericPort port := by
  unfold isNumericPort
  rw [List.all_map]
  congr 1
  · simp only [ne_eq, List.map_eq_nil_iff]
  · congr 1
    funext b
    exact isDigit_lower b

theorem normalizeHostHeader_eq (value : Bytes) :
    normalizeHostHeader value = normalizeText (hostText value) := by
  have hopen : ∀ b, lower b = 0x5b ↔ b = 0x5b := by decide +kernel
  have hclose : ∀ b, lower b = 0x5d ↔ b = 0x5d := by decide +kernel
  have hcolon : ∀ b, lower b = 0x3a ↔ b = 0x3a := by decide +kernel
  rw [normalizeHostHeader, hostText]
  generalize trim value = host
  by_cases hnil : host = []
  · rw [if_pos hnil, hnil]
    decide +kernel
  rw [if_neg hnil, normalizeText, uptoBracket, withoutPort, cut_singleton_map hclose,
    cut_singleton_map hcolon]
  have hhead : (host.map lower).head? = some 0x5b ↔ host.head? = some 0x5b := by
    rw [List.head?_map, Option.map_eq_some_iff]
    simp only [hopen, exists_eq_right]
  by_cases hbracket : host.head? = some 0x5b
  · rw [if_pos hbracket, if_pos (hhead.mpr hbracket), cut]
    cases hfind : find [0x5d] host with
    | none => rfl
    | some close =>
        obtain ⟨-, hsplit⟩ := fresh_take_of_find hfind
        have htake : host.take (close + 1) = host.take close ++ [0x5d] := by
          have hlength : (host.take close).length = close := by
            have hle := congrArg List.length hsplit
            rw [List.length_append, List.length_append, List.length_take, List.length_singleton]
              at hle
            rw [List.length_take]
            omega
          conv_lhs => rw [hsplit, ← List.append_assoc]
          exact List.take_left' (by rw [List.length_append, hlength]; rfl)
        dsimp only [Option.map_some]
        rw [htake, asciiLowercase, List.map_append]
        rfl
  · rw [if_neg hbracket, if_neg fun h => hbracket (hhead.mp h)]
    cases hcut : cut [0x3a] host with
    | none => rfl
    | some parts =>
        have hport : 0x3a ∉ parts.2.map lower ∧ isNumericPort (parts.2.map lower) = true ↔
            0x3a ∉ parts.2 ∧ isNumericPort parts.2 = true := by
          rw [isNumericPort_map_lower, List.mem_map]
          simp only [hcolon, exists_eq_right]
        dsimp only [Option.map_some]
        by_cases hnumeric : 0x3a ∉ parts.2 ∧ isNumericPort parts.2 = true
        · rw [if_pos hnumeric, if_pos (hport.mpr hnumeric)]
          rfl
        · rw [if_neg hnumeric, if_neg fun h => hnumeric (hport.mp h)]
          rfl

/-- The text is left as it is, loses a port, or is cut off behind a bracket. -/
theorem normalizeText_cases (text : Bytes) :
    normalizeText text = text ∨
      (∃ port, isNumericPort port = true ∧ text = normalizeText text ++ 0x3a :: port) ∨
      ∃ rest, Bracketed (normalizeText text) ∧ text = normalizeText text ++ rest := by
  unfold normalizeText
  by_cases hhead : text.head? = some 0x5b
  · rw [if_pos hhead, uptoBracket]
    cases hcut : cut [0x5d] text with
    | none => exact Or.inl rfl
    | some parts =>
        obtain ⟨hsplit, hfresh⟩ := cut_eq_some_iff.mp hcut
        refine Or.inr (Or.inr ⟨parts.2, ?_, ?_⟩)
        · dsimp only
          cases hliteral : parts.1 with
          | nil =>
              rw [hsplit, hliteral] at hhead
              cases hhead
          | cons b inner =>
              rw [hsplit, hliteral] at hhead
              cases hhead
              rw [hliteral] at hfresh
              refine ⟨inner, rfl, fun hmem => ?_⟩
              exact fresh_singleton.mp hfresh (List.mem_cons_of_mem _ hmem)
        · dsimp only
          rw [List.append_assoc]
          exact hsplit
  · rw [if_neg hhead, withoutPort]
    cases hcut : cut [0x3a] text with
    | none => exact Or.inl rfl
    | some parts =>
        obtain ⟨hsplit, -⟩ := cut_eq_some_iff.mp hcut
        dsimp only
        by_cases hport : 0x3a ∉ parts.2 ∧ isNumericPort parts.2 = true
        · rw [if_pos hport]
          exact Or.inr (Or.inl ⟨parts.2, hport.2, hsplit⟩)
        · rw [if_neg hport]
          exact Or.inl rfl

theorem normalizeText_bracketed {literal : Bytes} (h : Bracketed literal) (rest : Bytes) :
    normalizeText (literal ++ rest) = literal := by
  obtain ⟨inner, rfl, hinner⟩ := h
  have hfree : (0x5d : UInt8) ∉ 0x5b :: inner := by
    rw [List.mem_cons, not_or]
    exact ⟨by decide, hinner⟩
  have hsplit : 0x5b :: (inner ++ [0x5d]) ++ rest = (0x5b :: inner) ++ ([0x5d] ++ rest) := by
    rw [← List.append_assoc]
    rfl
  have hhead : ((0x5b :: inner) ++ ([0x5d] ++ rest)).head? = some 0x5b := rfl
  rw [normalizeText, hsplit, if_pos hhead, uptoBracket, cut_of_fresh (fresh_singleton.mpr hfree)]
  rfl

theorem not_mem_of_isNumericPort {port : Bytes} (h : isNumericPort port = true) :
    0x3a ∉ port := by
  intro hmem
  rw [isNumericPort, Bool.and_eq_true, List.all_eq_true] at h
  exact absurd (h.2 _ hmem) (by decide)

/-- A name without brackets and colons is left, and a port behind it is dropped. -/
theorem normalizeText_plain {name : Bytes} (hcolon : 0x3a ∉ name) (hbracket : 0x5b ∉ name) :
    normalizeText name = name ∧
      ∀ port, isNumericPort port = true → normalizeText (name ++ 0x3a :: port) = name := by
  refine ⟨?_, ?_⟩
  · have hnone : cut [0x3a] name = none := by
      rw [cut_eq_none_iff, List.singleton_infix_iff]
      exact hcolon
    have hfirst : name.head? ≠ some 0x5b := fun h => hbracket (List.mem_of_mem_head? h)
    rw [normalizeText, if_neg hfirst, withoutPort, hnone]
  · intro port hport
    have hfirst : (name ++ 0x3a :: port).head? ≠ some 0x5b := by
      intro h
      cases name with
      | nil => cases h
      | cons b name => exact hbracket (by cases h; exact List.mem_cons_self)
    have hcut := cut_of_fresh (fresh_singleton.mpr hcolon) port
    rw [normalizeText, if_neg hfirst, withoutPort,
      show name ++ 0x3a :: port = name ++ ([0x3a] ++ port) from rfl, hcut]
    exact if_pos ⟨not_mem_of_isNumericPort hport, hport⟩

theorem map_lower_left {left right : Bytes} (h : (left ++ right).map lower = left ++ right) :
    left.map lower = left := by
  rw [List.map_append] at h
  exact (List.append_inj h (List.length_map _)).1

theorem map_lower_normalizeText {text : Bytes} (h : text.map lower = text) :
    (normalizeText text).map lower = normalizeText text := by
  rcases normalizeText_cases text with hsame | ⟨port, -, hsplit⟩ | ⟨rest, -, hsplit⟩
  · rw [hsame, h]
  · rw [hsplit] at h
    exact map_lower_left h
  · rw [hsplit] at h
    exact map_lower_left h

/-! ## Decisions -/

/-- A request with a listed host. -/
def WellNamed (entries : List Bytes) (request : Request) : Prop :=
  ∃ value, request.headerValue (ascii "Host") = some value ∧ Written entries (hostText value)

/-- The decisions of a rule that lets through what its entries allow. -/
structure LetsThrough (entries : List Bytes) (rule : GuardRule) : Prop where
  listed : ∀ request, requestSatisfiesRule rule request = true → WellNamed entries request
  complete : ∀ (request : Request) (value name : Bytes),
    request.headerValue (ascii "Host") = some value → Names entries name →
    0x3a ∉ name → 0x5b ∉ name →
    (hostText value = name ∨
      ∃ port, isNumericPort port = true ∧ hostText value = name ++ 0x3a :: port) →
    requestSatisfiesRule rule request = true
  letter_case : ∀ (request request' : Request) (value value' : Bytes),
    request.headerValue (ascii "Host") = some value →
    request'.headerValue (ascii "Host") = some value' → value.map lower = value'.map lower →
    requestSatisfiesRule rule request = requestSatisfiesRule rule request'
  port : ∀ (request request' : Request) (value value' port : Bytes),
    request.headerValue (ascii "Host") = some value →
    request'.headerValue (ascii "Host") = some value' →
    0x3a ∉ hostText value → 0x5b ∉ hostText value → isNumericPort port = true →
    hostText value' = hostText value ++ 0x3a :: port →
    requestSatisfiesRule rule request = requestSatisfiesRule rule request'

theorem hostText_eq_trim (value : Bytes) : hostText value = trim (value.map lower) :=
  (Trim.trim_map isSpace_lower value).symm

theorem ne_nil_of_names {line name : Bytes} (h : Names (allowlist line) name) : name ≠ [] := by
  obtain ⟨entry, hentry, hallows⟩ := h
  cases hallows with
  | exact =>
      have hne := of_decide_eq_true (List.mem_filter.mp hentry).2
      exact fun hnil => hne (List.map_eq_nil_iff.mp hnil)
  | suffix => exact fun hnil => List.cons_ne_nil _ _ (List.append_eq_nil_iff.mp hnil).2

section Line

variable {line : Bytes} {rule : GuardRule} (hrule : parseRuleLine line = .ok rule)

include hrule

/-- A rule is satisfied by the hosts whose normal form is on its list. -/
theorem requestSatisfiesRule_iff {request : Request} {value : Bytes}
    (hvalue : request.headerValue (ascii "Host") = some value) :
    requestSatisfiesRule rule request = true ↔
      Names (allowlist line) (normalizeText (hostText value)) := by
  have hlower := map_lower_normalizeText (map_lower_idem (trim value))
  have hany := mapM_parseHostPattern (allowedHosts_of_parseRuleLine hrule) hlower
  rw [requestSatisfiesRule, hvalue]
  dsimp only
  rw [normalizeHostHeader_eq]
  by_cases hnil : normalizeText (hostText value) = []
  · rw [if_pos hnil]
    exact iff_of_false Bool.false_ne_true fun hnames => ne_nil_of_names hnames hnil
  · rw [if_neg hnil]
    exact hany

theorem requestSatisfiesRule_congr {request request' : Request} {value value' : Bytes}
    (hvalue : request.headerValue (ascii "Host") = some value)
    (hvalue' : request'.headerValue (ascii "Host") = some value')
    (h : normalizeText (hostText value) = normalizeText (hostText value')) :
    requestSatisfiesRule rule request = requestSatisfiesRule rule request' := by
  rw [Bool.eq_iff_iff, requestSatisfiesRule_iff hrule hvalue,
    requestSatisfiesRule_iff hrule hvalue', h]

/-- A satisfied rule has a listed name in front of nothing, of a port, or of what stands
behind a closing bracket. -/
theorem listed_or_cut_off {request : Request} (h : requestSatisfiesRule rule request = true) :
    WellNamed (allowlist line) request ∨
      ∃ value literal rest, request.headerValue (ascii "Host") = some value ∧
        Bracketed literal ∧ Names (allowlist line) literal ∧
        hostText value = literal ++ rest := by
  cases hvalue : request.headerValue (ascii "Host") with
  | none =>
      rw [requestSatisfiesRule, hvalue] at h
      cases h
  | some value =>
      have hnames := (requestSatisfiesRule_iff hrule hvalue).mp h
      rcases normalizeText_cases (hostText value) with hsame | ⟨port, hport, hsplit⟩ |
        ⟨rest, hbracketed, hsplit⟩
      · exact Or.inl ⟨value, hvalue, _, hnames, Or.inl hsame.symm⟩
      · exact Or.inl ⟨value, hvalue, _, hnames, Or.inr ⟨port, hport, hsplit⟩⟩
      · exact Or.inr ⟨value, _, rest, rfl, hbracketed, hnames, hsplit⟩

theorem letsThrough_of_not_bracketed
    (h : ∀ name, Bracketed name → ¬ Names (allowlist line) name) :
    LetsThrough (allowlist line) rule where
  listed := by
    intro request hsatisfied
    rcases listed_or_cut_off hrule hsatisfied with
      hlisted | ⟨_, literal, _, _, hbracketed, hnames, _⟩
    · exact hlisted
    · exact absurd hnames (h literal hbracketed)
  complete := by
    intro request value name hvalue hnames hcolon hbracket htext
    rw [requestSatisfiesRule_iff hrule hvalue]
    obtain ⟨hplain, hport⟩ := normalizeText_plain hcolon hbracket
    rcases htext with htext | ⟨port, hnumeric, htext⟩
    · rw [htext, hplain]
      exact hnames
    · rw [htext, hport port hnumeric]
      exact hnames
  letter_case := by
    intro request request' value value' hvalue hvalue' hsame
    apply requestSatisfiesRule_congr hrule hvalue hvalue'
    rw [hostText_eq_trim, hostText_eq_trim, hsame]
  port := by
    intro request request' value value' port hvalue hvalue' hcolon hbracket hnumeric htext
    apply requestSatisfiesRule_congr hrule hvalue hvalue'
    obtain ⟨hplain, hport⟩ := normalizeText_plain hcolon hbracket
    rw [htext, hplain, hport port hnumeric]

end Line

/-! ## What a bracket hides -/

/-- Letters, more of them than an entry is long. -/
def filler (entries : List Bytes) : Bytes :=
  List.replicate ((entries.map List.length).sum + 1) 0x78

theorem length_lt_filler {entries : List Bytes} {entry : Bytes} (h : entry ∈ entries) :
    entry.length < (filler entries).length := by
  have hle := List.single_le_sum (fun x _ => Nat.zero_le x) _
    (List.mem_map_of_mem (f := List.length) h)
  rw [filler, List.length_replicate]
  omega

/-- A text that ends in that many letters is not on the list. -/
theorem not_written_filler (entries : List Bytes) (literal : Bytes) :
    ¬ Written entries (literal ++ filler entries) := by
  have hletters : ∀ b ∈ filler entries, b = 0x78 := fun b hb => List.eq_of_mem_replicate hb
  have hlast : ∀ b ∈ (literal ++ filler entries).getLast?, b = 0x78 := by
    intro b hb
    have hne : filler entries ≠ [] := by
      rw [← List.length_pos_iff, filler, List.length_replicate]
      exact Nat.succ_pos _
    rw [List.getLast?_append_of_ne_nil _ hne] at hb
    exact hletters b (List.mem_of_mem_getLast? hb)
  rintro ⟨name, ⟨entry, hentry, hallows⟩, htext | ⟨port, hport, htext⟩⟩
  · have hshort := length_lt_filler hentry
    cases hallows with
    | exact =>
        have hlength := congrArg List.length htext
        rw [List.length_append, List.length_map] at hlength
        omega
    | @suffix front suffix hwild =>
        -- The dot of the suffix would be one of the letters.
        have hlength := congrArg List.length hwild
        have htwo : (ascii "*.").length = 2 := by decide
        rw [List.length_append, List.length_map, htwo] at hlength
        have htail : 0x2e :: suffix <:+ literal ++ filler entries :=
          htext ▸ List.suffix_append front _
        have hwithin := List.suffix_of_suffix_length_le htail (List.suffix_append literal _)
          (by rw [List.length_cons]; omega)
        exact absurd (hletters 0x2e (hwithin.subset List.mem_cons_self)) (by decide)
  · rw [isNumericPort, Bool.and_eq_true, List.all_eq_true, decide_eq_true_eq] at hport
    obtain ⟨hne, hdigits⟩ := hport
    have hends : (literal ++ filler entries).getLast? = port.getLast? := by
      rw [htext, List.getLast?_append_of_ne_nil _ (List.cons_ne_nil _ _),
        List.getLast?_cons_of_ne_nil hne]
    obtain ⟨b, hb⟩ := Option.isSome_iff_exists.mp (List.getLast?_isSome.mpr hne)
    have hdigit := hdigits b (List.mem_of_mem_getLast? hb)
    rw [hlast b (hends.trans hb)] at hdigit
    exact absurd hdigit (by decide)

theorem Bracketed.map_lower {literal : Bytes} (h : Bracketed literal) :
    Bracketed (literal.map lower) := by
  obtain ⟨inner, rfl, hinner⟩ := h
  have hclose : ∀ b, lower b = 0x5d ↔ b = 0x5d := by decide +kernel
  refine ⟨inner.map lower, ?_, ?_⟩
  · rw [List.map_cons, List.map_append]
    rfl
  · rw [List.mem_map]
    simp only [hclose, exists_eq_right]
    exact hinner

theorem Names.map_lower {entries : List Bytes} {name : Bytes} (h : Names entries name) :
    Names entries (name.map lower) := by
  obtain ⟨entry, hentry, hallows⟩ := h
  refine ⟨entry, hentry, ?_⟩
  cases hallows with
  | exact hnot =>
      rw [map_lower_idem]
      exact .exact hnot
  | @suffix front suffix hwild hsuffix hfront =>
      have hlower := map_lower_idem entry
      rw [hwild, List.map_append] at hlower
      have hsame : suffix.map lower = suffix :=
        (List.append_inj hlower (List.length_map _)).2
      rw [List.map_append, List.map_cons, hsame]
      exact .suffix hwild hsuffix fun hnil => hfront (List.map_eq_nil_iff.mp hnil)

def requestTo (host : Bytes) : Request where
  method := ascii "GET"
  target := ascii "/"
  headers := [⟨ascii "Host", host⟩]

theorem headerValue_requestTo (host : Bytes) :
    (requestTo host).headerValue (ascii "Host") = some host := by
  have hname : headerNameEquals (ascii "Host") (ascii "Host") = true := by decide
  rw [Request.headerValue, Request.findHeader, Http.findHeader, requestTo]
  simp only [List.find?_cons, hname, Option.map_some]

/-- A rule lets through what it lists exactly where it lists no bracketed literal, and
even there every request that it should not let through has text behind a bracket that
is no port. -/
theorem letsThrough_iff (line : Bytes) (rule : GuardRule) (hrule : parseRuleLine line = .ok rule) :
    (LetsThrough (allowlist line) rule ↔
      ∀ name, Bracketed name → ¬ Names (allowlist line) name) ∧
    ∀ request, requestSatisfiesRule rule request = true → ¬ WellNamed (allowlist line) request →
      ∃ value literal rest, request.headerValue (ascii "Host") = some value ∧
        Bracketed literal ∧ Names (allowlist line) literal ∧ hostText value = literal ++ rest ∧
        rest ≠ [] ∧ ∀ port, isNumericPort port = true → rest ≠ 0x3a :: port := by
  refine ⟨⟨?_, letsThrough_of_not_bracketed hrule⟩, ?_⟩
  · intro hlets name hbracketed hnames
    have hbracketed := hbracketed.map_lower
    have hnames := hnames.map_lower
    have hidem := map_lower_idem name
    generalize name.map lower = literal at hbracketed hnames hidem
    let host := literal ++ filler (allowlist line)
    have htext : hostText host = host := by
      have hspace : isSpace 0x78 = false := by decide
      have hfiller : (filler (allowlist line)).map lower = filler (allowlist line) := by
        rw [filler, List.map_replicate]
        rfl
      obtain ⟨inner, hliteral, -⟩ := hbracketed
      have htrimmed : Trim.Trimmed isSpace host := by
        refine ⟨?_, ?_⟩
        · intro b hb
          have hopen : host.head? = some 0x5b := by
            show (literal ++ _).head? = _
            rw [hliteral]
            rfl
          rw [hopen] at hb
          cases hb
          decide
        · intro b hb
          have hne : filler (allowlist line) ≠ [] := List.cons_ne_nil _ _
          rw [List.getLast?_append_of_ne_nil _ hne] at hb
          rw [List.eq_of_mem_replicate (List.mem_of_mem_getLast? hb)]
          exact hspace
      rw [hostText, trim, Trim.trim_of_trimmed htrimmed, List.map_append, hidem, hfiller]
    have hsatisfied : requestSatisfiesRule rule (requestTo host) = true := by
      rw [requestSatisfiesRule_iff hrule (headerValue_requestTo host), htext,
        normalizeText_bracketed hbracketed]
      exact hnames
    obtain ⟨value, hvalue, hwritten⟩ := hlets.listed _ hsatisfied
    rw [headerValue_requestTo] at hvalue
    cases hvalue
    rw [htext] at hwritten
    exact not_written_filler _ _ hwritten
  · intro request hsatisfied hnot
    rcases listed_or_cut_off hrule hsatisfied with
      hlisted | ⟨value, literal, rest, hvalue, hbracketed, hnames, htext⟩
    · exact absurd hlisted hnot
    · refine ⟨value, literal, rest, hvalue, hbracketed, hnames, htext, ?_, ?_⟩
      · rintro rfl
        rw [List.append_nil] at htext
        exact hnot ⟨value, hvalue, literal, hnames, Or.inl htext⟩
      · rintro port hport rfl
        exact hnot ⟨value, hvalue, literal, hnames, Or.inr ⟨port, hport, htext⟩⟩

def loopbackLine : Bytes := ascii "rule=*|/*|localhost,[::1]|421|unknown host"

def loopbackRule : GuardRule where
  methodPattern := ascii "*"
  targetPattern := ascii "/"
  targetKind := .prefixed
  allowedHosts := [⟨ascii "localhost", .exact⟩, ⟨ascii "[::1]", .exact⟩]
  failureStatus := 421
  failureBody := ascii "unknown host"

theorem letsThrough_iff_loopback :
    LetsThrough (allowlist loopbackLine) loopbackRule ↔
      ∀ name, Bracketed name → ¬ Names (allowlist loopbackLine) name :=
  (letsThrough_iff loopbackLine loopbackRule (by decide +kernel)).1

/-- A request to another host behind the brackets of an allowed one. -/
theorem bracket_hides_host :
    parseRuleLine loopbackLine = .ok loopbackRule ∧
      requestSatisfiesRule loopbackRule (requestTo (ascii "[::1].evil.example")) = true ∧
      ¬ WellNamed (allowlist loopbackLine) (requestTo (ascii "[::1].evil.example")) := by
  refine ⟨by decide +kernel, by decide +kernel, ?_⟩
  have hlist : allowlist loopbackLine = [ascii "localhost", ascii "[::1]"] := by decide +kernel
  have htext : hostText (ascii "[::1].evil.example") = ascii "[::1].evil.example" := by
    decide +kernel
  rintro ⟨value, hvalue, hwritten⟩
  rw [headerValue_requestTo] at hvalue
  cases hvalue
  rw [htext, hlist] at hwritten
  obtain ⟨name, ⟨entry, hentry, hallows⟩, hname⟩ := hwritten
  have hstar : ∀ e ∈ [ascii "localhost", ascii "[::1]"], (e.map lower).head? ≠ some 0x2a := by
    decide
  cases hallows with
  | @suffix front suffix hwild =>
      have hhead := hstar entry hentry
      rw [hwild] at hhead
      exact hhead rfl
  | exact =>
      have hports : ∀ e ∈ [ascii "localhost", ascii "[::1]"],
          ascii "[::1].evil.example" ≠ e.map lower ∧
            (e.map lower ++ [0x3a]).isPrefixOf (ascii "[::1].evil.example") = false := by
        decide
      obtain ⟨hwhole, hport⟩ := hports entry hentry
      rcases hname with hname | ⟨port, -, hname⟩
      · exact hwhole hname
      · rw [hname, ← Bool.not_eq_true, List.isPrefixOf_iff_prefix] at hport
        apply hport
        exact ⟨port, List.append_assoc _ _ _⟩

end HostGuard
end Modules
end Garcon
