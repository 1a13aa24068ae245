import Garcon.Http.Request

/-!
# The keep-alive decision

A client lists options in its `Connection` fields, of which there may be any number.  The
options are a set, so neither their order nor the way they are spread over fields
matters.  The request looks at the first field only, and in HTTP/1.0 at one option only.
-/

namespace Garcon
namespace Http

open Ascii Search

theorem comma_ne_nil : ([0x2c] : Bytes) ≠ [] := List.cons_ne_nil _ _

/-- The elements of a comma-separated value. -/
def elements (value : Bytes) : List Bytes :=
  (splitAll [0x2c] comma_ne_nil value).map trimOptionalWhitespace

/-- The options in a list of field values, in lower case. -/
def connectionOptions (values : List Bytes) : Set Bytes :=
  {option | ∃ value ∈ values, ∃ element ∈ elements value, element.map lower = option}

theorem connectionOptions_cons (value : Bytes) (values : List Bytes) :
    connectionOptions (value :: values) =
      {option | ∃ element ∈ elements value, element.map lower = option} ∪
        connectionOptions values := by
  ext option
  simp only [connectionOptions, Set.mem_ofPred_eq, Set.mem_union, List.exists_mem_cons_iff]

theorem elements_comma (left right : Bytes) :
    elements (left ++ 0x2c :: right) = elements left ++ elements right := by
  unfold elements
  rw [← List.map_append, splitAll_append]

/-- Two fields say what one field with both lists says. -/
theorem connectionOptions_split (left right : Bytes) (values : List Bytes) :
    connectionOptions ((left ++ 0x2c :: right) :: values) =
      connectionOptions (left :: right :: values) := by
  rw [connectionOptions_cons, connectionOptions_cons, connectionOptions_cons, elements_comma,
    ← Set.union_assoc]
  congr 1
  ext option
  simp only [List.mem_append, or_and_right, exists_or, Set.mem_ofPred_eq, Set.mem_union]

theorem connectionOptions_perm {values values' : List Bytes} (h : values.Perm values') :
    connectionOptions values = connectionOptions values' := by
  ext option
  simp only [connectionOptions, Set.mem_ofPred_eq, h.mem_iff]

namespace Request

/-- The values of all fields named `Connection`. -/
def connectionFields (r : Request) : List Bytes :=
  (r.headers.filter fun header => headerNameEquals header.name (ascii "Connection")).map (·.value)

/-- The options of the client. -/
def options (r : Request) : Set Bytes := connectionOptions r.connectionFields

/-- The options in its first `Connection` field. -/
def firstOptions (r : Request) : Set Bytes := connectionOptions r.connectionFields.head?.toList

def IsVersion (r : Request) (minor : Int) : Prop := r.versionMajor = 1 ∧ r.versionMinor = minor

/-- The version's default, unless the options say otherwise. -/
def WantsKeepAlive (r : Request) : Prop :=
  r.IsVersion 1 ∧ ascii "close" ∉ r.options ∨
    r.IsVersion 0 ∧ ascii "keep-alive" ∈ r.options ∧ ascii "close" ∉ r.options

/-- What later fields say about the version's option is said by the first field, and no
`close` stands beside a `keep-alive` that counts. -/
structure FirstDecides (r : Request) : Prop where
  close_first : r.IsVersion 1 → ascii "close" ∈ r.options → ascii "close" ∈ r.firstOptions
  no_close : r.IsVersion 0 → ascii "keep-alive" ∈ r.firstOptions → ascii "close" ∉ r.options
  keep_first : r.IsVersion 0 → ascii "keep-alive" ∈ r.options → ascii "close" ∉ r.options →
    ascii "keep-alive" ∈ r.firstOptions

theorem firstOptions_subset (r : Request) : r.firstOptions ⊆ r.options := by
  rintro option ⟨value, hvalue, helement⟩
  exact ⟨value, List.mem_of_mem_head? (Option.mem_toList.mp hvalue), helement⟩

theorem head?_connectionFields (r : Request) :
    r.connectionFields.head? = r.headerValue (ascii "Connection") := by
  rw [connectionFields, List.head?_map, List.head?_filter]
  rfl

/-- The loop over the parts looks for the token in the first field. -/
theorem connectionTokenPresent_iff (r : Request) (token : Bytes) :
    r.connectionTokenPresent token = true ↔ token.map lower ∈ r.firstOptions := by
  rw [firstOptions, head?_connectionFields, connectionTokenPresent]
  cases r.headerValue (ascii "Connection") with
  | none =>
      refine iff_of_false Bool.false_ne_true ?_
      rintro ⟨value, hvalue, -⟩
      cases hvalue
  | some value =>
      have hmem : token.map lower ∈ connectionOptions (some value).toList ↔
          ∃ element ∈ elements value, element.map lower = token.map lower := by
        simp only [connectionOptions, Option.toList_some, Set.mem_ofPred_eq, List.mem_singleton,
          exists_eq_left]
      rw [hmem, List.any_eq_true, elements]
      simp only [List.mem_map, exists_exists_and_eq_and, asciiIequals, iequals_iff]

theorem keepAliveRequested_iff (r : Request) :
    r.keepAliveRequested = true ↔
      r.IsVersion 1 ∧ ascii "close" ∉ r.firstOptions ∨
        r.IsVersion 0 ∧ ascii "keep-alive" ∈ r.firstOptions := by
  have hclose := r.connectionTokenPresent_iff (ascii "close")
  have hkeep := r.connectionTokenPresent_iff (ascii "keep-alive")
  rw [show (ascii "close").map lower = ascii "close" by decide] at hclose
  rw [show (ascii "keep-alive").map lower = ascii "keep-alive" by decide] at hkeep
  rw [← hclose, ← hkeep, keepAliveRequested]
  by_cases hold : r.IsVersion 0
  · have hnew : ¬ r.IsVersion 1 := by
      rintro ⟨-, hminor⟩
      rw [hold.2] at hminor
      cases hminor
    rw [if_pos (show r.versionMajor = 1 ∧ r.versionMinor = 0 from hold)]
    simp only [hold, hnew, false_and, true_and, false_or]
  · rw [if_neg (show ¬ (r.versionMajor = 1 ∧ r.versionMinor = 0) from hold)]
    by_cases hnew : r.IsVersion 1
    · rw [if_pos (show r.versionMajor = 1 ∧ r.versionMinor = 1 from hnew)]
      simp only [hold, hnew, false_and, true_and, or_false, Bool.not_eq_true', Bool.not_eq_true]
    · rw [if_neg (show ¬ (r.versionMajor = 1 ∧ r.versionMinor = 1) from hnew)]
      simp only [hold, hnew, false_and, or_false, Bool.false_eq_true]

theorem keepAliveRequested_iff_wants_iff (r : Request) :
    (r.keepAliveRequested = true ↔ r.WantsKeepAlive) ↔ r.FirstDecides := by
  have hsub := r.firstOptions_subset (a := ascii "close")
  have hsub' := r.firstOptions_subset (a := ascii "keep-alive")
  rw [keepAliveRequested_iff, WantsKeepAlive]
  have hversions : r.IsVersion 1 → ¬ r.IsVersion 0 := by
    rintro hnew hold
    rw [IsVersion, hold.2] at hnew
    cases hnew.2
  constructor
  · intro h
    refine ⟨?_, ?_, ?_⟩
    · intro hnew hclose
      by_contra hfirst
      rcases h.mp (Or.inl ⟨hnew, hfirst⟩) with ⟨-, hnot⟩ | ⟨hold, -⟩
      · exact hnot hclose
      · exact hversions hnew hold
    · intro hold hkeep
      rcases h.mp (Or.inr ⟨hold, hkeep⟩) with ⟨hnew, -⟩ | ⟨-, -, hnot⟩
      · exact absurd hold (hversions hnew)
      · exact hnot
    · intro hold hkeep hclose
      rcases h.mpr (Or.inr ⟨hold, hkeep, hclose⟩) with ⟨hnew, -⟩ | ⟨-, hfirst⟩
      · exact absurd hold (hversions hnew)
      · exact hfirst
  · rintro ⟨hclose, hnoClose, hkeep⟩
    refine or_congr (and_congr_right ?_) (and_congr_right ?_)
    · intro hnew
      exact ⟨fun hfirst hlater => hfirst (hclose hnew hlater),
        fun hnot hfirst => hnot (hsub hfirst)⟩
    · intro hold
      exact ⟨fun hfirst => ⟨hsub' hfirst, hnoClose hold hfirst⟩,
        fun hall => hkeep hold hall.1 hall.2⟩

/-- The decision follows from the client's options exactly where the first field decides,
and there it is the same for every way to write them down, in fields split or reordered. -/
theorem keepAlive_reads_options (r : Request) :
    ((r.keepAliveRequested = true ↔ r.WantsKeepAlive) ↔ r.FirstDecides) ∧
    (∀ r' : Request, r.FirstDecides → r'.FirstDecides → r.versionMajor = r'.versionMajor →
      r.versionMinor = r'.versionMinor → r.options = r'.options →
        r.keepAliveRequested = r'.keepAliveRequested) ∧
    (∀ (left right : Bytes) (values : List Bytes),
      connectionOptions ((left ++ 0x2c :: right) :: values) =
        connectionOptions (left :: right :: values)) ∧
    ∀ values values' : List Bytes, values.Perm values' →
      connectionOptions values = connectionOptions values' := by
  refine ⟨r.keepAliveRequested_iff_wants_iff, ?_, connectionOptions_split,
    fun _ _ => connectionOptions_perm⟩
  intro r' h h' hmajor hminor hoptions
  rw [Bool.eq_iff_iff, r.keepAliveRequested_iff_wants_iff.mpr h,
    r'.keepAliveRequested_iff_wants_iff.mpr h', WantsKeepAlive, WantsKeepAlive, IsVersion,
    IsVersion, IsVersion, IsVersion, hmajor, hminor, hoptions]

/-- A client that asks to close in its second field. -/
def closeLater : Request where
  method := ascii "GET"
  target := ascii "/"
  headers := [⟨ascii "Host", ascii "a"⟩, ⟨ascii "Connection", ascii "TE"⟩,
    ⟨ascii "connection", ascii "close"⟩]

theorem close_overlooked :
    Request.parse
        (ascii "GET / HTTP/1.1\r\nHost: a\r\nConnection: TE\r\nconnection: close\r\n\r\n") =
        .ok closeLater ∧
      closeLater.keepAliveRequested = true ∧ ¬ closeLater.WantsKeepAlive := by
  refine ⟨by decide +kernel, by decide +kernel, ?_⟩
  have hclose : ascii "close" ∈ closeLater.options :=
    ⟨ascii "close", by decide +kernel, ascii "close", by decide +kernel, by decide +kernel⟩
  rintro (⟨-, hnot⟩ | ⟨hold, -⟩)
  · exact hnot hclose
  · exact absurd hold.2 (by decide)

end Request
end Http
end Garcon
