import Garcon.Library.Template
import Garcon.Modules.Router

/-!
# What a route pattern matches

A target pattern with closed braces is a template: its placeholders are holes, and a
placeholder captures up to the next slash.  Matching inverts the substitution of values
for the placeholders, as long as a slash or the end follows every one of them.
-/

namespace Garcon
namespace Modules
namespace Router

open Ascii Search Template

/-- How a piece is written in a pattern. -/
def pieceText : Piece UInt8 Bytes → Bytes
  | .literal b => [b]
  | .hole name => 0x7b :: (name ++ [0x7d])

/-- A piece that is read as it was written. -/
def Readable : Piece UInt8 Bytes → Prop
  | .literal b => b ≠ 0x7b
  | .hole name => name ≠ [] ∧ 0x7d ∉ name

instance : DecidablePred Readable
  | .literal b => inferInstanceAs (Decidable (b ≠ 0x7b))
  | .hole name => inferInstanceAs (Decidable (name ≠ [] ∧ 0x7d ∉ name))

def pieceTexts (pieces : List (Piece UInt8 Bytes)) : Bytes := pieces.flatMap pieceText

/-- The captures that hand on these values. -/
def capturesOf (pieces : List (Piece UInt8 Bytes)) (values : List Bytes) : List CapturedParam :=
  ((names pieces).zip values).map fun nv => ⟨nv.1, nv.2⟩

/-- A target pattern whose placeholders are closed and named. -/
structure RoutePattern where
  pieces : List (Piece UInt8 Bytes)
  readable : ∀ piece ∈ pieces, Readable piece

namespace RoutePattern

def text (p : RoutePattern) : Bytes := pieceTexts p.pieces

/-- The target with the values in place of the placeholders. -/
def instantiate (p : RoutePattern) (values : List Bytes) : Bytes := fill p.pieces values

def params (p : RoutePattern) (values : List Bytes) : List CapturedParam :=
  capturesOf p.pieces values

/-- A question mark outside the placeholders. -/
def Queries (p : RoutePattern) : Prop := .literal 0x3f ∈ p.pieces

end RoutePattern

/-- Every opening brace is closed behind a name that is not empty. -/
def Closed (pattern : Bytes) : Prop :=
  ∀ before rest, pattern = before ++ 0x7b :: rest →
    ∃ name after, rest = name ++ 0x7d :: after ∧ name ≠ [] ∧ 0x7d ∉ name

/-- The part of a pattern behind a piece is closed as the whole is. -/
theorem Closed.of_append {before pattern : Bytes} (h : Closed (before ++ pattern)) :
    Closed pattern := by
  intro before' rest hsplit
  apply h (before ++ before') rest
  rw [hsplit, List.append_assoc]

/-- A closed pattern is a list of pieces. -/
theorem exists_pieceTexts_eq {pattern : Bytes} (h : Closed pattern) :
    ∃ pieces, pieceTexts pieces = pattern ∧ ∀ piece ∈ pieces, Readable piece := by
  induction hn : pattern.length using Nat.strong_induction_on generalizing pattern with
  | _ n ih =>
    cases pattern with
    | nil => exact ⟨[], rfl, fun piece hmem => absurd hmem List.not_mem_nil⟩
    | cons c rest =>
        rw [List.length_cons] at hn
        by_cases hc : c = 0x7b
        · obtain ⟨name, after, rfl, hne, hclosed⟩ := h [] rest (by rw [hc]; rfl)
          have hwhole : Closed (c :: (name ++ [0x7d]) ++ after) := by
            rw [List.cons_append, List.append_assoc]
            exact h
          have hafter : Closed after := hwhole.of_append
          rw [List.length_append, List.length_cons] at hn
          obtain ⟨pieces, htext, hreadable⟩ := ih after.length (by omega) hafter rfl
          refine ⟨.hole name :: pieces, ?_, ?_⟩
          · show 0x7b :: (name ++ [0x7d]) ++ pieceTexts pieces = _
            rw [htext, hc, List.cons_append, List.append_assoc]
            rfl
          · exact List.forall_mem_cons.mpr ⟨⟨hne, hclosed⟩, hreadable⟩
        · have hwhole : Closed ([c] ++ rest) := h
          have hrest : Closed rest := hwhole.of_append
          obtain ⟨pieces, htext, hreadable⟩ := ih rest.length (by omega) hrest rfl
          refine ⟨.literal c :: pieces, ?_, ?_⟩
          · show c :: pieceTexts pieces = _
            rw [htext]
          · exact List.forall_mem_cons.mpr ⟨hc, hreadable⟩

/-! ## The loop -/

theorem matchPattern_literal_nil {b : UInt8} (hb : b ≠ 0x7b) (fuel : Nat) (pattern : Bytes) :
    matchPattern (fuel + 1) (b :: pattern) [] = none := by
  unfold matchPattern
  exact if_neg hb

theorem matchPattern_literal_cons {b : UInt8} (hb : b ≠ 0x7b) (fuel : Nat) (pattern : Bytes)
    (t : UInt8) (path : Bytes) :
    matchPattern (fuel + 1) (b :: pattern) (t :: path) =
      if b ≠ t then none else matchPattern fuel pattern path := by
  conv_lhs => unfold matchPattern
  exact if_neg hb

theorem matchPattern_placeholder {name : Bytes} (hne : name ≠ []) (hclosed : 0x7d ∉ name)
    (fuel : Nat) (pattern path : Bytes) :
    matchPattern (fuel + 1) (0x7b :: (name ++ ([0x7d] ++ pattern))) path =
      (matchPattern fuel pattern (path.dropWhile (· ≠ 0x2f))).map fun matched =>
        (⟨name, path.takeWhile (· ≠ 0x2f)⟩ :: matched.1, matched.2) := by
  conv_lhs => unfold matchPattern
  rw [if_pos rfl, cut_of_fresh (fresh_singleton.mpr hclosed)]
  exact if_neg hne

/-- The loop captures the template that the pattern spells. -/
theorem matchPattern_pieceTexts {pieces : List (Piece UInt8 Bytes)}
    (hpieces : ∀ piece ∈ pieces, Readable piece) {fuel : Nat}
    (hfuel : (pieceTexts pieces).length ≤ fuel) (path : Bytes) :
    matchPattern fuel (pieceTexts pieces) path =
      (capture 0x2f pieces path).map fun found =>
        (capturesOf pieces found.1, found.2) := by
  induction pieces generalizing fuel path with
  | nil => cases fuel <;> rfl
  | cons piece pieces ih =>
      obtain ⟨hpiece, hrest⟩ := List.forall_mem_cons.mp hpieces
      cases piece with
      | literal b =>
          have htexts : pieceTexts (.literal b :: pieces) = b :: pieceTexts pieces := rfl
          have hb : b ≠ 0x7b := hpiece
          rw [htexts] at hfuel ⊢
          cases fuel with
          | zero => exact absurd hfuel (Nat.not_succ_le_zero _)
          | succ fuel =>
              cases path with
              | nil =>
                  rw [matchPattern_literal_nil hb]
                  rfl
              | cons t path =>
                  rw [matchPattern_literal_cons hb, capture]
                  by_cases hbt : b = t
                  · rw [if_pos hbt, if_neg (not_not_intro hbt)]
                    exact ih hrest (Nat.le_of_succ_le_succ hfuel) path
                  · rw [if_neg hbt, if_pos hbt]
                    rfl
      | hole name =>
          obtain ⟨hne, hclosed⟩ : name ≠ [] ∧ 0x7d ∉ name := hpiece
          have htexts : pieceTexts (.hole name :: pieces) =
              0x7b :: (name ++ ([0x7d] ++ pieceTexts pieces)) := by
            show 0x7b :: (name ++ [0x7d]) ++ pieceTexts pieces = _
            rw [List.cons_append, List.append_assoc]
          rw [htexts] at hfuel ⊢
          rw [List.length_cons, List.length_append, List.length_append] at hfuel
          cases fuel with
          | zero => exact absurd hfuel (Nat.not_succ_le_zero _)
          | succ fuel =>
              have hroom : (pieceTexts pieces).length ≤ fuel := by omega
              rw [matchPattern_placeholder hne hclosed, ih hrest hroom, capture,
                Option.map_map, Option.map_map]
              rfl

theorem matchTarget_text (p : RoutePattern) (kind : PatternKind) (target : Bytes) :
    matchTarget kind p.text target =
      (capture 0x2f p.pieces (extractPath target)).bind fun found =>
        if found.2 = [] ∨ kind = .prefixed then some (p.params found.1) else none := by
  rw [matchTarget, RoutePattern.text, matchPattern_pieceTexts p.readable (le_refl _)]
  cases capture 0x2f p.pieces (extractPath target) with
  | none => rfl
  | some found => rfl

theorem extractPath_of_not_mem {path : Bytes} (h : 0x3f ∉ path) : extractPath path = path := by
  have hnone : find [0x3f] path = none := by
    rw [find_eq_none_iff, List.singleton_infix_iff]
    exact h
  rw [extractPath, hnone]

theorem extractPath_query {path query : Bytes} (h : 0x3f ∉ path)
    (hquery : query = [] ∨ query.head? = some 0x3f) : extractPath (path ++ query) = path := by
  rcases hquery with rfl | hhead
  · rw [List.append_nil, extractPath_of_not_mem h]
  · obtain ⟨query, rfl⟩ := List.head?_eq_some_iff.mp hhead
    have hfind := find_of_fresh (fresh_singleton.mpr h) query
    rw [extractPath, show path ++ 0x3f :: query = path ++ ([0x3f] ++ query) from rfl, hfind]
    exact List.take_left

theorem not_mem_extractPath (target : Bytes) : 0x3f ∉ extractPath target := by
  unfold extractPath
  cases hfind : find [0x3f] target with
  | none =>
      rw [find_eq_none_iff, List.singleton_infix_iff] at hfind
      exact hfind
  | some q => exact fresh_singleton.mp (fresh_take_of_find hfind).1

theorem map_name_params {p : RoutePattern} {values : List Bytes}
    (h : Fits 0x2f p.pieces values) : (p.params values).map (·.name) = names p.pieces := by
  rw [RoutePattern.params, capturesOf, List.map_map]
  exact List.map_fst_zip h.length_eq.ge

theorem map_value_params {p : RoutePattern} {values : List Bytes}
    (h : Fits 0x2f p.pieces values) : (p.params values).map (·.value) = values := by
  rw [RoutePattern.params, capturesOf, List.map_map]
  exact List.map_snd_zip h.length_eq.le

/-! ## Matching and substitution -/

theorem not_mem_instantiate {p : RoutePattern} (hp : ¬ p.Queries) {values : List Bytes}
    (hvalues : ∀ v ∈ values, 0x3f ∉ v) : 0x3f ∉ p.instantiate values := by
  show 0x3f ∉ fill p.pieces values
  have hpieces : ∀ piece ∈ p.pieces, piece ≠ .literal 0x3f := by
    rintro piece hmem rfl
    exact hp hmem
  generalize p.pieces = pieces at hpieces
  induction pieces generalizing values with
  | nil => exact List.not_mem_nil
  | cons piece pieces ih =>
      obtain ⟨hpiece, hrest⟩ := List.forall_mem_cons.mp hpieces
      cases piece with
      | literal b =>
          rw [fill, List.mem_cons, not_or]
          exact ⟨fun e => hpiece (congrArg Piece.literal e.symm), ih hvalues hrest⟩
      | hole name =>
          cases values with
          | nil =>
              have hnone : ∀ v ∈ ([] : List Bytes), 0x3f ∉ v := fun v hv =>
                absurd hv List.not_mem_nil
              exact ih hnone hrest
          | cons value values =>
              obtain ⟨hvalue, htail⟩ := List.forall_mem_cons.mp hvalues
              rw [fill_hole, List.mem_append, not_or]
              exact ⟨hvalue, ih htail hrest⟩

theorem mem_instantiate {p : RoutePattern} (hp : p.Queries) (values : List Bytes) :
    0x3f ∈ p.instantiate values := by
  show 0x3f ∈ fill p.pieces values
  have hpieces : .literal 0x3f ∈ p.pieces := hp
  generalize p.pieces = pieces at hpieces
  induction pieces generalizing values with
  | nil => exact absurd hpieces List.not_mem_nil
  | cons piece pieces ih =>
      rcases List.mem_cons.mp hpieces with rfl | hmem
      · exact List.mem_cons_self
      · cases piece with
        | literal b => exact List.mem_cons_of_mem b (ih values hmem)
        | hole name => exact List.mem_append_right _ (ih values.tail hmem)

/-- What a match captures, and that values come back from where they were put in. -/
structure Inverts (p : RoutePattern) : Prop where
  sound : ∀ (kind : PatternKind) (target : Bytes) (caps : List CapturedParam),
    matchTarget kind p.text target = some caps →
      caps.map (·.name) = names p.pieces ∧ (∀ cp ∈ caps, 0x2f ∉ cp.value) ∧
      (kind = .exact → p.instantiate (caps.map (·.value)) = extractPath target) ∧
      p.instantiate (caps.map (·.value)) <+: extractPath target
  complete : Delimited 0x2f p.pieces → ¬ p.Queries → ∀ values : List Bytes,
    Fits 0x2f p.pieces values → (∀ v ∈ values, 0x3f ∉ v) → ∀ query : Bytes,
      query = [] ∨ query.head? = some 0x3f →
        matchTarget .exact p.text (p.instantiate values ++ query) = some (p.params values)

/-- A match is a reading of the path. -/
theorem exists_capture_of_matchTarget {p : RoutePattern} {kind : PatternKind} {target : Bytes}
    {caps : List CapturedParam} (h : matchTarget kind p.text target = some caps) :
    ∃ values rest, caps = p.params values ∧
      capture 0x2f p.pieces (extractPath target) = some (values, rest) ∧
      (rest = [] ∨ kind = .prefixed) := by
  rw [matchTarget_text, Option.bind_eq_some_iff] at h
  obtain ⟨⟨values, rest⟩, hcapture, hend⟩ := h
  dsimp only at hend
  by_cases hrest : rest = [] ∨ kind = .prefixed
  · rw [if_pos hrest] at hend
    cases hend
    exact ⟨values, rest, rfl, hcapture, hrest⟩
  · rw [if_neg hrest] at hend
    cases hend

theorem inverts (p : RoutePattern) : Inverts p where
  sound := by
    intro kind target caps h
    obtain ⟨values, rest, rfl, hcapture, hend⟩ := exists_capture_of_matchTarget h
    obtain ⟨hfits, hpath⟩ := capture_sound hcapture
    rw [map_value_params hfits, hpath]
    refine ⟨map_name_params hfits, ?_, ?_, List.prefix_append _ _⟩
    · intro cp hcp
      have hvalue := List.mem_map_of_mem (f := CapturedParam.value) hcp
      rw [map_value_params hfits] at hvalue
      exact hfits.clear _ hvalue
    · intro hkind
      rcases hend with hnil | hprefixed
      · rw [hnil, List.append_nil]
        rfl
      · rw [hkind] at hprefixed
        cases hprefixed
  complete := by
    intro hdelimited hp values hfits hvalues query hquery
    have hpath := extractPath_query (not_mem_instantiate hp hvalues) hquery
    rw [matchTarget_text, hpath, RoutePattern.instantiate, capture_fill hdelimited hfits]
    rfl

/-- Every closed pattern is a template, and matching inverts filling it. -/
theorem matchTarget_inverts :
    (∀ pattern, Closed pattern → ∃ p : RoutePattern, p.text = pattern) ∧
      ∀ p : RoutePattern, Inverts p := by
  refine ⟨?_, inverts⟩
  intro pattern hclosed
  obtain ⟨pieces, htext, hreadable⟩ := exists_pieceTexts_eq hclosed
  exact ⟨⟨pieces, hreadable⟩, htext⟩

/-- Literals, one of which starts the query of every target. -/
def searchPieces : List (Piece UInt8 Bytes) := (ascii "/find?all").map .literal

theorem readable_searchPieces : ∀ piece ∈ searchPieces, Readable piece := by decide

def searchPattern : RoutePattern := ⟨searchPieces, readable_searchPieces⟩

/-- The query of a target is not matched, so a question mark in a pattern never is. -/
theorem search_not_inverted : Closed searchPattern.text ∧
    Delimited 0x2f searchPattern.pieces ∧ Fits 0x2f searchPattern.pieces [] ∧
    searchPattern.instantiate [] = ascii "/find?all" ∧
    matchTarget .exact searchPattern.text (searchPattern.instantiate []) = none := by
  have htext : searchPattern.text = ascii "/find?all" := by decide +kernel
  refine ⟨?_, ?_, ⟨rfl, ?_⟩, by decide +kernel, by decide +kernel⟩
  · intro before rest hsplit
    have hmem : (0x7b : UInt8) ∈ ascii "/find?all" := by
      rw [← htext, hsplit]
      exact List.mem_append_right _ List.mem_cons_self
    exact absurd hmem (by decide)
  · exact ⟨⟩
  · exact fun v hv => absurd hv List.not_mem_nil

/-! ## Routes that match -/

/-- Values that are not empty come back exactly where every placeholder is followed by a
slash or the end, and no question mark stands outside of them. -/
theorem matchTarget_returns_iff (p : RoutePattern) (values : List Bytes)
    (hfits : Fits 0x2f p.pieces values) (hne : ∀ v ∈ values, v ≠ [])
    (hvalues : ∀ v ∈ values, 0x3f ∉ v) :
    matchTarget .exact p.text (p.instantiate values) = some (p.params values) ↔
      Delimited 0x2f p.pieces ∧ ¬ p.Queries := by
  constructor
  · intro h
    obtain ⟨values', rest, hparams, hcapture, hend⟩ := exists_capture_of_matchTarget h
    obtain ⟨hfits', hpath⟩ := capture_sound hcapture
    have hsame : values = values' := by
      rw [← map_value_params hfits, hparams, map_value_params hfits']
    subst hsame
    have hrest : rest = [] := by
      rcases hend with hnil | hkind
      · exact hnil
      · cases hkind
    rw [hrest, List.append_nil] at hpath
    have hp : ¬ p.Queries := by
      intro hqueries
      have hmem := mem_instantiate hqueries values
      rw [RoutePattern.instantiate, ← hpath] at hmem
      exact not_mem_extractPath _ hmem
    rw [hpath, hrest] at hcapture
    exact ⟨delimited_of_capture_fill hfits hne hcapture, hp⟩
  · rintro ⟨hdelimited, hp⟩
    have hmatch := (inverts p).complete hdelimited hp values hfits hvalues [] (Or.inl rfl)
    rw [List.append_nil] at hmatch
    exact hmatch

def itemPieces : List (Piece UInt8 Bytes) :=
  (ascii "/api/").map .literal ++
    .hole (ascii "version") :: ((ascii "/items/").map .literal ++ [.hole (ascii "item_id")])

theorem readable_itemPieces : ∀ piece ∈ itemPieces, Readable piece := by decide

def itemPattern : RoutePattern := ⟨itemPieces, readable_itemPieces⟩

theorem matchTarget_returns_item :
    matchTarget .exact itemPattern.text (itemPattern.instantiate [ascii "v2", ascii "xyz-42"]) =
        some (itemPattern.params [ascii "v2", ascii "xyz-42"]) ↔
      Delimited 0x2f itemPattern.pieces ∧ ¬ itemPattern.Queries :=
  matchTarget_returns_iff itemPattern [ascii "v2", ascii "xyz-42"] ⟨by decide, by decide⟩
    (by decide) (by decide)

def jsonPieces : List (Piece UInt8 Bytes) :=
  (ascii "/files/").map .literal ++ .hole (ascii "name") :: (ascii ".json").map .literal

theorem readable_jsonPieces : ∀ piece ∈ jsonPieces, Readable piece := by decide

def jsonPattern : RoutePattern := ⟨jsonPieces, readable_jsonPieces⟩

/-- A route that is accepted and read in one way only, and is never taken. -/
theorem json_not_matched :
    parseRoutes (ascii "route=GET|/files/\x7bname\x7d.json|pass") =
        .ok [{ methodPattern := ascii "GET", targetPattern := jsonPattern.text }] ∧
      Fits 0x2f jsonPattern.pieces [ascii "a"] ∧
      (∀ values, Fits 0x2f jsonPattern.pieces values →
        jsonPattern.instantiate values = jsonPattern.instantiate [ascii "a"] →
          values = [ascii "a"]) ∧
      jsonPattern.instantiate [ascii "a"] = ascii "/files/a.json" ∧
      matchTarget .exact jsonPattern.text (jsonPattern.instantiate [ascii "a"]) = none := by
  refine ⟨by decide +kernel, ⟨by decide, by decide⟩, ?_, by decide +kernel, by decide +kernel⟩
  intro values hfits hsame
  obtain ⟨value, hvalue⟩ := List.length_eq_one_iff.mp hfits.length_eq
  subst hvalue
  have htext : ∀ v : Bytes, jsonPattern.instantiate [v] =
      ascii "/files/" ++ (v ++ ascii ".json") := fun v => rfl
  rw [htext, htext] at hsame
  rw [List.append_cancel_right (List.append_cancel_left hsame)]

end Router
end Modules
end Garcon
