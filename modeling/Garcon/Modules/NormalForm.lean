import Garcon.Modules.Spelling

/-!
# Relative paths as normal forms

The file service walks over the positions of a target and collects what stands between its
slashes.  The walk ends behind the last byte, so a slash at the end gives one more piece,
which is empty.  What it returns are the segments a target names, and these spell a target
that names them again.
-/

namespace Garcon
namespace Modules
namespace StaticFiles

open Ascii Search

theorem slash_ne_nil : ([0x2f] : Bytes) ≠ [] := List.cons_ne_nil _ _

/-! ## The walk -/

/-- The position of the next slash, or the end. -/
def nextSlash (target : Bytes) (pos : Nat) : Nat :=
  ((find [0x2f] (target.drop pos)).map (pos + ·)).getD target.length

theorem le_nextSlash {target : Bytes} {pos : Nat} (h : pos ≤ target.length) :
    pos ≤ nextSlash target pos := by
  unfold nextSlash
  cases find [0x2f] (target.drop pos) with
  | none => exact h
  | some i => exact Nat.le_add_right pos i

/-- The loop of `map_to_relative_path`. -/
def mapFrom (target : Bytes) (pos : Nat) (relative : Path) (hasComponent : Bool) :
    Option Path :=
  if pos ≤ target.length then
    let next := nextSlash target pos
    let segment := (target.drop pos).take (next - pos)
    if segment ≠ [] then
      if isForbiddenSegment segment then none
      else mapFrom target (next + 1) (relative ++ [segment]) true
    else mapFrom target (next + 1) relative hasComponent
  else if hasComponent then some relative
  else none
termination_by target.length + 1 - pos
decreasing_by
  all_goals
    have hpos : pos ≤ target.length := by assumption
    have hle := le_nextSlash hpos
    omega

/-- `map_to_relative_path` with its walk over the positions. -/
def mapByPosition (target : Bytes) : Option Path :=
  let target := withoutQuery target
  if target.head? ≠ some 0x2f then none
  else mapFrom (orIndex target) 1 [] false

/-! ## What the walk collects -/

/-- The pieces between the slashes of a target, behind its first byte. -/
def pieces (target : Bytes) : List Bytes := splitAll [0x2f] slash_ne_nil (target.drop 1)

/-- What is returned when these segments are left. -/
def finish (relative : Path) (hasComponent : Bool) (left : List Bytes) : Option Path :=
  if left.any isForbiddenSegment then none
  else if hasComponent = true ∨ left ≠ [] then some (relative ++ left)
  else none

theorem finish_cons {relative : Path} {hasComponent : Bool} {segment : Bytes}
    {left : List Bytes} :
    finish relative hasComponent (segment :: left) =
      if isForbiddenSegment segment then none
      else finish (relative ++ [segment]) true left := by
  unfold finish
  rw [List.any_cons]
  cases isForbiddenSegment segment with
  | true => rfl
  | false =>
      rw [Bool.false_or, if_neg Bool.false_ne_true, if_pos (Or.inr (List.cons_ne_nil _ _)),
        if_pos (Or.inl rfl), List.append_assoc]
      rfl

/-- The segments from a position on. -/
def segmentsFrom (target : Bytes) (pos : Nat) : List Bytes :=
  if pos ≤ target.length then
    (splitAll [0x2f] slash_ne_nil (target.drop pos)).filter (· ≠ [])
  else []

/-- One round takes the piece up to the next slash. -/
theorem segmentsFrom_eq {target : Bytes} {pos : Nat} (hpos : pos ≤ target.length) :
    segmentsFrom target pos =
      [(target.drop pos).take (nextSlash target pos - pos)].filter (· ≠ []) ++
        segmentsFrom target (nextSlash target pos + 1) := by
  unfold nextSlash
  cases hfind : find [0x2f] (target.drop pos) with
  | none =>
      have hnone := find_eq_none_iff.mp hfind
      show segmentsFrom target pos = [(target.drop pos).take (target.length - pos)].filter _ ++
        segmentsFrom target (target.length + 1)
      have hwhole : (target.drop pos).take (target.length - pos) = target.drop pos :=
        List.take_of_length_le (by rw [List.length_drop])
      rw [segmentsFrom, segmentsFrom, if_pos hpos, if_neg (by omega), hwhole,
        splitAll_of_not_occurs hnone, List.append_nil]
  | some i =>
      obtain ⟨hfresh, htarget⟩ := fresh_take_of_find hfind
      show segmentsFrom target pos = [(target.drop pos).take (pos + i - pos)].filter _ ++
        segmentsFrom target (pos + i + 1)
      have hlength : i + 1 ≤ target.length - pos := by
        have hle := congrArg List.length htarget
        simp only [List.length_append, List.length_take, List.length_drop,
          List.length_singleton] at hle
        omega
      have hrest : (target.drop pos).drop (i + 1) = target.drop (pos + i + 1) := by
        rw [List.drop_drop, Nat.add_assoc]
      have hsplit : splitAll [0x2f] slash_ne_nil (target.drop pos) =
          (target.drop pos).take i :: splitAll [0x2f] slash_ne_nil (target.drop (pos + i + 1)) := by
        rw [← hrest, ← splitAll_of_fresh hfresh]
        exact congrArg _ htarget
      rw [segmentsFrom, segmentsFrom, if_pos hpos, if_pos (by omega), hsplit,
        Nat.add_sub_cancel_left, ← List.filter_append]
      rfl

theorem segmentsFrom_of_ne_nil {target : Bytes} {pos : Nat} (hpos : pos ≤ target.length)
    (h : (target.drop pos).take (nextSlash target pos - pos) ≠ []) :
    segmentsFrom target pos = (target.drop pos).take (nextSlash target pos - pos) ::
      segmentsFrom target (nextSlash target pos + 1) := by
  rw [segmentsFrom_eq hpos,
    List.filter_cons_of_pos (p := fun s : Bytes => s ≠ []) (decide_eq_true h)]
  rfl

theorem segmentsFrom_of_eq_nil {target : Bytes} {pos : Nat} (hpos : pos ≤ target.length)
    (h : (target.drop pos).take (nextSlash target pos - pos) = []) :
    segmentsFrom target pos = segmentsFrom target (nextSlash target pos + 1) := by
  rw [segmentsFrom_eq hpos, h]
  rfl

/-- From a position on, the walk collects the segments that are left. -/
theorem mapFrom_eq (target : Bytes) (pos : Nat) (relative : Path) (hasComponent : Bool) :
    mapFrom target pos relative hasComponent =
      finish relative hasComponent (segmentsFrom target pos) := by
  induction pos, relative, hasComponent using mapFrom.induct target with
  | case1 pos relative hasComponent hpos next segment hne hforbidden =>
      rw [mapFrom, if_pos hpos, segmentsFrom_of_ne_nil hpos hne, finish_cons,
        if_pos hforbidden]
      dsimp only
      rw [if_pos hne, if_pos hforbidden]
  | case2 pos relative hasComponent hpos next segment hne hallowed ih =>
      rw [mapFrom, if_pos hpos, segmentsFrom_of_ne_nil hpos hne, finish_cons,
        if_neg hallowed]
      dsimp only
      rw [if_pos hne, if_neg hallowed]
      exact ih
  | case3 pos relative hasComponent hpos next segment hempty ih =>
      rw [mapFrom, if_pos hpos, segmentsFrom_of_eq_nil hpos (not_not.mp hempty)]
      dsimp only
      rw [if_neg hempty]
      exact ih
  | case4 pos relative hpos =>
      rw [mapFrom, if_neg hpos, segmentsFrom, if_neg hpos]
      show some relative = some (relative ++ [])
      rw [List.append_nil]
  | case5 pos relative hasComponent hpos hcomponent =>
      rw [mapFrom, if_neg hpos, segmentsFrom, if_neg hpos, if_neg hcomponent]
      exact (if_neg (by simpa using hcomponent)).symm

theorem orIndex_eq_cons {target : Bytes} (h : target.head? = some 0x2f) :
    ∃ rest, orIndex target = 0x2f :: rest := by
  unfold orIndex
  by_cases hindex : target = ascii "/"
  · exact ⟨ascii "index.html", if_pos hindex⟩
  · obtain ⟨rest, rfl⟩ := List.head?_eq_some_iff.mp h
    exact ⟨rest, if_neg hindex⟩

/-- The walk returns what the segments of the target give. -/
theorem mapByPosition_eq (target : Bytes) : mapByPosition target = mapToRelativePath target := by
  unfold mapByPosition mapToRelativePath
  dsimp only
  by_cases hslash : (withoutQuery target).head? ≠ some 0x2f
  · rw [if_pos hslash, if_pos hslash]
  · obtain ⟨rest, hrest⟩ := orIndex_eq_cons (not_not.mp hslash)
    have hsegments : segmentsFrom (orIndex (withoutQuery target)) 1 =
        segments (orIndex (withoutQuery target)) := by
      rw [hrest]
      exact if_pos (Nat.le_add_left 1 rest.length)
    rw [if_neg hslash, if_neg hslash, mapFrom_eq, hsegments]
    unfold finish
    by_cases hnil : segments (orIndex (withoutQuery target)) = []
    · rw [hnil]
      rfl
    · rw [if_neg hnil, if_pos (Or.inr hnil)]
      rfl

/-! ## Normal forms -/

/-- The segments a target names, where a slash alone stands for the index. -/
def named (target : Bytes) : List Bytes :=
  if target = ascii "/" then [ascii "index.html"] else (pieces target).filter (· ≠ [])

/-- The targets that are mapped to a path. -/
structure Mappable (target : Bytes) : Prop where
  slash : target.head? = some 0x2f
  plain : ∀ piece ∈ pieces target, piece ≠ ascii "." ∧ piece ≠ ascii ".." ∧ 0x00 ∉ piece
  some_named : target = ascii "/" ∨ ∃ piece ∈ pieces target, piece ≠ []

/-- A slash and the components of a path, joined with slashes. -/
def joined (path : Path) : Bytes := 0x2f :: List.intercalate [0x2f] path

theorem joined_eq_spell {path : Path} (hne : path ≠ []) : joined path = spell 0 path := by
  unfold joined spell
  rw [List.replicate_zero, List.nil_append]
  induction path with
  | nil => exact absurd rfl hne
  | cons first path ih =>
      cases path with
      | nil => rw [List.intercalate_singleton, List.flatMap_singleton]
      | cons second path =>
          have hrest := ih (List.cons_ne_nil _ _)
          rw [List.intercalate_cons_cons, List.flatMap_cons, ← hrest]
          simp

theorem isForbiddenSegment_eq_false_iff {segment : Bytes} :
    isForbiddenSegment segment = false ↔
      segment ≠ ascii "." ∧ segment ≠ ascii ".." ∧ 0x00 ∉ segment := by
  unfold isForbiddenSegment
  simp [Bool.or_eq_false_iff, and_assoc]

theorem named_eq {target : Bytes} : segments (orIndex target) = named target := by
  unfold named orIndex
  by_cases hindex : target = ascii "/"
  · rw [if_pos hindex, if_pos hindex]
    decide +kernel
  · rw [if_neg hindex, if_neg hindex]
    rfl

/-- A target is mapped to the segments it names, if it names some and all are allowed. -/
theorem mapByPosition_eq_some_iff {target : Bytes} {path : Path} :
    mapByPosition target = some path ↔
      (withoutQuery target).head? = some 0x2f ∧
        (∀ s ∈ named (withoutQuery target), isForbiddenSegment s = false) ∧
          named (withoutQuery target) ≠ [] ∧ path = named (withoutQuery target) := by
  rw [mapByPosition_eq, mapToRelativePath]
  dsimp only
  rw [named_eq]
  by_cases hslash : (withoutQuery target).head? = some 0x2f
  · rw [if_neg (not_not.mpr hslash), and_iff_right hslash]
    by_cases hany : (named (withoutQuery target)).any isForbiddenSegment
    · rw [if_pos hany]
      obtain ⟨s, hs, hforbidden⟩ := List.any_eq_true.mp hany
      refine iff_of_false (fun h => nomatch h) ?_
      rintro ⟨hall, -⟩
      rw [hall s hs] at hforbidden
      cases hforbidden
    · have hall : ∀ s ∈ named (withoutQuery target), isForbiddenSegment s = false := by
        intro s hs
        rw [Bool.not_eq_true, List.any_eq_false] at hany
        exact Bool.eq_false_iff.mpr (hany s hs)
      rw [if_neg hany, and_iff_right hall]
      by_cases hnil : named (withoutQuery target) = []
      · rw [if_pos hnil]
        exact iff_of_false (fun h => nomatch h) fun h => h.1 hnil
      · rw [if_neg hnil, and_iff_right hnil, Option.some.injEq]
        exact eq_comm
  · rw [if_pos hslash]
    exact iff_of_false (fun h => nomatch h) fun h => hslash h.1

theorem mappable_iff {target : Bytes} :
    Mappable target ↔ target.head? = some 0x2f ∧
      (∀ s ∈ named target, isForbiddenSegment s = false) ∧ named target ≠ [] := by
  by_cases hindex : target = ascii "/"
  · subst hindex
    have hpieces : pieces (ascii "/") = [[]] := by decide +kernel
    refine iff_of_true ⟨rfl, ?_, Or.inl rfl⟩ ⟨rfl, ?_, ?_⟩
    · rw [hpieces]
      decide
    · decide
    · decide
  · have hnamed : named target = (pieces target).filter (· ≠ []) := if_neg hindex
    rw [hnamed]
    constructor
    · intro h
      refine ⟨h.slash, fun s hs => ?_, ?_⟩
      · exact isForbiddenSegment_eq_false_iff.mpr (h.plain s (List.mem_of_mem_filter hs))
      · obtain ⟨piece, hpiece, hne⟩ := h.some_named.resolve_left hindex
        exact List.ne_nil_of_mem (List.mem_filter.mpr ⟨hpiece, decide_eq_true hne⟩)
    · rintro ⟨hslash, hall, hne⟩
      refine ⟨hslash, fun piece hpiece => ?_, Or.inr ?_⟩
      · by_cases hempty : piece = []
        · subst hempty
          decide
        · exact isForbiddenSegment_eq_false_iff.mp
            (hall piece (List.mem_filter.mpr ⟨hpiece, decide_eq_true hempty⟩))
      · obtain ⟨piece, hpiece⟩ := List.exists_mem_of_ne_nil _ hne
        obtain ⟨hmem, hkept⟩ := List.mem_filter.mp hpiece
        exact ⟨piece, hmem, of_decide_eq_true hkept⟩

/-- What a target is mapped to is a normal form of it. -/
structure NormalForm (target : Bytes) : Prop where
  mapped : ∀ path, mapByPosition target = some path ↔
    Mappable (withoutQuery target) ∧ path = named (withoutQuery target)
  determined : ∀ target', (withoutQuery target).head? = some 0x2f →
    (withoutQuery target').head? = some 0x2f →
      named (withoutQuery target') = named (withoutQuery target) →
        mapByPosition target' = mapByPosition target
  components : ∀ path ∈ mapByPosition target, ∀ segment ∈ path,
    segment ≠ [] ∧ segment ≠ ascii "." ∧ segment ≠ ascii ".." ∧ 0x2f ∉ segment
  again : ∀ path ∈ mapByPosition target, mapByPosition (joined path) = some path

theorem normalForm (target : Bytes) : NormalForm target := by
  constructor
  · intro path
    rw [mapByPosition_eq_some_iff, mappable_iff, and_assoc, and_assoc]
  · intro target' hslash hslash' hsame
    refine Option.ext fun path => ?_
    rw [mapByPosition_eq_some_iff, mapByPosition_eq_some_iff, hsame, hslash, hslash']
  · intro path hpath segment hsegment
    rw [Option.mem_def, mapByPosition_eq] at hpath
    obtain ⟨-, hsegments⟩ := segment_of_mapToRelativePath hpath
    have hkept := (hsegments segment hsegment).1
    obtain ⟨hdot, hdots, -⟩ := isForbiddenSegment_eq_false_iff.mp hkept.allowed
    exact ⟨hkept.ne_nil, hdot, hdots, hkept.noSlash⟩
  · intro path hpath
    rw [Option.mem_def, mapByPosition_eq] at hpath
    obtain ⟨hne, hsegments⟩ := segment_of_mapToRelativePath hpath
    rw [joined_eq_spell hne, mapByPosition_eq]
    exact mapToRelativePath_spell hne
      (fun s hs => ⟨(hsegments s hs).1, fun hm => ((hsegments s hs).2 _ hm).1 rfl⟩) 0

end StaticFiles
end Modules
end Garcon
