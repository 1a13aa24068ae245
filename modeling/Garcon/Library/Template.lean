import Mathlib

/-!
# Templates

A template is a list of pieces, literals and named holes.  `fill` puts values into its
holes in order.  `capture` reads a text against a template from left to right: a literal
must be there, and a hole takes everything up to the next `stop`, without ever giving
some of it back.

What is captured always fills the template to what was read.  The way back needs every
hole to be `Delimited`, which is to say that a `stop` or the end follows it: values
without `stop` are then captured as they were filled in.  For values that are not empty
nothing less is enough.
-/

namespace Template

variable {α ν : Type*}

inductive Piece (α ν : Type*) where
  | literal (a : α)
  | hole (name : ν)
deriving DecidableEq

/-- The names of the holes, in order. -/
def names : List (Piece α ν) → List ν
  | [] => []
  | .literal _ :: pieces => names pieces
  | .hole name :: pieces => name :: names pieces

/-- The text with the values in the holes.  A hole without a value stays empty. -/
def fill : List (Piece α ν) → List (List α) → List α
  | [], _ => []
  | .literal a :: pieces, values => a :: fill pieces values
  | .hole _ :: pieces, values => values.headD [] ++ fill pieces values.tail

/-- Values for the holes of a template that do not hold `stop`. -/
structure Fits (stop : α) (pieces : List (Piece α ν)) (values : List (List α)) : Prop where
  length_eq : values.length = (names pieces).length
  clear : ∀ value ∈ values, stop ∉ value

/-- A `stop` or the end follows every hole. -/
def Delimited (stop : α) : List (Piece α ν) → Prop
  | [] => True
  | .literal _ :: pieces => Delimited stop pieces
  | .hole _ :: pieces => (pieces = [] ∨ pieces.head? = some (.literal stop)) ∧
      Delimited stop pieces

variable [DecidableEq α]

/-- The values of the holes and the text that is left. -/
def capture (stop : α) : List (Piece α ν) → List α → Option (List (List α) × List α)
  | [], text => some ([], text)
  | .literal _ :: _, [] => none
  | .literal a :: pieces, b :: text => if a = b then capture stop pieces text else none
  | .hole _ :: pieces, text =>
    (capture stop pieces (text.dropWhile (· ≠ stop))).map fun found =>
      (text.takeWhile (· ≠ stop) :: found.1, found.2)

variable {stop : α} {pieces : List (Piece α ν)} {values : List (List α)} {text rest : List α}

omit [DecidableEq α] in
@[simp] theorem fill_hole (name : ν) (value : List α) :
    fill (.hole name :: pieces) (value :: values) = value ++ fill pieces values := rfl

omit [DecidableEq α] in
theorem Fits.of_hole {name : ν} (h : Fits stop (.hole name :: pieces) values) :
    ∃ value tail, values = value :: tail ∧ stop ∉ value ∧ Fits stop pieces tail := by
  have hlength := h.length_eq
  have hclear := h.clear
  cases values with
  | nil => exact absurd hlength.symm (Nat.succ_ne_zero _)
  | cons value tail =>
      refine ⟨value, tail, rfl, hclear value List.mem_cons_self, Nat.succ.inj hlength, ?_⟩
      exact fun v hv => hclear v (List.mem_cons_of_mem value hv)

omit [DecidableEq α] in
theorem Fits.hole {value : List α} (h : Fits stop pieces values) (hvalue : stop ∉ value)
    (name : ν) : Fits stop (.hole name :: pieces) (value :: values) := by
  refine ⟨congrArg Nat.succ h.length_eq, ?_⟩
  intro v hv
  rcases List.mem_cons.mp hv with rfl | hv
  · exact hvalue
  · exact h.clear v hv

/-! ## A run up to the next stop -/

theorem takeWhile_clear {value : List α} (h : stop ∉ value) :
    (value ++ text).takeWhile (· ≠ stop) = value ++ text.takeWhile (· ≠ stop) := by
  apply List.takeWhile_append_of_pos
  intro a ha
  exact decide_eq_true fun e => h (e ▸ ha)

theorem stop_not_mem_takeWhile : stop ∉ text.takeWhile (· ≠ stop) := by
  intro h
  have hne := List.mem_takeWhile_imp h
  exact absurd rfl (of_decide_eq_true hne)

/-- Nothing but a `stop` or the end follows a value that is taken whole. -/
theorem takeWhile_clear_eq_iff {value : List α} (h : stop ∉ value) :
    (value ++ text).takeWhile (· ≠ stop) = value ↔ text = [] ∨ text.head? = some stop := by
  rw [takeWhile_clear h]
  cases text with
  | nil => simp
  | cons a text =>
      by_cases ha : a = stop
      · simp [ha]
      · simp [ha]

theorem dropWhile_of_takeWhile {value : List α}
    (h : (value ++ text).takeWhile (· ≠ stop) = value) :
    (value ++ text).dropWhile (· ≠ stop) = text := by
  have hwhole := List.takeWhile_append_dropWhile (p := fun x => decide (x ≠ stop))
    (l := value ++ text)
  rw [h] at hwhole
  exact List.append_cancel_left hwhole

/-! ## What is captured -/

theorem capture_sound (h : capture stop pieces text = some (values, rest)) :
    Fits stop pieces values ∧ text = fill pieces values ++ rest := by
  induction pieces generalizing text values with
  | nil =>
      cases h
      exact ⟨⟨rfl, fun v hv => absurd hv List.not_mem_nil⟩, rfl⟩
  | cons piece pieces ih =>
      cases piece with
      | literal a =>
          cases text with
          | nil => cases h
          | cons b text =>
              rw [capture] at h
              by_cases hab : a = b
              · rw [if_pos hab] at h
                obtain ⟨⟨hlength, hclear⟩, htext⟩ := ih h
                refine ⟨⟨hlength, hclear⟩, ?_⟩
                rw [fill, List.cons_append, ← htext, hab]
              · rw [if_neg hab] at h
                cases h
      | hole name =>
          rw [capture, Option.map_eq_some_iff] at h
          obtain ⟨⟨values', rest'⟩, hfound, heq⟩ := h
          cases heq
          obtain ⟨hfits, htext⟩ := ih hfound
          refine ⟨hfits.hole stop_not_mem_takeWhile name, ?_⟩
          rw [fill_hole, List.append_assoc, ← htext, List.takeWhile_append_dropWhile]

/-- Values without `stop` come back from a template with delimited holes. -/
theorem capture_fill (hpieces : Delimited stop pieces) (h : Fits stop pieces values) :
    capture stop pieces (fill pieces values) = some (values, []) := by
  induction pieces generalizing values with
  | nil =>
      have hnil := List.eq_nil_of_length_eq_zero h.length_eq
      rw [hnil]
      rfl
  | cons piece pieces ih =>
      cases piece with
      | literal a =>
          rw [fill, capture, if_pos rfl]
          exact ih hpieces ⟨h.length_eq, h.clear⟩
      | hole name =>
          obtain ⟨value, tail, rfl, hvalue, htail⟩ := h.of_hole
          obtain ⟨hnext, hrest⟩ := hpieces
          have hfollow : fill pieces tail = [] ∨ (fill pieces tail).head? = some stop := by
            rcases hnext with rfl | hhead
            · exact Or.inl rfl
            · obtain ⟨pieces', rfl⟩ := List.head?_eq_some_iff.mp hhead
              exact Or.inr rfl
          have htake : (value ++ fill pieces tail).takeWhile (· ≠ stop) = value :=
            (takeWhile_clear_eq_iff hvalue).mpr hfollow
          rw [fill_hole, capture, dropWhile_of_takeWhile htake, ih hrest htail, htake]
          rfl

/-- A value that is not empty never begins with the `stop` another hole needs. -/
theorem delimited_of_capture_fill (h : Fits stop pieces values) (hne : ∀ v ∈ values, v ≠ [])
    (hcapture : capture stop pieces (fill pieces values) = some (values, [])) :
    Delimited stop pieces := by
  induction pieces generalizing values with
  | nil => trivial
  | cons piece pieces ih =>
      cases piece with
      | literal a =>
          rw [fill, capture, if_pos rfl] at hcapture
          exact ih ⟨h.length_eq, h.clear⟩ hne hcapture
      | hole name =>
          obtain ⟨value, tail, rfl, hvalue, htail⟩ := h.of_hole
          have hnetail : ∀ v ∈ tail, v ≠ [] := fun v hv => hne v (List.mem_cons_of_mem value hv)
          rw [fill_hole, capture, Option.map_eq_some_iff] at hcapture
          obtain ⟨⟨values', rest'⟩, hfound, heq⟩ := hcapture
          rw [Prod.mk.injEq, List.cons.injEq] at heq
          obtain ⟨⟨htake, rfl⟩, rfl⟩ := heq
          have hfollow := (takeWhile_clear_eq_iff hvalue).mp htake
          rw [dropWhile_of_takeWhile htake] at hfound
          refine ⟨?_, ih htail hnetail hfound⟩
          cases pieces with
          | nil => exact Or.inl rfl
          | cons next pieces =>
              cases next with
              | literal a =>
                  rcases hfollow with hnil | hhead
                  · cases hnil
                  · cases hhead
                    exact Or.inr rfl
              | hole name' =>
                  -- The next value is not empty and holds no stop.
                  obtain ⟨value', tail', rfl, hvalue', -⟩ := htail.of_hole
                  have hne' := hnetail value' List.mem_cons_self
                  obtain ⟨a, more, rfl⟩ := List.exists_cons_of_ne_nil hne'
                  rcases hfollow with hnil | hhead
                  · cases hnil
                  · cases hhead
                    exact absurd List.mem_cons_self hvalue'

end Template
