import Garcon.Library.Ascii

/-!
# Base64

Three bytes are written as four sextets, and one or two bytes at the end as two or three.
An alphabet names the sextets.  The padding of an incomplete group is separate.
-/

namespace Base64

open Ascii

/-- The sextets of a byte string, each below 64. -/
def sextets : Bytes → List Nat
  | [] => []
  | [x] => [x.toNat / 4, x.toNat % 4 * 16]
  | [x, y] => [x.toNat / 4, x.toNat % 4 * 16 + y.toNat / 16, y.toNat % 16 * 4]
  | x :: y :: z :: rest =>
    x.toNat / 4 :: (x.toNat % 4 * 16 + y.toNat / 16) ::
      (y.toNat % 16 * 4 + z.toNat / 64) :: z.toNat % 64 :: sextets rest

def encode (alphabet : Nat → UInt8) (bytes : Bytes) : Bytes := (sextets bytes).map alphabet

/-- The letters and digits that both alphabets share, and two characters of their own. -/
def alphabet (plus slash : UInt8) (n : Nat) : UInt8 :=
  if n < 26 then UInt8.ofNat (0x41 + n)
  else if n < 52 then UInt8.ofNat (0x61 + (n - 26))
  else if n < 62 then UInt8.ofNat (0x30 + (n - 52))
  else if n = 62 then plus
  else slash

def urlAlphabet : Nat → UInt8 := alphabet 0x2d 0x5f

def standardAlphabet : Nat → UInt8 := alphabet 0x2b 0x2f

/-- With the padding that fills up the last group of four characters. -/
def encodePadded (names : Nat → UInt8) (bytes : Bytes) : Bytes :=
  encode names bytes ++ List.replicate ((3 - bytes.length % 3) % 3) 0x3d

theorem lt_of_mem_sextets {bytes : Bytes} {n : Nat} (h : n ∈ sextets bytes) : n < 64 := by
  induction bytes using sextets.induct with
  | case1 => simp [sextets] at h
  | case2 x =>
      have hx := x.toNat_lt
      simp only [sextets, List.mem_cons, List.not_mem_nil, or_false] at h
      omega
  | case3 x y =>
      have hx := x.toNat_lt
      have hy := y.toNat_lt
      simp only [sextets, List.mem_cons, List.not_mem_nil, or_false] at h
      omega
  | case4 x y z rest ih =>
      have hx := x.toNat_lt
      have hy := y.toNat_lt
      have hz := z.toNat_lt
      simp only [sextets, List.mem_cons] at h
      rcases h with h | h | h | h | h
      · omega
      · omega
      · omega
      · omega
      · exact ih h

theorem encode_eq_nil_iff {names : Nat → UInt8} {bytes : Bytes} :
    encode names bytes = [] ↔ bytes = [] := by
  rw [encode, List.map_eq_nil_iff]
  rcases bytes with _ | ⟨x, _ | ⟨y, _ | ⟨z, rest⟩⟩⟩ <;> simp [sextets]

/-! ## Sextets without padding -/

/-- The bytes that a list of sextets fills, without what is left over at its end. -/
def bytesOf : List Nat → Bytes
  | a :: b :: c :: d :: rest =>
    UInt8.ofNat (a * 4 + b / 16) :: UInt8.ofNat (b % 16 * 16 + c / 4) ::
      UInt8.ofNat (c % 4 * 64 + d) :: bytesOf rest
  | [a, b, c] => [UInt8.ofNat (a * 4 + b / 16), UInt8.ofNat (b % 16 * 16 + c / 4)]
  | [a, b] => [UInt8.ofNat (a * 4 + b / 16)]
  | _ => []

/-- The same sextets but for the two low bits of the last one. -/
def AgreeToLast (vs ws : List Nat) : Prop :=
  vs.dropLast = ws.dropLast ∧ vs.getLast?.map (· / 4) = ws.getLast?.map (· / 4)

theorem agreeToLast_singleton {v w : Nat} : AgreeToLast [v] [w] ↔ v / 4 = w / 4 := by
  simp [AgreeToLast]

theorem not_agreeToLast_nil {ws : List Nat} (h : ws ≠ []) : ¬ AgreeToLast [] ws := by
  intro hagree
  have hlast := hagree.2
  rw [List.getLast?_nil, Option.map_none, eq_comm, Option.map_eq_none_iff,
    List.getLast?_eq_none_iff] at hlast
  exact h hlast

theorem agreeToLast_cons {v w : Nat} {vs ws : List Nat} (h : ws ≠ []) :
    AgreeToLast (v :: vs) (w :: ws) ↔ v = w ∧ AgreeToLast vs ws := by
  cases vs with
  | nil =>
      refine iff_of_false ?_ fun hboth => not_agreeToLast_nil h hboth.2
      intro hagree
      have hinit := hagree.1
      rw [List.dropLast_cons_of_ne_nil h] at hinit
      cases hinit
  | cons v' vs =>
      obtain ⟨w', ws, rfl⟩ := List.exists_cons_of_ne_nil h
      simp only [AgreeToLast, List.dropLast_cons_cons, List.getLast?_cons_cons, List.cons.injEq,
        and_assoc]

theorem ofNat_eq_iff {n : Nat} (h : n < 256) {x : UInt8} : UInt8.ofNat n = x ↔ n = x.toNat := by
  rw [← UInt8.toNat_inj, UInt8.toNat_ofNat', Nat.mod_eq_of_lt h]

theorem sextets_ne_nil {bytes : Bytes} (h : bytes ≠ []) : sextets bytes ≠ [] := by
  intro hnil
  exact h (encode_eq_nil_iff.mp (congrArg (List.map urlAlphabet) hnil))

/-- Sextets fill bytes that end in an incomplete group of two exactly where they are the
sextets of the bytes, up to the two bits that are not used. -/
theorem bytesOf_eq_iff {bytes : Bytes} (hlen : bytes.length % 3 = 2) {vs : List Nat}
    (hvs : ∀ v ∈ vs, v < 64) : bytesOf vs = bytes ↔ AgreeToLast vs (sextets bytes) := by
  induction bytes using sextets.induct generalizing vs with
  | case1 => simp at hlen
  | case2 x => simp at hlen
  | case3 x y =>
      have hx := x.toNat_lt
      have hy := y.toNat_lt
      rcases vs with _ | ⟨a, _ | ⟨b, _ | ⟨c, _ | ⟨d, vs⟩⟩⟩⟩
      · simp [bytesOf, sextets, AgreeToLast]
      · simp [bytesOf, sextets, AgreeToLast]
      · simp [bytesOf, sextets, AgreeToLast]
      · have ha := hvs a (by simp)
        have hb := hvs b (by simp)
        have hc := hvs c (by simp)
        rw [bytesOf, sextets, agreeToLast_cons (by simp), agreeToLast_cons (by simp),
          agreeToLast_singleton, List.cons.injEq, List.cons.injEq, ofNat_eq_iff (by omega),
          ofNat_eq_iff (by omega), and_iff_left rfl]
        omega
      · simp [bytesOf, sextets, AgreeToLast]
  | case4 x y z rest ih =>
      have hx := x.toNat_lt
      have hy := y.toNat_lt
      have hz := z.toNat_lt
      have hrest : rest.length % 3 = 2 := by
        simp only [List.length_cons] at hlen
        omega
      have hne : sextets rest ≠ [] := by
        apply sextets_ne_nil
        rintro rfl
        exact absurd hrest (by decide)
      rcases vs with _ | ⟨a, _ | ⟨b, _ | ⟨c, _ | ⟨d, vs⟩⟩⟩⟩
      · simp [bytesOf, sextets, not_agreeToLast_nil]
      · simp [bytesOf, sextets, agreeToLast_cons, not_agreeToLast_nil]
      · simp [bytesOf, sextets, agreeToLast_cons, not_agreeToLast_nil]
      · simp [bytesOf, sextets, agreeToLast_cons, not_agreeToLast_nil]
      · have ha := hvs a (by simp)
        have hb := hvs b (by simp)
        have hc := hvs c (by simp)
        have hd := hvs d (by simp)
        have hvs' : ∀ v ∈ vs, v < 64 := fun v hv => hvs v (by simp [hv])
        rw [bytesOf, sextets, agreeToLast_cons (by simp), agreeToLast_cons (by simp),
          agreeToLast_cons (by simp), agreeToLast_cons hne, ← ih hrest hvs', List.cons.injEq,
          List.cons.injEq, List.cons.injEq, ofNat_eq_iff (by omega), ofNat_eq_iff (by omega),
          ofNat_eq_iff (by omega)]
        constructor
        · rintro ⟨hfirst, hsecond, hthird, hmore⟩
          exact ⟨by omega, by omega, by omega, by omega, hmore⟩
        · rintro ⟨hfirst, hsecond, hthird, hfourth, hmore⟩
          exact ⟨by omega, by omega, by omega, hmore⟩

end Base64
