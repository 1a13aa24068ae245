import Garcon.Library.Base64
import Garcon.Modules.JwtAuth

/-!
# The base64url decoder

The decoder keeps every sextet it has seen in a 32-bit accumulator, which overflows on
longer inputs, but each byte it puts out depends only on the last few bits.  After four
characters it is back at the start of a group with three more bytes.
-/

namespace Garcon
namespace Modules

/-- Reduction to 32 bits adds a multiple of `2 ^ 32`. -/
theorem exists_wrapInt_eq (n : Int) : ∃ m, wrapInt n = n + 4294967296 * m := by
  have hdiv := Int.emod_add_mul_ediv n 4294967296
  show ∃ m, n.bmod 4294967296 = _
  rw [Int.bmod_def]
  split
  · exact ⟨-(n / 4294967296), by omega⟩
  · exact ⟨-(n / 4294967296) - 1, by omega⟩

namespace JwtAuth

open Base64

/-- The accumulator after one more sextet, up to a multiple of `2 ^ 32`. -/
theorem exists_shift_eq (v b : Int) :
    ∃ m, wrapInt (wrapInt (v * 2 ^ 6) + b) = v * 64 + b + 4294967296 * m := by
  obtain ⟨m, hm⟩ := exists_wrapInt_eq (v * 2 ^ 6)
  obtain ⟨m', hm'⟩ := exists_wrapInt_eq (wrapInt (v * 2 ^ 6) + b)
  exact ⟨m + m', by rw [hm', hm]; ring⟩

/-- A decoder that has put out `out` and holds `pending` in the `bits` bits not used yet. -/
structure Holds (d : Decoder) (bits : Nat) (pending : Int) (out : Bytes) : Prop where
  valb : d.valb = bits - 8
  val : d.val % 2 ^ bits = pending
  out : d.out = out

/-- With fewer than two bits held, a sextet completes no byte. -/
theorem Holds.step_first {d : Decoder} {out : Bytes} {c : UInt8} {b : Nat}
    (hd : Holds d 0 0 out) (hc : sextet c = some (b : Int)) (hb : b < 64) :
    Holds (d.step c) 6 b out := by
  obtain ⟨m, hm⟩ := exists_shift_eq d.val b
  have hneg : ¬ 0 ≤ d.valb + 6 := by
    rw [hd.valb]
    decide
  have hstep : d.step c =
      { d with val := d.val * 64 + b + 4294967296 * m, valb := d.valb + 6 } := by
    rw [Decoder.step, hc]
    simp only [if_neg hneg, hm]
  rw [hstep]
  refine ⟨?_, ?_, hd.out⟩
  · show d.valb + 6 = 6 - 8
    rw [hd.valb]
    rfl
  · show (d.val * 64 + b + 4294967296 * m) % 64 = b
    omega

/-- With `k + 2` bits held, a sextet completes a byte and leaves `k` of its bits. -/
theorem Holds.step_next {d : Decoder} {k : Nat} {pending : Int} {out : Bytes} {c x : UInt8}
    {b : Nat} (hd : Holds d (k + 2) pending out) (hc : sextet c = some (b : Int)) (hk : k ≤ 4)
    (hx : (pending * 64 + b) / 2 ^ k = x.toNat) :
    Holds (d.step c) k (b % 2 ^ k) (out ++ [x]) := by
  obtain ⟨m, hm⟩ := exists_shift_eq d.val b
  have hbits : d.valb + 6 = k := by
    rw [hd.valb]
    push_cast
    ring
  have hlt := x.toNat_lt
  have hval := hd.val
  have hbyte : (d.val * 64 + b + 4294967296 * m) / 2 ^ k % 256 = x.toNat ∧
      (d.val * 64 + b + 4294967296 * m) % 2 ^ k = b % 2 ^ k := by
    rcases (by omega : k = 0 ∨ k = 1 ∨ k = 2 ∨ k = 3 ∨ k = 4) with
      rfl | rfl | rfl | rfl | rfl <;>
    simp only [Nat.reduceAdd, Int.reducePow] at hval hx ⊢ <;>
    omega
  have hstep : d.step c =
      { val := d.val * 64 + b + 4294967296 * m, valb := k - 8, out := d.out ++ [x] } := by
    have hnonneg : 0 ≤ d.valb + 6 := by omega
    have hput : UInt8.ofNat ((d.val * 64 + b + 4294967296 * m) / 2 ^ (d.valb + 6).toNat %
        256).toNat = x := by
      rw [hbits, Int.toNat_natCast, hbyte.1, Int.toNat_natCast, UInt8.ofNat_toNat]
    rw [Decoder.step, hc]
    simp only [if_pos hnonneg, hm, hput]
    rw [hbits]
  rw [hstep]
  refine ⟨rfl, hbyte.2, ?_⟩
  rw [hd.out]

variable {names : Nat → UInt8} (hnames : ∀ n < 64, sextet (names n) = some (n : Int))

include hnames

/-- The first two sextets of a group give its first byte. -/
theorem holds_one {d : Decoder} {out : Bytes} (hd : Holds d 0 0 out) (x : UInt8) {low : Nat}
    (hlow : low < 16) :
    Holds ((d.step (names (x.toNat / 4))).step (names (x.toNat % 4 * 16 + low))) 4 low
      (out ++ [x]) := by
  have hx := x.toNat_lt
  have hfirst := hd.step_first (hnames (x.toNat / 4) (by omega)) (by omega)
  have hsecond := hfirst.step_next (k := 4) (x := x)
    (hnames (x.toNat % 4 * 16 + low) (by omega)) (by omega) (by simp only [Int.reducePow]; omega)
  have hrest : ((x.toNat % 4 * 16 + low : Nat) : Int) % 2 ^ 4 = low := by
    simp only [Int.reducePow]
    omega
  rwa [hrest] at hsecond

/-- The third sextet gives the second byte. -/
theorem holds_two {d : Decoder} {out : Bytes} (hd : Holds d 0 0 out) (x y : UInt8) {low : Nat}
    (hlow : low < 4) :
    Holds (((d.step (names (x.toNat / 4))).step (names (x.toNat % 4 * 16 + y.toNat / 16))).step
      (names (y.toNat % 16 * 4 + low))) 2 low (out ++ [x, y]) := by
  have hy := y.toNat_lt
  have hone := holds_one hnames hd x (by omega : y.toNat / 16 < 16)
  have hthird := hone.step_next (k := 2) (x := y)
    (hnames (y.toNat % 16 * 4 + low) (by omega)) (by omega) (by simp only [Int.reducePow]; omega)
  have hrest : ((y.toNat % 16 * 4 + low : Nat) : Int) % 2 ^ 2 = low := by
    simp only [Int.reducePow]
    omega
  rw [hrest, List.append_assoc] at hthird
  exact hthird

/-- The fourth sextet gives the third byte and ends the group. -/
theorem holds_three {d : Decoder} {out : Bytes} (hd : Holds d 0 0 out) (x y z : UInt8) :
    Holds ((((d.step (names (x.toNat / 4))).step (names (x.toNat % 4 * 16 + y.toNat / 16))).step
      (names (y.toNat % 16 * 4 + z.toNat / 64))).step (names (z.toNat % 64))) 0 0
      (out ++ [x, y, z]) := by
  have hz := z.toNat_lt
  have htwo := holds_two hnames hd x y (by omega : z.toNat / 64 < 4)
  have hfourth := htwo.step_next (k := 0) (x := z) (hnames (z.toNat % 64) (by omega))
    (by omega) (by simp only [pow_zero]; omega)
  rw [List.append_assoc, pow_zero, Int.emod_one] at hfourth
  exact hfourth

/-- The decoder puts out the bytes that were encoded, whichever group they end in. -/
theorem foldl_encode {d : Decoder} {out : Bytes} (hd : Holds d 0 0 out) (bytes : Bytes) :
    ((encode names bytes).foldl Decoder.step d).out = out ++ bytes := by
  induction bytes using sextets.induct generalizing d out with
  | case1 =>
      rw [List.append_nil]
      exact hd.out
  | case2 x => exact (holds_one hnames hd x (Nat.zero_lt_succ 15)).out
  | case3 x y => exact (holds_two hnames hd x y (Nat.zero_lt_succ 3)).out
  | case4 x y z rest ih =>
      have hrest := ih (holds_three hnames hd x y z)
      rw [List.append_assoc] at hrest
      exact hrest

theorem base64urlDecode_encode (bytes : Bytes) :
    base64urlDecode (encode names bytes) = bytes :=
  foldl_encode hnames ⟨rfl, rfl, rfl⟩ bytes

end JwtAuth
end Modules
end Garcon
