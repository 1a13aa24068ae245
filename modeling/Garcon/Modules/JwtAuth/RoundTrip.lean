import Garcon.Modules.JwtAuth.Malleability

/-!
# Encoded bytes read back

An encoder may use either alphabet, and may fill up the last group with padding.  The
decoder knows both alphabets and skips the padding, so it returns the bytes that were
encoded in each of the four notations.
-/

namespace Garcon
namespace Modules
namespace JwtAuth

open Base64

theorem sextet_standardAlphabet : ∀ n < 64, sextet (standardAlphabet n) = some (n : Int) := by
  decide

/-- Characters outside both alphabets leave the decoder as it is. -/
theorem foldl_step_of_skipped {skipped : Bytes} (h : ∀ c ∈ skipped, sextet c = none)
    (d : Decoder) : skipped.foldl Decoder.step d = d := by
  induction skipped generalizing d with
  | nil => rfl
  | cons c skipped ih =>
      have hstep : d.step c = d := by
        rw [Decoder.step, h c List.mem_cons_self]
      rw [List.foldl_cons, hstep]
      exact ih (fun c' hc' => h c' (List.mem_cons_of_mem c hc')) d

theorem base64urlDecode_append_padding (text : Bytes) (n : Nat) :
    base64urlDecode (text ++ List.replicate n 0x3d) = base64urlDecode text := by
  have hpadding : ∀ c ∈ List.replicate n (0x3d : UInt8), sextet c = none := by
    intro c hc
    rw [(List.mem_replicate.mp hc).2]
    rfl
  unfold base64urlDecode
  rw [List.foldl_append, foldl_step_of_skipped hpadding]

theorem base64urlDecode_encodePadded {names : Nat → UInt8}
    (hnames : ∀ n < 64, sextet (names n) = some (n : Int)) (bytes : Bytes) :
    base64urlDecode (encodePadded names bytes) = bytes := by
  unfold encodePadded
  rw [base64urlDecode_append_padding, base64urlDecode_encode hnames]

/-- Decoding undoes encoding, in either alphabet and with or without padding. -/
theorem base64urlDecode_undoes_encoding (bytes : Bytes) :
    base64urlDecode (encode urlAlphabet bytes) = bytes ∧
      base64urlDecode (encodePadded urlAlphabet bytes) = bytes ∧
      base64urlDecode (encode standardAlphabet bytes) = bytes ∧
      base64urlDecode (encodePadded standardAlphabet bytes) = bytes :=
  ⟨base64urlDecode_encode sextet_urlAlphabet bytes,
    base64urlDecode_encodePadded sextet_urlAlphabet bytes,
    base64urlDecode_encode sextet_standardAlphabet bytes,
    base64urlDecode_encodePadded sextet_standardAlphabet bytes⟩

end JwtAuth
end Modules
end Garcon
