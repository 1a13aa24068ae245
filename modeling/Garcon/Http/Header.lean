import Garcon.Library.Ascii
import Garcon.Library.Search
import Garcon.Library.Trim

/-!
# Header fields

The owning header representation shared by requests and responses, and the
ASCII-only comparison of header names.  The token alphabet is written twice in
the source, once for requests and once for responses, with the same bytes.
-/

namespace Garcon
namespace Http

open Ascii

def sp : UInt8 := 0x20

def tab : UInt8 := 0x09

def cr : UInt8 := 0x0d

def lf : UInt8 := 0x0a

def crlf : Bytes := [cr, lf]

/-- The empty line that ends a header block, with the line break before it. -/
def headerEnd : Bytes := crlf ++ crlf

structure HeaderField where
  name : Bytes
  value : Bytes
deriving DecidableEq, Repr

def headerNameEquals (left right : Bytes) : Bool := iequals left right

/-- `std::find_if` over a header list, as `request` and `response` both write it. -/
def findHeader (headers : List HeaderField) (name : Bytes) : Option HeaderField :=
  headers.find? fun header => headerNameEquals header.name name

def isTokenChar (ch : UInt8) : Bool :=
  (ascii "!#$%&'*+-.^_`|~").contains ch || isAlpha ch || isDigit ch

/-- The loop of `is_valid_method`, `is_valid_header_name` and `valid_header_name`. -/
def isToken (text : Bytes) : Bool := !text.isEmpty && text.all isTokenChar

theorem crlf_ne_nil : crlf ≠ [] := by decide

theorem headerEnd_ne_nil : headerEnd ≠ [] := by decide

/-- A text without a carriage return ends where the next line break begins. -/
theorem fresh_crlf {text : Bytes} (h : cr ∉ text) : Search.Fresh crlf text :=
  Search.fresh_of_head_not_mem h

theorem isTokenChar_false_of_mem {ch : UInt8} (h : ch ∈ [sp, tab, cr, lf, 0x3a]) :
    isTokenChar ch = false := by
  simp only [List.mem_cons, List.not_mem_nil, or_false] at h
  rcases h with rfl | rfl | rfl | rfl | rfl <;> decide

theorem not_mem_of_isToken {text : Bytes} {ch : UInt8} (h : isToken text = true)
    (hch : ch ∈ [sp, tab, cr, lf, 0x3a]) : ch ∉ text := fun hmem => by
  simp only [isToken, Bool.and_eq_true, List.all_eq_true] at h
  simpa [isTokenChar_false_of_mem hch] using h.2 ch hmem

theorem isToken_ne_nil {text : Bytes} (h : isToken text = true) : text ≠ [] := by
  rintro rfl
  simp [isToken] at h

theorem headerNameEquals_iff {left right : Bytes} :
    headerNameEquals left right = true ↔ left.map lower = right.map lower :=
  iequals_iff

end Http
end Garcon
