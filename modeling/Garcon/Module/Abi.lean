import Garcon.Http.Header

/-!
# The module ABI

The C structures a module and the host exchange.  A string view is a pointer,
possibly null, with a size.  The memory behind a non-null pointer is the byte
string that starts there.
-/

namespace Garcon
namespace Abi

structure StringView where
  data : Option Bytes
  size : Nat
deriving DecidableEq, Repr

structure HeaderView where
  name : StringView
  value : StringView
deriving DecidableEq, Repr

structure RequestView where
  method : StringView
  target : StringView
  headers : List HeaderView
deriving DecidableEq, Repr

structure ResponseView where
  status : Int
  reason : StringView
  contentType : StringView
  headers : List HeaderView
  body : StringView
  contentLength : Nat
  hasContentLength : Bool
deriving DecidableEq, Repr

structure Exchange where
  request : RequestView
  response : ResponseView
deriving DecidableEq, Repr

inductive ModuleOutcome where
  | pass
  | respond
  | upgrade
  | error
deriving DecidableEq, Repr

/-- The value of the C enumeration. -/
def ModuleOutcome.code : ModuleOutcome → Nat
  | .pass => 0
  | .respond => 1
  | .upgrade => 2
  | .error => 3

/-- What a module may read of its host when it is created. -/
structure HostApi where
  abiVersion : Nat
  defaultDocumentRoot : StringView
  configDirectory : StringView
deriving DecidableEq, Repr

def moduleAbiVersion : Nat := 3

def StringView.null : StringView := ⟨none, 0⟩

/-- The zero-initialised response the host starts from. -/
def ResponseView.empty : ResponseView where
  status := 0
  reason := .null
  contentType := .null
  headers := []
  body := .null
  contentLength := 0
  hasContentLength := false

/-- `to_abi_view` and `make_string_view`: a view of an owning string. -/
def StringView.of (value : Bytes) : StringView := ⟨some value, value.length⟩

/-- `copy_string`, and the null-safe `assign` of `to_http_request`. -/
def StringView.copy (v : StringView) : Bytes :=
  match v.data with
  | none => []
  | some data => if v.size = 0 then [] else data.take v.size

@[simp] theorem StringView.copy_of (value : Bytes) : (StringView.of value).copy = value := by
  cases value <;> simp [StringView.of, StringView.copy]

@[simp] theorem StringView.copy_null : StringView.null.copy = [] := rfl

end Abi
end Garcon
