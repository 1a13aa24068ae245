import Garcon.Http.Header
import Garcon.Net.Stream

/-!
# Receive buffer and framing

`http::buffer` keeps a storage vector and the number of committed bytes in it.
`writeSpan` grows the storage, the stream fills the free part, and `commit`
advances the committed size.  `readHeaderBlock` is the framing loop.  A stream may
report success without a byte for ever, so the loop takes fuel and answers
`pending` when the fuel runs out.
-/

namespace Garcon
namespace Http

open Search Net

structure Buffer where
  data : Bytes
  size : Nat
  size_le : size ≤ data.length

namespace Buffer

def new : Buffer := ⟨[], 0, Nat.le_refl 0⟩

/-- The committed contents. -/
def asStringView (b : Buffer) : Bytes := b.data.take b.size

/-- Size of the span `write_span` returns. -/
def spanSize (b : Buffer) : Nat := b.data.length - b.size

/-- The resize of `write_span`, which fills new storage with zero bytes. -/
def writeSpan (b : Buffer) (minFree : Nat) : Buffer :=
  if b.data.length < b.size + minFree then
    { data := b.data ++ List.replicate (b.size + minFree - b.data.length) 0
      size := b.size
      size_le := by have := b.size_le; simp; omega }
  else b

/-- What a receive writes to the front of the span. -/
def fill (b : Buffer) (bytes : Bytes) : Buffer where
  data := b.data.take b.size ++ (bytes ++ b.data.drop (b.size + bytes.length))
  size := b.size
  size_le := by have := b.size_le; simp; omega

def commit (b : Buffer) (n : Nat) : Buffer where
  data := b.data
  size := if b.data.length < b.size + n then b.data.length else b.size + n
  size_le := by split <;> omega

@[simp] theorem asStringView_new : new.asStringView = [] := rfl

@[simp] theorem asStringView_writeSpan (b : Buffer) (minFree : Nat) :
    (b.writeSpan minFree).asStringView = b.asStringView := by
  unfold writeSpan asStringView
  split
  · exact List.take_append_of_le_length b.size_le
  · rfl

theorem le_spanSize_writeSpan (b : Buffer) (minFree : Nat) :
    minFree ≤ (b.writeSpan minFree).spanSize := by
  unfold writeSpan spanSize
  split
  · simp
    omega
  · omega

/-- Committing what was filled appends it to the contents. -/
theorem asStringView_commit_fill (b : Buffer) {bytes : Bytes}
    (h : bytes.length ≤ b.spanSize) :
    ((b.fill bytes).commit bytes.length).asStringView = b.asStringView ++ bytes := by
  have hroom : bytes.length ≤ b.data.length - b.size := h
  have hsize := b.size_le
  have hlen : (b.data.take b.size).length = b.size := by simp [hsize]
  have hfull : ¬ (b.fill bytes).data.length < b.size + bytes.length := by
    simp [fill]
    omega
  show (b.fill bytes).data.take
    (if (b.fill bytes).data.length < b.size + bytes.length then _ else b.size + bytes.length) = _
  rw [if_neg hfull]
  simp only [fill, asStringView]
  rw [← List.append_assoc, List.take_append_of_le_length (by simp [hlen]),
    List.take_of_length_le (by simp [hlen])]

end Buffer

inductive HeaderReadError where
  | closed
  | timeout
  | tooLarge
  | ioError
deriving DecidableEq, Repr

/-- The result of `read_header_block`, or `pending` when the fuel ran out. -/
inductive HeaderRead where
  | block (header : Bytes)
  | error (e : HeaderReadError)
  | pending
deriving DecidableEq, Repr

def findHeaderEnd (v : Bytes) : Option Nat := (find headerEnd v).map (· + 4)

variable {σ : Type}

def readHeaderBlock (stream : Stream σ) (maxBytes : Nat) :
    Nat → Buffer → σ → HeaderRead × Buffer × σ
  | 0, b, s => (.pending, b, s)
  | fuel + 1, b, s =>
    let view := b.asStringView
    match findHeaderEnd view with
    | some e => (.block (view.take e), b, s)
    | none =>
      if maxBytes ≤ view.length then (.error .tooLarge, b, s)
      else
        let b := b.writeSpan 2048
        match stream.recvSome b.spanSize s with
        | (⟨.closed, _⟩, s) => (.error .closed, b, s)
        | (⟨.timeout, _⟩, s) => (.error .timeout, b, s)
        | (⟨.error, _⟩, s) => (.error .ioError, b, s)
        | (⟨.ok, bytes⟩, s) =>
          readHeaderBlock stream maxBytes fuel ((b.fill bytes).commit bytes.length) s

theorem findHeaderEnd_eq_some_iff {v : Bytes} {e : Nat} :
    findHeaderEnd v = some e ↔ ∃ pre post, v = pre ++ (headerEnd ++ post) ∧
      Fresh headerEnd pre ∧ e = pre.length + 4 := by
  unfold findHeaderEnd
  rw [Option.map_eq_some_iff]
  constructor
  · rintro ⟨i, hi, rfl⟩
    obtain ⟨hf, hv⟩ := fresh_take_of_find hi
    have hlen : i ≤ v.length := by
      have := congrArg List.length hv
      simp [headerEnd, crlf] at this
      omega
    exact ⟨v.take i, _, hv, hf, by simp [hlen]⟩
  · rintro ⟨pre, post, rfl, hf, rfl⟩
    exact ⟨pre.length, find_of_fresh hf post, rfl⟩

/-- A returned block ends with the first empty line it contains. -/
theorem readHeaderBlock_block {stream : Stream σ} {maxBytes fuel : Nat} {b : Buffer} {s : σ}
    {header : Bytes} (h : (readHeaderBlock stream maxBytes fuel b s).1 = .block header) :
    ∃ pre, header = pre ++ headerEnd ∧ Fresh headerEnd pre := by
  induction fuel generalizing b s with
  | zero => simp [readHeaderBlock] at h
  | succ fuel ih =>
    rw [readHeaderBlock] at h
    simp only at h
    split at h
    · next e he =>
      obtain ⟨pre, post, hv, hf, rfl⟩ := findHeaderEnd_eq_some_iff.mp he
      simp only [HeaderRead.block.injEq] at h
      refine ⟨pre, ?_, hf⟩
      rw [← h, hv, ← List.append_assoc]
      exact List.take_left' (by simp [headerEnd, crlf])
    · split at h
      · cases h
      · split at h
        · cases h
        · cases h
        · cases h
        · exact ih h

end Http
end Garcon
