import Garcon.Http.Framing

/-!
# Segmented transports

A transport delivers a fixed byte sequence in chunks, one chunk to a receive, and
then its final status for ever.  A chunk longer than the offered span is delivered
in parts.  What was sent is recorded, and how a send ends may depend on it.

`headerBlocks` cuts a byte sequence at its empty lines.  A transport is aligned
when its chunks can be grouped so that each group is one of these blocks, that is,
when no receive delivers bytes from both sides of a block's end.
-/

namespace Garcon
namespace Http

open Search Net

/-- The statuses a receive can end the byte sequence with. -/
inductive Ending where
  | closed
  | timeout
  | error
deriving DecidableEq, Repr

def Ending.status : Ending → IoStatus
  | .closed => .closed
  | .timeout => .timeout
  | .error => .error

def Ending.readError : Ending → HeaderReadError
  | .closed => .closed
  | .timeout => .timeout
  | .error => .ioError

abbrev Chunk := {bytes : Bytes // bytes ≠ []}

/-- What is left of a chunk behind its first `span` bytes. -/
def Chunk.rest (chunk : Chunk) (span : Nat) : List Chunk :=
  if h : chunk.val.drop span = [] then [] else [⟨chunk.val.drop span, h⟩]

def bytesOf (chunks : List Chunk) : Bytes := chunks.flatMap (·.val)

@[simp] theorem bytesOf_nil : bytesOf [] = [] := rfl

@[simp] theorem bytesOf_cons (chunk : Chunk) (chunks : List Chunk) :
    bytesOf (chunk :: chunks) = chunk.val ++ bytesOf chunks := List.flatMap_cons

@[simp] theorem bytesOf_append (left right : List Chunk) :
    bytesOf (left ++ right) = bytesOf left ++ bytesOf right := List.flatMap_append

@[simp] theorem bytesOf_rest (chunk : Chunk) (span : Nat) :
    bytesOf (chunk.rest span) = chunk.val.drop span := by
  unfold Chunk.rest
  split
  · next h => rw [h]; rfl
  · simp

structure Transport where
  chunks : List Chunk
  ending : Ending
  sent : List Bytes := []

namespace Transport

def bytes (t : Transport) : Bytes := bytesOf t.chunks

def recvSome (span : Nat) (t : Transport) : ReadResult × Transport :=
  match t.chunks with
  | [] => (⟨t.ending.status, []⟩, t)
  | chunk :: chunks =>
    (⟨.ok, chunk.val.take span⟩, { t with chunks := chunk.rest span ++ chunks })

/-- The stream over a transport.  Timeouts and the handshake succeed, and a send
ends as `sendStatus` says of what was sent before. -/
def stream (sendStatus : List Bytes → Bytes → IoStatus) : Stream Transport where
  isValid := fun _ => true
  setReceiveTimeout := fun _ t => (true, t)
  setSendTimeout := fun _ t => (true, t)
  handshake := fun t => (.ok, t)
  recvSome := recvSome
  sendAll := fun wire t => (sendStatus t.sent wire, { t with sent := t.sent ++ [wire] })
  recvSome_le := by
    intro span t
    unfold recvSome
    split
    · exact Nat.zero_le span
    · exact List.length_take_le span _

end Transport

/-- The header blocks of a byte sequence, each up to and with its empty line. -/
def headerBlocks (bytes : Bytes) : List Bytes :=
  match _hc : cut headerEnd bytes with
  | none => []
  | some (head, rest) => (head ++ headerEnd) :: headerBlocks rest
termination_by bytes.length
decreasing_by exact length_lt_of_cut headerEnd_ne_nil _hc

theorem headerBlocks_of_cut {bytes head rest : Bytes}
    (h : cut headerEnd bytes = some (head, rest)) :
    headerBlocks bytes = (head ++ headerEnd) :: headerBlocks rest := by
  rw [headerBlocks]
  split
  · next hc => rw [h] at hc; cases hc
  · next hc =>
      rw [h, Option.some.injEq, Prod.mk.injEq] at hc
      rw [hc.1, hc.2]

namespace Transport

/-- No receive delivers bytes from both sides of a header block's end. -/
def Aligned (t : Transport) : Prop :=
  ∃ (groups : List (List Chunk)) (later : List Chunk),
    t.chunks = groups.flatten ++ later ∧ groups.map bytesOf = headerBlocks t.bytes

/-- Every header block fits the limit. -/
def Fits (maxBytes : Nat) (t : Transport) : Prop :=
  ∀ block ∈ headerBlocks t.bytes, block.length ≤ maxBytes

/-- The chunks of an aligned transport, split behind its first header block. -/
theorem Aligned.exists_group {t : Transport} (h : t.Aligned) {head rest : Bytes}
    (hc : cut headerEnd t.bytes = some (head, rest)) :
    ∃ group later, t.chunks = group ++ later ∧ bytesOf group = head ++ headerEnd ∧
      bytesOf later = rest ∧ Aligned { t with chunks := later } := by
  obtain ⟨groups, later, hchunks, hblocks⟩ := h
  rw [headerBlocks_of_cut hc, List.map_eq_cons_iff] at hblocks
  obtain ⟨group, groups, rfl, hgroup, hblocks⟩ := hblocks
  rw [List.flatten_cons, List.append_assoc] at hchunks
  have hbytes : head ++ headerEnd ++ bytesOf (groups.flatten ++ later) =
      head ++ headerEnd ++ rest := by
    rw [← hgroup, ← bytesOf_append, ← hchunks, hgroup, List.append_assoc]
    exact (cut_eq_some_iff.mp hc).1
  have hrest := List.append_cancel_left hbytes
  refine ⟨group, groups.flatten ++ later, hchunks, hgroup, hrest, groups, later, rfl, ?_⟩
  show groups.map bytesOf = headerBlocks (bytesOf (groups.flatten ++ later))
  rw [hrest, hblocks]

variable (sendStatus : List Bytes → Bytes → IoStatus)

/-- A receive uses up some of the bytes. -/
theorem length_rest_lt (b : Buffer) (chunk : Chunk) :
    (chunk.val.drop (b.writeSpan 2048).spanSize).length < chunk.val.length := by
  have hspan := b.le_spanSize_writeSpan 2048
  have hpos := List.length_pos_iff.mpr chunk.property
  rw [List.length_drop]
  omega

/-- One receive moves the front of the first chunk to the buffer. -/
theorem readHeaderBlock_receive {maxBytes : Nat} (fuel : Nat) {b : Buffer} {t : Transport}
    {chunk : Chunk} {chunks : List Chunk} (hnone : findHeaderEnd b.asStringView = none)
    (hsmall : b.asStringView.length < maxBytes) (hchunks : t.chunks = chunk :: chunks) :
    ∃ b' left, readHeaderBlock (stream sendStatus) maxBytes (fuel + 1) b t =
        readHeaderBlock (stream sendStatus) maxBytes fuel b' { t with chunks := left ++ chunks } ∧
      b'.asStringView ++ bytesOf left = b.asStringView ++ chunk.val ∧
      (bytesOf left).length < chunk.val.length := by
  let span := (b.writeSpan 2048).spanSize
  let received := chunk.val.take span
  have hrecv : (stream sendStatus).recvSome span t =
      (⟨.ok, received⟩, { t with chunks := chunk.rest span ++ chunks }) := by
    show Transport.recvSome span t = _
    rw [Transport.recvSome, hchunks]
  refine ⟨((b.writeSpan 2048).fill received).commit received.length, chunk.rest span, ?_, ?_, ?_⟩
  · rw [readHeaderBlock]
    simp only [hnone, if_neg (Nat.not_le.mpr hsmall)]
    rw [hrecv]
  · rw [Buffer.asStringView_commit_fill _ (List.length_take_le _ _),
      Buffer.asStringView_writeSpan, bytesOf_rest, List.append_assoc, List.take_append_drop]
  · rw [bytesOf_rest]
    exact length_rest_lt b chunk

theorem findHeaderEnd_block {head : Bytes} (h : Fresh headerEnd head) :
    findHeaderEnd (head ++ headerEnd) = some (head.length + 4) :=
  findHeaderEnd_eq_some_iff.mpr ⟨head, [], by simp, h, rfl⟩

/-- The end of a block is not found before its last byte is there. -/
theorem findHeaderEnd_part {part more head : Bytes} (h : Fresh headerEnd head)
    (hblock : part ++ more = head ++ headerEnd) (hmore : more ≠ []) :
    findHeaderEnd part = none := by
  cases hfind : findHeaderEnd part with
  | none => rfl
  | some e =>
      obtain ⟨pre, post, hpart, hpre, -⟩ := findHeaderEnd_eq_some_iff.mp hfind
      have hcut := cut_of_fresh hpre (post ++ more)
      have hsame : pre ++ (headerEnd ++ (post ++ more)) = head ++ (headerEnd ++ []) := by
        rw [List.append_nil, ← hblock, hpart]
        simp
      rw [hsame, cut_of_fresh h, Option.some.injEq, Prod.mk.injEq] at hcut
      exact absurd (List.append_eq_nil_iff.mp hcut.2.symm).2 hmore

/-- A block whose end is the end of a chunk is returned, and nothing behind it is
read. -/
theorem readHeaderBlock_group {maxBytes fuel : Nat} {b : Buffer} {t : Transport}
    {group later : List Chunk} {head : Bytes} (hchunks : t.chunks = group ++ later)
    (hblock : b.asStringView ++ bytesOf group = head ++ headerEnd)
    (hfresh : Fresh headerEnd head) (hfit : (head ++ headerEnd).length ≤ maxBytes)
    (hfuel : (bytesOf group).length < fuel) :
    ∃ b', readHeaderBlock (stream sendStatus) maxBytes fuel b t =
      (.block (head ++ headerEnd), b', { t with chunks := later }) := by
  induction fuel generalizing b t group with
  | zero => omega
  | succ fuel ih =>
      cases group with
      | nil =>
          rw [bytesOf_nil, List.append_nil] at hblock
          have hlater : { t with chunks := later } = t := by
            rw [← List.nil_append later, ← hchunks]
          have htake : (head ++ headerEnd).take (head.length + 4) = head ++ headerEnd :=
            List.take_of_length_le (by simp [headerEnd, crlf])
          rw [readHeaderBlock, hlater]
          simp only [hblock, findHeaderEnd_block hfresh, htake]
          exact ⟨b, rfl⟩
      | cons chunk group =>
          rw [bytesOf_cons] at hblock hfuel
          have hmore : chunk.val ++ bytesOf group ≠ [] := by
            intro hnil
            exact chunk.property (List.append_eq_nil_iff.mp hnil).1
          have hlen := congrArg List.length hblock
          have hpos := List.length_pos_iff.mpr hmore
          rw [List.length_append] at hlen
          have hsmall : b.asStringView.length < maxBytes := by omega
          obtain ⟨b', left, hread, hleft, hshort⟩ :=
            readHeaderBlock_receive sendStatus fuel
              (findHeaderEnd_part hfresh hblock hmore) hsmall hchunks
          rw [hread]
          refine ih (List.append_assoc left group later).symm ?_ ?_
          · rw [bytesOf_append, ← List.append_assoc, hleft, List.append_assoc, hblock]
          · rw [List.length_append] at hfuel
            rw [bytesOf_append, List.length_append]
            omega

/-- Without a header end the whole sequence is read, up to the limit. -/
theorem readHeaderBlock_noEnd (maxBytes : Nat) {fuel : Nat} {b : Buffer} {t : Transport}
    (hnone : ¬ headerEnd <:+: b.asStringView ++ t.bytes) (hfuel : t.bytes.length < fuel) :
    ∃ e b' t', readHeaderBlock (stream sendStatus) maxBytes fuel b t = (.error e, b', t') ∧
      t'.sent = t.sent ∧
      (maxBytes ≤ (b.asStringView ++ t.bytes).length → e = .tooLarge) ∧
      ((b.asStringView ++ t.bytes).length < maxBytes →
        e = t.ending.readError ∧ b'.asStringView = b.asStringView ++ t.bytes) := by
  induction fuel generalizing b t with
  | zero => omega
  | succ fuel ih =>
      have hview : findHeaderEnd b.asStringView = none := by
        rw [findHeaderEnd, Option.map_eq_none_iff, find_eq_none_iff]
        intro hi
        exact hnone (hi.trans (List.prefix_append _ _).isInfix)
      by_cases hbig : maxBytes ≤ b.asStringView.length
      · rw [readHeaderBlock]
        simp only [hview, if_pos hbig]
        refine ⟨_, _, _, rfl, rfl, fun _ => rfl, ?_⟩
        intro hlt
        rw [List.length_append] at hlt
        omega
      cases hchunks : t.chunks with
      | nil =>
          have hbytes : t.bytes = [] := by rw [bytes, hchunks, bytesOf_nil]
          have hrecv : (stream sendStatus).recvSome (b.writeSpan 2048).spanSize t =
              (⟨t.ending.status, []⟩, t) := by
            show Transport.recvSome _ t = _
            rw [Transport.recvSome, hchunks]
          rw [hbytes, List.append_nil]
          refine ⟨t.ending.readError, b.writeSpan 2048, t, ?_, rfl, ?_, ?_⟩
          · rw [readHeaderBlock]
            simp only [hview, if_neg hbig, hrecv]
            cases t.ending <;> rfl
          · intro hle
            exact absurd hle hbig
          · intro _
            exact ⟨rfl, b.asStringView_writeSpan 2048⟩
      | cons chunk chunks =>
          have hbytes : t.bytes = chunk.val ++ bytesOf chunks := by
            rw [bytes, hchunks, bytesOf_cons]
          obtain ⟨b', left, hread, hleft, hshort⟩ :=
            readHeaderBlock_receive sendStatus fuel hview (Nat.not_le.mp hbig) hchunks
          have hwhole : b.asStringView ++ t.bytes =
              b'.asStringView ++ bytes { t with chunks := left ++ chunks } := by
            show _ = b'.asStringView ++ bytesOf (left ++ chunks)
            rw [hbytes, bytesOf_append, ← List.append_assoc, ← List.append_assoc, hleft]
          rw [hbytes, List.length_append] at hfuel
          rw [hwhole] at hnone
          rw [hread, hwhole]
          refine ih hnone ?_
          show (bytesOf (left ++ chunks)).length < fuel
          rw [bytesOf_append, List.length_append]
          omega

end Transport
end Http
end Garcon
