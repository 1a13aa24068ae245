import Garcon.Http.Client
import Garcon.Http.Grammar
import Garcon.Http.Segments

/-!
# A client in dialog

The client sends a request, in pieces of any size, and waits until it has read the whole
response before it sends the next one.  When it has nothing more to ask it closes the
connection.  A server sees it as a stream: what it receives depends on what it has sent.
-/

namespace Garcon
namespace Http

open Ascii Net Client Search

/-- A text to send, and whether it asks with HEAD. -/
structure Turn where
  isHead : Bool
  chunks : List Chunk

structure Dialog where
  /-- What was sent and has not arrived. -/
  chunks : List Chunk
  /-- The request that waits for its response. -/
  awaiting : Option Bool
  later : List Turn
  /-- What has arrived of the response. -/
  wire : Bytes := []
  received : List Received := []

namespace Dialog

/-- The next request, when there is one. -/
def ask (d : Dialog) : Dialog :=
  match d.later with
  | [] => { d with awaiting := none }
  | turn :: later =>
    { d with chunks := d.chunks ++ turn.chunks, awaiting := some turn.isHead, later := later }

def start (turns : List Turn) : Dialog := ask { chunks := [], awaiting := none, later := turns }

/-- A whole response ends the wait. -/
def read (d : Dialog) : Dialog :=
  match d.awaiting with
  | none => d
  | some isHead =>
    match readResponse isHead d.wire with
    | none => d
    | some (response, rest) =>
      ask { d with wire := rest, received := d.received ++ [response] }

/-- How a receive ends when nothing is on its way. -/
def ending (d : Dialog) : Ending := if d.awaiting.isSome then .timeout else .closed

/-- The client as the server's transport. -/
def transport (d : Dialog) : Transport := { chunks := d.chunks, ending := d.ending }

def recvSome (span : Nat) (d : Dialog) : ReadResult × Dialog :=
  let (result, t) := d.transport.recvSome span
  (result, { d with chunks := t.chunks })

def stream : Stream Dialog where
  isValid := fun _ => true
  setReceiveTimeout := fun _ d => (true, d)
  setSendTimeout := fun _ d => (true, d)
  handshake := fun d => (.ok, d)
  recvSome := recvSome
  sendAll := fun wire d => (.ok, { d with wire := d.wire ++ wire }.read)
  recvSome_le := fun span d => (Transport.stream fun _ _ => .ok).recvSome_le span d.transport

end Dialog

/-! ## Requests -/

/-- The only empty line of a rendered request is its end. -/
theorem Request.Valid.exists_render_eq {r : Request} (h : r.Valid) :
    ∃ head, r.render = head ++ headerEnd ∧ Fresh headerEnd head := by
  obtain ⟨version, lines, hmethod, htarget, hversion, hlines, -, htext⟩ := grammar_render h
  have hcr : cr ∉ r.method ++ (sp :: (r.target ++ (sp :: version))) := by
    simp only [List.mem_append, List.mem_cons, not_or]
    exact ⟨not_mem_of_isToken hmethod (by decide), by decide, htarget.not_mem (by decide),
      by decide, hversion.not_mem (by decide)⟩
  have hplain : ∀ text ∈ lines.map HeaderLine.text, PlainLine text := by
    intro text hmem
    obtain ⟨line, hline, heq⟩ := List.mem_map.mp hmem
    rw [← heq]
    refine ⟨?_, (hlines line hline).not_mem_text (Or.inl rfl)⟩
    rw [HeaderLine.text]
    exact List.append_ne_nil_of_right_ne_nil _ (List.cons_ne_nil _ _)
  refine ⟨_, ?_, fresh_headerEnd_joinLines (fresh_crlf hcr) hplain⟩
  have hjoin := flatMap_crlf (List.cons_ne_nil
    (r.method ++ (sp :: (r.target ++ (sp :: version)))) (lines.map HeaderLine.text))
  rw [List.flatMap_cons, List.flatMap_map] at hjoin
  rw [htext, headerEnd, ← List.append_assoc (joinLines _), ← hjoin, headerText, List.append_nil]
  simp only [List.append_assoc]

/-! ## Receiving -/

/-- Streams that deliver the same, from states that are related, are read alike. -/
theorem readHeaderBlock_related {σ τ : Type} {client : Stream σ} {client' : Stream τ}
    (R : σ → τ → Prop)
    (hrecv : ∀ span s t, R s t → (client.recvSome span s).1 = (client'.recvSome span t).1 ∧
      R (client.recvSome span s).2 (client'.recvSome span t).2)
    (maxBytes fuel : Nat) (b : Buffer) {s : σ} {t : τ} (hst : R s t) :
    (readHeaderBlock client maxBytes fuel b s).1 =
        (readHeaderBlock client' maxBytes fuel b t).1 ∧
      (readHeaderBlock client maxBytes fuel b s).2.1 =
        (readHeaderBlock client' maxBytes fuel b t).2.1 ∧
      R (readHeaderBlock client maxBytes fuel b s).2.2
        (readHeaderBlock client' maxBytes fuel b t).2.2 := by
  induction fuel generalizing b s t with
  | zero => exact ⟨rfl, rfl, hst⟩
  | succ fuel ih =>
      rw [readHeaderBlock, readHeaderBlock]
      dsimp only
      cases hend : findHeaderEnd b.asStringView with
      | some e => exact ⟨rfl, rfl, hst⟩
      | none =>
          dsimp only
          by_cases hlarge : maxBytes ≤ b.asStringView.length
          · rw [if_pos hlarge, if_pos hlarge]
            exact ⟨rfl, rfl, hst⟩
          · rw [if_neg hlarge, if_neg hlarge]
            obtain ⟨hresult, hnext⟩ := hrecv (b.writeSpan 2048).spanSize s t hst
            cases hs : client.recvSome (b.writeSpan 2048).spanSize s with
            | mk result s' =>
            cases ht : client'.recvSome (b.writeSpan 2048).spanSize t with
            | mk result' t' =>
            rw [hs, ht] at hresult hnext
            dsimp only at hresult hnext
            subst hresult
            obtain ⟨status, bytes⟩ := result
            cases status with
            | closed => exact ⟨rfl, rfl, hnext⟩
            | timeout => exact ⟨rfl, rfl, hnext⟩
            | error => exact ⟨rfl, rfl, hnext⟩
            | ok => exact ih _ hnext

namespace Dialog

/-- A dialog that differs from another in what is on its way. -/
def Differs (d : Dialog) (t : Transport) (d' : Dialog) : Prop :=
  d' = { d with chunks := t.chunks } ∧ t.ending = d.ending

/-- The client is read like the transport of what is on its way. -/
theorem readHeaderBlock_eq (maxBytes fuel : Nat) (b : Buffer) (d : Dialog) :
    readHeaderBlock stream maxBytes fuel b d =
      let read := readHeaderBlock (Transport.stream fun _ _ => .ok) maxBytes fuel b d.transport
      (read.1, read.2.1, { d with chunks := read.2.2.chunks }) := by
  have hrecv : ∀ span t d', Differs d t d' →
      ((Transport.stream fun _ _ => .ok).recvSome span t).1 = (stream.recvSome span d').1 ∧
        Differs d ((Transport.stream fun _ _ => .ok).recvSome span t).2
          (stream.recvSome span d').2 := by
    intro span t d' hdiffers
    obtain ⟨chunks, ending, sent⟩ := t
    obtain ⟨hd', hending⟩ := hdiffers
    dsimp only at hending
    subst hd' hending
    cases chunks with
    | nil => exact ⟨rfl, rfl, rfl⟩
    | cons chunk chunks => exact ⟨rfl, rfl, rfl⟩
  obtain ⟨hresult, hbuffer, hstate, -⟩ := readHeaderBlock_related (Differs d) hrecv maxBytes fuel b
    (⟨rfl, rfl⟩ : Differs d d.transport d)
  dsimp only
  rw [hresult, hbuffer, ← hstate]

/-- A whole request is received, whatever its pieces. -/
theorem readHeaderBlock_request {maxBytes fuel : Nat} {d : Dialog} {head : Bytes}
    (hbytes : bytesOf d.chunks = head ++ headerEnd) (hfresh : Fresh headerEnd head)
    (hfit : (head ++ headerEnd).length ≤ maxBytes)
    (hfuel : (head ++ headerEnd).length < fuel) :
    ∃ b', readHeaderBlock stream maxBytes fuel Buffer.new d =
      (.block (head ++ headerEnd), b', { d with chunks := [] }) := by
  obtain ⟨b', hread⟩ := Transport.readHeaderBlock_group (fun _ _ => .ok) (b := Buffer.new)
    (t := d.transport) (List.append_nil d.chunks).symm (by simpa using hbytes) hfresh hfit
    (by rwa [hbytes])
  refine ⟨b', ?_⟩
  rw [readHeaderBlock_eq, hread]

/-- A client that has nothing more to ask has closed the connection. -/
theorem readHeaderBlock_closed {maxBytes : Nat} (fuel : Nat) {d : Dialog} (hpos : 0 < maxBytes)
    (hchunks : d.chunks = []) (hdone : d.awaiting = none) :
    ∃ b', readHeaderBlock stream maxBytes (fuel + 1) Buffer.new d = (.error .closed, b', d) := by
  have hnone : findHeaderEnd Buffer.new.asStringView = none := by decide +kernel
  have hrecv : ∀ span, stream.recvSome span d = (⟨.closed, []⟩, d) := by
    intro span
    obtain ⟨chunks, awaiting, later, wire, received⟩ := d
    dsimp only at hchunks hdone
    subst hchunks hdone
    rfl
  have hsmall : ¬ maxBytes ≤ Buffer.new.asStringView.length := Nat.not_le.mpr hpos
  rw [readHeaderBlock]
  dsimp only
  rw [hnone]
  dsimp only
  rw [if_neg hsmall, hrecv]
  exact ⟨_, rfl⟩

/-! ## Reading responses -/

/-- A response that fits its request is read as a whole, and the next request follows. -/
theorem sendAll_fit {d : Dialog} {x : Sent} (hawaiting : d.awaiting = some x.isHead)
    (hwire : d.wire = []) (hsound : x.response.Sound x.isHead) (hquiet : ¬ x.Stray) :
    stream.sendAll x.wire d = (.ok, ask { d with received := d.received ++ [x.received] }) := by
  have hread : readResponse x.isHead (d.wire ++ x.wire) = some (x.received, []) := by
    have h := @Response.readResponse_serialize x.response x.policy x.isHead hsound []
    rw [List.append_nil] at h
    rw [hwire, List.nil_append, Sent.wire, h]
    by_cases hno : hasNoBody x.isHead x.response.status.toNat = true
    · have hbody : x.response.body = [] := by
        by_contra hbody
        exact hquiet ⟨hno, hbody⟩
      rw [if_pos hno, hbody, Sent.received, Response.received, hbody]
      rfl
    · rw [if_neg hno]
      rfl
  show (IoStatus.ok, read { d with wire := d.wire ++ x.wire }) = _
  unfold read
  dsimp only
  rw [hawaiting]
  dsimp only
  rw [hread, ← hwire]

end Dialog
end Http
end Garcon
