import Garcon.Http.Reads
import Garcon.Http.Segments
import Garcon.Library.Prefixes

/-!
# Framing of any byte source

A byte source delivers the bytes of a sequence, which may be infinite, in pieces of its
own choice and then ends with a status.  However it splits them, the framing loop finds
the first header block that ends within the limit, and reads hardly further than the
limit otherwise.
-/

namespace Garcon
namespace Http

open Ascii Search Net Stream'

/-- A stream that delivers at least one next byte with every receive that succeeds. -/
structure ByteSource (σ : Type) where
  stream : Net.Stream σ
  /-- The bytes from a state on. -/
  sequence : σ → Seq UInt8
  ending : σ → Ending
  recvSome_next : ∀ {span : Nat} (s : σ), 0 < span →
    (∃ bytes s', stream.recvSome span s = (⟨.ok, bytes⟩, s') ∧ bytes ≠ [] ∧
      sequence s = (Seq.ofList bytes).append (sequence s') ∧ ending s' = ending s) ∨
    (∃ result s', stream.recvSome span s = (result, s') ∧ result.status = (ending s).status ∧
      sequence s = .nil)

/-- The bytes that successful receives delivered. -/
def delivered (reads : List ReadResult) : Bytes :=
  reads.flatMap fun r => if r.status = .ok then r.bytes else []

@[simp] theorem delivered_cons_ok (bytes : Bytes) (reads : List ReadResult) :
    delivered (⟨.ok, bytes⟩ :: reads) = bytes ++ delivered reads := by
  unfold delivered
  rw [List.flatMap_cons, if_pos rfl]

theorem delivered_singleton_of_failure {r : ReadResult} {e : HeaderReadError}
    (h : readFailure r.status = some e) : delivered [r] = [] := by
  unfold delivered
  rw [List.flatMap_cons, if_neg]
  · rfl
  · intro hok
    rw [hok] at h
    cases h

namespace ByteSource

variable {σ : Type} (source : ByteSource σ)

theorem receives_ok {s s'' : σ} {bytes : Bytes} {reads : List ReadResult}
    (h : source.stream.Receives 2048 s (⟨.ok, bytes⟩ :: reads) s'') :
    ∃ s', bytes ≠ [] ∧ bytes.length ≤ 2048 ∧
      source.sequence s = (Seq.ofList bytes).append (source.sequence s') ∧
      source.ending s' = source.ending s ∧ source.stream.Receives 2048 s' reads s'' := by
  obtain ⟨hfirst, hrest⟩ := h.of_cons
  have hle := source.stream.recvSome_le 2048 s
  rcases source.recvSome_next s (show 0 < 2048 by decide) with
    ⟨bytes', s', hrecv, hne, hseq, hending⟩ | ⟨result, s', hrecv, hstatus, -⟩
  · rw [hrecv] at hfirst hrest hle
    cases hfirst
    exact ⟨s', hne, hle, hseq, hending, hrest⟩
  · rw [hrecv] at hfirst
    rw [show result = ⟨.ok, bytes⟩ from hfirst] at hstatus
    cases hend : source.ending s <;> rw [hend] at hstatus <;> cases hstatus

theorem receives_failed {s s' : σ} {result : ReadResult} {e : HeaderReadError}
    (h : source.stream.Receives 2048 s [result] s') (hfail : readFailure result.status = some e) :
    source.sequence s = .nil ∧ e = (source.ending s).readError := by
  obtain ⟨hfirst, -⟩ := h.of_cons
  rcases source.recvSome_next s (show 0 < 2048 by decide) with
    ⟨bytes, s', hrecv, -⟩ | ⟨result', s', hrecv, hstatus, hnil⟩
  · rw [hrecv] at hfirst
    rw [← hfirst] at hfail
    cases hfail
  · rw [hrecv] at hfirst
    rw [show result' = result from hfirst] at hstatus
    rw [hstatus] at hfail
    refine ⟨hnil, ?_⟩
    cases hend : source.ending s <;> rw [hend] at hfail <;> exact (Option.some.inj hfail).symm

end ByteSource

/-! ## What the receives lead to -/

namespace ReadTo

variable {maxBytes : Nat} {contents after : Bytes} {reads : List ReadResult}
  {result : HeaderRead}

/-- A block is found where the contents first have an empty line. -/
theorem block_shortest {header : Bytes} (h : ReadTo maxBytes contents reads (.block header) after) :
    ∃ pre rest, header = pre ++ headerEnd ∧ Fresh headerEnd pre ∧ after = header ++ rest := by
  generalize hresult : HeaderRead.block header = result at h
  induction h with
  | @block contents pre rest hsplit hfresh =>
      cases hresult
      exact ⟨pre, rest, rfl, hfresh, hsplit.trans (List.append_assoc _ _ _).symm⟩
  | tooLarge hnone hlarge => cases hresult
  | failed hnone hroom hfail => cases hresult
  | more hnone hroom h ih => exact ih hresult

theorem after_eq (h : ReadTo maxBytes contents reads result after) :
    after = contents ++ delivered reads := by
  induction h with
  | block hsplit hfresh => exact (List.append_nil _).symm
  | tooLarge hnone hlarge => exact (List.append_nil _).symm
  | failed hnone hroom hfail =>
      rw [delivered_singleton_of_failure hfail]
      exact (List.append_nil _).symm
  | more hnone hroom h ih => rw [ih, delivered_cons_ok, List.append_assoc]

section Source

variable {σ : Type} {source : ByteSource σ} {s s' : σ}

theorem length_le (h : ReadTo maxBytes contents reads result after)
    (hreceives : source.stream.Receives 2048 s reads s') (hle : contents.length ≤ maxBytes + 2047) :
    after.length ≤ maxBytes + 2047 := by
  induction h generalizing s with
  | block hsplit hfresh => exact hle
  | tooLarge hnone hlarge => exact hle
  | failed hnone hroom hfail => exact hle
  | more hnone hroom h ih =>
      obtain ⟨_, -, hspan, -, -, hreceives⟩ := source.receives_ok hreceives
      apply ih hreceives
      rw [List.length_append]
      omega

theorem starts_after (h : ReadTo maxBytes contents reads result after)
    (hreceives : source.stream.Receives 2048 s reads s') :
    Starts ((Seq.ofList contents).append (source.sequence s)) after := by
  induction h generalizing s with
  | block hsplit hfresh => exact starts_ofList_append _ _
  | tooLarge hnone hlarge => exact starts_ofList_append _ _
  | failed hnone hroom hfail => exact starts_ofList_append _ _
  | more hnone hroom h ih =>
      obtain ⟨s₁, -, -, hseq, -, hreceives⟩ := source.receives_ok hreceives
      rw [hseq, ← Seq.append_assoc, ← Seq.ofList_append]
      exact ih hreceives

/-- A block, too many bytes without an empty line, or all bytes of the source without
one. -/
theorem trichotomy (h : ReadTo maxBytes contents reads result after)
    (hreceives : source.stream.Receives 2048 s reads s') :
    (∃ header, result = .block header) ∨
      (result = .error .tooLarge ∧ ¬ headerEnd <:+: after ∧ maxBytes ≤ after.length) ∨
      (result = .error (source.ending s).readError ∧ ¬ headerEnd <:+: after ∧
        after.length < maxBytes ∧
        (Seq.ofList contents).append (source.sequence s) = Seq.ofList after) := by
  induction h generalizing s with
  | block hsplit hfresh => exact Or.inl ⟨_, rfl⟩
  | tooLarge hnone hlarge => exact Or.inr (Or.inl ⟨rfl, hnone, hlarge⟩)
  | failed hnone hroom hfail =>
      obtain ⟨hnil, rfl⟩ := source.receives_failed hreceives hfail
      rw [hnil, Seq.append_nil]
      exact Or.inr (Or.inr ⟨rfl, hnone, hroom, rfl⟩)
  | more hnone hroom h ih =>
      obtain ⟨s₁, -, -, hseq, hending, hreceives⟩ := source.receives_ok hreceives
      rw [hseq, ← Seq.append_assoc, ← Seq.ofList_append, ← hending]
      exact ih hreceives

end Source

end ReadTo

/-! ## The loop -/

section Loop

variable {σ : Type} (source : ByteSource σ)

/-- Every receive that succeeds brings the contents nearer to the limit. -/
theorem readHeaderBlock_terminates {maxBytes fuel : Nat} {b : Buffer} (hpos : 0 < fuel)
    (hfuel : maxBytes < b.asStringView.length + fuel) (s : σ) :
    (readHeaderBlock source.stream maxBytes fuel b s).1 ≠ .pending := by
  induction fuel generalizing b s with
  | zero => exact absurd hpos (Nat.lt_irrefl 0)
  | succ fuel ih =>
      rw [readHeaderBlock]
      dsimp only
      cases hend : findHeaderEnd b.asStringView with
      | some e => exact HeaderRead.noConfusion
      | none =>
          by_cases hlarge : maxBytes ≤ b.asStringView.length
          · dsimp only
            rw [if_pos hlarge]
            exact HeaderRead.noConfusion
          · dsimp only
            rw [if_neg hlarge]
            have hspan := b.le_spanSize_writeSpan 2048
            have hle := source.stream.recvSome_le (b.writeSpan 2048).spanSize s
            have hroom : 0 < (b.writeSpan 2048).spanSize := by omega
            rcases source.recvSome_next s hroom with
              ⟨bytes, s', hrecv, hne, -⟩ | ⟨result, s', hrecv, hstatus, -⟩
            · rw [hrecv] at hle ⊢
              dsimp only at hle ⊢
              have hlen := List.length_pos_iff.mpr hne
              have hview := (b.writeSpan 2048).asStringView_commit_fill hle
              apply ih (by omega)
              rw [hview, Buffer.asStringView_writeSpan, List.length_append]
              omega
            · rw [hrecv]
              obtain ⟨status, bytes⟩ := result
              dsimp only at hstatus
              subst hstatus
              cases source.ending s <;> exact HeaderRead.noConfusion

/-- From a new buffer on, the loop ends and does what its receives say. -/
theorem readHeaderBlock_readTo {maxBytes fuel : Nat} (hfuel : maxBytes < fuel) (s : σ) :
    (readHeaderBlock source.stream maxBytes fuel Buffer.new s).1 ≠ .pending ∧
      ∃ reads, source.stream.Receives 2048 s reads
          (readHeaderBlock source.stream maxBytes fuel Buffer.new s).2.2 ∧
        ReadTo maxBytes [] reads (readHeaderBlock source.stream maxBytes fuel Buffer.new s).1
          (readHeaderBlock source.stream maxBytes fuel Buffer.new s).2.1.asStringView := by
  have hdone := readHeaderBlock_terminates source (b := Buffer.new) (Nat.zero_lt_of_lt hfuel)
    (by simpa using hfuel) s
  exact ⟨hdone, readHeaderBlock_receives source.stream maxBytes fuel (Buffer.tight_new 2048) s
    hdone⟩

/-- What a header read from an empty buffer makes of a source, with the receives that it
does. -/
structure Exact (maxBytes : Nat) (s : σ) (result : HeaderRead) (buffer : Buffer)
    (reads : List ReadResult) : Prop where
  terminates : result ≠ .pending
  first_block : ∀ pre, Starts (source.sequence s) (pre ++ headerEnd) → Fresh headerEnd pre →
    (pre ++ headerEnd).length ≤ maxBytes → result = .block (pre ++ headerEnd)
  shortest : ∀ header, result = .block header → ∃ pre, header = pre ++ headerEnd ∧
    Fresh headerEnd pre ∧ header <+: delivered reads
  ended : ∀ bytes, source.sequence s = Seq.ofList bytes → ¬ headerEnd <:+: bytes →
    bytes.length < maxBytes → result = .error (source.ending s).readError
  too_large : ¬ headerEnd <:+: delivered reads → maxBytes ≤ (delivered reads).length →
    result = .error .tooLarge
  too_long : (∀ bytes, Starts (source.sequence s) bytes → ¬ headerEnd <:+: bytes) →
    (∃ bytes, Starts (source.sequence s) bytes ∧ maxBytes ≤ bytes.length) →
      result = .error .tooLarge
  next_bytes : Starts (source.sequence s) (delivered reads)
  bounded : (delivered reads).length ≤ maxBytes + 2047
  contents : buffer.asStringView = delivered reads

theorem exact_of_readTo {maxBytes : Nat} {s s' : σ} {result : HeaderRead} {buffer : Buffer}
    {reads : List ReadResult} (hdone : result ≠ .pending)
    (hreceives : source.stream.Receives 2048 s reads s')
    (h : ReadTo maxBytes [] reads result buffer.asStringView) :
    Exact source maxBytes s result buffer reads := by
  have hcontents := h.after_eq
  rw [List.nil_append] at hcontents
  rw [hcontents] at h
  have hstarts := h.starts_after hreceives
  have hcases := h.trichotomy hreceives
  have hnil : (Seq.ofList ([] : Bytes)).append (source.sequence s) = source.sequence s :=
    Seq.nil_append _
  rw [hnil] at hstarts hcases
  have hblock : ∀ header, result = .block header → ∃ pre, header = pre ++ headerEnd ∧
      Fresh headerEnd pre ∧ header <+: delivered reads := by
    rintro header rfl
    obtain ⟨pre, rest, hheader, hfresh, hafter⟩ := h.block_shortest
    exact ⟨pre, hheader, hfresh, rest, hafter.symm⟩
  have hends : ∀ header, result = .block header → headerEnd <:+: delivered reads := by
    intro header hresult
    obtain ⟨pre, rfl, -, hpref⟩ := hblock header hresult
    exact (List.suffix_append pre headerEnd).isInfix.trans hpref.isInfix
  refine ⟨hdone, ?_, hblock, ?_, ?_, ?_, hstarts, h.length_le hreceives (Nat.zero_le _),
    hcontents⟩
  · intro pre hpre hfresh hfit
    have hwithin := (List.suffix_append pre headerEnd).isInfix
    rcases hcases with ⟨header, hresult⟩ | ⟨-, hnone, hlarge⟩ | ⟨-, hnone, -, hall⟩
    · obtain ⟨pre', rfl, hfresh', hpref⟩ := hblock header hresult
      rw [hresult, hfresh.eq_of_starts hfresh' hpre (hstarts.of_isPrefix hpref)]
    · exact absurd (hwithin.trans (hpre.prefix_of_le hstarts (hfit.trans hlarge)).isInfix) hnone
    · rw [hall] at hpre
      exact absurd (hwithin.trans (starts_ofList.mp hpre).isInfix) hnone
  · intro bytes hbytes hnone hshort
    rw [hbytes] at hstarts
    have hpref := starts_ofList.mp hstarts
    rcases hcases with ⟨header, hresult⟩ | ⟨-, -, hlarge⟩ | ⟨hresult, -⟩
    · exact absurd ((hends header hresult).trans hpref.isInfix) hnone
    · have hle := hpref.length_le
      omega
    · exact hresult
  · intro hnone hlarge
    rcases hcases with ⟨header, hresult⟩ | ⟨hresult, -⟩ | ⟨-, -, hshort, -⟩
    · exact absurd (hends header hresult) hnone
    · exact hresult
    · omega
  · rintro hnone ⟨bytes, hbytes, hlarge⟩
    rcases hcases with ⟨header, hresult⟩ | ⟨hresult, -⟩ | ⟨-, -, hshort, hall⟩
    · exact absurd (hends header hresult) (hnone _ hstarts)
    · exact hresult
    · rw [hall] at hbytes
      have hle := (starts_ofList.mp hbytes).length_le
      omega

/-- However a byte source splits its bytes, the loop ends, returns the first header block
that ends within the limit, and keeps what it consumed. -/
theorem readHeaderBlock_exact (maxBytes fuel : Nat) (hfuel : maxBytes < fuel) (s : σ) :
    ∃ reads, source.stream.Receives 2048 s reads
        (readHeaderBlock source.stream maxBytes fuel Buffer.new s).2.2 ∧
      Exact source maxBytes s (readHeaderBlock source.stream maxBytes fuel Buffer.new s).1
        (readHeaderBlock source.stream maxBytes fuel Buffer.new s).2.1 reads := by
  obtain ⟨hdone, reads, hreceives, h⟩ := readHeaderBlock_readTo source hfuel s
  exact ⟨reads, hreceives, exact_of_readTo source hdone hreceives h⟩

end Loop

/-! ## A split that is fixed beforehand -/

namespace Transport

theorem recvSome_next {span : Nat} (hspan : 0 < span) {t : Transport} {chunk : Chunk}
    {chunks : List Chunk} (hchunks : t.chunks = chunk :: chunks) :
    chunk.val.take span ≠ [] ∧
      Seq.ofList t.bytes = (Seq.ofList (chunk.val.take span)).append
        (Seq.ofList (bytesOf (chunk.rest span ++ chunks))) := by
  refine ⟨?_, ?_⟩
  · intro hnil
    rcases List.take_eq_nil_iff.mp hnil with hzero | hempty
    · omega
    · exact chunk.property hempty
  · rw [← Seq.ofList_append, bytesOf_append, bytesOf_rest, ← List.append_assoc,
      List.take_append_drop, Transport.bytes, hchunks, bytesOf_cons]

/-- Chunks in any number and of any length are a byte source. -/
def source (sendStatus : List Bytes → Bytes → IoStatus) : ByteSource Transport where
  stream := stream sendStatus
  sequence := fun t => Seq.ofList t.bytes
  ending := Transport.ending
  recvSome_next := by
    intro span t hspan
    cases hchunks : t.chunks with
    | nil =>
        refine Or.inr ⟨⟨t.ending.status, []⟩, t, ?_, rfl, ?_⟩
        · show Transport.recvSome span t = _
          rw [Transport.recvSome, hchunks]
        · rw [Transport.bytes, hchunks]
          rfl
    | cons chunk chunks =>
        obtain ⟨hne, hbytes⟩ := recvSome_next hspan hchunks
        refine Or.inl ⟨chunk.val.take span, { t with chunks := chunk.rest span ++ chunks }, ?_,
          hne, hbytes, rfl⟩
        show Transport.recvSome span t = _
        rw [Transport.recvSome, hchunks]

end Transport

/-- A request whose empty line is split over two chunks, the second with a byte more. -/
def splitRequest : Transport where
  chunks := [⟨ascii "GET / HTTP/1.1\r\n\r", List.cons_ne_nil _ _⟩,
    ⟨ascii "\nX", List.cons_ne_nil _ _⟩]
  ending := .closed

theorem readHeaderBlock_exact_splitRequest :
    (readHeaderBlock (Transport.source fun _ _ => .ok).stream 64 65 Buffer.new splitRequest).1 =
      .block (ascii "GET / HTTP/1.1\r\n\r\n") := by
  obtain ⟨reads, -, hexact⟩ := readHeaderBlock_exact (Transport.source fun _ _ => .ok) 64 65
    (by decide) splitRequest
  have hsequence : (Transport.source fun _ _ => .ok).sequence splitRequest =
      Seq.ofList (ascii "GET / HTTP/1.1\r\n\r\nX") := congrArg Seq.ofList (by decide +kernel)
  have hstarts : Starts ((Transport.source fun _ _ => .ok).sequence splitRequest)
      (ascii "GET / HTTP/1.1" ++ headerEnd) := by
    rw [hsequence, starts_ofList]
    decide +kernel
  exact hexact.first_block (ascii "GET / HTTP/1.1") hstarts (by decide +kernel) (by decide)

end Http
end Garcon
