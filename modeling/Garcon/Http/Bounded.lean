import Garcon.Http.Reads
import Garcon.Http.Segments
import Garcon.Net.PlainStream

/-!
# Bounds on the framing loop

A receive that ends well delivers bytes, so the framing loop comes to an end: after at most
as many receives as the limit has bytes, and before the client has used up what it has to
send.  Its buffer never outgrows the limit by more than two spans.
-/

namespace Garcon
namespace Net
namespace Stream

variable {σ : Type} {client : Stream σ}

theorem Receives.forall_mem {span : Nat} {P : ReadResult → Prop}
    (hP : ∀ s, P (client.recvSome span s).1) {s s' : σ} {reads : List ReadResult}
    (h : client.Receives span s reads s') : ∀ r ∈ reads, P r := by
  induction h with
  | done s => exact fun r hr => absurd hr List.not_mem_nil
  | @recvSome s s' reads h ih =>
      intro r hr
      cases List.mem_cons.mp hr with
      | inl heq => exact heq ▸ hP s
      | inr hlater => exact ih r hlater

end Stream
end Net

namespace Http

open Search Net

variable {σ : Type} {client : Stream σ} {maxBytes : Nat} {contents after : Bytes}
  {reads : List ReadResult} {result : HeaderRead}

/-- Each receive but the last one adds a byte, and all of them find room. -/
theorem ReadTo.length_reads_le (h : ReadTo maxBytes contents reads result after)
    (hreads : ∀ r ∈ reads, r.status = .ok → r.bytes ≠ []) :
    contents.length + reads.length ≤ max contents.length maxBytes := by
  induction h with
  | block _ hfresh => exact Nat.le_max_left _ _
  | tooLarge hnone hlarge => exact Nat.le_max_left _ _
  | failed hnone hroom hfail => exact le_max_of_le_right hroom
  | @more contents after hnone hroom bytes reads result h ih =>
      have hlater := ih fun r hr => hreads r (List.mem_cons_of_mem _ hr)
      have hpos : 0 < bytes.length :=
        List.length_pos_iff.mpr (hreads ⟨.ok, bytes⟩ List.mem_cons_self rfl)
      rw [List.length_append] at hlater
      rw [List.length_cons]
      omega

/-- The last receive may overshoot the limit by its span, less one byte. -/
theorem ReadTo.length_after_le {span : Nat} (h : ReadTo maxBytes contents reads result after)
    (hreads : ∀ r ∈ reads, r.bytes.length ≤ span) :
    after.length ≤ max contents.length (maxBytes - 1 + span) := by
  induction h with
  | block _ hfresh => exact Nat.le_max_left _ _
  | tooLarge hnone hlarge => exact Nat.le_max_left _ _
  | failed hnone hroom hfail => exact Nat.le_max_left _ _
  | @more contents after hnone hroom bytes reads result h ih =>
      have hlater := ih fun r hr => hreads r (List.mem_cons_of_mem _ hr)
      have hspan : bytes.length ≤ span := hreads ⟨.ok, bytes⟩ List.mem_cons_self
      rw [List.length_append] at hlater
      omega

theorem Buffer.Tight.writeSpan {b : Buffer} {free : Nat} (h : b.Tight free) :
    (b.writeSpan free).Tight free := by
  unfold Buffer.Tight at h ⊢
  unfold Buffer.writeSpan
  split
  · simp only [List.length_append, List.length_replicate]
    omega
  · exact h

theorem readHeaderBlock_tight (client : Stream σ) (maxBytes fuel : Nat) {b : Buffer}
    (hb : b.Tight 2048) (s : σ) :
    (readHeaderBlock client maxBytes fuel b s).2.1.Tight 2048 := by
  induction fuel generalizing b s with
  | zero => exact hb
  | succ fuel ih =>
      rw [readHeaderBlock]
      dsimp only
      cases hend : findHeaderEnd b.asStringView with
      | some e => exact hb
      | none =>
          dsimp only
          by_cases hlarge : maxBytes ≤ b.asStringView.length
          · rw [if_pos hlarge]
            exact hb
          · rw [if_neg hlarge, hb.spanSize_writeSpan]
            have hle := client.recvSome_le 2048 s
            cases hrecv : client.recvSome 2048 s with
            | mk result s' =>
            rw [hrecv] at hle
            obtain ⟨status, bytes⟩ := result
            cases status with
            | closed => exact hb.writeSpan
            | timeout => exact hb.writeSpan
            | error => exact hb.writeSpan
            | ok => exact ih (hb.receive hle) _

/-- A measure that every good receive decreases is fuel enough. -/
theorem readHeaderBlock_ne_pending (measure : Nat → σ → Nat)
    (hmeasure : ∀ length s, length < maxBytes → (client.recvSome 2048 s).1.status = .ok →
      measure (length + (client.recvSome 2048 s).1.bytes.length) (client.recvSome 2048 s).2 <
        measure length s)
    (fuel : Nat) {b : Buffer} (hb : b.Tight 2048) (s : σ)
    (hfuel : measure b.asStringView.length s < fuel) :
    (readHeaderBlock client maxBytes fuel b s).1 ≠ .pending := by
  induction fuel generalizing b s with
  | zero => exact absurd hfuel (Nat.not_lt_zero _)
  | succ fuel ih =>
      rw [readHeaderBlock]
      dsimp only
      cases hend : findHeaderEnd b.asStringView with
      | some e => exact HeaderRead.noConfusion
      | none =>
          dsimp only
          by_cases hlarge : maxBytes ≤ b.asStringView.length
          · rw [if_pos hlarge]
            exact HeaderRead.noConfusion
          · rw [if_neg hlarge, hb.spanSize_writeSpan]
            have hle := client.recvSome_le 2048 s
            have hless := hmeasure _ s (Nat.not_le.mp hlarge)
            cases hrecv : client.recvSome 2048 s with
            | mk result s' =>
            rw [hrecv] at hle hless
            obtain ⟨status, bytes⟩ := result
            cases status with
            | closed => exact HeaderRead.noConfusion
            | timeout => exact HeaderRead.noConfusion
            | error => exact HeaderRead.noConfusion
            | ok =>
                refine ih (hb.receive hle) _ ?_
                rw [Buffer.asStringView_commit_fill _
                  (hle.trans_eq hb.spanSize_writeSpan.symm), Buffer.asStringView_writeSpan,
                  List.length_append]
                exact Nat.lt_of_lt_of_le (hless rfl) (Nat.le_of_lt_succ hfuel)

/-- More fuel changes nothing once the loop came to an end. -/
theorem readHeaderBlock_succ (fuel : Nat) (b : Buffer) (s : σ)
    (hdone : (readHeaderBlock client maxBytes fuel b s).1 ≠ .pending) :
    readHeaderBlock client maxBytes (fuel + 1) b s = readHeaderBlock client maxBytes fuel b s := by
  induction fuel generalizing b s with
  | zero => exact absurd rfl hdone
  | succ fuel ih =>
      rw [readHeaderBlock] at hdone
      dsimp only at hdone
      rw [readHeaderBlock]
      conv_rhs => rw [readHeaderBlock]
      dsimp only
      cases hend : findHeaderEnd b.asStringView with
      | some e => rfl
      | none =>
          simp only [hend] at hdone ⊢
          by_cases hlarge : maxBytes ≤ b.asStringView.length
          · rw [if_pos hlarge, if_pos hlarge]
          · rw [if_neg hlarge] at hdone ⊢
            rw [if_neg hlarge]
            cases hrecv : client.recvSome (b.writeSpan 2048).spanSize s with
            | mk result s' =>
            rw [hrecv] at hdone
            obtain ⟨status, bytes⟩ := result
            cases status with
            | closed => rfl
            | timeout => rfl
            | error => rfl
            | ok => exact ih _ _ hdone

/-- Whatever the client does, a header block is read or given up after at most as many
receives as the limit has bytes, and the buffer does not outgrow the limit by two spans. -/
theorem readHeaderBlock_bounded (client : Stream σ) (hdelivers : client.Delivers)
    (maxBytes fuel : Nat) (hfuel : maxBytes < fuel) (s : σ) :
    ∃ result buffer s' reads,
      readHeaderBlock client maxBytes fuel Buffer.new s = (result, buffer, s') ∧
      result ≠ .pending ∧ client.Receives 2048 s reads s' ∧ reads.length ≤ maxBytes ∧
      buffer.asStringView.length ≤ maxBytes - 1 + 2048 ∧
      buffer.data.length ≤ maxBytes - 1 + 2 * 2048 := by
  have hmeasure : ∀ length s, length < maxBytes → (client.recvSome 2048 s).1.status = .ok →
      maxBytes - (length + (client.recvSome 2048 s).1.bytes.length) < maxBytes - length := by
    intro length s hlength hok
    have hpos := List.length_pos_iff.mpr (hdelivers 2048 s (by decide) hok)
    omega
  have hdone := readHeaderBlock_ne_pending (fun length _ => maxBytes - length) hmeasure fuel
    (Buffer.tight_new 2048) s (Nat.lt_of_le_of_lt (Nat.sub_le _ _) hfuel)
  obtain ⟨reads, hreceives, hto⟩ :=
    readHeaderBlock_receives client maxBytes fuel (Buffer.tight_new 2048) s hdone
  have htight : Buffer.Tight _ 2048 :=
    readHeaderBlock_tight client maxBytes fuel (Buffer.tight_new 2048) s
  have hcount := hto.length_reads_le
    (hreceives.forall_mem fun s hok => hdelivers 2048 s (by decide) hok)
  have hlength := hto.length_after_le (hreceives.forall_mem fun s => client.recvSome_le 2048 s)
  rw [Buffer.asStringView_new, List.length_nil, Nat.zero_max] at hcount hlength
  generalize readHeaderBlock client maxBytes fuel Buffer.new s = run at *
  obtain ⟨result, buffer, s'⟩ := run
  refine ⟨result, buffer, s', reads, rfl, hdone, hreceives, by omega, hlength, ?_⟩
  have hsize := buffer.size_le
  have hview : buffer.asStringView.length = buffer.size := by
    rw [Buffer.asStringView, List.length_take]
    omega
  unfold Buffer.Tight at htight
  dsimp only at htight hlength
  omega

theorem Transport.stream_delivers (sendStatus : List Bytes → Bytes → IoStatus) :
    (Transport.stream sendStatus).Delivers := by
  intro span t hspan hok
  show (Transport.recvSome span t).1.bytes ≠ []
  have hstatus : (Transport.recvSome span t).1.status = .ok := hok
  unfold Transport.recvSome at hstatus ⊢
  split
  · next hnil =>
      rw [hnil] at hstatus
      cases hending : t.ending <;> simp [hending, Ending.status] at hstatus
  · next chunk chunks hcons =>
      have hpos := List.length_pos_iff.mpr chunk.property
      apply List.length_pos_iff.mp
      rw [List.length_take]
      omega

/-- A client that sends one byte at a time and then nothing. -/
theorem readHeaderBlock_bounded_dribble :
    ∃ result buffer s' reads,
      readHeaderBlock (Transport.stream fun _ _ => .ok) 65536 65537 Buffer.new
        ⟨[⟨[0x47], List.cons_ne_nil _ _⟩, ⟨[0x45], List.cons_ne_nil _ _⟩], .timeout, []⟩ =
          (result, buffer, s') ∧
      result ≠ .pending ∧ List.length (α := ReadResult) reads ≤ 65536 := by
  obtain ⟨result, buffer, s', reads, hread, hdone, -, hreads, -⟩ :=
    readHeaderBlock_bounded (Transport.stream fun _ _ => .ok)
      (Transport.stream_delivers fun _ _ => .ok) 65536 65537 (by decide)
      ⟨[⟨[0x47], List.cons_ne_nil _ _⟩, ⟨[0x45], List.cons_ne_nil _ _⟩], .timeout, []⟩
  exact ⟨result, buffer, s', reads, hread, hdone, hreads⟩

end Http
end Garcon
