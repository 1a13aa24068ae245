import Garcon.Http.Framing
import Garcon.Net.Log

/-!
# What the framing loop makes of its receives

`ReadTo` is the framing loop without its buffer and its stream: from some contents, the
receives that follow lead to a result and to the contents that the result was found in.
`readHeaderBlock_receives` says that the loop does just that.  From a new buffer on, every
receive is offered the same span.
-/

namespace Garcon
namespace Http

open Search Net

/-- How a receive that delivers nothing ends the loop. -/
def readFailure : IoStatus → Option HeaderReadError
  | .ok => none
  | .closed => some .closed
  | .timeout => some .timeout
  | .error => some .ioError

/-- From these contents, these receives lead to this result and these contents. -/
inductive ReadTo (maxBytes : Nat) : Bytes → List ReadResult → HeaderRead → Bytes → Prop where
  | block {contents pre rest : Bytes} (hsplit : contents = pre ++ (headerEnd ++ rest))
      (hfresh : Fresh headerEnd pre) :
      ReadTo maxBytes contents [] (.block (pre ++ headerEnd)) contents
  | tooLarge {contents : Bytes} (hnone : ¬ headerEnd <:+: contents)
      (hlarge : maxBytes ≤ contents.length) :
      ReadTo maxBytes contents [] (.error .tooLarge) contents
  | failed {contents : Bytes} (hnone : ¬ headerEnd <:+: contents)
      (hroom : contents.length < maxBytes) {result : ReadResult} {e : HeaderReadError}
      (hfail : readFailure result.status = some e) :
      ReadTo maxBytes contents [result] (.error e) contents
  | more {contents after : Bytes} (hnone : ¬ headerEnd <:+: contents)
      (hroom : contents.length < maxBytes) {bytes : Bytes} {reads : List ReadResult}
      {result : HeaderRead} (h : ReadTo maxBytes (contents ++ bytes) reads result after) :
      ReadTo maxBytes contents (⟨.ok, bytes⟩ :: reads) result after

namespace ReadTo

variable {maxBytes : Nat} {contents after : Bytes} {reads : List ReadResult}
  {result : HeaderRead}

theorem infix_of_split {pre rest : Bytes} (hsplit : contents = pre ++ (headerEnd ++ rest)) :
    headerEnd <:+: contents :=
  ⟨pre, rest, by rw [hsplit, List.append_assoc]⟩

/-- Contents with an empty line are returned up to and with the first one. -/
theorem eq_block {pre rest : Bytes} (h : ReadTo maxBytes contents reads result after)
    (hsplit : contents = pre ++ (headerEnd ++ rest)) (hfresh : Fresh headerEnd pre) :
    result = .block (pre ++ headerEnd) ∧ after = contents := by
  have hends := infix_of_split hsplit
  cases h with
  | @block _ pre' rest' hsplit' hfresh' =>
      have hcut := cut_of_fresh hfresh rest
      rw [← hsplit, hsplit', cut_of_fresh hfresh', Option.some.injEq, Prod.mk.injEq] at hcut
      rw [hcut.1]
      exact ⟨rfl, rfl⟩
  | tooLarge hnone hlarge => exact absurd hends hnone
  | failed hnone hroom hfail => exact absurd hends hnone
  | more hnone hroom h => exact absurd hends hnone

/-- What was received decides the result. -/
theorem unique {result' : HeaderRead} {after' : Bytes}
    (h : ReadTo maxBytes contents reads result after)
    (h' : ReadTo maxBytes contents reads result' after') : result = result' ∧ after = after' := by
  induction h generalizing result' after' with
  | block hsplit hfresh =>
      obtain ⟨rfl, rfl⟩ := h'.eq_block hsplit hfresh
      exact ⟨rfl, rfl⟩
  | @tooLarge contents hnone hlarge =>
      cases h' with
      | block hsplit' hfresh' => exact absurd (infix_of_split hsplit') hnone
      | tooLarge hnone' hlarge' => exact ⟨rfl, rfl⟩
  | failed hnone hroom hfail =>
      cases h' with
      | failed hnone' hroom' hfail' =>
          rw [hfail, Option.some.injEq] at hfail'
          rw [hfail']
          exact ⟨rfl, rfl⟩
      | more hnone' hroom' h' => cases hfail
  | more hnone hroom h ih =>
      cases h' with
      | failed hnone' hroom' hfail' => cases hfail'
      | more hnone' hroom' h' => exact ih h'

/-- A receive that fails is the last one, and its status is the result. -/
theorem of_failure (h : ReadTo maxBytes contents reads result after)
    {earlier later : List ReadResult} {r : ReadResult} (hsplit : reads = earlier ++ r :: later)
    (hstatus : r.status ≠ .ok) :
    later = [] ∧ ∃ e, readFailure r.status = some e ∧ result = .error e := by
  induction h generalizing earlier with
  | block _ hfresh => cases earlier <;> cases hsplit
  | tooLarge hnone hlarge => cases earlier <;> cases hsplit
  | failed hnone hroom hfail =>
      cases earlier with
      | nil =>
          cases hsplit
          exact ⟨rfl, _, hfail, rfl⟩
      | cons first earlier =>
          rw [List.cons_append, List.cons.injEq] at hsplit
          cases earlier <;> cases hsplit.2
  | more hnone hroom h ih =>
      cases earlier with
      | nil =>
          cases hsplit
          exact absurd rfl hstatus
      | cons first earlier =>
          rw [List.cons_append, List.cons.injEq] at hsplit
          exact ih hsplit.2

end ReadTo

variable {σ : Type}

theorem findHeaderEnd_eq_none_iff {v : Bytes} :
    findHeaderEnd v = none ↔ ¬ headerEnd <:+: v := by
  rw [findHeaderEnd, Option.map_eq_none_iff, find_eq_none_iff]

/-- The storage of a buffer ends at most this far behind its contents. -/
def Buffer.Tight (b : Buffer) (free : Nat) : Prop := b.data.length ≤ b.size + free

theorem Buffer.tight_new (free : Nat) : Buffer.new.Tight free := Nat.zero_le _

theorem Buffer.Tight.spanSize_writeSpan {b : Buffer} {free : Nat} (h : b.Tight free) :
    (b.writeSpan free).spanSize = free := by
  have hsize := b.size_le
  unfold Buffer.Tight at h
  unfold Buffer.writeSpan Buffer.spanSize
  by_cases hroom : b.data.length < b.size + free
  · rw [if_pos hroom]
    simp only [List.length_append, List.length_replicate]
    omega
  · rw [if_neg hroom]
    omega

theorem Buffer.Tight.receive {b : Buffer} {free : Nat} (h : b.Tight free) {bytes : Bytes}
    (hle : bytes.length ≤ free) :
    (((b.writeSpan free).fill bytes).commit bytes.length).Tight free := by
  have hspan := h.spanSize_writeSpan
  have hsize := (b.writeSpan free).size_le
  have hdata : ((b.writeSpan free).fill bytes).data.length = (b.writeSpan free).data.length := by
    unfold Buffer.spanSize at hspan
    simp only [Buffer.fill, List.length_append, List.length_take, List.length_drop]
    omega
  unfold Buffer.spanSize at hspan
  unfold Buffer.Tight Buffer.commit
  dsimp only
  rw [hdata]
  show _ ≤ (if _ < (b.writeSpan free).size + bytes.length then _ else
    (b.writeSpan free).size + bytes.length) + free
  split <;> omega

/-- The loop does what its receives say. -/
theorem readHeaderBlock_receives (stream : Stream σ) (maxBytes fuel : Nat) {b : Buffer}
    (hb : b.Tight 2048) (s : σ)
    (hdone : (readHeaderBlock stream maxBytes fuel b s).1 ≠ .pending) :
    ∃ reads, stream.Receives 2048 s reads (readHeaderBlock stream maxBytes fuel b s).2.2 ∧
      ReadTo maxBytes b.asStringView reads (readHeaderBlock stream maxBytes fuel b s).1
        (readHeaderBlock stream maxBytes fuel b s).2.1.asStringView := by
  induction fuel generalizing b s with
  | zero => exact absurd rfl hdone
  | succ fuel ih =>
      rw [readHeaderBlock] at hdone ⊢
      dsimp only at hdone ⊢
      cases hend : findHeaderEnd b.asStringView with
      | some e =>
          obtain ⟨pre, post, hview, hfresh, rfl⟩ := findHeaderEnd_eq_some_iff.mp hend
          have htake : b.asStringView.take (pre.length + 4) = pre ++ headerEnd := by
            rw [hview, ← List.append_assoc]
            exact List.take_left' (by simp [headerEnd, crlf])
          simp only [htake]
          exact ⟨[], .done s, .block hview hfresh⟩
      | none =>
          have hnone := findHeaderEnd_eq_none_iff.mp hend
          simp only [hend] at hdone ⊢
          by_cases hlarge : maxBytes ≤ b.asStringView.length
          · rw [if_pos hlarge]
            exact ⟨[], .done s, .tooLarge hnone hlarge⟩
          · rw [if_neg hlarge] at hdone ⊢
            have hroom := Nat.not_le.mp hlarge
            have hstep := @Stream.Receives.recvSome σ stream 2048 s _ _ (.done _)
            have hle := stream.recvSome_le 2048 s
            rw [hb.spanSize_writeSpan] at hdone ⊢
            cases hrecv : stream.recvSome 2048 s with
            | mk result s' =>
            rw [hrecv] at hstep hle
            simp only [hrecv] at hdone ⊢
            obtain ⟨status, bytes⟩ := result
            cases status with
            | closed =>
                exact ⟨[_], hstep, by simpa using ReadTo.failed hnone hroom rfl⟩
            | timeout =>
                exact ⟨[_], hstep, by simpa using ReadTo.failed hnone hroom rfl⟩
            | error =>
                exact ⟨[_], hstep, by simpa using ReadTo.failed hnone hroom rfl⟩
            | ok =>
                obtain ⟨reads, hreceives, hreads⟩ := ih (hb.receive hle) _ hdone
                have hview := (b.writeSpan 2048).asStringView_commit_fill
                  (hle.trans_eq hb.spanSize_writeSpan.symm)
                rw [Buffer.asStringView_writeSpan] at hview
                rw [hview] at hreads
                exact ⟨⟨.ok, bytes⟩ :: reads, hstep.trans hreceives, .more hnone hroom hreads⟩

end Http
end Garcon
