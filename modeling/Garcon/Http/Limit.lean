import Garcon.Http.Exactness

/-!
# The size limit of a header block

The framing loop compares the size of its contents with the limit only where it has found
no empty line, and before a receive of up to 2048 bytes.  So a block that ends within 2047
bytes behind the limit is returned when the last receive starts in front of the limit and
reaches its end, and refused when a receive stops in between.
-/

namespace Garcon
namespace Http

open Ascii Search Net Stream'

/-! ## A source that drips -/

/-- The bytes of the next receive from a source that gives `n` single bytes before it
fills every span. -/
def dripSpan (n span : Nat) : Nat := if 0 < n then min 1 span else span

/-- A source of any bytes that gives so many single bytes before it fills every span. -/
def drip : ByteSource (Nat × Seq UInt8) where
  stream :=
    { isValid := fun _ => true
      setReceiveTimeout := fun _ s => (true, s)
      setSendTimeout := fun _ s => (true, s)
      handshake := fun s => (.ok, s)
      recvSome := fun span s =>
        if s.2.take (dripSpan s.1 span) = [] then (⟨.closed, []⟩, s)
        else (⟨.ok, s.2.take (dripSpan s.1 span)⟩, (s.1 - 1, s.2.drop (dripSpan s.1 span)))
      sendAll := fun _ s => (.ok, s)
      recvSome_le := by
        intro span s
        have hspan : dripSpan s.1 span ≤ span := by
          unfold dripSpan
          split
          · exact Nat.min_le_right 1 span
          · exact Nat.le_refl span
        split
        · exact Nat.zero_le span
        · exact Seq.length_take_le.trans hspan }
  sequence := fun s => s.2
  ending := fun _ => .closed
  recvSome_next := by
    intro span s hspan
    have hpos : 0 < dripSpan s.1 span := by
      unfold dripSpan
      split
      · exact Nat.lt_min.mpr ⟨Nat.one_pos, hspan⟩
      · exact hspan
    by_cases hnil : s.2.take (dripSpan s.1 span) = []
    · exact Or.inr ⟨⟨.closed, []⟩, s, if_pos hnil, rfl, take_eq_nil hpos hnil⟩
    · exact Or.inl ⟨_, _, if_neg hnil, hnil, (ofList_take_append_drop _ _).symm, rfl⟩

/-- A receive from the drip that succeeds. -/
theorem drip_receives_ok {n : Nat} {seq : Seq UInt8} {bytes : Bytes} {reads : List ReadResult}
    {s' : Nat × Seq UInt8} (h : drip.stream.Receives 2048 (n, seq) (⟨.ok, bytes⟩ :: reads) s') :
    bytes = seq.take (dripSpan n 2048) ∧ bytes ≠ [] ∧
      drip.stream.Receives 2048 (n - 1, seq.drop (dripSpan n 2048)) reads s' := by
  obtain ⟨hfirst, hrest⟩ := h.of_cons
  by_cases hnil : seq.take (dripSpan n 2048) = []
  · have hrecv : drip.stream.recvSome 2048 (n, seq) = (⟨.closed, []⟩, (n, seq)) := if_pos hnil
    rw [hrecv] at hfirst
    cases hfirst
  · have hrecv : drip.stream.recvSome 2048 (n, seq) = (⟨.ok, seq.take (dripSpan n 2048)⟩,
        (n - 1, seq.drop (dripSpan n 2048))) := if_neg hnil
    rw [hrecv] at hfirst hrest
    cases hfirst
    exact ⟨rfl, hnil, hrest⟩

namespace ReadTo

variable {maxBytes : Nat} {contents after pre : Bytes} {reads : List ReadResult}
  {result : HeaderRead} {seq : Seq UInt8}

/-- Contents that end in front of the first empty line have none. -/
theorem not_infix_of_short (hfresh : Fresh headerEnd pre)
    (hstarts : Starts ((Seq.ofList contents).append seq) (pre ++ headerEnd))
    (hshort : contents.length < (pre ++ headerEnd).length) : ¬ headerEnd <:+: contents := by
  intro hends
  cases hcut : cut headerEnd contents with
  | none => exact cut_eq_none_iff.mp hcut hends
  | some parts =>
      obtain ⟨pre', rest⟩ := parts
      obtain ⟨hsplit, hfresh'⟩ := cut_eq_some_iff.mp hcut
      have hpref : pre' ++ headerEnd <+: contents := ⟨rest, by rw [hsplit, List.append_assoc]⟩
      have hstarts' := (starts_ofList_append contents seq).of_isPrefix hpref
      rw [hfresh.eq_of_starts hfresh' hstarts hstarts'] at hshort
      exact absurd hpref.length_le (not_le.mpr hshort)

/-- In front of the first empty line and of the limit, a drip leads to contents of every
length. -/
theorem exists_drip {n : Nat} {s' : Nat × Seq UInt8}
    (h : ReadTo maxBytes contents reads result after)
    (hreceives : drip.stream.Receives 2048 (n, seq) reads s') (hfresh : Fresh headerEnd pre)
    (hstarts : Starts ((Seq.ofList contents).append seq) (pre ++ headerEnd))
    (hroom : contents.length + n ≤ maxBytes)
    (hshort : contents.length + n < (pre ++ headerEnd).length) :
    ∃ contents' seq' reads', contents'.length = contents.length + n ∧
      ReadTo maxBytes contents' reads' result after ∧
      drip.stream.Receives 2048 (0, seq') reads' s' ∧
      Starts ((Seq.ofList contents').append seq') (pre ++ headerEnd) := by
  induction n generalizing contents seq reads with
  | zero => exact ⟨contents, seq, reads, rfl, h, hreceives, hstarts⟩
  | succ n ih =>
      have hnone := not_infix_of_short hfresh hstarts (by omega)
      cases h with
      | block hsplit hfresh' => exact absurd (infix_of_split hsplit) hnone
      | tooLarge _ hlarge => omega
      | failed _ _ hfail =>
          have hnil : seq = .nil := (drip.receives_failed hreceives hfail).1
          rw [hnil, Seq.append_nil, starts_ofList] at hstarts
          exact absurd hstarts.length_le (by omega)
      | @more _ _ _ _ bytes reads _ h =>
          obtain ⟨hbytes, hne, hreceives⟩ := drip_receives_ok hreceives
          have hspan : dripSpan (n + 1) 2048 = 1 := rfl
          rw [hspan] at hbytes hreceives
          have hone : bytes.length = 1 := by
            have hle := Seq.length_take_le (s := seq) (n := 1)
            have hpos := List.length_pos_iff.mpr hne
            rw [← hbytes] at hle
            omega
          have hstarts' : Starts ((Seq.ofList (contents ++ bytes)).append (seq.drop 1))
              (pre ++ headerEnd) := by
            rw [Seq.ofList_append, Seq.append_assoc, hbytes, ofList_take_append_drop]
            exact hstarts
          obtain ⟨contents', seq', reads', hlen, hrest⟩ := ih h hreceives hstarts'
            (by rw [List.length_append]; omega) (by rw [List.length_append]; omega)
          exact ⟨contents', seq', reads', by rw [hlen, List.length_append]; omega, hrest⟩

end ReadTo

/-! ## Two splits of one sequence -/

section Drip

variable {maxBytes fuel : Nat} {seq : Seq UInt8} {pre : Bytes}

/-- The receives of a header read from a drip that lead from `n` contents on. -/
theorem exists_readTo_drip (hfuel : maxBytes < fuel) {n : Nat} (hn : n ≤ maxBytes)
    (hfresh : Fresh headerEnd pre) (hstarts : Starts seq (pre ++ headerEnd))
    (hshort : n < (pre ++ headerEnd).length) :
    ∃ contents seq' reads after s', contents.length = n ∧
      ReadTo maxBytes contents reads
        (readHeaderBlock drip.stream maxBytes fuel Buffer.new (n, seq)).1 after ∧
      drip.stream.Receives 2048 (0, seq') reads s' ∧
      Starts ((Seq.ofList contents).append seq') (pre ++ headerEnd) := by
  obtain ⟨-, reads, hreceives, h⟩ := readHeaderBlock_readTo drip hfuel (n, seq)
  have hstarts' : Starts ((Seq.ofList ([] : Bytes)).append seq) (pre ++ headerEnd) := by
    rw [Seq.ofList_nil, Seq.nil_append]
    exact hstarts
  have hlen : ([] : Bytes).length + n = n := Nat.zero_add n
  obtain ⟨contents, seq', reads', hcontents, h', hreceives', hstarts''⟩ :=
    h.exists_drip hreceives hfresh hstarts' (by rw [hlen]; exact hn) (by rw [hlen]; exact hshort)
  exact ⟨contents, seq', reads', _, _, hcontents.trans hlen, h', hreceives', hstarts''⟩

/-- A receive that starts one byte in front of the limit brings a block that ends within
2047 bytes behind it. -/
theorem readHeaderBlock_drip_pred (hfuel : maxBytes < fuel) (hpos : 0 < maxBytes)
    (hfresh : Fresh headerEnd pre) (hstarts : Starts seq (pre ++ headerEnd))
    (hover : maxBytes < (pre ++ headerEnd).length)
    (hreach : (pre ++ headerEnd).length ≤ maxBytes + 2047) :
    (readHeaderBlock drip.stream maxBytes fuel Buffer.new (maxBytes - 1, seq)).1 =
      .block (pre ++ headerEnd) := by
  obtain ⟨contents, seq', reads, after, s', hlen, h, hreceives, hstarts⟩ :=
    exists_readTo_drip hfuel (Nat.sub_le maxBytes 1) hfresh hstarts (by omega)
  have hnone := ReadTo.not_infix_of_short hfresh hstarts (by omega)
  generalize readHeaderBlock drip.stream maxBytes fuel Buffer.new (maxBytes - 1, seq) = read at h ⊢
  obtain ⟨result, rest⟩ := read
  dsimp only at h ⊢
  cases h with
  | block hsplit hfresh' => exact absurd (ReadTo.infix_of_split hsplit) hnone
  | tooLarge _ hlarge => omega
  | failed _ _ hfail =>
      have hnil : seq' = .nil := (drip.receives_failed hreceives hfail).1
      rw [hnil, Seq.append_nil, starts_ofList] at hstarts
      exact absurd hstarts.length_le (by omega)
  | @more _ _ _ _ bytes reads _ h =>
      obtain ⟨hbytes, -, -⟩ := drip_receives_ok hreceives
      have hspan : dripSpan 0 2048 = 2048 := rfl
      rw [hspan] at hbytes
      -- What is still missing of the block fits into one receive.
      have hprefix : contents <+: pre ++ headerEnd :=
        (starts_ofList_append contents seq').prefix_of_le hstarts (by omega)
      obtain ⟨missing, hmissing⟩ := hprefix
      have hsize := congrArg List.length hmissing
      rw [List.length_append] at hsize
      rw [← hmissing, starts_append_iff] at hstarts
      obtain ⟨more, hmore⟩ := hstarts.prefix_take (n := 2048) (by omega)
      have hall : contents ++ bytes = pre ++ (headerEnd ++ more) := by
        rw [hbytes, ← hmore, ← List.append_assoc, hmissing, List.append_assoc]
      exact (h.eq_block hall hfresh).1

/-- A receive that stops at the limit leaves no room for the rest of the block. -/
theorem readHeaderBlock_drip (hfuel : maxBytes < fuel) (hfresh : Fresh headerEnd pre)
    (hstarts : Starts seq (pre ++ headerEnd)) (hover : maxBytes < (pre ++ headerEnd).length) :
    (readHeaderBlock drip.stream maxBytes fuel Buffer.new (maxBytes, seq)).1 =
      .error .tooLarge := by
  obtain ⟨contents, seq', reads, after, s', hlen, h, -, hstarts⟩ :=
    exists_readTo_drip hfuel (Nat.le_refl maxBytes) hfresh hstarts hover
  have hnone := ReadTo.not_infix_of_short hfresh hstarts (by omega)
  generalize readHeaderBlock drip.stream maxBytes fuel Buffer.new (maxBytes, seq) = read at h ⊢
  obtain ⟨result, rest⟩ := read
  dsimp only at h ⊢
  cases h with
  | block hsplit hfresh' => exact absurd (ReadTo.infix_of_split hsplit) hnone
  | tooLarge _ hlarge => rfl
  | failed _ hroom hfail => omega
  | more _ hroom h => omega

end Drip

/-! ## The limit -/

section Source

variable {σ : Type} (source : ByteSource σ) {maxBytes fuel : Nat}

/-- What a header read returns, by the bytes it has received. -/
theorem readHeaderBlock_cases (hfuel : maxBytes < fuel) (s : σ) :
    ∃ after, Starts (source.sequence s) after ∧ after.length ≤ maxBytes + 2047 ∧
      ((∃ pre, (readHeaderBlock source.stream maxBytes fuel Buffer.new s).1 =
            .block (pre ++ headerEnd) ∧ Fresh headerEnd pre ∧ pre ++ headerEnd <+: after) ∨
        ((readHeaderBlock source.stream maxBytes fuel Buffer.new s).1 = .error .tooLarge ∧
          maxBytes ≤ after.length) ∨
        ((readHeaderBlock source.stream maxBytes fuel Buffer.new s).1 =
            .error (source.ending s).readError ∧
          after.length < maxBytes ∧ source.sequence s = Seq.ofList after)) := by
  obtain ⟨-, reads, hreceives, h⟩ := readHeaderBlock_readTo source hfuel s
  have hnil : (Seq.ofList ([] : Bytes)).append (source.sequence s) = source.sequence s :=
    Seq.nil_append _
  have hstarts := h.starts_after hreceives
  have hcases := h.trichotomy hreceives
  rw [hnil] at hstarts hcases
  refine ⟨_, hstarts, h.length_le hreceives (Nat.zero_le _), ?_⟩
  rcases hcases with ⟨header, hresult⟩ | ⟨hresult, -, hlarge⟩ | ⟨hresult, -, hshort, hall⟩
  · rw [hresult] at h
    obtain ⟨pre, rest, rfl, hfresh, hafter⟩ := h.block_shortest
    exact Or.inl ⟨pre, hresult, hfresh, rest, hafter.symm⟩
  · exact Or.inr (Or.inl ⟨hresult, hlarge⟩)
  · exact Or.inr (Or.inr ⟨hresult, hshort, hall⟩)

theorem readHeaderBlock_zero (hfuel : 0 < fuel) (s : σ) :
    (readHeaderBlock source.stream 0 fuel Buffer.new s).1 = .error .tooLarge := by
  obtain ⟨fuel, rfl⟩ := Nat.exists_eq_add_of_le' hfuel
  rfl

end Source

/-- The first header block of a sequence ends behind the limit, by at most 2047 bytes. -/
def Overshoots (maxBytes : Nat) (seq : Seq UInt8) : Prop :=
  ∃ pre, Fresh headerEnd pre ∧ Starts seq (pre ++ headerEnd) ∧ 0 < maxBytes ∧
    maxBytes < (pre ++ headerEnd).length ∧ (pre ++ headerEnd).length ≤ maxBytes + 2047

/-- No source of the sequence makes the loop return a block beyond the limit. -/
def Limited (maxBytes : Nat) (seq : Seq UInt8) : Prop :=
  ∀ (σ : Type) (source : ByteSource σ) (s : σ) (fuel : Nat), source.sequence s = seq →
    maxBytes < fuel → ∀ header,
      (readHeaderBlock source.stream maxBytes fuel Buffer.new s).1 = .block header →
        header.length ≤ maxBytes

/-- Two header reads that both return a block, or neither, and both find too many bytes, or
neither. -/
def SameKind (result result' : HeaderRead) : Prop :=
  ((∃ header, result = .block header) ↔ ∃ header, result' = .block header) ∧
    (result = .error .tooLarge ↔ result' = .error .tooLarge)

/-- What the loop makes of the sequence is the same for all sources of it. -/
def SplitIndependent (maxBytes : Nat) (seq : Seq UInt8) : Prop :=
  ∀ (σ σ' : Type) (source : ByteSource σ) (source' : ByteSource σ') (s : σ) (s' : σ')
    (fuel fuel' : Nat), source.sequence s = seq → source'.sequence s' = seq →
      maxBytes < fuel → maxBytes < fuel' →
      SameKind (readHeaderBlock source.stream maxBytes fuel Buffer.new s).1
        (readHeaderBlock source'.stream maxBytes fuel' Buffer.new s').1

section Kind

variable {maxBytes : Nat} {seq : Seq UInt8}

theorem limited_of_not_overshoots (h : ¬ Overshoots maxBytes seq) : Limited maxBytes seq := by
  intro σ source s fuel hseq hfuel header hheader
  obtain ⟨after, hstarts, hbound, hcases⟩ := readHeaderBlock_cases source hfuel s
  rw [hheader, hseq] at hcases
  rw [hseq] at hstarts
  rcases hcases with ⟨pre, hblock, hfresh, hprefix⟩ | ⟨hlarge, -⟩ | ⟨hended, -⟩
  · obtain rfl := HeaderRead.block.inj hblock
    by_contra hover
    have hpos : 0 < maxBytes := by
      by_contra hzero
      obtain rfl : maxBytes = 0 := Nat.eq_zero_of_not_pos hzero
      rw [readHeaderBlock_zero source hfuel s] at hheader
      cases hheader
    exact h ⟨pre, hfresh, hstarts.of_isPrefix hprefix, hpos, not_le.mp hover,
      hprefix.length_le.trans hbound⟩
  · cases hlarge
  · cases hended

/-- Without a block in the overshoot, the bytes alone decide what kind of result there is. -/
theorem kind_of_not_overshoots (h : ¬ Overshoots maxBytes seq) {σ : Type}
    (source : ByteSource σ) {s : σ} (hseq : source.sequence s = seq) {fuel : Nat}
    (hfuel : maxBytes < fuel) :
    ((∃ header, (readHeaderBlock source.stream maxBytes fuel Buffer.new s).1 = .block header) ↔
      ∃ pre, Fresh headerEnd pre ∧ Starts seq (pre ++ headerEnd) ∧
        (pre ++ headerEnd).length ≤ maxBytes) ∧
    ((readHeaderBlock source.stream maxBytes fuel Buffer.new s).1 = .error .tooLarge ↔
      (¬ ∃ pre, Fresh headerEnd pre ∧ Starts seq (pre ++ headerEnd) ∧
        (pre ++ headerEnd).length ≤ maxBytes) ∧
      ∃ bytes, Starts seq bytes ∧ maxBytes ≤ bytes.length) := by
  have hlimit := limited_of_not_overshoots h σ source s fuel hseq hfuel
  obtain ⟨reads, -, hexact⟩ := readHeaderBlock_exact source maxBytes fuel hfuel s
  obtain ⟨after, hstarts, -, hcases⟩ := readHeaderBlock_cases source hfuel s
  have hfirst := hexact.first_block
  rw [hseq] at hstarts hcases hfirst
  generalize (readHeaderBlock source.stream maxBytes fuel Buffer.new s).1 = result
    at hlimit hcases hfirst ⊢
  by_cases hfit : ∃ pre, Fresh headerEnd pre ∧ Starts seq (pre ++ headerEnd) ∧
      (pre ++ headerEnd).length ≤ maxBytes
  · obtain ⟨pre, hfresh, hpre, hle⟩ := hfit
    rw [hfirst pre hpre hfresh hle]
    refine ⟨iff_of_true ⟨_, rfl⟩ ⟨pre, hfresh, hpre, hle⟩, iff_of_false HeaderRead.noConfusion ?_⟩
    exact fun hboth => hboth.1 ⟨pre, hfresh, hpre, hle⟩
  · rw [and_iff_right hfit]
    rcases hcases with ⟨pre, rfl, hfresh, hprefix⟩ | ⟨rfl, hlarge⟩ | ⟨rfl, hshort, hall⟩
    · exact absurd ⟨pre, hfresh, hstarts.of_isPrefix hprefix, hlimit _ rfl⟩ hfit
    · refine ⟨iff_of_false ?_ hfit, iff_of_true rfl ⟨after, hstarts, hlarge⟩⟩
      rintro ⟨header, hheader⟩
      cases hheader
    · refine ⟨iff_of_false ?_ hfit, iff_of_false ?_ ?_⟩
      · rintro ⟨header, hheader⟩
        cases hheader
      · cases source.ending s <;> exact fun hsame => by cases hsame
      · rintro ⟨bytes, hbytes, hlong⟩
        rw [hall, starts_ofList] at hbytes
        exact absurd hbytes.length_le (by omega)

theorem not_limited_of_overshoots (h : Overshoots maxBytes seq) : ¬ Limited maxBytes seq := by
  obtain ⟨pre, hfresh, hstarts, hpos, hover, hreach⟩ := h
  intro hlimited
  have hblock := readHeaderBlock_drip_pred (Nat.lt_succ_self maxBytes) hpos hfresh hstarts
    hover hreach
  exact absurd (hlimited _ drip _ _ rfl (Nat.lt_succ_self maxBytes) _ hblock) (not_le.mpr hover)

/-- One single byte more makes the difference. -/
theorem not_splitIndependent_of_overshoots (h : Overshoots maxBytes seq) :
    ¬ SplitIndependent maxBytes seq := by
  obtain ⟨pre, hfresh, hstarts, hpos, hover, hreach⟩ := h
  intro hindependent
  have hblock := readHeaderBlock_drip_pred (Nat.lt_succ_self maxBytes) hpos hfresh hstarts
    hover hreach
  have hlarge := readHeaderBlock_drip (Nat.lt_succ_self maxBytes) hfresh hstarts hover
  have hsame := hindependent _ _ drip drip (maxBytes - 1, seq) (maxBytes, seq) _ _ rfl rfl
    (Nat.lt_succ_self maxBytes) (Nat.lt_succ_self maxBytes)
  obtain ⟨header, hheader⟩ := hsame.1.mp ⟨_, hblock⟩
  rw [hlarge] at hheader
  cases hheader

end Kind

/-- No block beyond the limit is returned, and the split of the bytes does not decide
whether there is one, both exactly where the first block of the sequence does not end
within 2047 bytes behind the limit. -/
theorem limited_and_splitIndependent_iff (maxBytes : Nat) (seq : Seq UInt8) :
    (Limited maxBytes seq ↔ ¬ Overshoots maxBytes seq) ∧
      (SplitIndependent maxBytes seq ↔ ¬ Overshoots maxBytes seq) := by
  refine ⟨⟨fun h hover => not_limited_of_overshoots hover h, limited_of_not_overshoots⟩,
    fun h hover => not_splitIndependent_of_overshoots hover h, ?_⟩
  intro h σ σ' source source' s s' fuel fuel' hseq hseq' hfuel hfuel'
  obtain ⟨hblock, hlarge⟩ := kind_of_not_overshoots h source hseq hfuel
  obtain ⟨hblock', hlarge'⟩ := kind_of_not_overshoots h source' hseq' hfuel'
  exact ⟨hblock.trans hblock'.symm, hlarge.trans hlarge'.symm⟩

/-- The eighteen bytes of a request in one chunk. -/
def wholeRequest : Transport where
  chunks := [⟨ascii "GET / HTTP/1.1\r\n\r\n", List.cons_ne_nil _ _⟩]
  ending := .closed

/-- The same bytes, with the last two in a chunk of their own. -/
def brokenRequest : Transport where
  chunks := [⟨ascii "GET / HTTP/1.1\r\n", List.cons_ne_nil _ _⟩,
    ⟨ascii "\r\n", List.cons_ne_nil _ _⟩]
  ending := .closed

/-- A limit of sixteen bytes lets the block pass in one chunk, and refuses it in two. -/
theorem limit_passed_in_one_chunk :
    ¬ Limited 16 (Seq.ofList (ascii "GET / HTTP/1.1\r\n\r\n")) ∧
      ¬ SplitIndependent 16 (Seq.ofList (ascii "GET / HTTP/1.1\r\n\r\n")) := by
  let source := Transport.source fun _ _ => .ok
  have hwhole : source.sequence wholeRequest = Seq.ofList (ascii "GET / HTTP/1.1\r\n\r\n") :=
    congrArg Seq.ofList (by decide +kernel)
  have hbroken : source.sequence brokenRequest = Seq.ofList (ascii "GET / HTTP/1.1\r\n\r\n") :=
    congrArg Seq.ofList (by decide +kernel)
  have hblock : (readHeaderBlock source.stream 16 17 Buffer.new wholeRequest).1 =
      .block (ascii "GET / HTTP/1.1\r\n\r\n") := by decide +kernel
  have hlarge : (readHeaderBlock source.stream 16 17 Buffer.new brokenRequest).1 =
      .error .tooLarge := by decide +kernel
  refine ⟨?_, ?_⟩
  · intro hlimited
    have hle := hlimited _ source wholeRequest 17 hwhole (by decide) _ hblock
    exact absurd hle (by decide)
  · intro hindependent
    have hsame := hindependent _ _ source source wholeRequest brokenRequest 17 17 hwhole hbroken
      (by decide) (by decide)
    obtain ⟨header, hheader⟩ := hsame.1.mp ⟨_, hblock⟩
    rw [hlarge] at hheader
    cases hheader

end Http
end Garcon
