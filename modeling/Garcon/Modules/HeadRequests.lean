import Garcon.Modules.StaticFiles

/-!
# HEAD and GET

Both methods take the same way to a file, and both give its size.  A GET then reads the
file, and turns into a 404 when it cannot.  A HEAD does not look.
-/

namespace Garcon
namespace Modules
namespace StaticFiles

open Ascii Search Http

/-- What a response says beside its body. -/
structure Head where
  status : Int
  reason : Bytes
  contentType : Bytes
  contentLength : Nat
deriving DecidableEq, Repr

/-- The length is the one on the wire. -/
def headOf (response : Response) : Head where
  status := response.status
  reason := response.reason
  contentType := response.contentType
  contentLength := response.wireBodySize

/-- The file to serve for a target, if there is one that is not too large, and its size. -/
def Finds (fs : FileSystem) (root : Path) (target : Bytes) (resolved : Path) (size : Nat) :
    Prop :=
  ∃ relative, mapToRelativePath target = some relative ∧
    resolveUnderRoot fs root relative = some resolved ∧
    fs.isRegularFile resolved = some true ∧ fs.fileSize resolved = .ok size ∧
    size ≤ maxFileBytes

/-- The file can be opened and read in full. -/
def Readable (fs : FileSystem) (path : Path) (size : Nat) : Prop :=
  ∃ bytes, fs.bytes path = some bytes ∧ size ≤ bytes.length

/-- A HEAD and a GET of the same target say the same. -/
def Mirrors (fs : FileSystem) (root : Path) (request : Request) : Prop :=
  (handle fs root { request with method := ascii "HEAD" }).map headOf =
    (handle fs root { request with method := ascii "GET" }).map headOf

theorem handle_get (fs : FileSystem) (root : Path) (request : Request) :
    handle fs root { request with method := ascii "GET" } =
      serveFile fs root request.target true := rfl

theorem handle_head (fs : FileSystem) (root : Path) (request : Request) :
    handle fs root { request with method := ascii "HEAD" } =
      serveFile fs root request.target false := rfl

theorem readFileBytes_of_readable {fs : FileSystem} {path : Path} {size : Nat}
    (h : Readable fs path size) : ∃ body, readFileBytes fs path size = some body := by
  obtain ⟨bytes, hbytes, hsize⟩ := h
  refine ⟨bytes.take size, ?_⟩
  unfold readFileBytes
  rw [hbytes]
  exact if_neg (Nat.not_lt.mpr hsize)

theorem readFileBytes_of_not_readable {fs : FileSystem} {path : Path} {size : Nat}
    (h : ¬ Readable fs path size) : readFileBytes fs path size = none := by
  unfold readFileBytes
  cases hbytes : fs.bytes path with
  | none => rfl
  | some bytes => exact if_pos (Nat.lt_of_not_le fun hsize => h ⟨bytes, hbytes, hsize⟩)

/-- The response for a file, without its body. -/
def served (resolved : Path) (size : Nat) : Response where
  status := 200
  reason := ascii "OK"
  contentType := guessContentType resolved
  contentLength := some size

section

variable {fs : FileSystem} {root resolved : Path} {target : Bytes} {size : Nat}

theorem serveFile_of_finds (h : Finds fs root target resolved size) (includeBody : Bool) :
    serveFile fs root target includeBody =
      if includeBody then
        .ok ((readFileBytes fs resolved size).elim notFound
          fun body => { served resolved size with body := body })
      else .ok (served resolved size) := by
  obtain ⟨relative, hmap, hresolve, hregular, hsize, hmax⟩ := h
  unfold serveFile serveResolved
  rw [hmap]
  dsimp only
  rw [hresolve]
  dsimp only
  rw [hregular, if_neg (not_not.mpr rfl), hsize]
  dsimp only
  rw [if_neg (Nat.not_lt.mpr hmax)]
  cases readFileBytes fs resolved size <;> rfl

/-- Without a file to serve the methods do not differ. -/
theorem serveFile_of_not_finds (h : ∀ resolved size, ¬ Finds fs root target resolved size) :
    serveFile fs root target false = serveFile fs root target true := by
  unfold serveFile
  cases hmap : mapToRelativePath target with
  | none => rfl
  | some relative =>
      dsimp only
      cases hresolve : resolveUnderRoot fs root relative with
      | none => rfl
      | some resolved =>
          dsimp only
          unfold serveResolved
          by_cases hregular : fs.isRegularFile resolved = some true
          · rw [if_neg (not_not.mpr hregular), if_neg (not_not.mpr hregular)]
            cases hsize : fs.fileSize resolved with
            | error what => rfl
            | ok size =>
                dsimp only
                by_cases hmax : maxFileBytes < size
                · rw [if_pos hmax, if_pos hmax]
                · exact absurd ⟨relative, hmap, hresolve, hregular, hsize, Nat.le_of_not_lt hmax⟩
                    (h resolved size)
          · rw [if_pos hregular, if_pos hregular]

theorem Finds.unique {resolved' : Path} {size' : Nat}
    (h : Finds fs root target resolved size) (h' : Finds fs root target resolved' size') :
    resolved' = resolved ∧ size' = size := by
  obtain ⟨relative, hmap, hresolve, -, hsize, -⟩ := h
  obtain ⟨relative', hmap', hresolve', -, hsize', -⟩ := h'
  obtain rfl : relative' = relative := Option.some.inj (hmap'.symm.trans hmap)
  obtain rfl : resolved' = resolved := Option.some.inj (hresolve'.symm.trans hresolve)
  exact ⟨rfl, Except.ok.inj (hsize'.symm.trans hsize)⟩

/-- At a file to serve, the methods agree exactly when it can be read. -/
theorem headOf_serveFile_iff (h : Finds fs root target resolved size) :
    (serveFile fs root target false).map headOf = (serveFile fs root target true).map headOf ↔
      Readable fs resolved size := by
  rw [serveFile_of_finds h, serveFile_of_finds h, if_pos rfl, if_neg Bool.false_ne_true]
  constructor
  · intro heq
    by_contra hread
    rw [readFileBytes_of_not_readable hread] at heq
    have hstatus : (200 : Int) = 404 := congrArg Head.status (Except.ok.inj heq)
    omega
  · intro hread
    obtain ⟨body, hbody⟩ := readFileBytes_of_readable hread
    rw [hbody]
    rfl

end

/-- A HEAD mirrors a GET exactly when the file to serve, if there is one, can be read. -/
theorem mirrors_iff (fs : FileSystem) (root : Path) (request : Request) :
    Mirrors fs root request ↔
      ∀ resolved size, Finds fs root request.target resolved size → Readable fs resolved size := by
  unfold Mirrors
  rw [handle_head, handle_get]
  by_cases hfinds : ∃ resolved size, Finds fs root request.target resolved size
  · obtain ⟨resolved, size, h⟩ := hfinds
    rw [headOf_serveFile_iff h]
    constructor
    · intro hread resolved' size' h'
      obtain ⟨rfl, rfl⟩ := h.unique h'
      exact hread
    · exact fun hall => hall resolved size h
  · have hnone : ∀ resolved size, ¬ Finds fs root request.target resolved size :=
      fun resolved size h => hfinds ⟨resolved, size, h⟩
    rw [serveFile_of_not_finds hnone]
    exact iff_of_true rfl fun resolved size h => absurd h (hnone resolved size)

/-- A file of five bytes that may not be opened. -/
def lockedFile : FileSystem where
  canonical := some
  isRegularFile := fun _ => some true
  fileSize := fun _ => .ok 5
  bytes := fun _ => none

/-- A HEAD of the file is a 200, and a GET is a 404. -/
theorem head_of_locked_file :
    ¬ Mirrors lockedFile [ascii "www"]
      { method := ascii "GET", target := ascii "/a.txt", headers := [] } := by
  unfold Mirrors
  decide +kernel

end StaticFiles
end Modules
end Garcon
