import Garcon.Modules.StaticFiles

/-!
# Containment in the document root

Whatever the target and the links in the tree, a file that is served lies under the
document root, and any other answer is a fixed text.
-/

namespace Garcon
namespace Modules
namespace StaticFiles

open Ascii Http

/-- What the standard library promises of a file tree that does not change. -/
structure FileSystem.Documented (files : FileSystem) : Prop where
  /-- A canonical path has no links and no dots left to resolve. -/
  canonical_canonical : ∀ path resolved, files.canonical path = some resolved →
    files.canonical resolved = some resolved
  /-- A regular file has a size, which is the number of its bytes. -/
  size_of_regular : ∀ path, files.isRegularFile path = some true →
    ∃ size, files.fileSize path = .ok size ∧
      ∀ bytes, files.bytes path = some bytes → bytes.length = size

/-- A directory by its canonical path. -/
structure FileSystem.IsRoot (files : FileSystem) (root : Path) : Prop where
  canonical : files.canonical root = some root
  directory : files.isRegularFile root ≠ some true

/-- A regular file strictly under the root, by its canonical path. -/
structure Contained (files : FileSystem) (root path : Path) : Prop where
  canonical : files.canonical path = some path
  regular : files.isRegularFile path = some true
  inside : root <+: path
  proper : root ≠ path

/-- An answer that is the whole of a small file, without its bytes if they are not asked
for. -/
structure Serves (files : FileSystem) (path : Path) (includeBody : Bool) (response : Response) :
    Prop where
  status : response.status = 200
  size : ∃ size, files.fileSize path = .ok size ∧ size ≤ 8 * 1024 * 1024 ∧
    response.contentLength = some size
  content : includeBody = true → files.bytes path = some response.body
  omitted : includeBody = false → response.body = []

/-- The answers without a file. -/
def refusals : List Response := [notFound, tooLarge, methodNotAllowed]

variable {files : FileSystem} {root : Path}

theorem status_ne_ok_of_mem_refusals {response : Response} (h : response ∈ refusals) :
    response.status ≠ 200 := by
  simp only [refusals, List.mem_cons, List.not_mem_nil, or_false] at h
  rcases h with rfl | rfl | rfl <;> decide

/-- A file that has the size it is asked for is read whole. -/
theorem bytes_of_readFileBytes {path : Path} {size : Nat} {body : Bytes}
    (hsize : ∀ bytes, files.bytes path = some bytes → bytes.length = size)
    (h : readFileBytes files path size = some body) : files.bytes path = some body := by
  unfold readFileBytes at h
  cases hbytes : files.bytes path with
  | none => simp [hbytes] at h
  | some bytes =>
      have hlen := hsize bytes hbytes
      have henough : ¬ bytes.length < size := by omega
      simp only [hbytes, if_neg henough, Option.some.injEq] at h
      rw [← h, List.take_of_length_le (by omega)]

theorem resolveUnderRoot_eq_some {relative resolved : Path}
    (h : resolveUnderRoot files root relative = some resolved) :
    files.canonical (root ++ relative) = some resolved ∧ root <+: resolved := by
  unfold resolveUnderRoot at h
  cases hcanonical : files.canonical (root ++ relative) with
  | none => simp [hcanonical] at h
  | some path =>
      simp only [hcanonical] at h
      by_cases hwithin : isWithinRoot root path = true
      · rw [if_pos hwithin, Option.some.injEq] at h
        subst h
        exact ⟨rfl, isWithinRoot_iff.mp hwithin⟩
      · rw [if_neg hwithin] at h
        cases h

/-- A resolved path is served as a file, or refused. -/
theorem serveResolved_spec (hfiles : files.Documented) (resolved : Path) (includeBody : Bool) :
    ∃ response, serveResolved files resolved includeBody = .ok response ∧
      (files.isRegularFile resolved = some true ∧ Serves files resolved includeBody response ∨
        response ∈ refusals) := by
  have hnotFound : notFound ∈ refusals := List.mem_cons_self
  unfold serveResolved
  by_cases hregular : files.isRegularFile resolved = some true
  · obtain ⟨size, hsize, hbytes⟩ := hfiles.size_of_regular resolved hregular
    rw [if_neg (not_not.mpr hregular), hsize]
    dsimp only
    by_cases hlarge : maxFileBytes < size
    · rw [if_pos hlarge]
      exact ⟨_, rfl, Or.inr (List.mem_cons_of_mem _ List.mem_cons_self)⟩
    · rw [if_neg hlarge]
      have hfits := Nat.not_lt.mp hlarge
      cases includeBody with
      | false =>
          have hserves : Serves files resolved false
              { contentType := guessContentType resolved, contentLength := some size } :=
            ⟨rfl, ⟨size, hsize, hfits, rfl⟩, nofun, fun _ => rfl⟩
          exact ⟨_, rfl, Or.inl ⟨hregular, hserves⟩⟩
      | true =>
          rw [if_pos rfl]
          cases hread : readFileBytes files resolved size with
          | none => exact ⟨_, rfl, Or.inr hnotFound⟩
          | some body =>
              have hbody := bytes_of_readFileBytes hbytes hread
              have hserves : Serves files resolved true
                  { contentType := guessContentType resolved, body, contentLength := some size } :=
                ⟨rfl, ⟨size, hsize, hfits, rfl⟩, fun _ => hbody, nofun⟩
              exact ⟨_, rfl, Or.inl ⟨hregular, hserves⟩⟩
  · rw [if_pos hregular]
    exact ⟨_, rfl, Or.inr hnotFound⟩

/-- A target is served as a file under the root, or refused. -/
theorem serveFile_spec (hfiles : files.Documented) (hroot : files.IsRoot root) (target : Bytes)
    (includeBody : Bool) :
    ∃ response, serveFile files root target includeBody = .ok response ∧
      ((∃ path, Contained files root path ∧ Serves files path includeBody response) ∨
        response ∈ refusals) := by
  have hnotFound : notFound ∈ refusals := List.mem_cons_self
  unfold serveFile
  cases mapToRelativePath target with
  | none => exact ⟨_, rfl, Or.inr hnotFound⟩
  | some relative =>
      dsimp only
      cases hresolve : resolveUnderRoot files root relative with
      | none => exact ⟨_, rfl, Or.inr hnotFound⟩
      | some resolved =>
          obtain ⟨hcanonical, hinside⟩ := resolveUnderRoot_eq_some hresolve
          obtain ⟨response, hserve, ⟨hregular, hserves⟩ | hrefusal⟩ :=
            serveResolved_spec hfiles resolved includeBody
          · refine ⟨response, hserve, Or.inl ⟨resolved, ?_, hserves⟩⟩
            refine ⟨hfiles.canonical_canonical _ _ hcanonical, hregular, hinside, ?_⟩
            rintro rfl
            exact hroot.directory hregular
          · exact ⟨response, hserve, Or.inr hrefusal⟩

/-- Every request has an answer.  One with status 200 is a small regular file whose path
continues the root's, and any other one is a fixed text with status 404, 405 or 413. -/
theorem handle_contained (files : FileSystem) (root : Path) (request : Request)
    (hfiles : files.Documented) (hroot : files.IsRoot root) :
    ∃ response, handle files root request = .ok response ∧
      (response.status = 200 → ∃ path, Contained files root path ∧
        Serves files path (request.method == ascii "GET") response) ∧
      (response.status ≠ 200 → response ∈
        [.text 404 (ascii "Not Found") (ascii "not found\n"),
          .text 413 (ascii "Payload Too Large") (ascii "file too large\n"),
          .text 405 (ascii "Method Not Allowed") (ascii "method not allowed\n")]) := by
  unfold handle
  dsimp only
  by_cases hmethod : (!request.method == ascii "GET" && !request.method == ascii "HEAD") = true
  · rw [if_pos hmethod]
    have hmem : methodNotAllowed ∈ refusals :=
      List.mem_cons_of_mem _ (List.mem_cons_of_mem _ List.mem_cons_self)
    exact ⟨_, rfl, fun hok => absurd hok (status_ne_ok_of_mem_refusals hmem), fun _ => hmem⟩
  · rw [if_neg hmethod]
    obtain ⟨response, hserve, hspec⟩ :=
      serveFile_spec hfiles hroot request.target (request.method == ascii "GET")
    refine ⟨response, hserve, ?_, ?_⟩
    · intro hok
      rcases hspec with hfile | hrefusal
      · exact hfile
      · exact absurd hok (status_ne_ok_of_mem_refusals hrefusal)
    · intro hother
      rcases hspec with ⟨path, -, hserves⟩ | hrefusal
      · exact absurd hserves.status hother
      · exact hrefusal

/-! ## A site with a link out of it -/

def siteRoot : Path := [ascii "srv", ascii "www"]

def helloPath : Path := siteRoot ++ [ascii "hello.txt"]

def passwdPath : Path := [ascii "etc", ascii "passwd"]

/-- A text under the root, and a link to a file elsewhere. -/
def linkedSite : FileSystem where
  canonical := fun path =>
    if path = siteRoot ++ [ascii "escape.txt"] then some passwdPath
    else if path = siteRoot ∨ path = helloPath ∨ path = passwdPath then some path
    else none
  isRegularFile := fun path =>
    if path = siteRoot then some false
    else if path = helloPath ∨ path = passwdPath then some true
    else none
  fileSize := fun path =>
    if path = helloPath ∨ path = passwdPath then .ok 6 else .error "file_size"
  bytes := fun path =>
    if path = helloPath then some (ascii "hello\n")
    else if path = passwdPath then some (ascii "secret")
    else none

theorem documented_linkedSite : linkedSite.Documented := by
  constructor
  · intro path resolved h
    simp only [linkedSite] at h ⊢
    split at h
    · cases h
      decide +kernel
    · next hlink =>
        split at h
        · next hplain =>
            cases h
            rw [if_neg hlink, if_pos hplain]
        · cases h
  · intro path hregular
    have hfile : path = helloPath ∨ path = passwdPath := by
      simp only [linkedSite] at hregular
      split at hregular
      · cases hregular
      · split at hregular
        · assumption
        · cases hregular
    have hbytes : ∀ bytes, linkedSite.bytes path = some bytes → bytes.length = 6 := by
      have hhello : (linkedSite.bytes helloPath).all (·.length = 6) = true := by decide +kernel
      have hpasswd : (linkedSite.bytes passwdPath).all (·.length = 6) = true := by decide +kernel
      intro bytes hbytes
      rcases hfile with rfl | rfl
      · simpa [hbytes] using hhello
      · simpa [hbytes] using hpasswd
    exact ⟨6, by simp only [linkedSite, if_pos hfile], hbytes⟩

theorem isRoot_linkedSite : linkedSite.IsRoot siteRoot :=
  ⟨by decide +kernel, by decide +kernel⟩

def getHello : Request where
  method := ascii "GET"
  target := ascii "/hello.txt"
  headers := []

/-- The text is served, and it lies under the root. -/
theorem handle_contained_hello : ∃ response path,
    handle linkedSite siteRoot getHello = .ok response ∧
    Contained linkedSite siteRoot path ∧ linkedSite.bytes path = some response.body := by
  obtain ⟨response, hhandle, hserved, -⟩ :=
    handle_contained linkedSite siteRoot getHello documented_linkedSite isRoot_linkedSite
  have hstatus : (handle linkedSite siteRoot getHello).toOption.map (·.status) = some 200 := by
    decide +kernel
  rw [hhandle] at hstatus
  obtain ⟨path, hpath, hserves⟩ := hserved (Option.some.inj hstatus)
  exact ⟨response, path, hhandle, hpath, hserves.content (by decide +kernel)⟩

/-- The link leads out of the root, so its file is not served. -/
example : (handle linkedSite siteRoot { getHello with target := ascii "/escape.txt" }).toOption =
    some notFound := by decide +kernel

end StaticFiles
end Modules
end Garcon
