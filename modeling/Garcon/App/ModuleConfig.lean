import Garcon.Library.FirstError
import Garcon.Library.SortBy
import Garcon.Modules.RuleLines
import Garcon.Modules.StaticFiles

/-!
# The module configuration directory

`load_configured_modules` reads the `.conf` files of a directory in the order of their names.
What the file system is asked for is a parameter: the walk over the directory, in the order
in which it happens to list the entries, and what `std::filesystem` makes of a path.

The walk is outside of every `try`: what it throws leaves the function.  A file that cannot be
read, and a directory without files, are errors that the function returns.
-/

namespace Garcon
namespace App

open Ascii FirstError Modules SortBy

/-- An entry of a directory.  The look at its kind may throw, and a file that cannot be
opened has no text. -/
structure DirectoryEntry where
  name : Bytes
  isRegularFile : Except String Bool
  text : Option Bytes
deriving DecidableEq

/-- What a walk over a directory comes to: the entries that it lists, and the exception that
the iterator throws behind them, if it throws one. -/
structure Listing where
  entries : List DirectoryEntry
  trouble : Option String := none
deriving DecidableEq

structure ConfiguredModule where
  libraryFile : Bytes
  configDirectory : Bytes
  configText : Bytes
deriving DecidableEq, Repr

/-- What is asked of paths: a path and its last component as they are printed, an entry of a
directory, the directory of a file, and the absolute path that a path means in a directory. -/
structure Paths where
  string : Bytes → String
  filename : Bytes → String
  join : Bytes → Bytes → Bytes
  parentPath : Bytes → Bytes
  absolute : Bytes → Bytes → Bytes

/-- Paths in one directory are ordered by the bytes of their names. -/
def nameKey (entry : DirectoryEntry) : List Nat := entry.name.map UInt8.toNat

def hasConfigExtension (entry : DirectoryEntry) : Bool :=
  decide (StaticFiles.extension entry.name = ascii ".conf")

/-- The loop over the entries: the files that are kept, in the order of the walk. -/
def walk (trouble : Option String) : List DirectoryEntry → Except String (List DirectoryEntry)
  | [] =>
    match trouble with
    | none => .ok []
    | some what => .error what
  | entry :: entries => do
    let regular ← entry.isRegularFile
    let files ← walk trouble entries
    return if regular && hasConfigExtension entry then entry :: files else files

section

variable (paths : Paths) (directory : Bytes)

/-- The body of the loop over the files. -/
def loadConfigFile (entry : DirectoryEntry) : Except String ConfiguredModule :=
  let file := paths.join directory entry.name
  match entry.text with
  | none => .error ("failed to open module config file: " ++ paths.string file)
  | some configText =>
    match parseLibraryPath (paths.absolute (paths.parentPath file)) (paths.string file)
      configText with
    | .error what => .error what
    | .ok libraryFile => .ok ⟨libraryFile, paths.parentPath file, configText⟩

/-- The function from its sorting of the files on. -/
def readConfigFiles (files : List DirectoryEntry) : Except String (List ConfiguredModule) :=
  match (sortBy nameKey files).mapM (loadConfigFile paths directory) with
  | .error what => .error what
  | .ok modules =>
    if modules.isEmpty then
      .error ("no module config files found in: " ++ paths.string directory)
    else .ok modules

/-- An exception, or what the function returns.  There is no listing when the directory does
not exist or is something else. -/
def loadConfiguredModules (listing : Option Listing) :
    Except String (Except String (List ConfiguredModule)) :=
  match listing with
  | none => .ok (.error ("module config directory does not exist: " ++ paths.string directory))
  | some listing => do
    let files ← walk listing.trouble listing.entries
    return readConfigFiles paths directory files

end

/-! ## The walk -/

def isConfigFile (entry : DirectoryEntry) : Bool :=
  decide (entry.isRegularFile = .ok true) && hasConfigExtension entry

namespace Listing

variable (listing : Listing)

def configFiles : List DirectoryEntry := listing.entries.filter isConfigFile

/-- The walk sees all entries. -/
def Walks : Prop :=
  listing.trouble = none ∧ ∀ entry ∈ listing.entries, ∃ regular, entry.isRegularFile = .ok regular

/-- The walk throws: at the first entry whose kind cannot be read, or behind all that were
listed. -/
def Throws (what : String) : Prop :=
  FailsAt DirectoryEntry.isRegularFile listing.entries what ∨
    (∀ entry ∈ listing.entries, ∃ regular, entry.isRegularFile = .ok regular) ∧
      listing.trouble = some what

variable {listing}

theorem forall_readable_cons {entry : DirectoryEntry} {entries : List DirectoryEntry}
    {regular : Bool} (h : entry.isRegularFile = .ok regular) :
    (∀ other ∈ entry :: entries, ∃ regular, other.isRegularFile = .ok regular) ↔
      ∀ other ∈ entries, ∃ regular, other.isRegularFile = .ok regular := by
  rw [List.forall_mem_cons]
  exact and_iff_right ⟨regular, h⟩

theorem walk_eq_ok_iff {trouble : Option String} {entries files : List DirectoryEntry} :
    walk trouble entries = .ok files ↔
      (Listing.mk entries trouble).Walks ∧ files = entries.filter isConfigFile := by
  induction entries generalizing files with
  | nil =>
      unfold walk Walks
      cases trouble with
      | none =>
          refine ⟨fun h => ⟨⟨rfl, fun e he => absurd he List.not_mem_nil⟩, ?_⟩, fun h => ?_⟩
          · exact (Except.ok.inj h).symm
          · rw [h.2]
            rfl
      | some what => exact iff_of_false nofun fun h => nomatch h.1.1
  | cons entry entries ih =>
      unfold walk
      cases hkind : entry.isRegularFile with
      | error what =>
          refine iff_of_false nofun fun h => ?_
          obtain ⟨regular, hregular⟩ := h.1.2 entry List.mem_cons_self
          rw [hkind] at hregular
          cases hregular
      | ok regular =>
          have hwalks : (Listing.mk (entry :: entries) trouble).Walks ↔
              (Listing.mk entries trouble).Walks := by
            unfold Walks
            rw [forall_readable_cons hkind]
          have hconfig : isConfigFile entry = (regular && hasConfigExtension entry) := by
            unfold isConfigFile
            rw [hkind]
            cases regular <;> rfl
          rw [hwalks, List.filter_cons, hconfig]
          cases hrest : walk trouble entries with
          | error what =>
              refine iff_of_false nofun fun h => ?_
              rw [ih.mpr ⟨h.1, rfl⟩] at hrest
              cases hrest
          | ok rest =>
              obtain ⟨hsees, rfl⟩ := ih.mp hrest
              rw [and_iff_right hsees]
              exact ⟨fun h => (Except.ok.inj h).symm, fun h => congrArg Except.ok h.symm⟩

theorem walk_eq_error_iff {trouble : Option String} {entries : List DirectoryEntry}
    {what : String} :
    walk trouble entries = .error what ↔ (Listing.mk entries trouble).Throws what := by
  induction entries with
  | nil =>
      unfold walk Throws
      cases trouble with
      | none => exact iff_of_false nofun fun h => h.elim not_failsAt_nil fun h => nomatch h.2
      | some what' =>
          refine ⟨fun h => Or.inr ⟨fun e he => absurd he List.not_mem_nil, ?_⟩, fun h => ?_⟩
          · exact congrArg some (Except.error.inj h)
          · exact congrArg Except.error (Option.some.inj (h.resolve_left not_failsAt_nil).2)
  | cons entry entries ih =>
      unfold walk
      cases hkind : entry.isRegularFile with
      | error what' =>
          have hthrows : (Listing.mk (entry :: entries) trouble).Throws what ↔ what' = what := by
            unfold Throws
            rw [failsAt_cons_of_error hkind, or_iff_left]
            intro h
            obtain ⟨regular, hregular⟩ := h.1 entry List.mem_cons_self
            rw [hkind] at hregular
            cases hregular
          rw [hthrows]
          exact ⟨Except.error.inj, congrArg Except.error⟩
      | ok regular =>
          have hthrows : (Listing.mk (entry :: entries) trouble).Throws what ↔
              (Listing.mk entries trouble).Throws what := by
            unfold Throws
            rw [failsAt_cons_of_ok hkind, forall_readable_cons hkind]
          rw [hthrows, ← ih]
          cases walk trouble entries with
          | error what' => exact Iff.rfl
          | ok rest => exact iff_of_false nofun nofun

end Listing

/-! ## The modules -/

theorem nameKey_injective {a b : DirectoryEntry} (h : nameKey a = nameKey b) : a.name = b.name :=
  List.map_injective_iff.mpr (fun _ _ => UInt8.toNat_inj.mp) h

section

variable {paths : Paths} {directory : Bytes} {listing : Listing}

theorem nodup_nameKey (hnames : (listing.entries.map DirectoryEntry.name).Nodup) :
    (listing.configFiles.map nameKey).Nodup := by
  have hsub : (listing.configFiles.map DirectoryEntry.name).Nodup :=
    hnames.sublist (List.filter_sublist.map _)
  rw [List.Nodup, List.pairwise_map] at hsub ⊢
  exact hsub.imp fun hne hkey => hne (nameKey_injective hkey)

theorem load_of_walks (hwalks : listing.Walks) :
    loadConfiguredModules paths directory (some listing) =
      .ok (readConfigFiles paths directory listing.configFiles) := by
  have hwalk : walk listing.trouble listing.entries = .ok listing.configFiles :=
    Listing.walk_eq_ok_iff.mpr ⟨hwalks, rfl⟩
  unfold loadConfiguredModules
  dsimp only
  rw [hwalk]
  rfl

/-- What is returned is returned behind a walk that saw all entries. -/
theorem load_eq_ok_iff {result : Except String (List ConfiguredModule)} :
    loadConfiguredModules paths directory (some listing) = .ok result ↔
      listing.Walks ∧ readConfigFiles paths directory listing.configFiles = result := by
  constructor
  · intro h
    obtain ⟨files, hwalk, hread⟩ := Http.Response.exists_of_bind_eq_ok h
    obtain ⟨hwalks, rfl⟩ := Listing.walk_eq_ok_iff.mp hwalk
    exact ⟨hwalks, Except.ok.inj hread⟩
  · rintro ⟨hwalks, rfl⟩
    exact load_of_walks hwalks

/-- A walk that throws ends the function. -/
theorem load_eq_error_iff {what : String} :
    loadConfiguredModules paths directory (some listing) = .error what ↔
      listing.Throws what := by
  rw [← Listing.walk_eq_error_iff]
  unfold loadConfiguredModules
  dsimp only
  cases walk listing.trouble listing.entries with
  | error what' =>
      show Except.error what' = Except.error what ↔ Except.error what' = Except.error what
      rw [Except.error.injEq, Except.error.injEq]
  | ok files => exact iff_of_false nofun nofun

variable {files : List DirectoryEntry}

theorem readConfigFiles_eq_ok_iff {modules : List ConfiguredModule} :
    readConfigFiles paths directory files = .ok modules ↔
      modules ≠ [] ∧ List.Forall₂
        (fun file configured => loadConfigFile paths directory file = .ok configured)
        (sortBy nameKey files) modules := by
  rw [← mapM_eq_ok_iff]
  unfold readConfigFiles
  cases (sortBy nameKey files).mapM (loadConfigFile paths directory) with
  | error what => exact iff_of_false nofun fun h => nomatch h.2
  | ok found =>
      dsimp only
      by_cases hempty : found = []
      · rw [hempty]
        exact iff_of_false nofun fun h => h.1 (Except.ok.inj h.2).symm
      · rw [if_neg fun h => hempty (List.isEmpty_iff.mp h)]
        refine ⟨fun h => ⟨?_, h⟩, fun h => h.2⟩
        rw [← Except.ok.inj h]
        exact hempty

/-- The first file that fails is the one with the least name. -/
theorem failsAt_sortBy_iff {β : Type} {f : DirectoryEntry → Except String β}
    (hkeys : (files.map nameKey).Nodup) {what : String} :
    FailsAt f (sortBy nameKey files) what ↔
      ∃ file ∈ files, f file = .error what ∧
        ∀ other ∈ files, nameKey other < nameKey file → ∃ b, f other = .ok b := by
  rw [failsAt_iff_of_rising (sortBy_lt hkeys)]
  simp only [(sortBy_perm nameKey files).mem_iff]

theorem readConfigFiles_eq_error_iff (hkeys : (files.map nameKey).Nodup) {what : String} :
    readConfigFiles paths directory files = .error what ↔
      (files = [] ∧ what = "no module config files found in: " ++ paths.string directory) ∨
      ∃ file ∈ files, loadConfigFile paths directory file = .error what ∧
        ∀ other ∈ files, nameKey other < nameKey file →
          ∃ configured, loadConfigFile paths directory other = .ok configured := by
  rw [← failsAt_sortBy_iff hkeys, ← mapM_eq_error_iff]
  unfold readConfigFiles
  cases hread : (sortBy nameKey files).mapM (loadConfigFile paths directory) with
  | error what' =>
      refine ⟨Or.inr, fun h => h.elim (fun hnone => ?_) id⟩
      rw [hnone.1] at hread
      cases hread
  | ok modules =>
      have hempty : modules.isEmpty = true ↔ files = [] := by
        rw [List.isEmpty_iff, ← List.length_eq_zero_iff,
          ← (mapM_eq_ok_iff.mp hread).length_eq, (sortBy_perm nameKey files).length_eq,
          List.length_eq_zero_iff]
      dsimp only
      by_cases hnone : files = []
      · rw [if_pos (hempty.mpr hnone), Except.error.injEq]
        exact ⟨fun h => Or.inl ⟨hnone, h.symm⟩, fun h => h.elim (fun h => h.2.symm) nofun⟩
      · rw [if_neg fun h => hnone (hempty.mp h)]
        exact iff_of_false nofun fun h => h.elim (fun h => hnone h.1) nofun

/-- The modules that are loaded from a directory: those of its files in the order of their
names. -/
theorem load_modules_iff (hnames : (listing.entries.map DirectoryEntry.name).Nodup)
    {modules : List ConfiguredModule} :
    loadConfiguredModules paths directory (some listing) = .ok (.ok modules) ↔
      listing.Walks ∧ modules ≠ [] ∧ ∃ files : List DirectoryEntry,
        files.Perm listing.configFiles ∧ files.Pairwise (fun a b => nameKey a < nameKey b) ∧
        List.Forall₂ (fun file configured => loadConfigFile paths directory file = .ok configured)
          files modules := by
  rw [load_eq_ok_iff, readConfigFiles_eq_ok_iff]
  refine and_congr_right fun _ => and_congr_right fun _ => ?_
  constructor
  · exact fun h => ⟨_, sortBy_perm nameKey listing.configFiles, sortBy_lt (nodup_nameKey hnames), h⟩
  · rintro ⟨files, hfiles, hsorted, hforall⟩
    rwa [eq_sortBy hfiles hsorted] at hforall

end

/-- What is loaded depends on the set of the entries only, as long as the walk sees them all:
the modules of the `.conf` files in the order of their names.  Loading fails when the walk
throws, when there is no directory or no such file, and otherwise with the error of the first
one, by name, that cannot be read. -/
theorem loadConfiguredModules_spec (paths : Paths) (directory : Bytes) (listing : Listing)
    (hnames : (listing.entries.map DirectoryEntry.name).Nodup) :
    (∀ what, loadConfiguredModules paths directory (some listing) = .error what ↔
      listing.Throws what) ∧
    (listing.Walks → ∀ entries', listing.entries.Perm entries' →
      loadConfiguredModules paths directory (some ⟨entries', none⟩) =
        loadConfiguredModules paths directory (some listing)) ∧
    (∀ modules, loadConfiguredModules paths directory (some listing) = .ok (.ok modules) ↔
      listing.Walks ∧ modules ≠ [] ∧ ∃ files : List DirectoryEntry,
        files.Perm listing.configFiles ∧ files.Pairwise (fun a b => nameKey a < nameKey b) ∧
        List.Forall₂ (fun file configured => loadConfigFile paths directory file = .ok configured)
          files modules) ∧
    (∀ what, loadConfiguredModules paths directory (some listing) = .ok (.error what) ↔
      listing.Walks ∧
        ((listing.configFiles = [] ∧
            what = "no module config files found in: " ++ paths.string directory) ∨
          ∃ file ∈ listing.configFiles, loadConfigFile paths directory file = .error what ∧
            ∀ other ∈ listing.configFiles, nameKey other < nameKey file →
              ∃ configured, loadConfigFile paths directory other = .ok configured)) ∧
    loadConfiguredModules paths directory none =
      .ok (.error ("module config directory does not exist: " ++ paths.string directory)) := by
  have hkeys := nodup_nameKey hnames
  refine ⟨fun what => load_eq_error_iff, ?_, fun modules => load_modules_iff hnames, ?_, rfl⟩
  · intro hwalks entries' hperm
    have hwalks' : (Listing.mk entries' none).Walks :=
      ⟨rfl, fun entry hentry => hwalks.2 entry (hperm.mem_iff.mpr hentry)⟩
    have hfiles : listing.configFiles.Perm (Listing.mk entries' none).configFiles :=
      hperm.filter isConfigFile
    rw [load_of_walks hwalks', load_of_walks hwalks]
    unfold readConfigFiles
    rw [sortBy_congr hfiles hkeys]
  · intro what
    rw [load_eq_ok_iff, readConfigFiles_eq_error_iff hkeys]

/-- Two modules, a file that is none, and a directory, listed in no order. -/
def confListing : Listing where
  entries :=
    [⟨ascii "09-jwt-auth.conf", .ok true, some (ascii "path=jwt.so")⟩,
     ⟨ascii "README.md", .ok true, some []⟩,
     ⟨ascii "old.conf", .ok false, none⟩,
     ⟨ascii "04-router.conf", .ok true, some (ascii "# routes\npath = router.so\n")⟩]

/-- Paths as they are on a file system without links, in the directory `/etc`. -/
def plainPaths : Paths where
  string := fun _ => "file"
  filename := fun _ => "file"
  join := fun directory name => directory ++ 0x2f :: name
  parentPath := fun path => (path.reverse.dropWhile (· != 0x2f)).reverse.dropLast
  absolute := fun directory path => directory ++ 0x2f :: path

theorem walks_confListing : confListing.Walks := by
  refine ⟨rfl, ?_⟩
  simp [confListing]

/-- The router comes first, and a link that cannot be followed ends the function. -/
theorem loadConfiguredModules_spec_listing :
    (∃ jwtAuth, loadConfiguredModules plainPaths (ascii "/etc") (some confListing) =
      .ok (.ok [⟨ascii "/etc/router.so", ascii "/etc", ascii "# routes\npath = router.so\n"⟩,
        jwtAuth])) ∧
      loadConfiguredModules plainPaths (ascii "/etc") (some ⟨confListing.entries.reverse, none⟩) =
        loadConfiguredModules plainPaths (ascii "/etc") (some confListing) ∧
      loadConfiguredModules plainPaths (ascii "/etc")
        (some ⟨[⟨ascii "loop.conf", .error "Too many levels of symbolic links", none⟩], none⟩) =
        .error "Too many levels of symbolic links" := by
  refine ⟨⟨⟨ascii "/etc/jwt.so", ascii "/etc", ascii "path=jwt.so"⟩, by decide +kernel⟩, ?_, ?_⟩
  · exact (loadConfiguredModules_spec plainPaths (ascii "/etc") confListing
      (by decide +kernel)).2.1 walks_confListing _ (List.reverse_perm _).symm
  · exact ((loadConfiguredModules_spec plainPaths (ascii "/etc") _ (by decide +kernel)).1 _).mpr
      (Or.inl ⟨[], _, [], rfl, rfl, nofun⟩)

end App
end Garcon
