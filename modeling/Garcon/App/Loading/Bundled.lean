import Garcon.App.Bundled
import Garcon.App.Loading.Lifecycle

/-!
# Loading the bundled modules

The libraries that come with the server export their modules through the SDK.  Loaded from
configuration files they behave like the pipeline of the module objects themselves, made from
the texts of the files.
-/

namespace Garcon
namespace App

open Abi Ascii FirstError Http Modules SortBy

inductive BundledLibrary where
  | cors
  | headerGuard
  | hostGuard
  | jwtAuth
  | rateLimit
  | routeTable
  | router
  | staticFiles
deriving DecidableEq, Repr

/-- What the static file service asks of the file system when it is constructed. -/
structure DocumentRoots where
  /-- Nothing when a path cannot be made canonical. -/
  canonicalize : Bytes → Option StaticFiles.Path
  /-- Whether a path is a directory, or the message of an exception. -/
  isDirectory : StaticFiles.Path → Except String Bool

/-- Settings made from their text. -/
def Configured.new {α : Type} (parse : Bytes → Except String α) (text : Bytes) :
    Except String (Configured parse) :=
  match h : parse text with
  | .error what => .error what
  | .ok settings => .ok ⟨text, settings, h⟩

section

variable (paths : Paths) (roots : DocumentRoots)

/-- `key_value_config::resolve_path`. -/
def resolvePath (configText key : Bytes) (host : HostApi) (fallback : Bytes) : Bytes :=
  match configGet configText key with
  | none => fallback
  | some value =>
    if value = [] then fallback
    else if value.head? = some 0x2f then value
    else if host.configDirectory.copy ≠ [] then paths.join host.configDirectory.copy value
    else value

/-- `static_files_module`, down to the service's own constructor. -/
def newStaticFiles (host : HostApi) (configText : Bytes) : Except String Bundled :=
  let fallback :=
    if host.defaultDocumentRoot.copy = [] then ascii "www" else host.defaultDocumentRoot.copy
  let root := resolvePath paths configText (ascii "root") host fallback
  let invalid : String :=
    "static_files: invalid or non-existent root directory: " ++ paths.string root
  match roots.canonicalize root with
  | none => .error invalid
  | some path =>
    match roots.isDirectory path with
    | .error what => .error what
    | .ok false => .error invalid
    | .ok true => .ok (.staticFiles path)

namespace BundledLibrary

def exportName : BundledLibrary → String
  | cors => "cors"
  | headerGuard => "header-guard"
  | hostGuard => "host-guard"
  | jwtAuth => "jwt-auth"
  | rateLimit => "rate-limit"
  | routeTable => "route-table"
  | router => "router"
  | staticFiles => "static-files"

/-- The module's constructor. -/
def construct (host : HostApi) (configText : Bytes) : BundledLibrary → Except String Bundled
  | cors => (Configured.new Cors.parseRules configText).map .cors
  | headerGuard => (Configured.new HeaderGuard.parseRules configText).map .headerGuard
  | hostGuard => (Configured.new HostGuard.parseRules configText).map .hostGuard
  | jwtAuth => (Configured.new JwtAuth.configure configText).map .jwtAuth
  | rateLimit => (Configured.new RateLimit.parseRules configText).map .rateLimit
  | routeTable => (Configured.new RouteTable.parseRoutes configText).map .routeTable
  | router => (Configured.new Router.parseRoutes configText).map .router
  | staticFiles => newStaticFiles paths roots host configText

variable (hmac : JwtAuth.Hmac)

/-- `make_descriptor`.  Instances are told apart by the library they were made from. -/
def descriptor (n : Nat) (library : BundledLibrary) : Descriptor (Nat × Bundled) World where
  abiVersion := moduleAbiVersion
  name := some library.exportName
  create := fun host configText =>
    match library.construct paths roots host configText with
    | .error what => .refused (some what)
    | .ok module => .made (n, module)
  destroys := true
  handle := some fun object exchange w =>
    let (outcome, exchange, storage, w) :=
      Module.handle (object.2.implementation hmac object.1) exchange w.storage w
    (some (outcome.code, exchange), { w with storage })

end BundledLibrary

variable (hmac : JwtAuth.Hmac) (libraries : Bytes → Except (Option String) BundledLibrary)

/-- A file system on which some files are bundled libraries. -/
def bundledLoader : Loader (Nat × Bundled) World := fun n path =>
  (libraries path).map fun library => .returned (some (library.descriptor paths roots hmac n))

/-- The module that a configuration means. -/
def configuredModule (config : ServerConfig) (configured : ConfiguredModule) :
    Except String Bundled :=
  match libraries (cString configured.libraryFile) with
  | .error detail => .error (requireDlerror "dlopen() failed" detail)
  | .ok library =>
    match library.construct paths roots (hostApi config configured)
      (cString configured.configText) with
    | .error what => .error ("failed to create module '" ++ library.exportName ++ "': " ++ what)
    | .ok module => .ok module

/-- The module that a configuration file means. -/
def fileModule (config : ServerConfig) (file : DirectoryEntry) : Except String Bundled :=
  (loadConfigFile paths config.moduleConfigDir file).bind
    (configuredModule paths roots libraries config)

/-- Why the server does not start.  All files are read before the first module is made, so a
file that cannot be read is reported before a module that an earlier file does not mean. -/
inductive FailsToStart (config : ServerConfig) : Option Listing → String → Prop where
  | missing : FailsToStart config none
      ("module config directory does not exist: " ++ paths.string config.moduleConfigDir)
  | walk {listing : Listing} {what : String} (hthrows : listing.Throws what) :
      FailsToStart config (some listing) what
  | noFiles {listing : Listing} (hwalks : listing.Walks) (hnone : listing.configFiles = []) :
      FailsToStart config (some listing)
        ("no module config files found in: " ++ paths.string config.moduleConfigDir)
  | file {listing : Listing} {file : DirectoryEntry} {what : String} (hwalks : listing.Walks)
      (hmem : file ∈ listing.configFiles)
      (hbad : loadConfigFile paths config.moduleConfigDir file = .error what)
      (hfirst : ∀ other ∈ listing.configFiles, nameKey other < nameKey file →
        ∃ configured, loadConfigFile paths config.moduleConfigDir other = .ok configured) :
      FailsToStart config (some listing) what
  | module {listing : Listing} {file : DirectoryEntry} {what : String} (hwalks : listing.Walks)
      (hread : ∀ other ∈ listing.configFiles, ∃ configured,
        loadConfigFile paths config.moduleConfigDir other = .ok configured)
      (hmem : file ∈ listing.configFiles)
      (hbad : fileModule paths roots libraries config file = .error what)
      (hfirst : ∀ other ∈ listing.configFiles, nameKey other < nameKey file →
        ∃ module, fileModule paths roots libraries config other = .ok module) :
      FailsToStart config (some listing) what

/-- The modules that the files of a directory mean, in the order of the files' names. -/
def MeansModules (config : ServerConfig) (listing : Option Listing) (modules : List Bundled) :
    Prop :=
  ∃ found files, listing = some found ∧ found.Walks ∧ files ≠ [] ∧ files.Perm found.configFiles ∧
    files.Pairwise (fun a b => nameKey a < nameKey b) ∧
    List.Forall₂ (fun file module => fileModule paths roots libraries config file = .ok module)
      files modules

end

variable {paths : Paths} {roots : DocumentRoots} {hmac : JwtAuth.Hmac}
variable {libraries : Bytes → Except (Option String) BundledLibrary} {config : ServerConfig}
variable {n : Nat}

/-! ## One module -/

/-- A loaded module answers like the module object behind the ABI. -/
theorem handle_eq_load {library : BundledLibrary} {module : Bundled} {name : String} :
    (DynamicModule.mk n (library.descriptor paths roots hmac n) (n, module) name).handle =
      module.load hmac n := by
  funext request w
  unfold DynamicModule.handle Bundled.load dynamicHandle BundledLibrary.descriptor
  dsimp only
  rcases Module.handle (module.implementation hmac n)
    { request := toRequestView request, response := .empty } w.storage w with
    ⟨outcome, exchange, storage, w'⟩
  cases outcome <;> rfl

theorem exportName_ne (library : BundledLibrary) : library.exportName ≠ "" := by
  cases library <;> decide

variable (paths roots hmac libraries config)

/-- A module is loaded exactly when its configuration means one. -/
theorem new_bundled (n : Nat) (configured : ConfiguredModule) :
    (∀ what, configuredModule paths roots libraries config configured = .error what →
      (DynamicModule.new paths config (bundledLoader paths roots hmac libraries) n
        configured).2 = .error what) ∧
    ∀ module, configuredModule paths roots libraries config configured = .ok module →
      ∃ loaded, (DynamicModule.new paths config (bundledLoader paths roots hmac libraries) n
        configured).2 = .ok loaded ∧ loaded.handle = module.load hmac n := by
  unfold configuredModule DynamicModule.new bundledLoader
  cases libraries (cString configured.libraryFile) with
  | error detail =>
      refine ⟨fun what h => ?_, nofun⟩
      cases h
      rfl
  | ok library =>
      dsimp only [Except.map, Library.instantiate, BundledLibrary.descriptor]
      rw [if_neg (not_not.mpr rfl), if_neg (exportName_ne library)]
      cases library.construct paths roots (hostApi config configured)
          (cString configured.configText) with
      | error what =>
          refine ⟨fun what' h => ?_, nofun⟩
          cases h
          rfl
      | ok module =>
          refine ⟨nofun, fun module' h => ?_⟩
          cases h
          exact ⟨_, rfl, handle_eq_load⟩

/-! ## The pipeline -/

theorem loadFrom_append (i : Nat) (modules : List Bundled) (module : Bundled) :
    Bundled.loadFrom hmac i (modules ++ [module]) =
      Bundled.loadFrom hmac i modules ++ [module.load hmac (i + modules.length)] := by
  induction modules generalizing i with
  | nil => rfl
  | cons first modules ih =>
      rw [List.cons_append, Bundled.loadFrom, Bundled.loadFrom, ih, List.cons_append,
        List.length_cons, Nat.add_right_comm, Nat.add_assoc]

section

variable {ι ω : Type} {loader : Loader ι ω} {pipeline : List (DynamicModule ι ω)}
variable {configured : ConfiguredModule} {rest : List ConfiguredModule}

/-- A module that cannot be made ends the loop over the modules. -/
theorem addModules_cons_of_error {what : String}
    (h : (DynamicModule.new paths config loader pipeline.length configured).2 = .error what) :
    (addModules paths config loader pipeline (configured :: rest)).2 = .error what := by
  rw [addModules]
  cases hnew : DynamicModule.new paths config loader pipeline.length configured with
  | mk events result =>
  rw [hnew] at h
  cases h
  rfl

theorem addModules_cons_of_ok {module : DynamicModule ι ω}
    (h : (DynamicModule.new paths config loader pipeline.length configured).2 = .ok module) :
    (addModules paths config loader pipeline (configured :: rest)).2 =
      (addModules paths config loader (pipeline ++ [module]) rest).2 := by
  rw [addModules]
  cases hnew : DynamicModule.new paths config loader pipeline.length configured with
  | mk events result =>
  rw [hnew] at h
  cases h
  rfl

end

/-- The pipeline that is behind some modules already. -/
theorem addModules_bundled (pipeline : List (DynamicModule (Nat × Bundled) World))
    (modules : List ConfiguredModule) (front : List Bundled)
    (hlength : pipeline.length = front.length)
    (hfront : pipeline.map DynamicModule.handle = Bundled.loadFrom hmac 0 front) :
    (∀ what, modules.mapM (configuredModule paths roots libraries config) = .error what →
      (addModules paths config (bundledLoader paths roots hmac libraries) pipeline modules).2 =
        .error what) ∧
    ∀ rest, modules.mapM (configuredModule paths roots libraries config) = .ok rest →
      ∃ pipeline', (addModules paths config (bundledLoader paths roots hmac libraries) pipeline
          modules).2 = .ok pipeline' ∧
        pipeline'.map DynamicModule.handle = Bundled.loadFrom hmac 0 (front ++ rest) := by
  induction modules generalizing pipeline front with
  | nil =>
      refine ⟨fun what h => ?_, fun rest h => ?_⟩
      · cases h
      · cases h
        exact ⟨pipeline, rfl, hfront.trans (congrArg _ (List.append_nil front).symm)⟩
  | cons configured modules ih =>
      rw [List.mapM_cons]
      obtain ⟨herror, hok⟩ := new_bundled paths roots hmac libraries config pipeline.length
        configured
      cases hmodule : configuredModule paths roots libraries config configured with
      | error what =>
          refine ⟨fun what' h => ?_, fun rest h => ?_⟩
          · cases h
            exact addModules_cons_of_error paths config (herror what hmodule)
          · cases h
      | ok module =>
          obtain ⟨loaded, hnew, hload⟩ := hok module hmodule
          have hnext : (pipeline ++ [loaded]).map DynamicModule.handle =
              Bundled.loadFrom hmac 0 (front ++ [module]) := by
            rw [List.map_append, List.map_singleton, hfront, hload, loadFrom_append, hlength,
              Nat.zero_add]
          obtain ⟨hfails, hloads⟩ := ih (pipeline ++ [loaded]) (front ++ [module])
            (by rw [List.length_append, List.length_append, hlength]; rfl) hnext
          rw [addModules_cons_of_ok paths config hnew]
          cases hrest : modules.mapM (configuredModule paths roots libraries config) with
          | error what =>
              refine ⟨fun what' h => ?_, fun all h => ?_⟩
              · cases h
                exact hfails what hrest
              · cases h
          | ok rest =>
              refine ⟨fun what' h => ?_, fun all h => ?_⟩
              · cases h
              · cases h
                obtain ⟨pipeline', hpipeline, hall⟩ := hloads rest hrest
                refine ⟨pipeline', hpipeline, ?_⟩
                rw [hall, List.append_assoc, List.singleton_append]

/-! ## The requests -/

/-- Handlers that differ in what they write down give the same answers. -/
theorem answerAll_map {α β : Type} {handler : Request → α → Response × α}
    {handler' : Request → β → Response × β} (f : α → β)
    (h : ∀ request a, ((handler request a).1, f (handler request a).2) = handler' request (f a))
    (requests : List Request) (a : α) :
    ((answerAll handler requests a).1, f (answerAll handler requests a).2) =
      answerAll handler' requests (f a) := by
  induction requests generalizing a with
  | nil => rfl
  | cons request requests ih =>
      have hfirst := h request a
      have hrest := ih (handler request a).2
      unfold answerAll
      rw [← hfirst]
      dsimp only
      rw [← hrest]

theorem handleFrom_erase {ι ω : Type} (pipeline : List (DynamicModule ι ω))
    (pending : List HeaderField) (request : Request) (lw : ModuleLog × ω) :
    ((RequestPipeline.handleFrom pending (pipeline.map DynamicModule.logged) request lw).1,
        (RequestPipeline.handleFrom pending (pipeline.map DynamicModule.logged) request lw).2.2) =
      RequestPipeline.handleFrom pending (pipeline.map DynamicModule.handle) request lw.2 := by
  induction pipeline generalizing pending lw with
  | nil => rfl
  | cons module pipeline ih =>
      rw [List.map_cons, List.map_cons, RequestPipeline.handleFrom, RequestPipeline.handleFrom]
      unfold DynamicModule.logged
      rcases module.handle request lw.2 with ⟨result, w⟩
      cases result with
      | pass headers => exact ih (pending ++ headers) _
      | respond response => rfl
      | upgrade headers => rfl
      | error headers => rfl

/-- What the server makes of the configurations that it has loaded. -/
theorem handlerLife_of_load {listing : Option Listing} {modules : List ConfiguredModule}
    (hload : loadConfiguredModules paths config.moduleConfigDir listing = .ok (.ok modules))
    (requests : List Request) (w : World) :
    (handlerLife paths config (bundledLoader paths roots hmac libraries) listing requests w).2 =
      (modules.mapM (configuredModule paths roots libraries config)).map fun modules =>
        (answerAll (bundledPipeline hmac modules) requests w).1 := by
  unfold handlerLife createRequestHandler
  rw [hload]
  obtain ⟨hfails, hloads⟩ := addModules_bundled paths roots hmac libraries config [] modules
    [] rfl rfl
  rcases hresult : addModules paths config (bundledLoader paths roots hmac libraries) []
    modules with ⟨log, result⟩
  rw [hresult] at hfails hloads
  dsimp only at hfails hloads
  cases hmodules : modules.mapM (configuredModule paths roots libraries config) with
  | error what =>
      dsimp only
      rw [hresult, hfails what hmodules]
      rfl
  | ok bundled =>
      obtain ⟨pipeline, hpipeline, hhandles⟩ := hloads bundled hmodules
      dsimp only
      rw [hresult, hpipeline]
      have hanswers := answerAll_map Prod.snd
        (fun request lw => handleFrom_erase pipeline [] request lw) requests
        (log, w)
      rw [hhandles] at hanswers
      exact congrArg Except.ok (congrArg Prod.fst hanswers)

/-! ## Starting -/

variable {listing : Listing} {paths roots libraries config}

/-- The modules are made from the files in the order of their names. -/
theorem mapM_configuredModule {modules : List ConfiguredModule}
    (hfiles : List.Forall₂ (fun file configured =>
      loadConfigFile paths config.moduleConfigDir file = .ok configured)
      (sortBy nameKey listing.configFiles) modules) :
    modules.mapM (configuredModule paths roots libraries config) =
      (sortBy nameKey listing.configFiles).mapM (fileModule paths roots libraries config) :=
  mapM_of_mapM_eq_ok (mapM_eq_ok_iff.mpr hfiles)

/-- The ways in which the server does not start, by what loading comes to. -/
theorem failsToStart_iff (hnames : (listing.entries.map DirectoryEntry.name).Nodup)
    {what : String} :
    FailsToStart paths roots libraries config (some listing) what ↔
      loadConfiguredModules paths config.moduleConfigDir (some listing) = .error what ∨
      loadConfiguredModules paths config.moduleConfigDir (some listing) = .ok (.error what) ∨
      ∃ modules, loadConfiguredModules paths config.moduleConfigDir (some listing) =
          .ok (.ok modules) ∧
        modules.mapM (configuredModule paths roots libraries config) = .error what := by
  have hkeys := nodup_nameKey hnames
  have hperm := sortBy_perm nameKey listing.configFiles
  rw [load_eq_error_iff, load_eq_ok_iff, readConfigFiles_eq_error_iff hkeys]
  constructor
  · intro h
    cases h with
    | walk hthrows => exact Or.inl hthrows
    | noFiles hwalks hnone => exact Or.inr (Or.inl ⟨hwalks, Or.inl ⟨hnone, rfl⟩⟩)
    | file hwalks hmem hbad hfirst =>
        exact Or.inr (Or.inl ⟨hwalks, Or.inr ⟨_, hmem, hbad, hfirst⟩⟩)
    | @module _ file _ hwalks hread hmem hbad hfirst =>
        obtain ⟨modules, hmodules⟩ := exists_mapM_eq_ok_iff.mpr fun other hother =>
          hread other (hperm.mem_iff.mp hother)
        have hfiles := mapM_eq_ok_iff.mp hmodules
        have hne : modules ≠ [] := by
          rintro rfl
          rw [List.forall₂_nil_right_iff] at hfiles
          rw [← hperm.mem_iff, hfiles] at hmem
          cases hmem
        refine Or.inr (Or.inr ⟨modules, load_eq_ok_iff.mpr
          ⟨hwalks, readConfigFiles_eq_ok_iff.mpr ⟨hne, hfiles⟩⟩, ?_⟩)
        rw [mapM_configuredModule hfiles, mapM_eq_error_iff, failsAt_sortBy_iff hkeys]
        exact ⟨file, hmem, hbad, hfirst⟩
  · rintro (hthrows | ⟨hwalks, ⟨hnone, rfl⟩ | ⟨file, hmem, hbad, hfirst⟩⟩ | ⟨modules, hload, hbad⟩)
    · exact .walk hthrows
    · exact .noFiles hwalks hnone
    · exact .file hwalks hmem hbad hfirst
    · obtain ⟨hwalks, hread⟩ := load_eq_ok_iff.mp hload
      obtain ⟨-, hfiles⟩ := readConfigFiles_eq_ok_iff.mp hread
      rw [mapM_configuredModule hfiles, mapM_eq_error_iff, failsAt_sortBy_iff hkeys] at hbad
      obtain ⟨file, hmem, hbad, hfirst⟩ := hbad
      have hall := exists_mapM_eq_ok_iff.mp ⟨modules, mapM_eq_ok_iff.mpr hfiles⟩
      exact .module hwalks (fun other hother => hall other (hperm.mem_iff.mpr hother)) hmem hbad
        hfirst

theorem meansModules_iff (hnames : (listing.entries.map DirectoryEntry.name).Nodup)
    {modules : List Bundled} :
    MeansModules paths roots libraries config (some listing) modules ↔
      ∃ configured, loadConfiguredModules paths config.moduleConfigDir (some listing) =
          .ok (.ok configured) ∧
        configured.mapM (configuredModule paths roots libraries config) = .ok modules := by
  have hperm := sortBy_perm nameKey listing.configFiles
  constructor
  · rintro ⟨found, files, hfound, hwalks, hne, hfiles, hrises, hmodules⟩
    cases hfound
    rw [eq_sortBy hfiles hrises] at hne hmodules
    have hread : ∀ file ∈ sortBy nameKey listing.configFiles, ∃ configured,
        loadConfigFile paths config.moduleConfigDir file = .ok configured := by
      intro file hfile
      obtain ⟨module, hmodule⟩ :=
        exists_mapM_eq_ok_iff.mp ⟨modules, mapM_eq_ok_iff.mpr hmodules⟩ file hfile
      obtain ⟨configured, hconfigured, -⟩ := Response.exists_of_bind_eq_ok hmodule
      exact ⟨configured, hconfigured⟩
    obtain ⟨configured, hconfigured⟩ := exists_mapM_eq_ok_iff.mpr hread
    have hloads := mapM_eq_ok_iff.mp hconfigured
    have hsome : configured ≠ [] := by
      rintro rfl
      exact hne (List.forall₂_nil_right_iff.mp hloads)
    refine ⟨configured, load_eq_ok_iff.mpr
      ⟨hwalks, readConfigFiles_eq_ok_iff.mpr ⟨hsome, hloads⟩⟩, ?_⟩
    rw [mapM_configuredModule hloads]
    exact mapM_eq_ok_iff.mpr hmodules
  · rintro ⟨configured, hload, hmodules⟩
    obtain ⟨hwalks, hread⟩ := load_eq_ok_iff.mp hload
    obtain ⟨hsome, hloads⟩ := readConfigFiles_eq_ok_iff.mp hread
    rw [mapM_configuredModule hloads] at hmodules
    refine ⟨listing, _, rfl, hwalks, ?_, hperm, sortBy_lt (nodup_nameKey hnames),
      mapM_eq_ok_iff.mp hmodules⟩
    intro hnone
    rw [hnone, List.forall₂_nil_left_iff] at hloads
    exact hsome hloads

/-- A file system with two of the bundled libraries, and no directory for documents. -/
def twoLibraries (path : Bytes) : Except (Option String) BundledLibrary :=
  if path = ascii "/router.so" then .ok .router
  else if path = ascii "/jwt.so" then .ok .jwtAuth
  else .error (some "cannot open shared object file")

def noRoots : DocumentRoots where
  canonicalize := fun _ => none
  isDirectory := fun _ => .ok false

theorem nodup_confListing {entries : List DirectoryEntry}
    (h : entries.Sublist confListing.entries) :
    (entries.map DirectoryEntry.name).Nodup :=
  List.Nodup.sublist (h.map _) (by decide +kernel)

end App
end Garcon
