import Garcon.App.CommandLine
import Garcon.Http.Response

/-!
# What an accepted command line starts

A command line is a list of options with their values, where a port of its own stands for
`--port`.  Each setting is what the last value of its option says, or has its default.  The
counts have no upper bound but that of their type, which the default capacity of the queue
and the threads of the machine can fall short of.
-/

namespace Garcon
namespace App

open Ascii Http

/-! ## Reading a command line -/

/-- The options with their values, in order. -/
def occurrences : List Bytes → List (Bytes × Bytes)
  | [] => []
  | arg :: rest =>
    if arg.head? = some 0x2d then
      match rest with
      | [] => []
      | value :: rest => (arg, value) :: occurrences rest
    else (ascii "--port", arg) :: occurrences rest

def lastValue (option : Bytes) (items : List (Bytes × Bytes)) : Option Bytes :=
  (items.filter fun item => item.1 == option).getLast?.map (·.2)

/-- The last value of an option of a program that was started with `argv`. -/
def lastGiven (argv : List Bytes) (option : String) : Option Bytes :=
  lastValue (ascii option) (occurrences argv.tail)

theorem lastValue_cons (option : Bytes) (item : Bytes × Bytes) (items : List (Bytes × Bytes)) :
    lastValue option (item :: items) =
      (lastValue option items).or (if item.1 = option then some item.2 else none) := by
  unfold lastValue
  by_cases h : item.1 = option
  · rw [List.filter_cons_of_pos (by rw [h, beq_self_eq_true]), if_pos h, List.getLast?_cons]
    cases (items.filter fun item => item.1 == option).getLast? with
    | none => rfl
    | some last => rfl
  · rw [List.filter_cons_of_neg (by rwa [beq_iff_eq]), if_neg h, Option.or_none]

/-! ## What one option does -/

/-- The options that are set by an option and its value. -/
inductive Sets (value : Bytes) (out : CliOptions) : Bytes → CliOptions → Prop where
  | bind : Sets value out (ascii "--bind") { out with bindAddress := value }
  | tlsCert : Sets value out (ascii "--tls-cert") { out with tlsCertificateFile := some value }
  | tlsKey : Sets value out (ascii "--tls-key") { out with tlsPrivateKeyFile := some value }
  | modulesDir : Sets value out (ascii "--modules-dir") { out with moduleConfigDir := some value }
  | workers {count : Nat} : parseCount value = some count →
      Sets value out (ascii "--workers") { out with workerThreads := some count }
  | queueCapacity {count : Nat} : parseCount value = some count →
      Sets value out (ascii "--queue-capacity") { out with connectionQueueCapacity := some count }
  | port {port : Int} : parsePort value = some port →
      Sets value out (ascii "--port") { out with port := some port }

theorem sets_of_parseNamedOption {option value : Bytes} {out out' : CliOptions}
    (h : parseNamedOption option (some value) out = .ok out') : Sets value out option out' := by
  unfold parseNamedOption at h
  split at h
  · next he =>
    cases h
    exact he ▸ .bind
  split at h
  · next he =>
    cases h
    exact he ▸ .tlsCert
  split at h
  · next he =>
    cases h
    exact he ▸ .tlsKey
  split at h
  · next he =>
    cases h
    exact he ▸ .modulesDir
  split at h
  · next he =>
    obtain ⟨_, ⟨⟩, h⟩ := Response.exists_of_bind_eq_ok h
    split at h
    · cases h
    · next hcount =>
      cases h
      exact he ▸ .workers hcount
  split at h
  · next he =>
    obtain ⟨_, ⟨⟩, h⟩ := Response.exists_of_bind_eq_ok h
    split at h
    · cases h
    · next hcount =>
      cases h
      exact he ▸ .queueCapacity hcount
  split at h
  · next he =>
    obtain ⟨_, ⟨⟩, h⟩ := Response.exists_of_bind_eq_ok h
    split at h
    · cases h
    · next hport =>
      cases h
      exact he ▸ .port hport
  · cases h

/-- A command line without `--help` and `--version`, and what it makes of the options. -/
inductive Reads : CliOptions → List (Bytes × Bytes) → CliOptions → Prop where
  | nil {out : CliOptions} : Reads out [] out
  | cons {option value : Bytes} {items : List (Bytes × Bytes)} {out next opts : CliOptions} :
      Sets value out option next → Reads next items opts → Reads out ((option, value) :: items) opts

theorem parseNamedOption_none {option : Bytes} {out out' : CliOptions} :
    parseNamedOption option none out ≠ .ok out' := by
  intro h
  unfold parseNamedOption at h
  repeat' split at h
  all_goals cases h

/-- An accepted command line sets its options in order, and its configuration is made of
them. -/
theorem reads_of_parseArguments {machine : Platform} {programPath : Bytes} {out : CliOptions}
    {args : List Bytes} {config : ServerConfig}
    (h : parseArguments machine programPath out args = .ok { config := some config }) :
    ∃ opts, Reads out (occurrences args) opts ∧
      finalizeOptions machine opts programPath = .ok config := by
  induction args using occurrences.induct generalizing out with
  | case1 =>
      obtain ⟨found, hfound, h⟩ := Response.exists_of_bind_eq_ok h
      cases h
      exact ⟨out, .nil, hfound⟩
  | case2 arg hdash =>
      unfold parseArguments at h
      split at h
      · cases h
      split at h
      · cases h
      obtain ⟨next, hnext, -⟩ := Response.exists_of_bind_eq_ok h
      exact absurd hnext parseNamedOption_none
  | case3 arg hdash value rest ih =>
      unfold parseArguments at h
      split at h
      · cases h
      split at h
      · cases h
      obtain ⟨next, hnext, h⟩ := Response.exists_of_bind_eq_ok h
      obtain ⟨opts, hreads, hopts⟩ := ih h
      refine ⟨opts, ?_, hopts⟩
      rw [occurrences, if_pos hdash]
      exact .cons (sets_of_parseNamedOption hnext) hreads
  | case4 arg rest hdash ih =>
      unfold parseArguments at h
      split at h
      · cases h
      split at h
      · cases h
      split at h
      · cases h
      · next port hport =>
        obtain ⟨opts, hreads, hopts⟩ := ih h
        refine ⟨opts, ?_, hopts⟩
        have hcons : occurrences (arg :: rest) = (ascii "--port", arg) :: occurrences rest := by
          rw [occurrences.eq_def]
          exact if_neg hdash
        rw [hcons]
        exact .cons (.port hport) hreads

/-! ## Settings -/

/-- A field that one option sets, to what is read of its value. -/
def SetBy {β : Type} (field : CliOptions → Option β) (name : Bytes) (read : Bytes → Option β) :
    Prop :=
  ∀ {option value : Bytes} {out out' : CliOptions}, Sets value out option out' →
    (option = name ∧ ∃ x, read value = some x ∧ field out' = some x) ∨
      (option ≠ name ∧ field out' = field out)

theorem setBy_bind : SetBy (fun opts => some opts.bindAddress) (ascii "--bind") some := by
  intro option value out out' h
  cases h with
  | bind => exact Or.inl ⟨rfl, _, rfl, rfl⟩
  | _ => exact Or.inr ⟨by decide, rfl⟩

theorem setBy_tlsCert : SetBy (·.tlsCertificateFile) (ascii "--tls-cert") some := by
  intro option value out out' h
  cases h with
  | tlsCert => exact Or.inl ⟨rfl, _, rfl, rfl⟩
  | _ => exact Or.inr ⟨by decide, rfl⟩

theorem setBy_tlsKey : SetBy (·.tlsPrivateKeyFile) (ascii "--tls-key") some := by
  intro option value out out' h
  cases h with
  | tlsKey => exact Or.inl ⟨rfl, _, rfl, rfl⟩
  | _ => exact Or.inr ⟨by decide, rfl⟩

theorem setBy_modulesDir : SetBy (·.moduleConfigDir) (ascii "--modules-dir") some := by
  intro option value out out' h
  cases h with
  | modulesDir => exact Or.inl ⟨rfl, _, rfl, rfl⟩
  | _ => exact Or.inr ⟨by decide, rfl⟩

theorem setBy_workers : SetBy (·.workerThreads) (ascii "--workers") parseCount := by
  intro option value out out' h
  cases h with
  | workers hcount => exact Or.inl ⟨rfl, _, hcount, rfl⟩
  | _ => exact Or.inr ⟨by decide, rfl⟩

theorem setBy_queueCapacity :
    SetBy (·.connectionQueueCapacity) (ascii "--queue-capacity") parseCount := by
  intro option value out out' h
  cases h with
  | queueCapacity hcount => exact Or.inl ⟨rfl, _, hcount, rfl⟩
  | _ => exact Or.inr ⟨by decide, rfl⟩

theorem setBy_port : SetBy (·.port) (ascii "--port") parsePort := by
  intro option value out out' h
  cases h with
  | port hport => exact Or.inl ⟨rfl, _, hport, rfl⟩
  | _ => exact Or.inr ⟨by decide, rfl⟩

/-- The last value of its option decides a field. -/
theorem SetBy.of_reads {β : Type} {field : CliOptions → Option β} {name : Bytes}
    {read : Bytes → Option β} (hfield : SetBy field name read) {items : List (Bytes × Bytes)}
    {out opts : CliOptions} (h : Reads out items opts) :
    (lastValue name items = none ∧ field opts = field out) ∨
      ∃ value x, lastValue name items = some value ∧ read value = some x ∧ field opts = some x := by
  induction h with
  | nil => exact Or.inl ⟨rfl, rfl⟩
  | @cons option value items out next opts hsets hreads ih =>
      rw [lastValue_cons]
      rcases ih with ⟨hnone, hsame⟩ | ⟨last, x, hlast, hread, hx⟩
      · rw [hnone, Option.none_or, hsame]
        rcases hfield hsets with ⟨rfl, x, hread, hx⟩ | ⟨hne, hout⟩
        · exact Or.inr ⟨value, x, if_pos rfl, hread, hx⟩
        · exact Or.inl ⟨if_neg hne, hout⟩
      · rw [hlast, Option.some_or]
        exact Or.inr ⟨last, x, rfl, hread, hx⟩

theorem parsePort_eq_some_iff {value : Bytes} {port : Int} :
    parsePort value = some port ↔
      ∃ n : Nat, port = n ∧ Denotes value n ∧ 1 ≤ port ∧ port ≤ 65535 := by
  unfold parsePort
  constructor
  · intro h
    split at h
    · next found hfound =>
      by_cases hrange : found ≤ 0 ∨ 65535 < found
      · rw [if_pos hrange] at h
        cases h
      · rw [if_neg hrange] at h
        cases h
        obtain ⟨n, hn, hdenotes, -⟩ := (fromCharsSigned_whole (by omega)).mp hfound
        exact ⟨n, hn, hdenotes, by omega, by omega⟩
    · cases h
  · rintro ⟨n, rfl, hdenotes, hpos, hle⟩
    have hread : fromCharsSigned (2 ^ 31 - 1) value = some ((n : Int), []) :=
      (fromCharsSigned_whole (by omega)).mpr ⟨n, rfl, hdenotes, by omega⟩
    rw [hread]
    exact if_neg (by omega)

theorem parseCount_eq_some_iff {value : Bytes} {count : Nat} :
    parseCount value = some count ↔ Denotes value count ∧ 1 ≤ count ∧ count < 2 ^ 64 := by
  unfold parseCount
  constructor
  · intro h
    split at h
    · next found hfound =>
      by_cases hzero : found = 0
      · rw [if_pos hzero] at h
        cases h
      · rw [if_neg hzero] at h
        cases h
        obtain ⟨hdenotes, hmax⟩ := fromChars_whole.mp hfound
        exact ⟨hdenotes, by omega, by omega⟩
    · cases h
  · rintro ⟨hdenotes, hpos, hlt⟩
    rw [fromChars_whole.mpr ⟨hdenotes, Nat.le_sub_one_of_lt hlt⟩]
    exact if_neg (by omega)

/-! ## Startable configurations -/

/-- A setting is what the last value of its option says, or the default. -/
def Chosen {β : Type} (meaning : Bytes → β → Prop) (default : β → Prop) (last : Option Bytes)
    (setting : β) : Prop :=
  last.elim (default setting) (meaning · setting)

theorem SetBy.chosen {β : Type} {field : CliOptions → Option β} {name : Bytes}
    {read : Bytes → Option β} (hfield : SetBy field name read) {items : List (Bytes × Bytes)}
    {out opts : CliOptions} (h : Reads out items opts) {meaning : Bytes → β → Prop}
    {default : β → Prop} {d : β} (hmeaning : ∀ {value x}, read value = some x → meaning value x)
    (hdefault : lastValue name items = none → default ((field out).getD d)) :
    Chosen meaning default (lastValue name items) ((field opts).getD d) := by
  rcases hfield.of_reads h with ⟨hlast, hsame⟩ | ⟨value, x, hlast, hread, hx⟩
  · have hd := hdefault hlast
    rw [hlast, hsame]
    exact hd
  · rw [hlast, hx]
    exact hmeaning hread

theorem SetBy.eq_lastValue {field : CliOptions → Option Bytes} {name : Bytes}
    (hfield : SetBy field name some) {items : List (Bytes × Bytes)} {out opts : CliOptions}
    (h : Reads out items opts) (hout : field out = none) :
    field opts = lastValue name items := by
  rcases hfield.of_reads h with ⟨hlast, hsame⟩ | ⟨value, x, hlast, hread, hx⟩
  · rw [hlast, hsame, hout]
  · rw [hlast, hx, hread]

namespace Platform

def IsDirectory (machine : Platform) (path : Bytes) : Prop :=
  machine.pathExists path = .ok true ∧ machine.isDirectory path = .ok true

/-- The first of the places that is a directory, or the first place where none is. -/
def Prefers (machine : Platform) (places : List Bytes) (path : Bytes) : Prop :=
  (∃ before after, places = before ++ path :: after ∧ machine.IsDirectory path ∧
    ∀ place ∈ before, ¬ machine.IsDirectory place) ∨
  places.head? = some path ∧ ∀ place ∈ places, ¬ machine.IsDirectory place

/-- The documented place of the module files: beside the program, in the working directory,
or installed. -/
def DefaultModules (machine : Platform) (programPath path : Bytes) : Prop :=
  (programPath = [] ∧
    machine.Prefers [ascii "modules.d", ascii "/etc/garcon/modules.d"] path) ∨
  ∃ beside, programPath ≠ [] ∧ machine.besideProgram programPath = .ok beside ∧
    machine.Prefers [beside, ascii "modules.d", ascii "/etc/garcon/modules.d"] path

/-- The documented place of the documents: local, or installed where there is no local one. -/
def DefaultDocuments (machine : Platform) (path : Bytes) : Prop :=
  (machine.pathExists (ascii "www") = .ok true ∧ path = ascii "www") ∨
  (machine.pathExists (ascii "www") = .ok false ∧
    ((machine.pathExists (ascii "/usr/share/garcon/www") = .ok true ∧
        path = ascii "/usr/share/garcon/www") ∨
      (machine.pathExists (ascii "/usr/share/garcon/www") = .ok false ∧ path = ascii "www")))

/-- There is memory for the workers, and each of them can be started. -/
def Runs (machine : Platform) (workerCount : Nat) : Prop :=
  machine.reserveThreads workerCount = .ok () ∧ ∀ i < workerCount, machine.startThread i = .ok ()

end Platform

/-- The documented meaning of a command line, and what the server needs to start. -/
structure Startable (machine : Platform) (argv : List Bytes) (config : ServerConfig) : Prop where
  port_range : 1 ≤ config.port ∧ config.port ≤ 65535
  workers_pos : 1 ≤ config.workerThreads
  capacity_pos : 1 ≤ config.connectionQueueCapacity
  tls_iff : config.tls.isSome ↔
    (lastGiven argv "--tls-cert").isSome ∧ (lastGiven argv "--tls-key").isSome
  tls : ∀ tls ∈ config.tls, lastGiven argv "--tls-cert" = some tls.certificateFile ∧
    lastGiven argv "--tls-key" = some tls.privateKeyFile
  bindAddress : Chosen Eq (· = ascii "127.0.0.1") (lastGiven argv "--bind") config.bindAddress
  port : Chosen (fun value (port : Int) => ∃ n : Nat, port = n ∧ Denotes value n)
    (· = if config.tls.isSome then 8443 else 8080) (lastGiven argv "--port") config.port
  workers : Chosen Denotes
    (· = if machine.hardwareConcurrency = 0 then 4 else machine.hardwareConcurrency.toNat)
    (lastGiven argv "--workers") config.workerThreads
  capacity : Chosen Denotes (· = 64 * config.workerThreads) (lastGiven argv "--queue-capacity")
    config.connectionQueueCapacity
  moduleConfigDir : Chosen Eq (machine.DefaultModules (argv.headD []))
    (lastGiven argv "--modules-dir") config.moduleConfigDir
  wwwRoot : machine.DefaultDocuments config.wwwRoot
  queue : ∃ queue, WorkQueue.new config.connectionQueueCapacity = .ok queue
  pool : ∃ pool, WorkerPool.new machine true config.workerThreads = .ok pool

/-- The number of workers a command line asks for. -/
def requestedWorkers (machine : Platform) (argv : List Bytes) : Nat :=
  (lastGiven argv "--workers").elim
    (if machine.hardwareConcurrency = 0 then 4 else machine.hardwareConcurrency.toNat)
    decimalValue

/-- The machine can hold and start the workers, and the default capacity for them is a
`std::size_t`. -/
structure Fits (machine : Platform) (argv : List Bytes) : Prop where
  threads : machine.Runs (requestedWorkers machine argv)
  capacity : lastGiven argv "--queue-capacity" = none →
    64 * requestedWorkers machine argv < 2 ^ 64

theorem Platform.defaultWorkerThreads_pos (machine : Platform) :
    1 ≤ machine.defaultWorkerThreads := by
  unfold defaultWorkerThreads
  by_cases h : machine.hardwareConcurrency = 0
  · rw [if_pos h]
    omega
  · rw [if_neg h]
    exact Nat.one_le_iff_ne_zero.mpr fun e => h (UInt32.toNat_inj.mp e)

theorem exists_workQueue_iff {capacity : Nat} :
    (∃ queue, WorkQueue.new capacity = .ok queue) ↔ 1 ≤ capacity := by
  unfold WorkQueue.new
  by_cases h : capacity = 0
  · simp [h]
  · simp [h, Nat.one_le_iff_ne_zero]

theorem Platform.startThreads_iff {machine : Platform} {n : Nat} :
    machine.startThreads n = .ok () ↔ ∀ i < n, machine.startThread i = .ok () := by
  induction n with
  | zero => exact iff_of_true rfl fun i hi => absurd hi (Nat.not_lt_zero i)
  | succ n ih =>
      rw [Nat.forall_lt_succ_right, ← ih, startThreads]
      cases machine.startThreads n with
      | error what => exact iff_of_false nofun fun h => nomatch h.1
      | ok _ => exact ⟨fun h => ⟨rfl, h⟩, fun h => h.2⟩

theorem Platform.startWorkers_iff {machine : Platform} {workerCount : Nat} :
    machine.startWorkers workerCount = .ok () ↔ machine.Runs workerCount := by
  rw [Runs, ← startThreads_iff, startWorkers]
  cases machine.reserveThreads workerCount with
  | error what => exact iff_of_false nofun fun h => nomatch h.1
  | ok _ => exact ⟨fun h => ⟨rfl, h⟩, fun h => h.2⟩

theorem exists_workerPool_iff {machine : Platform} {workerCount : Nat} :
    (∃ pool, WorkerPool.new machine true workerCount = .ok pool) ↔
      1 ≤ workerCount ∧ machine.Runs workerCount := by
  rw [← Platform.startWorkers_iff]
  unfold WorkerPool.new
  by_cases hzero : workerCount = 0
  · simp [hzero]
  · rw [Bool.not_true, if_neg Bool.false_ne_true, dif_neg hzero,
      and_iff_right (Nat.one_le_iff_ne_zero.mpr hzero)]
    cases machine.startWorkers workerCount with
    | error what => exact iff_of_false (fun ⟨_, h⟩ => nomatch h) nofun
    | ok _ => exact iff_of_true ⟨_, rfl⟩ rfl

/-- The loop over the candidates finds the first directory, if there is one. -/
theorem Platform.firstDirectory_spec {machine : Platform} {places : List Bytes}
    {found : Option Bytes} (h : machine.firstDirectory places = .ok found) :
    (∃ path, found = some path ∧ ∃ before after, places = before ++ path :: after ∧
      machine.IsDirectory path ∧ ∀ place ∈ before, ¬ machine.IsDirectory place) ∨
    found = none ∧ ∀ place ∈ places, ¬ machine.IsDirectory place := by
  induction places with
  | nil =>
      cases h
      exact Or.inr ⟨rfl, fun place hmem => absurd hmem List.not_mem_nil⟩
  | cons place places ih =>
      obtain ⟨present, hpresent, h⟩ := Response.exists_of_bind_eq_ok h
      by_cases hplace : machine.IsDirectory place
      · rw [hplace.1, Except.ok.injEq] at hpresent
        subst hpresent
        obtain ⟨directory, hdirectory, h⟩ := Response.exists_of_bind_eq_ok h
        rw [hplace.2, Except.ok.injEq] at hdirectory
        subst hdirectory
        cases h
        exact Or.inl ⟨place, rfl, [], places, rfl, hplace,
          fun _ hmem => absurd hmem List.not_mem_nil⟩
      · have hrest : machine.firstDirectory places = .ok found := by
          cases present with
          | false => exact h
          | true =>
              obtain ⟨directory, hdirectory, h⟩ := Response.exists_of_bind_eq_ok h
              cases directory with
              | false => exact h
              | true => exact absurd ⟨hpresent, hdirectory⟩ hplace
        rcases ih hrest with ⟨path, hfound, before, after, rfl, hpath, hbefore⟩ | ⟨hnone, hall⟩
        · exact Or.inl ⟨path, hfound, place :: before, after, rfl, hpath,
            List.forall_mem_cons.mpr ⟨hplace, hbefore⟩⟩
        · exact Or.inr ⟨hnone, List.forall_mem_cons.mpr ⟨hplace, hall⟩⟩

theorem Platform.prefers_of_firstDirectory {machine : Platform} {place : Bytes}
    {places : List Bytes} {found : Option Bytes}
    (h : machine.firstDirectory (place :: places) = .ok found) :
    machine.Prefers (place :: places) (found.getD place) := by
  rcases firstDirectory_spec h with ⟨path, rfl, hpath⟩ | ⟨rfl, hall⟩
  · exact Or.inl hpath
  · exact Or.inr ⟨rfl, hall⟩

theorem Platform.defaultModules_of_eq {machine : Platform} {programPath path : Bytes}
    (h : machine.defaultModuleConfigDir programPath = .ok path) :
    machine.DefaultModules programPath path := by
  unfold defaultModuleConfigDir at h
  dsimp only at h
  by_cases hempty : programPath = []
  · rw [if_pos hempty] at h
    obtain ⟨candidates, hcandidates, h⟩ := Response.exists_of_bind_eq_ok h
    cases hcandidates
    obtain ⟨found, hfound, h⟩ := Response.exists_of_bind_eq_ok h
    cases h
    exact Or.inl ⟨hempty, prefers_of_firstDirectory hfound⟩
  · rw [if_neg hempty] at h
    obtain ⟨beside, hbeside, h⟩ := Response.exists_of_bind_eq_ok h
    obtain ⟨candidates, hcandidates, h⟩ := Response.exists_of_bind_eq_ok h
    cases hcandidates
    obtain ⟨found, hfound, h⟩ := Response.exists_of_bind_eq_ok h
    cases h
    exact Or.inr ⟨beside, hempty, hbeside, prefers_of_firstDirectory hfound⟩

theorem Platform.defaultDocuments_of_eq {machine : Platform} {path : Bytes}
    (h : machine.defaultWwwRoot = .ok path) : machine.DefaultDocuments path := by
  unfold defaultWwwRoot at h
  obtain ⟨localExists, hlocal, h⟩ := Response.exists_of_bind_eq_ok h
  cases localExists with
  | true =>
      cases h
      exact Or.inl ⟨hlocal, rfl⟩
  | false =>
      obtain ⟨installed, hinstalled, h⟩ := Response.exists_of_bind_eq_ok h
      refine Or.inr ⟨hlocal, ?_⟩
      cases installed with
      | true =>
          cases h
          exact Or.inl ⟨hinstalled, rfl⟩
      | false =>
          cases h
          exact Or.inr ⟨hinstalled, rfl⟩

/-- The workers a command line asks for are those of its last count. -/
theorem workers_of_reads (machine : Platform) {argv : List Bytes} {opts : CliOptions}
    (h : Reads {} (occurrences argv.tail) opts) :
    opts.workerThreads.getD machine.defaultWorkerThreads = requestedWorkers machine argv := by
  unfold requestedWorkers lastGiven
  rcases setBy_workers.of_reads h with ⟨hlast, hsame⟩ | ⟨value, count, hlast, hread, hcount⟩
  · rw [hlast, hsame]
    rfl
  · rw [hlast, hcount]
    exact (parseCount_eq_some_iff.mp hread).1.value.symm

theorem requestedWorkers_pos (machine : Platform) {argv : List Bytes} {opts : CliOptions}
    (h : Reads {} (occurrences argv.tail) opts) : 1 ≤ requestedWorkers machine argv := by
  unfold requestedWorkers lastGiven
  rcases setBy_workers.of_reads h with ⟨hlast, -⟩ | ⟨value, count, hlast, hread, -⟩
  · rw [hlast]
    exact machine.defaultWorkerThreads_pos
  · obtain ⟨hdenotes, hpos, -⟩ := parseCount_eq_some_iff.mp hread
    rw [hlast]
    show 1 ≤ decimalValue value
    rwa [hdenotes.value]

/-- What a configuration is made of. -/
theorem config_of_finalizeOptions {machine : Platform} {opts : CliOptions} {programPath : Bytes}
    {config : ServerConfig} (h : finalizeOptions machine opts programPath = .ok config) :
    opts.tlsCertificateFile.isSome = opts.tlsPrivateKeyFile.isSome ∧
      ∃ wwwRoot moduleConfigDir, machine.defaultWwwRoot = .ok wwwRoot ∧
        machine.defaultModuleConfigDir programPath = .ok moduleConfigDir ∧
        config =
          { bindAddress := opts.bindAddress
            port := opts.port.getD (if httpsRequested opts then 8443 else 8080)
            wwwRoot
            moduleConfigDir := opts.moduleConfigDir.getD moduleConfigDir
            workerThreads := opts.workerThreads.getD machine.defaultWorkerThreads
            connectionQueueCapacity := opts.connectionQueueCapacity.getD
              (defaultQueueCapacity (opts.workerThreads.getD machine.defaultWorkerThreads))
            tls := opts.tlsCertificateFile.bind fun certificate =>
              opts.tlsPrivateKeyFile.map fun key => ⟨certificate, key⟩ } := by
  unfold finalizeOptions at h
  by_cases htls : opts.tlsCertificateFile.isSome ≠ opts.tlsPrivateKeyFile.isSome
  · rw [if_pos htls] at h
    cases h
  · rw [if_neg htls] at h
    obtain ⟨wwwRoot, hroot, h⟩ := Response.exists_of_bind_eq_ok h
    obtain ⟨moduleConfigDir, hdir, h⟩ := Response.exists_of_bind_eq_ok h
    cases h
    exact ⟨not_not.mp htls, wwwRoot, moduleConfigDir, hroot, hdir, rfl⟩

/-- Both files or none, each the last one given. -/
theorem tls_of_isSome_eq {certificate key : Option Bytes} (h : certificate.isSome = key.isSome)
    (tls : TlsConfig) :
    (certificate.bind fun certificate => key.map fun key => TlsConfig.mk certificate key) =
      some tls ↔ certificate = some tls.certificateFile ∧ key = some tls.privateKeyFile := by
  cases certificate with
  | none => simp
  | some certificate =>
      cases key with
      | none => cases h
      | some key => cases tls; simp

theorem port_of_reads {items : List (Bytes × Bytes)} {opts : CliOptions}
    (h : Reads {} items opts) {d : Int} (hd : 1 ≤ d ∧ d ≤ 65535) :
    1 ≤ opts.port.getD d ∧ opts.port.getD d ≤ 65535 := by
  rcases setBy_port.of_reads h with ⟨-, hsame⟩ | ⟨value, port, -, hread, hport⟩
  · rw [hsame]
    exact hd
  · obtain ⟨n, -, -, hrange⟩ := parsePort_eq_some_iff.mp hread
    rw [hport]
    exact hrange

theorem capacity_of_reads {items : List (Bytes × Bytes)} {opts : CliOptions}
    (h : Reads {} items opts) {d : Nat}
    (hd : lastValue (ascii "--queue-capacity") items = none → 1 ≤ d) :
    1 ≤ opts.connectionQueueCapacity.getD d := by
  rcases setBy_queueCapacity.of_reads h with ⟨hlast, hsame⟩ | ⟨value, count, -, hread, hcount⟩
  · rw [hsame]
    exact hd hlast
  · obtain ⟨-, hpos, -⟩ := parseCount_eq_some_iff.mp hread
    rw [hcount]
    exact hpos

/-- The default capacity is the product as long as that is a `std::size_t`. -/
theorem defaultQueueCapacity_eq_iff {workerThreads : Nat} :
    defaultQueueCapacity workerThreads = 64 * workerThreads ↔ 64 * workerThreads < 2 ^ 64 := by
  unfold defaultQueueCapacity
  omega

theorem isSome_tls {certificate key : Option Bytes} (h : certificate.isSome = key.isSome) :
    (certificate.bind fun certificate => key.map fun key => TlsConfig.mk certificate key).isSome =
      (certificate.isSome || key.isSome) := by
  cases certificate with
  | none => cases key with
    | none => rfl
    | some key => cases h
  | some certificate => cases key with
    | none => cases h
    | some key => rfl

/-- An accepted command line starts exactly when its workers, and the queue that is sized
after them, fit the machine. -/
theorem startable_iff_fits {machine : Platform} {argv : List Bytes} {config : ServerConfig}
    (h : parse machine argv = .ok { config := some config }) :
    Startable machine argv config ↔ Fits machine argv := by
  obtain ⟨opts, hreads, hopts⟩ := reads_of_parseArguments h
  obtain ⟨hboth, wwwRoot, moduleConfigDir, hroot, hdir, rfl⟩ := config_of_finalizeOptions hopts
  have hworkers := workers_of_reads machine hreads
  have hpos := requestedWorkers_pos machine hreads
  constructor
  · intro hstart
    refine ⟨?_, fun hnone => ?_⟩
    · have hpool := (exists_workerPool_iff.mp hstart.pool).2
      rwa [hworkers] at hpool
    · -- Without a capacity of its own the queue gets a product of 64 bits.
      have hchosen := hstart.capacity
      rcases setBy_queueCapacity.of_reads hreads with ⟨-, hsame⟩ | ⟨value, count, hlast, -⟩
      · rw [hnone, hsame] at hchosen
        have hcapacity : defaultQueueCapacity
            (opts.workerThreads.getD machine.defaultWorkerThreads) =
              64 * opts.workerThreads.getD machine.defaultWorkerThreads := hchosen
        rw [hworkers] at hcapacity
        exact defaultQueueCapacity_eq_iff.mp hcapacity
      · rw [lastGiven, hlast] at hnone
        cases hnone
  · intro hfits
    have hcapacity : lastGiven argv "--queue-capacity" = none →
        defaultQueueCapacity (opts.workerThreads.getD machine.defaultWorkerThreads) =
          64 * opts.workerThreads.getD machine.defaultWorkerThreads := by
      intro hnone
      rw [hworkers]
      exact defaultQueueCapacity_eq_iff.mpr (hfits.capacity hnone)
    have hport : 1 ≤ (if httpsRequested opts then 8443 else 8080 : Int) ∧
        (if httpsRequested opts then 8443 else 8080 : Int) ≤ 65535 := by
      split <;> omega
    have hroom := capacity_of_reads hreads
      (d := defaultQueueCapacity (opts.workerThreads.getD machine.defaultWorkerThreads))
      fun hnone => by
        rw [hcapacity hnone, hworkers]
        omega
    have hone : 1 ≤ opts.workerThreads.getD machine.defaultWorkerThreads := by rwa [hworkers]
    have hcert := setBy_tlsCert.eq_lastValue hreads rfl
    have hkey := setBy_tlsKey.eq_lastValue hreads rfl
    refine
      { port_range := port_of_reads hreads hport
        workers_pos := hone
        capacity_pos := hroom
        tls_iff := ?_
        tls := ?_
        bindAddress := setBy_bind.chosen hreads (d := [])
          (fun hread => Option.some.inj hread) fun _ => rfl
        port := setBy_port.chosen hreads ?_ ?_
        workers := setBy_workers.chosen hreads
          (fun hread => (parseCount_eq_some_iff.mp hread).1) fun _ => rfl
        capacity := setBy_queueCapacity.chosen hreads
          (fun hread => (parseCount_eq_some_iff.mp hread).1) hcapacity
        moduleConfigDir := setBy_modulesDir.chosen hreads
          (fun hread => Option.some.inj hread) fun _ => Platform.defaultModules_of_eq hdir
        wwwRoot := Platform.defaultDocuments_of_eq hroot
        queue := exists_workQueue_iff.mpr hroom
        pool := exists_workerPool_iff.mpr ⟨hone, ?_⟩ }
    · show Option.isSome (Option.bind _ _) = true ↔ (lastValue _ _).isSome ∧ (lastValue _ _).isSome
      rw [isSome_tls hboth, ← hcert, ← hkey, hboth, Bool.or_self, and_self]
    · intro tls hmem
      have hfiles := (tls_of_isSome_eq hboth tls).mp hmem
      rwa [hcert, hkey] at hfiles
    · intro value port hread
      obtain ⟨n, hn, hdenotes, -⟩ := parsePort_eq_some_iff.mp hread
      exact ⟨n, hn, hdenotes⟩
    · intro hnone
      show (if httpsRequested opts then 8443 else 8080 : Int) =
        if Option.isSome (Option.bind _ _) then 8443 else 8080
      rw [isSome_tls hboth]
      rfl
    · rw [hworkers]
      exact hfits.threads

/-- A machine of eight cores and 2^15 threads where none of the default paths exists. -/
def eightCores : Platform where
  hardwareConcurrency := 8
  pathExists := fun _ => .ok false
  isDirectory := fun _ => .ok false
  besideProgram := fun _ => .ok (ascii "/usr/bin/modules.d")
  reserveThreads := fun n => if n < 2 ^ 30 then .ok () else .error "std::bad_alloc"
  startThread := fun n =>
    if n < 2 ^ 15 then .ok () else .error "Resource temporarily unavailable"

def twoWorkers : ServerConfig where
  bindAddress := ascii "127.0.0.1"
  port := 9000
  wwwRoot := ascii "www"
  moduleConfigDir := ascii "/usr/bin/modules.d"
  workerThreads := 2
  connectionQueueCapacity := 128
  tls := none

theorem startable_iff_fits_twoWorkers :
    Startable eightCores [ascii "garcon", ascii "9000", ascii "--workers", ascii "2"] twoWorkers ↔
      Fits eightCores [ascii "garcon", ascii "9000", ascii "--workers", ascii "2"] :=
  startable_iff_fits (by decide +kernel)

/-- The product for 2^58 workers is 0, and the queue is not built. -/
theorem workers_unstartable :
    ∃ config, parse eightCores [ascii "garcon", ascii "--workers", ascii "288230376151711744"] =
        .ok { config := some config } ∧
      config.connectionQueueCapacity = 0 ∧
      ¬ Startable eightCores [ascii "garcon", ascii "--workers", ascii "288230376151711744"]
        config := by
  refine ⟨{ twoWorkers with
    port := 8080, workerThreads := 2 ^ 58, connectionQueueCapacity := 0 }, ?_, rfl, ?_⟩
  · decide +kernel
  · intro h
    exact absurd h.capacity_pos (by decide)

end App
end Garcon
