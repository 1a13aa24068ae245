import Garcon.App.Admission
import Garcon.Library.FromChars

/-!
# The command line

`command_line_parser::parse` reads the program's arguments into a server configuration,
and `server::run` builds its queue and its worker pool from that.  What the two ask of the
machine is a parameter: the number of its cores, its files for the default paths, and the
memory and the threads for the workers.
-/

namespace Garcon
namespace App

open Ascii

structure TlsConfig where
  certificateFile : Bytes
  privateKeyFile : Bytes
deriving DecidableEq, Repr

structure ServerConfig where
  bindAddress : Bytes
  port : Int
  wwwRoot : Bytes
  moduleConfigDir : Bytes
  workerThreads : Nat
  connectionQueueCapacity : Nat
  tls : Option TlsConfig
deriving DecidableEq, Repr

structure CommandLineResult where
  showHelp : Bool := false
  showVersion : Bool := false
  config : Option ServerConfig := none
deriving DecidableEq, Repr

/-- What the process sees of the machine.  A look at a file may fail. -/
structure Platform where
  hardwareConcurrency : UInt32
  pathExists : Bytes → Except String Bool
  isDirectory : Bytes → Except String Bool
  /-- `fs::absolute(program_path).parent_path() / "modules.d"`. -/
  besideProgram : Bytes → Except String Bytes
  /-- `reserve` on a vector of threads.  It throws past the vector's `max_size`, and where
  the memory is not to be had. -/
  reserveThreads : Nat → Except String Unit
  /-- The start of one more thread of the pool beside those that run.  The system may
  refuse it. -/
  startThread : Nat → Except String Unit

/-! ## Defaults -/

namespace Platform

def defaultWorkerThreads (machine : Platform) : Nat :=
  if machine.hardwareConcurrency = 0 then 4 else machine.hardwareConcurrency.toNat

def firstDirectory (machine : Platform) : List Bytes → Except String (Option Bytes)
  | [] => .ok none
  | candidate :: candidates => do
    if ← machine.pathExists candidate then
      if ← machine.isDirectory candidate then
        return some candidate
    firstDirectory machine candidates

def defaultModuleConfigDir (machine : Platform) (programPath : Bytes) : Except String Bytes := do
  let fallbacks := [ascii "modules.d", ascii "/etc/garcon/modules.d"]
  let candidates ←
    if programPath = [] then pure fallbacks
    else do pure ((← machine.besideProgram programPath) :: fallbacks)
  return (← machine.firstDirectory candidates).getD (candidates.headD (ascii "modules.d"))

def defaultWwwRoot (machine : Platform) : Except String Bytes := do
  if ← machine.pathExists (ascii "www") then return ascii "www"
  if ← machine.pathExists (ascii "/usr/share/garcon/www") then
    return ascii "/usr/share/garcon/www"
  return ascii "www"

end Platform

/-- A product in `std::size_t`. -/
def defaultQueueCapacity (workerThreads : Nat) : Nat := workerThreads * 64 % 2 ^ 64

/-! ## The parser -/

structure CliOptions where
  bindAddress : Bytes := ascii "127.0.0.1"
  port : Option Int := none
  workerThreads : Option Nat := none
  connectionQueueCapacity : Option Nat := none
  moduleConfigDir : Option Bytes := none
  tlsCertificateFile : Option Bytes := none
  tlsPrivateKeyFile : Option Bytes := none
deriving DecidableEq, Repr

def parsePort (value : Bytes) : Option Int :=
  match fromCharsSigned (2 ^ 31 - 1) value with
  | some (port, []) => if port ≤ 0 ∨ 65535 < port then none else some port
  | _ => none

def parseCount (value : Bytes) : Option Nat :=
  match fromChars (2 ^ 64 - 1) value with
  | some (parsed, []) => if parsed = 0 then none else some parsed
  | _ => none

def httpsRequested (opts : CliOptions) : Bool :=
  opts.tlsCertificateFile.isSome || opts.tlsPrivateKeyFile.isSome

def finalizeOptions (machine : Platform) (opts : CliOptions) (programPath : Bytes) :
    Except String ServerConfig :=
  if opts.tlsCertificateFile.isSome ≠ opts.tlsPrivateKeyFile.isSome then
    throw "--tls-cert and --tls-key must be provided together"
  else do
    let workerThreads := opts.workerThreads.getD machine.defaultWorkerThreads
    let wwwRoot ← machine.defaultWwwRoot
    let moduleConfigDir ← machine.defaultModuleConfigDir programPath
    return {
      bindAddress := opts.bindAddress
      port := opts.port.getD (if httpsRequested opts then 8443 else 8080)
      wwwRoot
      moduleConfigDir := opts.moduleConfigDir.getD moduleConfigDir
      workerThreads
      connectionQueueCapacity :=
        opts.connectionQueueCapacity.getD (defaultQueueCapacity workerThreads)
      tls := opts.tlsCertificateFile.bind fun certificate =>
        opts.tlsPrivateKeyFile.map fun key => ⟨certificate, key⟩ }

/-- The argument behind an option, if there is one. -/
def requireValue (next : Option Bytes) (optionName : String) : Except String Bytes :=
  match next with
  | none => .error ("missing value for " ++ optionName)
  | some value => .ok value

/-- Every branch that returns has used the next argument. -/
def parseNamedOption (arg : Bytes) (next : Option Bytes) (out : CliOptions) :
    Except String CliOptions :=
  if arg = ascii "--bind" then do
    let value ← requireValue next "--bind"
    return { out with bindAddress := value }
  else if arg = ascii "--tls-cert" then do
    let value ← requireValue next "--tls-cert"
    return { out with tlsCertificateFile := some value }
  else if arg = ascii "--tls-key" then do
    let value ← requireValue next "--tls-key"
    return { out with tlsPrivateKeyFile := some value }
  else if arg = ascii "--modules-dir" then do
    let value ← requireValue next "--modules-dir"
    return { out with moduleConfigDir := some value }
  else if arg = ascii "--workers" then do
    let value ← requireValue next "--workers"
    match parseCount value with
    | none => throw "invalid worker count"
    | some count => return { out with workerThreads := some count }
  else if arg = ascii "--queue-capacity" then do
    let value ← requireValue next "--queue-capacity"
    match parseCount value with
    | none => throw "invalid queue capacity"
    | some count => return { out with connectionQueueCapacity := some count }
  else if arg = ascii "--port" then do
    let value ← requireValue next "--port"
    match parsePort value with
    | none => throw "invalid port"
    | some port => return { out with port := some port }
  else throw "unknown option"

/-- The loop over the arguments behind the program's name. -/
def parseArguments (machine : Platform) (programPath : Bytes) (out : CliOptions) :
    List Bytes → Except String CommandLineResult
  | [] => do return { config := some (← finalizeOptions machine out programPath) }
  | arg :: rest =>
    if arg = ascii "--help" then .ok { showHelp := true }
    else if arg = ascii "--version" then .ok { showVersion := true }
    else if arg.head? = some 0x2d then
      match rest with
      | [] => do
        let out ← parseNamedOption arg none out
        return { config := some (← finalizeOptions machine out programPath) }
      | value :: rest => do
        let out ← parseNamedOption arg (some value) out
        parseArguments machine programPath out rest
    else
      match parsePort arg with
      | none => .error "invalid port"
      | some port => parseArguments machine programPath { out with port := some port } rest

def parse (machine : Platform) (argv : List Bytes) : Except String CommandLineResult :=
  parseArguments machine (argv.headD []) {} argv.tail

/-! ## What is built from a configuration -/

/-- The constructor of the queue. -/
def WorkQueue.new (capacity : Nat) : Except String WorkQueue :=
  if h : capacity = 0 then .error "work_queue capacity must be greater than zero"
  else .ok { capacity, capacity_pos := Nat.pos_of_ne_zero h }

structure WorkerPool where
  size : Nat
  size_pos : 0 < size
deriving DecidableEq, Repr

namespace Platform

/-- The first threads of a pool, one after the other. -/
def startThreads (machine : Platform) : Nat → Except String Unit
  | 0 => .ok ()
  | n + 1 => do
    machine.startThreads n
    machine.startThread n

def startWorkers (machine : Platform) (workerCount : Nat) : Except String Unit := do
  machine.reserveThreads workerCount
  machine.startThreads workerCount

end Platform

/-- The constructor of the pool. -/
def WorkerPool.new (machine : Platform) (hasHandler : Bool) (workerCount : Nat) :
    Except String WorkerPool :=
  if !hasHandler then .error "worker_pool handler must not be empty"
  else if h : workerCount = 0 then .error "worker_pool must have at least one worker"
  else do
    machine.startWorkers workerCount
    return { size := workerCount, size_pos := Nat.pos_of_ne_zero h }

end App
end Garcon
