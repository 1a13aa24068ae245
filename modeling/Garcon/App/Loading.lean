import Garcon.App.CommandLine
import Garcon.App.ModuleConfig
import Garcon.App.RequestPipeline

/-!
# Loading modules

`create_request_handler` makes a module from each configured library and puts it into the
pipeline.  A `dynamic_module` owns the handle of its library and the instance that the library
created; what it does to them is written down in a log.  The dynamic loader is a parameter,
with everything that a library may do when it is asked for a module.
-/

namespace Garcon
namespace App

open Abi Http

/-- What is done to a library. -/
inductive ModuleEvent where
  | opened
  /-- Its code runs, and there is no instance afterwards. -/
  | entered
  /-- It created an instance, and may know how to destroy it. -/
  | created (destroyable : Bool)
  | handled
  | destroyed
  | closed
deriving DecidableEq, Repr

/-- Libraries are numbered by the calls of `dlopen` that returned them. -/
abbrev ModuleLog := List (Nat × ModuleEvent)

/-- What `create` comes to: an instance, a null pointer with a message, or an exception. -/
inductive Creation (ι : Type) where
  | made (object : ι)
  | refused (message : Option String)
  | threw (what : String)

/-- What a module exports.  A call of `handle` that throws leaves nothing. -/
structure Descriptor (ι ω : Type) where
  abiVersion : Nat
  name : Option String
  create : HostApi → Bytes → Creation ι
  destroys : Bool
  handle : Option (ι → Exchange → ω → Option (Nat × Exchange) × ω)

/-- An open library: it may lack the entry point, the entry point may throw, and it may
return a null pointer. -/
inductive Library (ι ω : Type) where
  | withoutEntrypoint (detail : Option String)
  | threw (what : String)
  | returned (descriptor : Option (Descriptor ι ω))

/-- `dlopen`, which may answer differently each time.  It fails with what `dlerror` says. -/
abbrev Loader (ι ω : Type) := Nat → Bytes → Except (Option String) (Library ι ω)

/-- What a C function sees of a string. -/
def cString (text : Bytes) : Bytes := text.takeWhile (· ≠ 0)

def requireDlerror (operation : String) (detail : Option String) : String :=
  match detail with
  | none => operation
  | some detail => operation ++ ": " ++ detail

/-- A constructed `dynamic_module`. -/
structure DynamicModule (ι ω : Type) where
  libraryHandle : Nat
  descriptor : Descriptor ι ω
  object : ι
  name : String

variable {ι ω : Type}

section

variable (paths : Paths) (config : ServerConfig)

def hostApi (configured : ConfiguredModule) : HostApi where
  abiVersion := moduleAbiVersion
  defaultDocumentRoot := .of config.wwwRoot
  configDirectory := .of configured.configDirectory

/-- The constructor from the open library on. -/
def Library.instantiate (library : Library ι ω) (n : Nat) (configured : ConfiguredModule) :
    List ModuleEvent × Except String (DynamicModule ι ω) :=
  match library with
  | .withoutEntrypoint detail => ([], .error (requireDlerror "dlsym() failed" detail))
  | .threw what => ([.entered], .error what)
  | .returned none => ([.entered], .error "module entrypoint returned a null descriptor")
  | .returned (some descriptor) =>
    if descriptor.abiVersion ≠ moduleAbiVersion then
      ([.entered], .error ("module ABI mismatch for: " ++ paths.string configured.libraryFile))
    else
      let name :=
        match descriptor.name with
        | none => paths.filename configured.libraryFile
        | some name => if name = "" then paths.filename configured.libraryFile else name
      match descriptor.create (hostApi config configured) (cString configured.configText) with
      | .made object =>
        ([.entered, .created descriptor.destroys], .ok ⟨n, descriptor, object, name⟩)
      | .refused message =>
        ([.entered, .entered], .error ("failed to create module '" ++ name ++ "': " ++
          message.getD "module create() failed"))
      | .threw what => ([.entered, .entered], .error what)

/-- The constructor closes the library again when it fails. -/
def DynamicModule.new (loader : Loader ι ω) (n : Nat) (configured : ConfiguredModule) :
    List ModuleEvent × Except String (DynamicModule ι ω) :=
  match loader n (cString configured.libraryFile) with
  | .error detail => ([], .error (requireDlerror "dlopen() failed" detail))
  | .ok library =>
    match library.instantiate paths config n configured with
    | (events, .error what) => (.opened :: events ++ [.closed], .error what)
    | (events, .ok module) => (.opened :: events, .ok module)

end

namespace DynamicModule

/-- The destructor. -/
def destroy (module : DynamicModule ι ω) : ModuleLog :=
  if module.descriptor.destroys then
    [(module.libraryHandle, .destroyed), (module.libraryHandle, .closed)]
  else [(module.libraryHandle, .closed)]

/-- What the host makes of an outcome.  It need not be one of the enumeration. -/
def decode (outcome : Nat) (view : ResponseView) : ModuleResult :=
  match outcome with
  | 0 => withResponseHeaders (.pass []) view
  | 1 => .respond (toHttpResponse view)
  | 2 => withResponseHeaders (.upgrade []) view
  | 3 =>
    if view.status ≠ 0 then .respond (toHttpResponse view)
    else withResponseHeaders (.error []) view
  | _ => .error []

def handle (module : DynamicModule ι ω) : RequestModule ω := fun request w =>
  match module.descriptor.handle with
  | none => (.error [], w)
  | some call =>
    match call module.object { request := toRequestView request, response := .empty } w with
    | (none, w) => (.error [], w)
    | (some (outcome, exchange), w) => (decode outcome exchange.response, w)

/-- The call of the module, in the log. -/
def logged (module : DynamicModule ι ω) : RequestModule (ModuleLog × ω) := fun request lw =>
  let (result, w) := module.handle request lw.2
  let call := if module.descriptor.handle.isSome then [(module.libraryHandle, .handled)] else []
  (result, lw.1 ++ call, w)

end DynamicModule

/-- The modules of a pipeline are destroyed in their order. -/
def destroyPipeline (pipeline : List (DynamicModule ι ω)) : ModuleLog :=
  pipeline.flatMap DynamicModule.destroy

section

variable (paths : Paths) (config : ServerConfig) (loader : Loader ι ω)

/-- The loop over the configured modules, behind those that are in the pipeline already.  An
exception destroys the pipeline. -/
def addModules (pipeline : List (DynamicModule ι ω)) :
    List ConfiguredModule → ModuleLog × Except String (List (DynamicModule ι ω))
  | [] => ([], .ok pipeline)
  | configured :: rest =>
    let n := pipeline.length
    match DynamicModule.new paths config loader n configured with
    | (events, .error what) =>
      (events.map (fun e => (n, e)) ++ destroyPipeline pipeline, .error what)
    | (events, .ok module) =>
      let (log, result) := addModules (pipeline ++ [module]) rest
      (events.map (fun e => (n, e)) ++ log, result)

/-- An error that loading returns is thrown as well. -/
def createRequestHandler (listing : Option Listing) :
    ModuleLog × Except String (List (DynamicModule ι ω)) :=
  match loadConfiguredModules paths config.moduleConfigDir listing with
  | .error what => ([], .error what)
  | .ok (.error what) => ([], .error what)
  | .ok (.ok modules) => addModules paths config loader [] modules

/-- Requests that are answered one after the other. -/
def answerAll {α : Type} (handler : Request → α → Response × α) :
    List Request → α → List Response × α
  | [], a => ([], a)
  | request :: requests, a =>
    let (response, a) := handler request a
    let (responses, a) := answerAll handler requests a
    (response :: responses, a)

/-- The life of the request handler: the server's constructor makes it, the workers ask it,
and it is destroyed with the server, when no worker is left. -/
def handlerLife (listing : Option Listing) (requests : List Request) (w : ω) :
    ModuleLog × Except String (List Response) :=
  match createRequestHandler paths config loader listing with
  | (log, .error what) => (log, .error what)
  | (log, .ok pipeline) =>
    let (responses, log, _) :=
      answerAll (RequestPipeline.handle (pipeline.map DynamicModule.logged)) requests (log, w)
    (log ++ destroyPipeline pipeline, .ok responses)

end

end App
end Garcon
