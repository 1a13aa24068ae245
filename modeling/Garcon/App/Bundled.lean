import Garcon.App.RequestPipeline
import Garcon.Modules.Cors
import Garcon.Modules.HeaderGuard
import Garcon.Modules.HostGuard
import Garcon.Modules.JwtAuth
import Garcon.Modules.RateLimit
import Garcon.Modules.RouteTable
import Garcon.Modules.Router
import Garcon.Modules.StaticFiles

/-!
# The bundled modules

The modules that come with the server, each with a configuration that its constructor
accepts, loaded into a pipeline.  What a module reads from outside, and the buckets of a
rate limit, are kept by the position of the module in the pipeline.
-/

namespace Garcon
namespace App

open Ascii Http Modules

/-- What a module reads while it handles a request: the clocks and the file system. -/
structure Readings where
  now : Int
  steady : ℚ
  files : StaticFiles.FileSystem

structure World where
  storage : Module.Storage
  readings : Nat → Readings
  buckets : Nat → RateLimit.Buckets

/-- A world without files, in which no time passes. -/
def emptyWorld : World where
  storage := {}
  readings := fun _ =>
    { now := 0
      steady := 0
      files :=
        { canonical := fun _ => none
          isRegularFile := fun _ => none
          fileSize := fun _ => .error "no such file"
          bytes := fun _ => none } }
  buckets := fun _ _ => none

/-- Settings that a module reads from some configuration text. -/
structure Configured {α : Type} (parse : Bytes → Except String α) where
  text : Bytes
  settings : α
  parsed : parse text = .ok settings

inductive Bundled where
  | cors (c : Configured Cors.parseRules)
  | headerGuard (c : Configured HeaderGuard.parseRules)
  | hostGuard (c : Configured HostGuard.parseRules)
  | jwtAuth (c : Configured JwtAuth.configure)
  | rateLimit (c : Configured RateLimit.parseRules)
  | routeTable (c : Configured RouteTable.parseRoutes)
  | router (c : Configured Router.parseRoutes)
  | staticFiles (root : StaticFiles.Path)

namespace Bundled

variable (hmac : JwtAuth.Hmac)

/-- What the module object answers, and the state it leaves. -/
def implementation (i : Nat) : Bundled → Module.Handler World
  | .cors c => fun request w => (Cors.handle c.settings request, w)
  | .headerGuard c => fun request w => (.ok (HeaderGuard.handle c.settings request), w)
  | .hostGuard c => fun request w => (.ok (HostGuard.handle c.settings request), w)
  | .jwtAuth c => fun request w =>
    (.ok (JwtAuth.handle hmac (w.readings i).now c.settings request), w)
  | .rateLimit c => fun request w =>
    let (result, buckets) :=
      RateLimit.handle c.settings request (w.readings i).steady (w.buckets i)
    (result, { w with buckets := Function.update w.buckets i buckets })
  | .routeTable c => fun request w => (.ok (RouteTable.handle c.settings request), w)
  | .router c => fun request w => (.ok (Router.handle c.settings request), w)
  | .staticFiles root => fun request w =>
    ((StaticFiles.handle (w.readings i).files root request).map Module.Result.respond, w)

/-- The module behind the ABI. -/
def load (i : Nat) (b : Bundled) : RequestModule World := fun request w =>
  let (result, storage, w) := dynamicHandle (b.implementation hmac i) request w.storage w
  (result, { w with storage })

/-- The modules of a pipeline, from position `i` on. -/
def loadFrom (i : Nat) : List Bundled → List (RequestModule World)
  | [] => []
  | b :: modules => b.load hmac i :: loadFrom (i + 1) modules

end Bundled

/-- The pipeline of some bundled modules. -/
def bundledPipeline (hmac : JwtAuth.Hmac) (modules : List Bundled) (request : Request)
    (w : World) : Response × World :=
  RequestPipeline.handle (Bundled.loadFrom hmac 0 modules) request w

end App
end Garcon
