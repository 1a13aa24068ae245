import Garcon.App.DynamicModule

/-!
# The request pipeline

`request_pipeline::handle` asks its modules in order.  A module that passes adds header
fields to the response that another module, or the pipeline itself, makes in the end.
-/

namespace Garcon
namespace App

open Ascii Http

/-- `request_module::handle` over a state `ω`. -/
abbrev RequestModule (ω : Type) := Request → ω → ModuleResult × ω

def finalizeResponse (response : Response) (pendingHeaders : List HeaderField) : Response :=
  { response with headers := response.headers ++ pendingHeaders }

def upgradeNotImplemented : Response :=
  .text 501 (ascii "Not Implemented") (ascii "connection upgrade not implemented\n")

def moduleError : Response :=
  .text 500 (ascii "Internal Server Error") (ascii "module error\n")

def pipelineNotFound : Response := .text 404 (ascii "Not Found") (ascii "not found\n")

/-- The response that ends the pipeline's loop at this result. -/
def ModuleResult.answer : ModuleResult → Option Response
  | .pass _ => none
  | .respond response => some response
  | .upgrade _ => some upgradeNotImplemented
  | .error _ => some moduleError

namespace RequestPipeline

variable {ω : Type}

/-- The loop, with the header fields of the modules that passed. -/
def handleFrom (pendingHeaders : List HeaderField) (modules : List (RequestModule ω))
    (request : Request) (w : ω) : Response × ω :=
  match modules with
  | [] => (finalizeResponse pipelineNotFound pendingHeaders, w)
  | module :: modules =>
    match module request w with
    | (.pass headers, w) => handleFrom (pendingHeaders ++ headers) modules request w
    | (.respond response, w) => (finalizeResponse response pendingHeaders, w)
    | (.upgrade headers, w) =>
      (finalizeResponse upgradeNotImplemented (pendingHeaders ++ headers), w)
    | (.error headers, w) => (finalizeResponse moduleError (pendingHeaders ++ headers), w)

def handle (modules : List (RequestModule ω)) (request : Request) (w : ω) : Response × ω :=
  handleFrom [] modules request w

end RequestPipeline
end App
end Garcon
