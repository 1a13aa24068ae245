import Garcon.Module.Sdk

/-!
# The host side of the ABI

`module_result` is the variant the pipeline reads, and `dynamic_module::handle`
fills the exchange, calls the module and decodes what it published.
-/

namespace Garcon
namespace App

open Http Abi

inductive ModuleResult where
  | pass (responseHeaders : List HeaderField)
  | respond (response : Response)
  | upgrade (responseHeaders : List HeaderField)
  | error (responseHeaders : List HeaderField)
deriving DecidableEq, Repr

/-- A response gets the header itself, any other outcome keeps it beside. -/
def ModuleResult.addResponseHeader (result : ModuleResult) (header : HeaderField) :
    ModuleResult :=
  match result with
  | .pass hs => .pass (hs ++ [header])
  | .respond r => .respond { r with headers := r.headers ++ [header] }
  | .upgrade hs => .upgrade (hs ++ [header])
  | .error hs => .error (hs ++ [header])

def copyHeaders (view : ResponseView) : List HeaderField :=
  view.headers.map fun h => ⟨h.name.copy, h.value.copy⟩

def toHttpResponse (view : ResponseView) : Response where
  status := if view.status = 0 then 200 else view.status
  reason := if view.reason.copy.isEmpty then Ascii.ascii "OK" else view.reason.copy
  contentType := view.contentType.copy
  headers := copyHeaders view
  body := view.body.copy
  contentLength := if view.hasContentLength then some view.contentLength else none

def withResponseHeaders (result : ModuleResult) (view : ResponseView) : ModuleResult :=
  (copyHeaders view).foldl ModuleResult.addResponseHeader result

def toRequestView (request : Request) : RequestView where
  method := .of request.method
  target := .of request.target
  headers := request.headers.map fun h => ⟨.of h.name, .of h.value⟩

/-- `dynamic_module::handle` on a loaded module.  The storage belongs to the
calling thread and outlives the call. -/
def dynamicHandle {ω : Type} (implementation : Module.Handler ω) (request : Request)
    (storage : Module.Storage) (w : ω) : ModuleResult × Module.Storage × ω :=
  let exchange : Exchange := { request := toRequestView request, response := .empty }
  let (outcome, exchange, storage, w) := Module.handle implementation exchange storage w
  let result :=
    match outcome with
    | .pass => withResponseHeaders (.pass []) exchange.response
    | .respond => .respond (toHttpResponse exchange.response)
    | .upgrade => withResponseHeaders (.upgrade []) exchange.response
    | .error =>
      if exchange.response.status ≠ 0 then .respond (toHttpResponse exchange.response)
      else withResponseHeaders (.error []) exchange.response
  (result, storage, w)

/-! ## What the host sees of a module's result -/

/-- A request as a module sees it, without its version. -/
def visible (request : Request) : Request where
  method := request.method
  target := request.target
  headers := request.headers

/-- A response behind the ABI, where an unset status and reason have their defaults. -/
def published (response : Response) : Response :=
  { response with
    status := if response.status = 0 then 200 else response.status
    reason := if response.reason.isEmpty then Ascii.ascii "OK" else response.reason }

theorem toHttpRequest_toRequestView (request : Request) :
    Module.toHttpRequest (toRequestView request) = visible request := by
  have hcopy : ∀ headers : List HeaderField,
      (headers.map fun h => (⟨.of h.name, .of h.value⟩ : HeaderView)).map
        (fun h => (⟨h.name.copy, h.value.copy⟩ : HeaderField)) = headers := by
    intro headers
    induction headers with
    | nil => rfl
    | cons header headers ih =>
        rw [List.map_cons, List.map_cons, ih, StringView.copy_of, StringView.copy_of]
  rw [Module.toHttpRequest, toRequestView, hcopy, StringView.copy_of, StringView.copy_of]
  rfl

theorem copyHeaders_publishResponseHeaders (headers : List HeaderField) (view : ResponseView)
    (storage : Module.Storage) :
    copyHeaders (Module.publishResponseHeaders headers view storage).1 = headers := by
  show (((headers.map (·.name)).zip (headers.map (·.value))).map
    fun nv => (⟨.of nv.1, .of nv.2⟩ : HeaderView)).map
      (fun h => (⟨h.name.copy, h.value.copy⟩ : HeaderField)) = headers
  induction headers with
  | nil => rfl
  | cons header headers ih =>
      rw [List.map_cons, List.map_cons, List.zip_cons_cons, List.map_cons, List.map_cons, ih,
        StringView.copy_of, StringView.copy_of]

theorem toHttpResponse_publishResponse (response : Response) (exchange : Exchange)
    (storage : Module.Storage) :
    toHttpResponse (Module.publishResponse response exchange storage).1.response =
      published response := by
  have hheaders : copyHeaders (Module.publishResponse response exchange storage).1.response =
      response.headers :=
    copyHeaders_publishResponseHeaders response.headers exchange.response storage
  rw [toHttpResponse, hheaders]
  cases hlength : response.contentLength <;>
    simp [Module.publishResponse, published, hlength, Module.publishResponseHeaders]

/-- The results a module can build. -/
inductive Built : Module.Result → Prop where
  | pass : Built .pass
  | respond (response : Response) : Built (.respond response)
  | upgrade : Built .upgrade
  | error : Built .error
  | addResponseHeader {result : Module.Result} (name value : Bytes) (h : Built result) :
      Built (result.addResponseHeader name value)

/-- A built result has a response exactly when its outcome is to respond. -/
theorem Built.responseValue_cases {result : Module.Result} (h : Built result) :
    (∃ response, result.next = .respond ∧ result.responseValue = some response) ∨
      (result.next ≠ .respond ∧ result.responseValue = none) := by
  induction h with
  | pass => exact Or.inr ⟨nofun, rfl⟩
  | respond response => exact Or.inl ⟨response, rfl, rfl⟩
  | upgrade => exact Or.inr ⟨nofun, rfl⟩
  | error => exact Or.inr ⟨nofun, rfl⟩
  | addResponseHeader name value _ ih => exact ih

/-- What a call of the module object itself means to the host. -/
def directResult (outcome : Except String Module.Result) : ModuleResult :=
  match outcome with
  | .error _ => .error []
  | .ok result =>
    match result.responseValue with
    | some response =>
      .respond (published { response with headers := response.headers ++ result.responseHeaders })
    | none =>
      match result.next with
      | .pass => .pass result.responseHeaders
      | .upgrade => .upgrade result.responseHeaders
      | _ => .error result.responseHeaders

/-- Nothing is added from a response that nothing was published to. -/
theorem withResponseHeaders_empty (result : ModuleResult) :
    withResponseHeaders result .empty = result := rfl

/-- Header fields added one by one end up behind those that are there. -/
theorem foldl_addResponseHeader (added headers : List HeaderField) :
    added.foldl ModuleResult.addResponseHeader (.pass headers) = .pass (headers ++ added) ∧
      added.foldl ModuleResult.addResponseHeader (.upgrade headers) =
        .upgrade (headers ++ added) ∧
      added.foldl ModuleResult.addResponseHeader (.error headers) =
        .error (headers ++ added) := by
  induction added generalizing headers with
  | nil => simp
  | cons header added ih =>
      simp only [List.foldl_cons, ModuleResult.addResponseHeader, ih, List.append_assoc,
        List.singleton_append, and_self]

/-- Through the ABI a module's result arrives as if the module object had been called, on
the request without its version, whatever earlier calls left in the storage. -/
theorem dynamicHandle_eq {ω : Type} (implementation : Module.Handler ω) (request : Request)
    (storage : Module.Storage) (w : ω)
    (hbuilt : ∀ result, (implementation (visible request) w).1 = .ok result → Built result) :
    (dynamicHandle implementation request storage w).1 =
        directResult (implementation (visible request) w).1 ∧
      (dynamicHandle implementation request storage w).2.2 =
        (implementation (visible request) w).2 := by
  cases hcall : implementation (visible request) w with
  | mk outcome w' =>
  rw [hcall] at hbuilt
  rw [dynamicHandle, Module.handle, toHttpRequest_toRequestView, hcall]
  cases outcome with
  | error what => exact ⟨rfl, rfl⟩
  | ok result =>
      rcases (hbuilt result rfl).responseValue_cases with ⟨response, hnext, hvalue⟩ |
        ⟨hnext, hvalue⟩
      · simp only [hvalue, hnext, directResult, toHttpResponse_publishResponse, and_self]
      · simp only [hvalue, directResult]
        by_cases hempty : result.responseHeaders.isEmpty = true
        · rw [if_pos hempty]
          rw [List.isEmpty_iff] at hempty
          have hstatus : ResponseView.empty.status = 0 := rfl
          cases hcase : result.next with
          | respond => exact absurd hcase hnext
          | pass => simp [hempty, withResponseHeaders_empty]
          | upgrade => simp [hempty, withResponseHeaders_empty]
          | error => simp [hempty, hstatus, withResponseHeaders_empty]
        · rw [if_neg hempty]
          have hheaders := copyHeaders_publishResponseHeaders result.responseHeaders .empty storage
          have hstatus : (Module.publishResponseHeaders result.responseHeaders .empty
            storage).1.status = 0 := rfl
          obtain ⟨hpass, hupgrade, herror⟩ := foldl_addResponseHeader result.responseHeaders []
          cases hcase : result.next with
          | respond => exact absurd hcase hnext
          | pass => simp [withResponseHeaders, hheaders, hpass]
          | upgrade => simp [withResponseHeaders, hheaders, hupgrade]
          | error => simp [withResponseHeaders, hheaders, hstatus, herror]

end App
end Garcon
