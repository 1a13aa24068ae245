import Garcon.App.RequestPipeline
import Garcon.Http.Fields

/-!
# The headers of modules that pass

The pipeline asks its modules in order until one does not pass.  Its response is that of
the last module asked, and the header fields that all modules asked have attached come
behind the response's own.  On the wire this shows as the lines of the response alone,
followed by those fields that may be written.
-/

namespace Garcon
namespace App

open Ascii Search Http

variable {ω : Type}

namespace ModuleResult

/-- The response that a result which does not pass ends the chain with. -/
inductive Ends : ModuleResult → Response → Prop where
  | respond (response : Response) : Ends (.respond response) response
  | upgrade (headers : List HeaderField) : Ends (.upgrade headers)
      (.text 501 (ascii "Not Implemented") (ascii "connection upgrade not implemented\n"))
  | error (headers : List HeaderField) : Ends (.error headers)
      (.text 500 (ascii "Internal Server Error") (ascii "module error\n"))

def Passes (result : ModuleResult) : Prop := ∃ headers, result = .pass headers

theorem ends_of_answer {result : ModuleResult} {response : Response}
    (h : result.answer = some response) : result.Ends response := by
  cases result with
  | pass headers => cases h
  | respond response' =>
      cases h
      exact .respond response
  | upgrade headers =>
      cases h
      exact .upgrade headers
  | error headers =>
      cases h
      exact .error headers

/-- The header fields kept beside a result. -/
def attached : ModuleResult → List HeaderField
  | .pass headers => headers
  | .respond _ => []
  | .upgrade headers => headers
  | .error headers => headers

end ModuleResult

/-- The results of modules that are asked one after the other. -/
def consult (request : Request) : List (RequestModule ω) → ω → List ModuleResult × ω
  | [], w => ([], w)
  | module :: modules, w =>
    let (result, w) := module request w
    let (results, w) := consult request modules w
    (result :: results, w)

theorem consult_cons {request : Request} {module : RequestModule ω}
    {modules : List (RequestModule ω)} {w w' w'' : ω} {result : ModuleResult}
    {results : List ModuleResult} (hmodule : module request w = (result, w'))
    (h : consult request modules w' = (results, w'')) :
    consult request (module :: modules) w = (result :: results, w'') := by
  rw [consult, hmodule]
  show (result :: (consult request modules w').1, (consult request modules w').2) = _
  rw [h]

/-- The modules asked are the first ones, and only the last of them, if any, answers. -/
structure Consulted (modules : List (RequestModule ω)) (request : Request) (w w' : ω)
    (asked : List (RequestModule ω)) (results : List ModuleResult) (final : Response) : Prop where
  first : asked <+: modules
  run : consult request asked w = (results, w')
  passed : ∀ result ∈ results.dropLast, result.Passes
  ending : (∃ last ∈ results.getLast?, last.Ends final) ∨
    asked = modules ∧ (∀ result ∈ results, result.Passes) ∧
      final = .text 404 (ascii "Not Found") (ascii "not found\n")

namespace Consulted

variable {modules asked : List (RequestModule ω)} {module : RequestModule ω} {request : Request}
  {w w' w'' : ω} {results : List ModuleResult} {final : Response}

theorem none : Consulted [] request w w [] [] pipelineNotFound where
  first := List.prefix_rfl
  run := rfl
  passed := fun _ h => nomatch h
  ending := Or.inr ⟨rfl, fun _ h => (nomatch h), rfl⟩

/-- A module that answers is the last one asked. -/
theorem answered {result : ModuleResult} (hmodule : module request w = (result, w'))
    (h : result.answer = some final) :
    Consulted (module :: modules) request w w' [module] [result] final where
  first := ⟨modules, rfl⟩
  run := consult_cons hmodule rfl
  passed := fun _ h => nomatch h
  ending := Or.inl ⟨result, rfl, ModuleResult.ends_of_answer h⟩

theorem pass {result : ModuleResult} (hmodule : module request w = (result, w'))
    (hpass : result.Passes) (h : Consulted modules request w' w'' asked results final) :
    Consulted (module :: modules) request w w'' (module :: asked) (result :: results) final where
  first := (List.prefix_cons_inj module).mpr h.first
  run := consult_cons hmodule h.run
  passed := by
    intro r hr
    cases results with
    | nil => cases hr
    | cons next results =>
        rcases List.mem_cons.mp hr with rfl | hr
        · exact hpass
        · exact h.passed r hr
  ending := by
    rcases h.ending with ⟨last, hlast, hfinal⟩ | ⟨rfl, hall, hfinal⟩
    · refine Or.inl ⟨last, ?_, hfinal⟩
      rw [List.getLast?_cons, Option.mem_def.mp hlast]
      rfl
    · refine Or.inr ⟨rfl, ?_, hfinal⟩
      intro r hr
      rcases List.mem_cons.mp hr with rfl | hr
      · exact hpass
      · exact hall r hr

end Consulted

/-- The loop asks the modules up to the first that answers, and adds what they attached to
what was attached before. -/
theorem consulted_handleFrom (pendingHeaders : List HeaderField)
    (modules : List (RequestModule ω)) (request : Request) (w : ω) :
    ∃ asked results final,
      Consulted modules request w (RequestPipeline.handleFrom pendingHeaders modules request w).2
        asked results final ∧
      (RequestPipeline.handleFrom pendingHeaders modules request w).1 =
        finalizeResponse final (pendingHeaders ++ results.flatMap ModuleResult.attached) := by
  induction modules generalizing pendingHeaders w with
  | nil =>
      refine ⟨[], [], pipelineNotFound, .none, ?_⟩
      rw [List.flatMap_nil, List.append_nil]
      rfl
  | cons module modules ih =>
      obtain ⟨result, w', hmodule⟩ : ∃ result w', module request w = (result, w') :=
        ⟨_, _, rfl⟩
      rw [RequestPipeline.handleFrom, hmodule]
      cases result with
      | pass headers =>
          obtain ⟨asked, results, final, hasked, hresponse⟩ := ih (pendingHeaders ++ headers) w'
          refine ⟨module :: asked, .pass headers :: results, final,
            .pass hmodule ⟨_, rfl⟩ hasked, ?_⟩
          rw [List.flatMap_cons, ← List.append_assoc]
          exact hresponse
      | respond response =>
          refine ⟨[module], [.respond response], response, .answered hmodule rfl, ?_⟩
          show finalizeResponse response pendingHeaders = _
          rw [List.flatMap_singleton, ModuleResult.attached, List.append_nil]
      | upgrade headers =>
          refine ⟨[module], [.upgrade headers], upgradeNotImplemented, .answered hmodule rfl, ?_⟩
          rw [List.flatMap_singleton]
          rfl
      | error headers =>
          refine ⟨[module], [.error headers], moduleError, .answered hmodule rfl, ?_⟩
          rw [List.flatMap_singleton]
          rfl

/-- The wire text of a response with further fields, when its reason phrase is one line. -/
theorem decodes_finalizeResponse {final : Response} (hreason : cr ∉ final.reason)
    (pendingHeaders : List HeaderField) (policy : ConnectionPolicy) :
    ∃ head, cut headerEnd ((finalizeResponse final pendingHeaders).serialize policy) =
        some (head, final.body) ∧
      splitAll crlf crlf_ne_nil head =
        (finalizeResponse final pendingHeaders).headLines policy := by
  have hline : ¬ crlf <:+: (finalizeResponse final pendingHeaders).reason :=
    fun h => hreason (h.subset List.mem_cons_self)
  exact Response.decodes_iff.mpr hline

/-- The pipeline's response is that of the last module asked, with the fields that the
modules asked have attached behind its own.  On the wire these are the lines that follow,
where they may be written, and there is one connection field and one content length. -/
theorem handle_accumulates (modules : List (RequestModule ω)) (request : Request) (w : ω) :
    ∃ asked results final,
      Consulted modules request w (RequestPipeline.handle modules request w).2
        asked results final ∧
      (RequestPipeline.handle modules request w).1 =
        { final with
          headers := final.headers ++ results.flatMap ModuleResult.attached } ∧
      (cr ∉ final.reason → lf ∉ final.reason → ∀ policy, ∃ head,
        cut headerEnd ((RequestPipeline.handle modules request w).1.serialize policy) =
            some (head, final.body) ∧
          splitAll crlf crlf_ne_nil head =
            Response.meantLines policy final.status final.reason final.contentType
              (final.contentLength.getD final.body.length)
              (final.headers ++ results.flatMap ModuleResult.attached) ∧
          (splitAll crlf crlf_ne_nil head).tail.filterMap
              (Client.fieldValue (ascii "Connection")) =
            [if policy = .keepAlive then ascii "keep-alive" else ascii "close"] ∧
          (splitAll crlf crlf_ne_nil head).tail.filterMap
              (Client.fieldValue (ascii "Content-Length")) =
            [decimal (final.contentLength.getD final.body.length)]) := by
  obtain ⟨asked, results, final, hasked, hresponse⟩ := consulted_handleFrom [] modules request w
  refine ⟨asked, results, final, hasked, hresponse, fun hcr _ policy => ?_⟩
  rw [RequestPipeline.handle, hresponse]
  obtain ⟨head, hcut, hsplit⟩ :=
    decodes_finalizeResponse hcr ([] ++ results.flatMap ModuleResult.attached) policy
  refine ⟨head, hcut, ?_, ?_, ?_⟩
  · rw [hsplit, Response.headLines_eq_meantLines]
    rfl
  · have hconnection := (finalizeResponse final
      ([] ++ results.flatMap ModuleResult.attached)).fieldsNamed_connection policy
    rw [hsplit]
    cases policy <;> exact hconnection
  · rw [hsplit]
    exact Response.fieldsNamed_contentLength _ policy

end App
end Garcon
