import Garcon.App.DynamicModule

/-!
# The ABI is transparent

Calls that one thread makes to its modules through the ABI, one after the other, give the
host what calls of the module objects themselves would give it.  The ABI has no field for
the HTTP version, so the module objects are called on requests with the version that a
request has by default.
-/

namespace Garcon
namespace App

open Http

/-- A call to one of the modules, which share a state `ω`. -/
structure ModuleCall (ω : Type) where
  implementation : Module.Handler ω
  request : Request

variable {ω : Type}

/-- The results of calls through the ABI, which use the storage of their thread in turn. -/
def dynamicResults : List (ModuleCall ω) → Module.Storage → ω → List ModuleResult × ω
  | [], _, w => ([], w)
  | call :: calls, storage, w =>
    let (result, storage, w) := dynamicHandle call.implementation call.request storage w
    let (results, w) := dynamicResults calls storage w
    (result :: results, w)

/-- The results of calls of the module objects themselves. -/
def directResults : List (ModuleCall ω) → ω → List ModuleResult × ω
  | [], w => ([], w)
  | call :: calls, w =>
    let (outcome, w) := call.implementation call.request w
    let (results, w) := directResults calls w
    (directResult outcome :: results, w)

/-- The same call with the version that a request has by default. -/
def ModuleCall.visible (call : ModuleCall ω) : ModuleCall ω :=
  { call with request := App.visible call.request }

/-- Whatever is in the storage at first, calls through the ABI give the results of direct
calls, and leave the modules in the same state. -/
theorem dynamicResults_eq (calls : List (ModuleCall ω)) (storage : Module.Storage) (w : ω)
    (hbuilt : ∀ call ∈ calls, ∀ request w result,
      (call.implementation request w).1 = .ok result → Built result) :
    dynamicResults calls storage w = directResults (calls.map ModuleCall.visible) w := by
  induction calls generalizing storage w with
  | nil => rfl
  | cons call calls ih =>
      have hrest := fun storage w => ih storage w
        fun later hlater => hbuilt later (List.mem_cons_of_mem _ hlater)
      obtain ⟨hresult, hstate⟩ := dynamicHandle_eq call.implementation call.request storage w
        fun result hok => hbuilt call List.mem_cons_self _ _ result hok
      rw [List.map_cons, dynamicResults, directResults]
      cases hcall : dynamicHandle call.implementation call.request storage w with
      | mk result rest =>
      obtain ⟨storage', w'⟩ := rest
      rw [hcall] at hresult hstate
      simp only at hresult hstate
      rw [hresult, hstate]
      simp only [hrest]
      rfl

/-- A module that tells the HTTP versions apart. -/
def versionCall : ModuleCall Unit where
  implementation := fun request w =>
    (.ok (if request.versionMinor = 0 then .pass else .error), w)
  request :=
    { method := Ascii.ascii "GET"
      target := Ascii.ascii "/"
      versionMinor := 0
      headers := [] }

theorem built_versionCall (request : Request) (w : Unit) (result : Module.Result)
    (h : (versionCall.implementation request w).1 = .ok result) : Built result := by
  simp only [versionCall, Except.ok.injEq] at h
  rw [← h]
  split
  · exact .pass
  · exact .error

/-- A module that greets with a field of the response's own and an added one, passes with a
field of its own for one target, and throws for another. -/
def greet (request : Request) (w : Unit) : Except String Module.Result × Unit :=
  if request.target = Ascii.ascii "/pass" then
    (.ok (Module.Result.pass.addResponseHeader (Ascii.ascii "X-Seen") request.target), w)
  else if request.target = Ascii.ascii "/throw" then (.error "no greeting", w)
  else
    let response : Response :=
      { status := 0
        reason := []
        headers := [⟨Ascii.ascii "Vary", Ascii.ascii "Origin"⟩]
        body := Ascii.ascii "hello" }
    (.ok ((Module.Result.respond response).addResponseHeader (Ascii.ascii "X-Seen")
      request.target), w)

def greetCall (target : Bytes) : ModuleCall Unit where
  implementation := greet
  request :=
    { method := Ascii.ascii "GET"
      target := target
      headers := [] }

theorem built_greet (request : Request) (w : Unit) (result : Module.Result)
    (h : (greet request w).1 = .ok result) : Built result := by
  unfold greet at h
  by_cases hpass : request.target = Ascii.ascii "/pass"
  · rw [if_pos hpass] at h
    cases h
    exact .addResponseHeader _ _ .pass
  · by_cases hthrow : request.target = Ascii.ascii "/throw"
    · rw [if_neg hpass, if_pos hthrow] at h
      cases h
    · rw [if_neg hpass, if_neg hthrow] at h
      cases h
      exact .addResponseHeader _ _ (.respond _)

/-- On one thread the module responds, throws, passes and responds again. -/
theorem dynamicResults_eq_greetings :
    dynamicResults
        [greetCall (Ascii.ascii "/a"), greetCall (Ascii.ascii "/throw"),
          greetCall (Ascii.ascii "/pass"), greetCall (Ascii.ascii "/b")] {} () =
      ([.respond
          { status := 200
            reason := Ascii.ascii "OK"
            headers :=
              [⟨Ascii.ascii "Vary", Ascii.ascii "Origin"⟩,
                ⟨Ascii.ascii "X-Seen", Ascii.ascii "/a"⟩]
            body := Ascii.ascii "hello" },
        .error [],
        .pass [⟨Ascii.ascii "X-Seen", Ascii.ascii "/pass"⟩],
        .respond
          { status := 200
            reason := Ascii.ascii "OK"
            headers :=
              [⟨Ascii.ascii "Vary", Ascii.ascii "Origin"⟩,
                ⟨Ascii.ascii "X-Seen", Ascii.ascii "/b"⟩]
            body := Ascii.ascii "hello" }], ()) := by
  refine (dynamicResults_eq _ {} () ?_).trans (by decide)
  intro call hmem
  simp only [List.mem_cons, List.not_mem_nil, or_false] at hmem
  rcases hmem with rfl | rfl | rfl | rfl <;> exact built_greet

/-- The version does not reach the module. -/
theorem version_does_not_cross :
    ¬ ∀ (calls : List (ModuleCall Unit)) (storage : Module.Storage),
      (∀ call ∈ calls, ∀ request w result,
        (call.implementation request w).1 = .ok result → Built result) →
      dynamicResults calls storage () = directResults calls () := by
  intro hclaim
  have hcall := hclaim [versionCall] {} fun call hmem => by
    rw [List.mem_singleton.mp hmem]
    exact built_versionCall
  have hdynamic : (dynamicResults [versionCall] {} ()).1 = [.error []] := by decide
  have hdirect : (directResults [versionCall] ()).1 = [.pass []] := by decide
  rw [hcall, hdirect] at hdynamic
  cases hdynamic

end App
end Garcon
