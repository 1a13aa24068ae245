import Garcon.App.Loading
import Garcon.Library.Protocol

/-!
# The lives of the modules

Whatever the loader and the modules do, each library is closed once for each time it was
opened, after its instance was destroyed, and no instance is asked before all are there.
-/

namespace Garcon
namespace App

open Http Protocol

namespace ModuleEvent

inductive Phase where
  | absent
  | opened
  | live (destroyable : Bool)
  | released
  | misused
deriving DecidableEq, Repr

/-- An instance that cannot be destroyed is left behind when its library is closed. -/
def lifecycle : DFA ModuleEvent Phase where
  step
    | .absent, .opened => .opened
    | .opened, .entered => .opened
    | .opened, .created destroyable => .live destroyable
    | .opened, .closed => .released
    | .live destroyable, .handled => .live destroyable
    | .live true, .destroyed => .opened
    | .live false, .closed => .released
    | _, _ => .misused
  start := .absent
  accept := {.absent, .released}

end ModuleEvent

open ModuleEvent

variable {ι ω : Type} {paths : Paths} {config : ServerConfig} {loader : Loader ι ω} {n : Nat}
variable {configured : ConfiguredModule} {pipeline pipeline' : List (DynamicModule ι ω)}
variable {phases : Nat → Phase} {log : ModuleLog} {events : List ModuleEvent}
variable {module : DynamicModule ι ω} {what : String}

/-! ## One module -/

theorem instantiate_cases {library : Library ι ω} {result : Except String (DynamicModule ι ω)}
    (h : library.instantiate paths config n configured = (events, result)) :
    (∃ what k, result = .error what ∧ events = List.replicate k .entered) ∨
      ∃ module, result = .ok module ∧ module.libraryHandle = n ∧
        events = [.entered, .created module.descriptor.destroys] := by
  cases library with
  | withoutEntrypoint detail => cases h; exact Or.inl ⟨_, 0, rfl, rfl⟩
  | threw what => cases h; exact Or.inl ⟨_, 1, rfl, rfl⟩
  | returned descriptor =>
      cases descriptor with
      | none => cases h; exact Or.inl ⟨_, 1, rfl, rfl⟩
      | some descriptor =>
          unfold Library.instantiate at h
          dsimp only at h
          by_cases habi : descriptor.abiVersion ≠ Abi.moduleAbiVersion
          · rw [if_pos habi] at h
            cases h
            exact Or.inl ⟨_, 1, rfl, rfl⟩
          · rw [if_neg habi] at h
            cases hcreate : descriptor.create (hostApi config configured)
                (cString configured.configText) with
            | made object => rw [hcreate] at h; cases h; exact Or.inr ⟨_, rfl, rfl, rfl⟩
            | refused message => rw [hcreate] at h; cases h; exact Or.inl ⟨_, 2, rfl, rfl⟩
            | threw what => rw [hcreate] at h; cases h; exact Or.inl ⟨_, 2, rfl, rfl⟩

/-- The constructor leaves a module, or a library that it did not open or has closed again. -/
theorem new_cases {result : Except String (DynamicModule ι ω)}
    (h : DynamicModule.new paths config loader n configured = (events, result)) :
    (∃ what, result = .error what ∧
      (events = [] ∨ ∃ k, events = .opened :: List.replicate k .entered ++ [.closed])) ∨
      ∃ module, result = .ok module ∧ module.libraryHandle = n ∧
        events = [.opened, .entered, .created module.descriptor.destroys] := by
  unfold DynamicModule.new at h
  cases hload : loader n (cString configured.libraryFile) with
  | error detail =>
      rw [hload] at h
      cases h
      exact Or.inl ⟨_, rfl, Or.inl rfl⟩
  | ok library =>
      rw [hload] at h
      dsimp only at h
      rcases hinstantiate : library.instantiate paths config n configured with ⟨inside, made⟩
      rw [hinstantiate] at h
      cases instantiate_cases hinstantiate with
      | inl herror =>
          obtain ⟨what, k, hmade, hinside⟩ := herror
          subst hmade hinside
          cases h
          exact Or.inl ⟨what, rfl, Or.inr ⟨k, rfl⟩⟩
      | inr hok =>
          obtain ⟨module, hmade, hhandle, hinside⟩ := hok
          subst hmade hinside
          cases h
          exact Or.inr ⟨module, rfl, hhandle, rfl⟩

theorem new_eq_ok (h : DynamicModule.new paths config loader n configured = (events, .ok module)) :
    module.libraryHandle = n ∧
      events = [.opened, .entered, .created module.descriptor.destroys] := by
  cases new_cases h with
  | inl herror =>
      obtain ⟨what, heq, -⟩ := herror
      cases heq
  | inr hok =>
      obtain ⟨other, heq, hmodule⟩ := hok
      cases heq
      exact hmodule

theorem evalFrom_entered (k : Nat) :
    lifecycle.evalFrom .opened (List.replicate k .entered) = .opened := by
  induction k with
  | zero => rfl
  | succ k ih => exact ih

/-- What a failed constructor opened, it has closed. -/
theorem new_eq_error
    (h : DynamicModule.new paths config loader n configured = (events, .error what)) :
    lifecycle.eval events ∈ lifecycle.accept := by
  cases new_cases h with
  | inl herror =>
      obtain ⟨what, -, hevents⟩ := herror
      cases hevents with
      | inl hnil => rw [hnil]; exact Or.inl rfl
      | inr hevents =>
          obtain ⟨k, hevents⟩ := hevents
          rw [hevents]
          show lifecycle.evalFrom .opened (List.replicate k .entered ++ [.closed]) ∈ _
          rw [DFA.evalFrom_append_singleton, evalFrom_entered]
          exact Or.inr rfl
  | inr hok =>
      obtain ⟨module, heq, -⟩ := hok
      cases heq

/-- The destructor takes a live module to a released library and touches no other. -/
theorem after_destroy (hlive : phases module.libraryHandle = .live module.descriptor.destroys) :
    after lifecycle phases module.destroy =
      Function.update phases module.libraryHandle .released := by
  unfold DynamicModule.destroy
  cases hdestroys : module.descriptor.destroys with
  | true =>
      rw [hdestroys] at hlive
      rw [if_pos rfl, after_cons, hlive, after_cons, Function.update_self, Function.update_idem]
      rfl
  | false =>
      rw [hdestroys] at hlive
      rw [if_neg Bool.false_ne_true, after_cons, hlive]
      rfl

/-! ## The pipeline -/

/-- The modules of a pipeline are live, and nothing beyond them was opened yet. -/
structure Loaded (phases : Nat → Phase) (pipeline : List (DynamicModule ι ω)) : Prop where
  handles : pipeline.map DynamicModule.libraryHandle = List.range pipeline.length
  live : ∀ module ∈ pipeline, phases module.libraryHandle = .live module.descriptor.destroys
  absent : ∀ other, pipeline.length ≤ other → phases other = .absent

theorem loaded_nil : Loaded (fun _ => lifecycle.start) ([] : List (DynamicModule ι ω)) :=
  ⟨rfl, nofun, fun _ _ => rfl⟩

namespace Loaded

variable (hloaded : Loaded phases pipeline)
include hloaded

theorem libraryHandle_lt (hmodule : module ∈ pipeline) :
    module.libraryHandle < pipeline.length := by
  have hmem := List.mem_map_of_mem (f := DynamicModule.libraryHandle) hmodule
  rwa [hloaded.handles, List.mem_range] at hmem

theorem exists_live {handle : Nat} (hlt : handle < pipeline.length) :
    ∃ destroyable, phases handle = .live destroyable := by
  have hmem := List.mem_range.mpr hlt
  rw [← hloaded.handles] at hmem
  obtain ⟨module, hmodule, heq⟩ := List.mem_map.mp hmem
  exact ⟨_, heq ▸ hloaded.live module hmodule⟩

/-- A new module goes behind the others. -/
theorem append
    (hnew : DynamicModule.new paths config loader pipeline.length configured =
      (events, .ok module)) :
    Loaded (after lifecycle phases (events.map fun e => (pipeline.length, e)))
      (pipeline ++ [module]) := by
  obtain ⟨hhandle, hevents⟩ := new_eq_ok hnew
  have hphase : lifecycle.evalFrom (phases pipeline.length) events =
      .live module.descriptor.destroys := by
    rw [hloaded.absent _ (le_refl _), hevents]
    rfl
  rw [after_map, hphase]
  refine ⟨?_, ?_, ?_⟩
  · rw [List.map_append, hloaded.handles, List.length_append, List.map_singleton, hhandle]
    exact List.range_succ.symm
  · intro other hother
    cases List.mem_append.mp hother with
    | inl hmem =>
        rw [Function.update_of_ne (ne_of_lt (hloaded.libraryHandle_lt hmem))]
        exact hloaded.live other hmem
    | inr hmem =>
        rw [List.mem_singleton.mp hmem, hhandle, Function.update_self]
  · intro other hother
    rw [List.length_append, List.length_singleton] at hother
    rw [Function.update_of_ne (by omega)]
    exact hloaded.absent other (by omega)

end Loaded

/-- Live modules with different handles are destroyed one by one. -/
theorem after_destroyPipeline (hnodup : (pipeline.map DynamicModule.libraryHandle).Nodup)
    (hlive : ∀ module ∈ pipeline,
      phases module.libraryHandle = .live module.descriptor.destroys) (handle : Nat) :
    after lifecycle phases (destroyPipeline pipeline) handle =
      if handle ∈ pipeline.map DynamicModule.libraryHandle then .released else phases handle := by
  induction pipeline generalizing phases with
  | nil => rfl
  | cons module pipeline ih =>
      rw [List.map_cons, List.nodup_cons] at hnodup
      rw [destroyPipeline, List.flatMap_cons, after_append,
        after_destroy (hlive module List.mem_cons_self)]
      rw [← destroyPipeline, ih hnodup.2, List.map_cons]
      · by_cases hself : handle = module.libraryHandle
        · subst hself
          rw [if_neg hnodup.1, Function.update_self, if_pos List.mem_cons_self]
        · rw [Function.update_of_ne hself]
          simp only [List.mem_cons, hself, false_or]
      · intro other hother
        have hne : other.libraryHandle ≠ module.libraryHandle := fun heq =>
          hnodup.1 (heq ▸ List.mem_map_of_mem hother)
        rw [Function.update_of_ne hne]
        exact hlive other (List.mem_cons_of_mem _ hother)

/-- Nothing is left of a pipeline that was destroyed, nor of what has failed before. -/
theorem Loaded.accept (hloaded : Loaded phases pipeline) {phases' : Nat → Phase}
    (hsame : ∀ other < pipeline.length, phases' other = phases other)
    (hrest : ∀ other, pipeline.length ≤ other → phases' other ∈ lifecycle.accept) (handle : Nat) :
    after lifecycle phases' (destroyPipeline pipeline) handle ∈ lifecycle.accept := by
  rw [after_destroyPipeline (hloaded.handles ▸ List.nodup_range)]
  · by_cases hmem : handle ∈ pipeline.map DynamicModule.libraryHandle
    · rw [if_pos hmem]
      exact Or.inr rfl
    · rw [if_neg hmem]
      rw [hloaded.handles, List.mem_range] at hmem
      exact hrest handle (by omega)
  · intro module hmodule
    rw [hsame _ (hloaded.libraryHandle_lt hmodule)]
    exact hloaded.live module hmodule

theorem addModules_ok {modules : List ConfiguredModule} (hloaded : Loaded phases pipeline)
    (h : addModules paths config loader pipeline modules = (log, .ok pipeline')) :
    Loaded (after lifecycle phases log) pipeline' ∧
      pipeline'.length = pipeline.length + modules.length := by
  induction modules generalizing pipeline phases log with
  | nil =>
      cases h
      exact ⟨hloaded, rfl⟩
  | cons configured modules ih =>
      rw [addModules] at h
      rcases hnew : DynamicModule.new paths config loader pipeline.length configured with
        ⟨events, what | module⟩
      · rw [hnew] at h
        cases h
      · rw [hnew] at h
        dsimp only at h
        rcases hrest : addModules paths config loader (pipeline ++ [module]) modules with
          ⟨rest, result⟩
        rw [hrest] at h
        cases h
        obtain ⟨hloaded', hlength⟩ := ih (hloaded.append hnew) hrest
        rw [after_append]
        refine ⟨hloaded', ?_⟩
        rw [hlength, List.length_append, List.length_singleton, List.length_cons]
        omega

/-- A failure leaves nothing open. -/
theorem addModules_error {modules : List ConfiguredModule} (hloaded : Loaded phases pipeline)
    (h : addModules paths config loader pipeline modules = (log, .error what)) (handle : Nat) :
    after lifecycle phases log handle ∈ lifecycle.accept := by
  induction modules generalizing pipeline phases log with
  | nil => cases h
  | cons configured modules ih =>
      rw [addModules] at h
      rcases hnew : DynamicModule.new paths config loader pipeline.length configured with
        ⟨events, what' | module⟩
      · rw [hnew] at h
        cases h
        rw [after_append, after_map]
        refine hloaded.accept ?_ ?_ handle
        · intro other hother
          exact Function.update_of_ne (ne_of_lt hother) _ _
        · intro other hother
          by_cases heq : other = pipeline.length
          · subst heq
            rw [Function.update_self, hloaded.absent _ hother]
            exact new_eq_error hnew
          · rw [Function.update_of_ne heq, hloaded.absent other hother]
            exact Or.inl rfl
      · rw [hnew] at h
        dsimp only at h
        rcases hrest : addModules paths config loader (pipeline ++ [module]) modules with
          ⟨rest, result⟩
        rw [hrest] at h
        cases h
        rw [after_append]
        exact ih (hloaded.append hnew) hrest

/-! ## The requests -/

/-- What a request adds to the log are calls of modules of the pipeline. -/
def Calls (pipeline : List (DynamicModule ι ω)) (calls : ModuleLog) : Prop :=
  ∀ entry ∈ calls, ∃ module ∈ pipeline, entry = (module.libraryHandle, .handled)

theorem handleFrom_logged (pipeline : List (DynamicModule ι ω)) (pending : List HeaderField)
    (request : Request) (lw : ModuleLog × ω) :
    ∃ calls, (RequestPipeline.handleFrom pending (pipeline.map DynamicModule.logged) request
      lw).2.1 = lw.1 ++ calls ∧ Calls pipeline calls := by
  induction pipeline generalizing pending lw with
  | nil => exact ⟨[], (List.append_nil _).symm, nofun⟩
  | cons module pipeline ih =>
      have hcall : ∃ call, (module.logged request lw).2.1 = lw.1 ++ call ∧
          ∀ entry ∈ call, entry = (module.libraryHandle, ModuleEvent.handled) := by
        refine ⟨_, rfl, fun entry hentry => ?_⟩
        cases hhandle : module.descriptor.handle.isSome with
        | true =>
            rw [hhandle, if_pos rfl] at hentry
            exact List.mem_singleton.mp hentry
        | false =>
            rw [hhandle, if_neg Bool.false_ne_true] at hentry
            cases hentry
      obtain ⟨call, hlog, hentries⟩ := hcall
      have hself : Calls (module :: pipeline) call := fun entry hentry =>
        ⟨module, List.mem_cons_self, hentries entry hentry⟩
      rw [List.map_cons, RequestPipeline.handleFrom]
      rcases hresult : module.logged request lw with ⟨result, lw'⟩
      rw [hresult] at hlog
      cases result with
      | pass headers =>
          obtain ⟨calls, hcalls, hmodules⟩ := ih (pending ++ headers) lw'
          refine ⟨call ++ calls, ?_, fun entry hentry => ?_⟩
          · dsimp only
            rw [hcalls, hlog, List.append_assoc]
          · cases List.mem_append.mp hentry with
            | inl hmem => exact hself entry hmem
            | inr hmem =>
                obtain ⟨other, hother, heq⟩ := hmodules entry hmem
                exact ⟨other, List.mem_cons_of_mem _ hother, heq⟩
      | respond response => exact ⟨call, hlog, hself⟩
      | upgrade headers => exact ⟨call, hlog, hself⟩
      | error headers => exact ⟨call, hlog, hself⟩

theorem answerAll_logged (pipeline : List (DynamicModule ι ω)) (requests : List Request)
    (lw : ModuleLog × ω) :
    ∃ calls, (answerAll (RequestPipeline.handle (pipeline.map DynamicModule.logged)) requests
      lw).2.1 = lw.1 ++ calls ∧ Calls pipeline calls := by
  induction requests generalizing lw with
  | nil => exact ⟨[], (List.append_nil _).symm, nofun⟩
  | cons request requests ih =>
      obtain ⟨first, hfirst, hmodules⟩ := handleFrom_logged pipeline [] request lw
      obtain ⟨rest, hrest, hothers⟩ :=
        ih (RequestPipeline.handle (pipeline.map DynamicModule.logged) request lw).2
      refine ⟨first ++ rest, ?_, fun entry hentry => ?_⟩
      · show (answerAll _ requests
          (RequestPipeline.handle (pipeline.map DynamicModule.logged) request lw).2).2.1 = _
        rw [hrest, RequestPipeline.handle, hfirst, List.append_assoc]
      · cases List.mem_append.mp hentry with
        | inl hmem => exact hmodules entry hmem
        | inr hmem => exact hothers entry hmem

/-- Calls of live modules leave every phase as it is. -/
theorem Loaded.after_calls (hloaded : Loaded phases pipeline) {calls : ModuleLog}
    (hcalls : Calls pipeline calls) : after lifecycle phases calls = phases := by
  refine after_eq_self fun entry hentry => ?_
  obtain ⟨module, hmodule, heq⟩ := hcalls entry hentry
  rw [heq, hloaded.live module hmodule]
  rfl

/-! ## No calls but these -/

/-- Nothing is asked while modules are constructed or destroyed. -/
def Silent (log : ModuleLog) : Prop := ∀ entry ∈ log, entry.2 ≠ .handled

theorem Silent.append {log' : ModuleLog} (h : Silent log) (h' : Silent log') :
    Silent (log ++ log') := fun entry hentry =>
  (List.mem_append.mp hentry).elim (h entry) (h' entry)

theorem silent_new {result : Except String (DynamicModule ι ω)} (k : Nat)
    (h : DynamicModule.new paths config loader n configured = (events, result)) :
    Silent (events.map fun e => (k, e)) := by
  intro entry hentry
  obtain ⟨e, he, heq⟩ := List.mem_map.mp hentry
  rw [← heq]
  intro hhandled
  rw [show e = .handled from hhandled] at he
  cases new_cases h with
  | inl herror =>
      obtain ⟨what, -, hevents⟩ := herror
      cases hevents with
      | inl hnil => simp [hnil] at he
      | inr hevents =>
          obtain ⟨k, hevents⟩ := hevents
          simp [hevents] at he
  | inr hok =>
      obtain ⟨module, -, -, hevents⟩ := hok
      simp [hevents] at he

theorem silent_destroyPipeline : Silent (destroyPipeline pipeline) := by
  intro entry hentry
  obtain ⟨module, -, hmem⟩ := List.mem_flatMap.mp hentry
  unfold DynamicModule.destroy at hmem
  cases hdestroys : module.descriptor.destroys with
  | true =>
      rw [hdestroys, if_pos rfl] at hmem
      cases hmem with
      | head => nofun
      | tail _ hmem => rw [List.mem_singleton.mp hmem]; nofun
  | false =>
      rw [hdestroys, if_neg Bool.false_ne_true] at hmem
      rw [List.mem_singleton.mp hmem]
      nofun

theorem silent_addModules {modules : List ConfiguredModule}
    {result : Except String (List (DynamicModule ι ω))}
    (h : addModules paths config loader pipeline modules = (log, result)) : Silent log := by
  induction modules generalizing pipeline log with
  | nil =>
      cases h
      nofun
  | cons configured modules ih =>
      rw [addModules] at h
      rcases hnew : DynamicModule.new paths config loader pipeline.length configured with
        ⟨events, what | module⟩
      · rw [hnew] at h
        cases h
        exact (silent_new _ hnew).append silent_destroyPipeline
      · rw [hnew] at h
        dsimp only at h
        rcases hrest : addModules paths config loader (pipeline ++ [module]) modules with
          ⟨rest, result'⟩
        rw [hrest] at h
        cases h
        exact (silent_new _ hnew).append (ih hrest)

/-- A call in the log is one of those between silent parts. -/
theorem exists_of_append_eq {loads calls unloads before rest : ModuleLog} {handle : Nat}
    (hloads : Silent loads) (hunloads : Silent unloads)
    (h : loads ++ calls ++ unloads = before ++ (handle, .handled) :: rest) :
    ∃ earlier, before = loads ++ earlier ∧ earlier <+: calls := by
  rw [List.append_assoc] at h
  cases List.append_eq_append_iff.mp h with
  | inl hbehind =>
      obtain ⟨earlier, hbefore, hrest⟩ := hbehind
      cases List.append_eq_append_iff.mp hrest with
      | inl hafter =>
          obtain ⟨late, -, hunload⟩ := hafter
          exact absurd rfl (hunloads (handle, .handled)
            (hunload ▸ List.mem_append_right _ List.mem_cons_self))
      | inr hinside =>
          obtain ⟨later, hcalls, -⟩ := hinside
          exact ⟨earlier, hbefore, later, hcalls.symm⟩
  | inr hwithin =>
      obtain ⟨late, hload, hrest⟩ := hwithin
      cases late with
      | nil => exact ⟨[], by rw [hload, List.append_nil, List.append_nil], List.nil_prefix⟩
      | cons entry late =>
          rw [List.cons_append, List.cons.injEq] at hrest
          exact absurd (congrArg Prod.snd hrest.1.symm) (hloads entry
            (hload ▸ List.mem_append_right _ List.mem_cons_self))

/-! ## The whole life -/

/-- Whatever the loader and the modules do, each library goes through its life: it is closed
exactly once when it was opened, and no instance is asked before it was created or after it
was destroyed.  When a module is asked, all that are configured are live. -/
theorem handlerLife_lifecycle (paths : Paths) (config : ServerConfig) (loader : Loader ι ω)
    (listing : Option Listing) (requests : List Request) (w : ω) :
    (∀ handle, eventsOf handle (handlerLife paths config loader listing requests w).1 ∈
      lifecycle.accepts) ∧
    ∀ before handle rest,
      (handlerLife paths config loader listing requests w).1 =
        before ++ (handle, .handled) :: rest →
      ∃ modules, loadConfiguredModules paths config.moduleConfigDir listing = .ok (.ok modules) ∧
        ∀ other < modules.length, ∃ destroyable,
          lifecycle.eval (eventsOf other before) = .live destroyable := by
  unfold handlerLife createRequestHandler
  cases hload : loadConfiguredModules paths config.moduleConfigDir listing with
  | error what =>
      refine ⟨fun handle => Or.inl rfl, fun before handle rest hsplit => ?_⟩
      cases before <;> cases hsplit
  | ok result =>
  cases result with
  | error what =>
      refine ⟨fun handle => Or.inl rfl, fun before handle rest hsplit => ?_⟩
      cases before <;> cases hsplit
  | ok modules =>
      dsimp only
      rcases hadd : addModules paths config loader [] modules with ⟨loads, what | pipeline⟩
      · refine ⟨fun handle => addModules_error loaded_nil hadd handle, ?_⟩
        intro before handle rest hsplit
        have hmem : (handle, ModuleEvent.handled) ∈ loads := by
          rw [show loads = _ from hsplit]
          exact List.mem_append_right _ List.mem_cons_self
        exact absurd rfl (silent_addModules hadd _ hmem)
      · obtain ⟨hloaded, hlength⟩ := addModules_ok loaded_nil hadd
        obtain ⟨calls, hcalls, hmodules⟩ :=
          answerAll_logged pipeline requests (loads, w)
        dsimp only at hcalls ⊢
        rw [hcalls]
        refine ⟨fun handle => ?_, fun before handle rest hsplit => ?_⟩
        · show after lifecycle (fun _ => lifecycle.start) _ handle ∈ lifecycle.accept
          rw [after_append, after_append, hloaded.after_calls hmodules]
          exact hloaded.accept (fun _ _ => rfl)
            (fun other hother => Or.inl (hloaded.absent other hother)) handle
        · obtain ⟨earlier, hbefore, hearlier⟩ :=
            exists_of_append_eq (silent_addModules hadd) silent_destroyPipeline hsplit
          refine ⟨modules, rfl, fun other hother => ?_⟩
          have hphases : after lifecycle (fun _ => lifecycle.start) before =
              after lifecycle (fun _ => lifecycle.start) loads := by
            rw [hbefore, after_append]
            exact hloaded.after_calls fun entry hentry => hmodules entry (hearlier.subset hentry)
          show ∃ destroyable, after lifecycle (fun _ => lifecycle.start) before other = _
          rw [hphases]
          exact hloaded.exists_live (by rw [hlength]; simpa using hother)

/-- Libraries whose modules pass every request.  Only the first knows how to destroy its
instance. -/
def passing : Loader Unit Unit := fun n _ =>
  .ok (.returned (some
    { abiVersion := 3
      name := none
      create := fun _ _ => .made ()
      destroys := n = 0
      handle := some fun _ exchange w => (some (0, exchange), w) }))

def emptyConfig : ServerConfig where
  bindAddress := []
  port := 0
  wwwRoot := []
  moduleConfigDir := []
  workerThreads := 1
  connectionQueueCapacity := 1
  tls := none

def rootRequest : Request where
  method := Ascii.ascii "GET"
  target := Ascii.ascii "/"
  headers := []

/-- Two modules and one request. -/
theorem handlerLife_lifecycle_passing :
    (handlerLife plainPaths emptyConfig passing (some confListing) [rootRequest] ()).1 =
      [(0, .opened), (0, .entered), (0, .created true), (1, .opened), (1, .entered),
        (1, .created false), (0, .handled), (1, .handled), (0, .destroyed), (0, .closed),
        (1, .closed)] ∧
      ∀ handle, eventsOf handle
        (handlerLife plainPaths emptyConfig passing (some confListing) [rootRequest] ()).1 ∈
          lifecycle.accepts :=
  ⟨by decide +kernel,
    (handlerLife_lifecycle plainPaths emptyConfig passing (some confListing) [rootRequest] ()).1⟩

end App
end Garcon
