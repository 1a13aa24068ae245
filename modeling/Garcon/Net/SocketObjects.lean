import Garcon.Library.Ownership
import Garcon.Library.Protocol
import Garcon.Library.System
import Garcon.Net.Socket

/-!
# Socket objects

A `net::socket` owns a descriptor and can be moved, but not copied.  The objects of a program
are constructed, moved, closed and destroyed in any order; what the kernel sees of this is
written down in a log.  The kernel may hand out the number of a closed descriptor again.
-/

namespace Garcon
namespace Net

open Ascii Protocol Ownership

/-- What an object owns. -/
def Socket.descriptor (socket : Socket) : Option Int :=
  if socket.isValid then some socket.fd else none

theorem Socket.descriptor_of_valid {socket : Socket} (hvalid : socket.isValid = true) :
    socket.descriptor = some socket.fd := if_pos hvalid

theorem Socket.descriptor_of_not_valid {socket : Socket} (hvalid : ¬ socket.isValid = true) :
    socket.descriptor = none := if_neg hvalid

/-- What the kernel sees of a descriptor. -/
inductive FdEvent where
  | opened
  | used
  | shutdown
  | closed
deriving DecidableEq, Repr

namespace FdEvent

inductive Phase where
  | closed
  | opened
  | shutdown
  | misused
deriving DecidableEq, Repr

/-- A descriptor is shut down before it is closed, and may then be opened again. -/
def lifecycle : DFA FdEvent Phase where
  step
    | .closed, .opened => .opened
    | .opened, .used => .opened
    | .opened, .shutdown => .shutdown
    | .shutdown, .closed => .closed
    | _, _ => .misused
  start := .closed
  accept := {.closed}

end FdEvent

open FdEvent

/-- The objects of a program by their names, and the address each descriptor came with. -/
structure SocketObjects (κ : Type) where
  objects : κ → Option Socket
  peers : Int → Bytes
  log : List (Int × FdEvent)

namespace SocketObjects

variable {κ : Type} [DecidableEq κ]

def phase (s : SocketObjects κ) : Int → Phase := after lifecycle (fun _ => lifecycle.start) s.log

/-- What the object of this name owns. -/
def held (s : SocketObjects κ) (k : κ) : Option Int := (s.objects k).bind Socket.descriptor

/-- The descriptors that are open. -/
def live (s : SocketObjects κ) : Set Int := {fd | s.phase fd = .opened}

def store (s : SocketObjects κ) (k : κ) (object : Option Socket) : SocketObjects κ :=
  { s with objects := Function.update s.objects k object }

/-- A new object adopts a descriptor that the kernel has opened. -/
def adopt (s : SocketObjects κ) (k : κ) (fd : Int) (address : Bytes) : SocketObjects κ where
  objects := Function.update s.objects k (some ⟨fd, address⟩)
  peers := Function.update s.peers fd address
  log := s.log ++ [(fd, .opened)]

/-- `close` on an object. -/
def close (s : SocketObjects κ) (k : κ) (socket : Socket) : SocketObjects κ :=
  if socket.isValid then
    { s with
      objects := Function.update s.objects k (some { socket with fd := -1 })
      log := s.log ++ [(socket.fd, .shutdown), (socket.fd, .closed)] }
  else s

/-- What both moves do to the object that is moved from.  The string is left with anything. -/
def moved (s : SocketObjects κ) (j : κ) (left : Bytes) : SocketObjects κ :=
  s.store j (some ⟨-1, left⟩)

/-- A system call on an object.  The kernel refuses a descriptor that is not valid. -/
def call (s : SocketObjects κ) (socket : Socket) : SocketObjects κ :=
  { s with log := s.log ++ if socket.isValid then [(socket.fd, .used)] else [] }

/-- A member function runs on an object. -/
inductive Step : SocketObjects κ → SocketObjects κ → Prop where
  | construct (s : SocketObjects κ) (k : κ) (hnew : s.objects k = none) :
      Step s (s.store k (some ⟨-1, []⟩))
  -- The kernel does not hand out a descriptor that is in use.
  | adopt (s : SocketObjects κ) (k : κ) (fd : Int) (address : Bytes)
      (hnew : s.objects k = none) (hfd : 0 ≤ fd) (hfresh : s.phase fd = .closed) :
      Step s (s.adopt k fd address)
  -- The system call has failed.
  | adoptInvalid (s : SocketObjects κ) (k : κ) (fd : Int) (address : Bytes)
      (hnew : s.objects k = none) (hfd : fd < 0) : Step s (s.store k (some ⟨fd, address⟩))
  | moveConstruct (s : SocketObjects κ) (k j : κ) (socket : Socket) (left : Bytes)
      (hnew : s.objects k = none) (hother : s.objects j = some socket) :
      Step s ((s.store k (some socket)).moved j left)
  | moveAssign (s : SocketObjects κ) (k j : κ) (target socket : Socket) (left : Bytes)
      (htarget : s.objects k = some target) (hother : s.objects j = some socket) (hne : k ≠ j) :
      Step s (((s.close k target).store k (some socket)).moved j left)
  | selfAssign (s : SocketObjects κ) (k : κ) (socket : Socket)
      (hself : s.objects k = some socket) : Step s s
  | call (s : SocketObjects κ) (k : κ) (socket : Socket)
      (hself : s.objects k = some socket) : Step s (s.call socket)
  | close (s : SocketObjects κ) (k : κ) (socket : Socket)
      (hself : s.objects k = some socket) : Step s (s.close k socket)
  | destroy (s : SocketObjects κ) (k : κ) (socket : Socket)
      (hself : s.objects k = some socket) : Step s ((s.close k socket).store k none)

/-- Before the first object. -/
structure Initial (s : SocketObjects κ) : Prop where
  objects : s.objects = fun _ => none
  log : s.log = []

def system : System (SocketObjects κ) where
  Init := Initial
  Step := Step

/-! ## What is open -/

variable {s : SocketObjects κ} {k : κ} {socket : Socket} {fd : Int}

omit [DecidableEq κ] in
theorem phase_of_log {t : SocketObjects κ} {events : List (Int × FdEvent)}
    (hlog : t.log = s.log ++ events) : t.phase = after lifecycle s.phase events := by
  unfold phase
  rw [hlog, after_append]

theorem phase_adopt (address : Bytes) (hfresh : s.phase fd = .closed) :
    (s.adopt k fd address).phase = Function.update s.phase fd .opened := by
  have hphase : (s.adopt k fd address).phase = after lifecycle s.phase [(fd, .opened)] :=
    phase_of_log rfl
  rw [hphase, after_cons, after_nil, hfresh]
  rfl

theorem close_of_valid (hvalid : socket.isValid = true) :
    s.close k socket =
      { s with
        objects := Function.update s.objects k (some { socket with fd := -1 })
        log := s.log ++ [(socket.fd, .shutdown), (socket.fd, .closed)] } :=
  if_pos hvalid

theorem close_of_not_valid (hvalid : ¬ socket.isValid = true) : s.close k socket = s :=
  if_neg hvalid

theorem phase_close (hvalid : socket.isValid = true) (hopen : s.phase socket.fd = .opened) :
    (s.close k socket).phase = Function.update s.phase socket.fd .closed := by
  have hphase : (s.close k socket).phase =
      after lifecycle s.phase [(socket.fd, .shutdown), (socket.fd, .closed)] := by
    rw [close_of_valid hvalid]
    exact phase_of_log rfl
  rw [hphase, after_cons, after_cons, after_nil, hopen, Function.update_self,
    Function.update_idem]
  rfl

omit [DecidableEq κ] in
theorem phase_call (hopen : socket.isValid = true → s.phase socket.fd = .opened) :
    (s.call socket).phase = s.phase := by
  have hphase : (s.call socket).phase =
      after lifecycle s.phase (if socket.isValid then [(socket.fd, .used)] else []) :=
    phase_of_log rfl
  rw [hphase]
  refine after_eq_self fun entry hentry => ?_
  by_cases hvalid : socket.isValid = true
  · rw [if_pos hvalid, List.mem_singleton] at hentry
    rw [hentry]
    show lifecycle.step (s.phase socket.fd) .used = s.phase socket.fd
    rw [hopen hvalid]
    rfl
  · rw [if_neg hvalid] at hentry
    cases hentry

theorem live_adopt (address : Bytes) (hfresh : s.phase fd = .closed) :
    (s.adopt k fd address).live = insert fd s.live := by
  ext fd'
  unfold live
  rw [phase_adopt address hfresh, Set.mem_ofPred_eq, Set.mem_insert_iff, Set.mem_ofPred_eq,
    Function.update_apply]
  by_cases heq : fd' = fd <;> simp [heq]

theorem live_close (hvalid : socket.isValid = true) (hopen : s.phase socket.fd = .opened) :
    (s.close k socket).live = s.live \ {socket.fd} := by
  ext fd'
  unfold live
  rw [phase_close hvalid hopen, Set.mem_ofPred_eq, Set.mem_sdiff, Set.mem_ofPred_eq,
    Set.mem_singleton_iff, Function.update_apply]
  by_cases heq : fd' = socket.fd <;> simp [heq]

/-! ## What is held -/

theorem objects_store_self (s : SocketObjects κ) (k : κ) (object : Option Socket) :
    (s.store k object).objects k = object := Function.update_self ..

theorem objects_store_of_ne {j : κ} {object : Option Socket} (hne : j ≠ k) :
    (s.store k object).objects j = s.objects j := Function.update_of_ne hne ..

theorem objects_close_of_ne {j : κ} (hne : j ≠ k) :
    (s.close k socket).objects j = s.objects j := by
  by_cases hvalid : socket.isValid = true
  · rw [close_of_valid hvalid]
    exact Function.update_of_ne hne ..
  · rw [close_of_not_valid hvalid]

theorem held_store (s : SocketObjects κ) (k : κ) (object : Option Socket) :
    (s.store k object).held = Function.update s.held k (object.bind Socket.descriptor) := by
  funext j
  unfold held
  by_cases hj : j = k
  · rw [hj, objects_store_self, Function.update_self]
  · rw [objects_store_of_ne hj, Function.update_of_ne hj]

omit [DecidableEq κ] in
theorem held_of_object (hself : s.objects k = some socket) : s.held k = socket.descriptor := by
  unfold held
  rw [hself, Option.bind_some]

omit [DecidableEq κ] in
theorem held_of_absent (habsent : s.objects k = none) : s.held k = none := by
  unfold held
  rw [habsent, Option.bind_none]

theorem held_adopt (hfd : 0 ≤ fd) (address : Bytes) :
    (s.adopt k fd address).held = Function.update s.held k (some fd) := by
  have hvalid : (Socket.mk fd address).isValid = true := decide_eq_true hfd
  have hstored : (s.adopt k fd address).held = (s.store k (some ⟨fd, address⟩)).held := rfl
  rw [hstored, held_store, Option.bind_some, Socket.descriptor_of_valid hvalid]

theorem held_close (hself : s.objects k = some socket) :
    (s.close k socket).held = Function.update s.held k none := by
  by_cases hvalid : socket.isValid = true
  · have hstored : (s.close k socket).held =
        (s.store k (some { socket with fd := -1 })).held := by
      rw [close_of_valid hvalid]
      rfl
    rw [hstored, held_store]
    rfl
  · have hnone : s.held k = none :=
      (held_of_object hself).trans (Socket.descriptor_of_not_valid hvalid)
    rw [close_of_not_valid hvalid, ← hnone, Function.update_eq_self]

theorem held_close_self (hself : s.objects k = some socket) :
    (s.close k socket).held k = none := by
  rw [held_close hself, Function.update_self]

/-! ## The invariant -/

/-- A descriptor is open when an object holds it, and closed otherwise. -/
structure Invariant (s : SocketObjects κ) : Prop where
  owned : Owned s.held s.live
  phases : ∀ fd, s.phase fd = .opened ∨ s.phase fd = .closed
  peers : ∀ k socket, s.objects k = some socket → 0 ≤ socket.fd →
    s.peers socket.fd = socket.peerAddress

omit [DecidableEq κ] in
theorem Initial.invariant (h : Initial s) : Invariant s := by
  have hheld : s.held = fun _ => none := funext fun k => held_of_absent (by rw [h.objects])
  have hphase : s.phase = fun _ => .closed := by
    unfold phase
    rw [h.log, after_nil]
    rfl
  refine ⟨?_, fun fd => Or.inr (congrFun hphase fd), fun k socket hobject _ => ?_⟩
  · unfold live
    rw [hheld, hphase]
    simpa using owned_empty
  · rw [h.objects] at hobject
    cases hobject

omit [DecidableEq κ] in
/-- An object with a valid descriptor has an open one. -/
theorem Invariant.phase_of_valid (h : Invariant s) (hself : s.objects k = some socket)
    (hvalid : socket.isValid = true) : s.phase socket.fd = .opened :=
  (h.owned.live_iff socket.fd).mpr
    ⟨k, (held_of_object hself).trans (Socket.descriptor_of_valid hvalid)⟩

/-- An object that holds nothing is put in the place of one that holds nothing. -/
theorem Invariant.store (h : Invariant s) (hheld : s.held k = none) {object : Option Socket}
    (hobject : object.bind Socket.descriptor = none) : Invariant (s.store k object) := by
  refine ⟨?_, h.phases, fun j socket hsocket hfd => ?_⟩
  · rw [held_store, hobject, ← hheld, Function.update_eq_self]
    exact h.owned
  · by_cases hj : j = k
    · rw [hj, objects_store_self] at hsocket
      have hvalid : socket.isValid = true := decide_eq_true hfd
      rw [hsocket, Option.bind_some, Socket.descriptor_of_valid hvalid] at hobject
      cases hobject
    · rw [objects_store_of_ne hj] at hsocket
      exact h.peers j socket hsocket hfd

theorem Invariant.adopt (h : Invariant s) (hnew : s.objects k = none) (hfd : 0 ≤ fd)
    (hfresh : s.phase fd = .closed) (address : Bytes) : Invariant (s.adopt k fd address) := by
  have hclosed : fd ∉ s.live := fun hopen => by
    have hopened : s.phase fd = .opened := hopen
    rw [hfresh] at hopened
    cases hopened
  refine ⟨?_, fun fd' => ?_, fun j socket hsocket hvalid => ?_⟩
  · rw [held_adopt hfd, live_adopt address hfresh]
    exact h.owned.acquire (held_of_absent hnew) hclosed
  · rw [phase_adopt address hfresh, Function.update_apply]
    by_cases heq : fd' = fd
    · exact Or.inl (if_pos heq)
    · rw [if_neg heq]
      exact h.phases fd'
  · show Function.update s.peers fd address socket.fd = socket.peerAddress
    replace hsocket : Function.update s.objects k (some ⟨fd, address⟩) j = some socket := hsocket
    by_cases hj : j = k
    · rw [hj, Function.update_self, Option.some.injEq] at hsocket
      rw [← hsocket, Function.update_self]
    · rw [Function.update_of_ne hj] at hsocket
      -- No other object holds the descriptor that the kernel hands out.
      have hother : socket.fd ≠ fd := by
        intro heq
        have hopen := h.phase_of_valid hsocket (decide_eq_true hvalid)
        rw [heq] at hopen
        exact hclosed hopen
      rw [Function.update_of_ne hother]
      exact h.peers j socket hsocket hvalid

/-- An object that holds nothing is given the descriptor of another one. -/
theorem Invariant.give (h : Invariant s) {j : κ} (hheld : s.held k = none)
    (hother : s.objects j = some socket) (hne : k ≠ j) (left : Bytes) :
    Invariant ((s.store k (some socket)).moved j left) := by
  refine ⟨?_, h.phases, fun i socket' hsocket hvalid => ?_⟩
  · have hgiven : (s.store k (some socket)).held = Function.update s.held k (s.held j) := by
      rw [held_store, held_of_object hother]
      rfl
    rw [moved, held_store, hgiven]
    exact h.owned.transfer hheld hne.symm
  · by_cases hij : i = j
    · rw [hij, moved, objects_store_self, Option.some.injEq] at hsocket
      rw [← hsocket] at hvalid
      cases hvalid
    · rw [moved, objects_store_of_ne hij] at hsocket
      by_cases hik : i = k
      · rw [hik, objects_store_self] at hsocket
        exact h.peers j socket' (hother.trans hsocket) hvalid
      · rw [objects_store_of_ne hik] at hsocket
        exact h.peers i socket' hsocket hvalid

theorem Invariant.close (h : Invariant s) (hself : s.objects k = some socket) :
    Invariant (s.close k socket) := by
  by_cases hvalid : socket.isValid = true
  · have hopen := h.phase_of_valid hself hvalid
    refine ⟨?_, fun fd => ?_, fun j other hother hfd => ?_⟩
    · rw [held_close hself, live_close hvalid hopen]
      exact h.owned.release
        ((held_of_object hself).trans (Socket.descriptor_of_valid hvalid))
    · rw [phase_close hvalid hopen, Function.update_apply]
      by_cases heq : fd = socket.fd
      · exact Or.inr (if_pos heq)
      · rw [if_neg heq]
        exact h.phases fd
    · by_cases hj : j = k
      · rw [hj, close_of_valid hvalid] at hother
        replace hother : Function.update s.objects k (some { socket with fd := -1 }) k =
          some other := hother
        rw [Function.update_self, Option.some.injEq] at hother
        rw [← hother] at hfd
        cases hfd
      · rw [objects_close_of_ne hj] at hother
        rw [close_of_valid hvalid]
        exact h.peers j other hother hfd
  · rw [close_of_not_valid hvalid]
    exact h

omit [DecidableEq κ] in
theorem Invariant.call (h : Invariant s) (hself : s.objects k = some socket) :
    Invariant (s.call socket) := by
  have hphase : (s.call socket).phase = s.phase := phase_call (h.phase_of_valid hself)
  refine ⟨?_, ?_, h.peers⟩
  · unfold live
    rw [hphase]
    exact h.owned
  · rw [hphase]
    exact h.phases

theorem Invariant.step {t : SocketObjects κ} (h : Invariant s) (hstep : Step s t) :
    Invariant t := by
  cases hstep with
  | construct k hnew => exact h.store (held_of_absent hnew) rfl
  | adopt k fd address hnew hfd hfresh => exact h.adopt hnew hfd hfresh address
  | adoptInvalid k fd address hnew hfd =>
      refine h.store (held_of_absent hnew) ?_
      have hinvalid : (Socket.mk fd address).isValid = false :=
        decide_eq_false (not_le.mpr hfd)
      rw [Option.bind_some, Socket.descriptor, hinvalid]
      rfl
  | moveConstruct k j socket left hnew hother =>
      refine h.give (held_of_absent hnew) hother ?_ left
      rintro rfl
      rw [hnew] at hother
      cases hother
  | moveAssign k j target socket left htarget hother hne =>
      refine (h.close htarget).give (held_close_self htarget) ?_ hne left
      rw [objects_close_of_ne hne.symm]
      exact hother
  | selfAssign => exact h
  | call k socket hself => exact h.call hself
  | close k socket hself => exact h.close hself
  | destroy k socket hself => exact (h.close hself).store (held_close_self hself) rfl

/-- However objects are constructed, moved, used, closed and destroyed: an open descriptor has
exactly one object, which knows the address it came with, and a descriptor without an object
was shut down and then closed once for each time that it was opened, and used only between. -/
theorem sockets_accounted (h : (system (κ := κ)).Reachable s) :
    (∀ fd, s.phase fd = .opened ↔ ∃! k, s.held k = some fd) ∧
    (∀ k socket, s.objects k = some socket → 0 ≤ socket.fd →
      s.peers socket.fd = socket.peerAddress) ∧
    ∀ fd, (∀ k, s.held k ≠ some fd) → eventsOf fd s.log ∈ lifecycle.accepts := by
  have hinvariant : Invariant s := by
    refine h.invariant (P := Invariant) ?_ ?_
    · intro s hinit
      exact Initial.invariant hinit
    · intro s t hs hstep
      exact Invariant.step hs hstep
  refine ⟨fun fd => ?_, hinvariant.peers, fun fd hnone => ?_⟩
  · constructor
    · intro hopen
      obtain ⟨k, hk⟩ := (hinvariant.owned.live_iff fd).mp hopen
      exact ⟨k, hk, fun j hj => hinvariant.owned.unique j k fd hj hk⟩
    · rintro ⟨k, hk, -⟩
      exact (hinvariant.owned.live_iff fd).mpr ⟨k, hk⟩
  · apply eventsOf_mem_accepts
    rcases hinvariant.phases fd with hopen | hclosed
    · obtain ⟨k, hk⟩ := (hinvariant.owned.live_iff fd).mp hopen
      exact absurd hk (hnone k)
    · exact hclosed

def noObjects : SocketObjects Bool where
  objects := fun _ => none
  peers := fun _ => []
  log := []

/-- A descriptor is moved, used by its new object and closed with it.  Then the kernel hands
out its number again, for an address of its own. -/
theorem sockets_accounted_reused : ∃ s : SocketObjects Bool,
    system.Reachable s ∧
      s.log = [(7, .opened), (7, .used), (7, .shutdown), (7, .closed), (7, .opened)] ∧
      (s.phase 7 = .opened ↔ ∃! k, s.held k = some 7) ∧
      s.peers 7 = ascii "10.0.0.2" := by
  have hinit : (system (κ := Bool)).Reachable noObjects := .init ⟨rfl, rfl⟩
  have hadopt := hinit.step (.adopt _ false 7 (ascii "10.0.0.1") rfl (by decide) rfl)
  have hmove := hadopt.step (.moveConstruct _ true false ⟨7, ascii "10.0.0.1"⟩ [] rfl rfl)
  have hcall := hmove.step (.call _ true ⟨7, ascii "10.0.0.1"⟩ rfl)
  have hdestroy := hcall.step (.destroy _ true ⟨7, ascii "10.0.0.1"⟩ rfl)
  have hagain := hdestroy.step (.adopt _ true 7 (ascii "10.0.0.2") rfl (by decide) rfl)
  obtain ⟨hopen, hpeers, -⟩ := sockets_accounted hagain
  exact ⟨_, hagain, rfl, hopen 7, hpeers true ⟨7, ascii "10.0.0.2"⟩ rfl (by decide)⟩

end SocketObjects

end Net
end Garcon
