import Garcon.App.KeptAlive
import Garcon.Http.Dialog

/-!
# Server and client in lock step

A client that waits for each response before it sends the next request gets the handler's
answers, one for each request and in order, however the network cuts its requests into
pieces.  The connection ends where a request asks for it, or when the client has no more.
-/

namespace Garcon
namespace App

open Ascii Http Net

/-- A request that the client wants answered, and the pieces in which its text arrives. -/
structure Question where
  request : Request
  chunks : List Chunk
  valid : request.Valid
  spells : bytesOf chunks = request.render
  fits : request.render.length ≤ maxRequestHeaderBytes

def Question.turn (q : Question) : Turn := ⟨isHead q.request, q.chunks⟩

/-- The requests up to the first that does not keep the connection. -/
def untilClose : List Request → List Request
  | [] => []
  | request :: requests =>
    request :: if request.keepAliveRequested then untilClose requests else []

/-- A client that has read some responses and goes on with these requests. -/
def goingOn (received : List Client.Received) (questions : List Question) : Dialog :=
  Dialog.ask
    { chunks := [], awaiting := none, later := questions.map Question.turn, received := received }

namespace ConnectionHandler

variable {η : Type} {c : ConnectionHandler Dialog η} {clientIp : Bytes} {fuel served : Nat}
variable {h h' : η} {received : List Client.Received}

/-- The events of an answered request. -/
def answered (c : ConnectionHandler Dialog η) (clientIp : Bytes) (served : Nat)
    (request : Request) (response : Response) : List Event :=
  let wireResponse := response.serialize (policyOf request)
  [.dispatched request,
    .access (logAccess clientIp (some request) response wireResponse.length (c.timing served)),
    .sent wireResponse]

/-- One question and its answer. -/
theorem round_question (clientIp : Bytes) (served : Nat) (received : List Client.Received)
    {q : Question} (questions : List Question) {response : Response}
    (hfuel : maxRequestHeaderBytes < fuel)
    (hanswer : c.answer q.request h = (.ok response, h'))
    (hsound : response.Sound (isHead q.request))
    (hquiet : ¬ response.StrayBody (isHead q.request)) :
    c.round Dialog.stream clientIp fuel served h (goingOn received (q :: questions)) =
      if q.request.keepAliveRequested then
        .next (c.answered clientIp served q.request response) h'
          (goingOn (received ++ [response.received (policyOf q.request)]) questions)
      else
        .stop (c.answered clientIp served q.request response) h'
          (goingOn (received ++ [response.received (policyOf q.request)]) questions) := by
  obtain ⟨head, hrender, hfresh⟩ := q.valid.exists_render_eq
  have hfits := q.fits
  rw [hrender] at hfits
  obtain ⟨b', hread⟩ := Dialog.readHeaderBlock_request
    (d := goingOn received (q :: questions)) (q.spells.trans hrender) hfresh hfits
    (Nat.lt_of_le_of_lt hfits hfuel)
  have hparse : Request.parse (head ++ headerEnd) = .ok q.request := by
    rw [← hrender]
    exact parse_of_grammar (grammar_render q.valid)
  have htimeout : ∀ ms (d : Dialog), Dialog.stream.setReceiveTimeout ms d = (true, d) :=
    fun _ _ => rfl
  have hsend : Dialog.stream.sendAll (response.serialize (policyOf q.request))
      { goingOn received (q :: questions) with chunks := [] } =
      (.ok, goingOn (received ++ [response.received (policyOf q.request)]) questions) := by
    refine (Dialog.sendAll_fit
      (d := { goingOn received (q :: questions) with chunks := [] })
      (x := ⟨isHead q.request, policyOf q.request, response⟩) rfl rfl hsound hquiet).trans ?_
    cases questions <;> rfl
  unfold round
  dsimp only
  rw [htimeout]
  dsimp only
  rw [hread]
  dsimp only
  rw [hparse]
  dsimp only
  unfold serveRequest
  rw [hanswer]
  dsimp only
  unfold sendResponse
  rw [hsend]
  dsimp only
  unfold answered policyOf
  cases q.request.keepAliveRequested <;> rfl

/-- A client that has read its last response is not heard of any more. -/
theorem round_closed (c : ConnectionHandler Dialog η) :
    c.round Dialog.stream clientIp (fuel + 1) served h (goingOn received []) =
      .stop [] h (goingOn received []) := by
  have hpos : 0 < maxRequestHeaderBytes := by decide
  obtain ⟨b', hread⟩ :=
    Dialog.readHeaderBlock_closed fuel (d := goingOn received []) hpos rfl rfl
  have htimeout : ∀ ms (d : Dialog), Dialog.stream.setReceiveTimeout ms d = (true, d) :=
    fun _ _ => rfl
  unfold round
  dsimp only
  rw [htimeout]
  dsimp only
  rw [hread]

/-- The loop, with the questions that are left.  The induction is on the questions: each round
answers one of them. -/
theorem serve_questions (clientIp : Bytes) (served : Nat) (received : List Client.Received)
    {questions : List Question}
    (hfuel : maxRequestHeaderBytes + questions.length + 1 < fuel)
    (hanswers : (c.replies (untilClose (questions.map Question.request)) h).length =
      (untilClose (questions.map Question.request)).length)
    (hfit : ∀ x ∈ c.replies (untilClose (questions.map Question.request)) h,
      x.response.Sound x.isHead ∧ ¬ x.Stray) :
    ∃ events h' d', c.serve Dialog.stream clientIp fuel served h (goingOn received questions) =
        some (events, h', d') ∧
      dispatchedRequests events = untilClose (questions.map Question.request) ∧
      sentResponses events =
        (c.replies (untilClose (questions.map Question.request)) h).map Sent.wire ∧
      (∀ operation detail, Event.connectionError operation detail ∉ events) ∧
      d'.received = received ++
        (c.replies (untilClose (questions.map Question.request)) h).map Sent.received ∧
      d'.wire = [] := by
  induction questions generalizing fuel served h received with
  | nil =>
      obtain ⟨fuel, rfl⟩ : ∃ k, fuel = k + 2 := ⟨fuel - 2, by omega⟩
      exact ⟨[], h, _, serve_of_stop (round_closed c), rfl, rfl, fun _ _ => List.not_mem_nil,
        (List.append_nil received).symm, rfl⟩
  | cons q questions ih =>
      obtain ⟨fuel, rfl⟩ : ∃ k, fuel = k + 1 := ⟨fuel - 1, by omega⟩
      rw [List.length_cons] at hfuel
      rw [List.map_cons, untilClose, replies] at hanswers hfit ⊢
      rcases hanswer : c.answer q.request h with ⟨what | response, h'⟩
      · rw [hanswer] at hanswers
        cases hanswers
      · rw [hanswer] at hanswers hfit
        dsimp only at hanswers hfit ⊢
        rw [List.length_cons, List.length_cons, Nat.add_right_cancel_iff] at hanswers
        rw [List.forall_mem_cons] at hfit
        obtain ⟨⟨hsound, hquiet⟩, hlater⟩ := hfit
        have hround := round_question clientIp served received questions
          (by omega : maxRequestHeaderBytes < fuel) hanswer hsound hquiet
        by_cases hkeep : q.request.keepAliveRequested = true
        · rw [if_pos hkeep] at hround hanswers hlater ⊢
          obtain ⟨events, h'', d', hserve, hrequests, hwires, hquiet', hreceived, hwire⟩ :=
            ih (served + 1) (received ++ [response.received (policyOf q.request)])
              (by omega : maxRequestHeaderBytes + questions.length + 1 < fuel) hanswers hlater
          refine ⟨_, h'', d', serve_of_next hround hserve, ?_, ?_, ?_, ?_, hwire⟩
          · rw [← hrequests]
            rfl
          · rw [List.map_cons, ← hwires]
            rfl
          · intro operation detail hmem
            cases List.mem_append.mp hmem with
            | inl hfirst => simp [answered] at hfirst
            | inr hrest => exact hquiet' operation detail hrest
          · rw [hreceived, List.append_assoc]
            rfl
        · rw [if_neg hkeep] at hround hanswers hlater ⊢
          refine ⟨_, h', _, serve_of_stop hround, rfl, rfl, ?_, ?_, ?_⟩
          · intro operation detail hmem
            simp [answered] at hmem
          · cases questions <;> rfl
          · cases questions <;> rfl

end ConnectionHandler

/-- A client in lock step with the server gets, for each of its requests up to the first that
ends the connection, the answer that the handler gives it in this order, as a whole and with
nothing in between, and the server reports no error. -/
theorem lock_step_conversation {η : Type} (c : ConnectionHandler Dialog η)
    (hfactory : c.streamFactory = .ok (some Dialog.stream)) (clientIp : Bytes) (h : η)
    (questions : List Question)
    (hanswers : (c.replies (untilClose (questions.map Question.request)) h).length =
      (untilClose (questions.map Question.request)).length)
    (hfit : ∀ x ∈ c.replies (untilClose (questions.map Question.request)) h,
      x.response.Sound x.isHead ∧ ¬ x.Stray)
    (fuel : Nat) (hfuel : maxRequestHeaderBytes + questions.length + 1 < fuel) :
    ∃ events h' d', c.handleConnection clientIp fuel h
        (Dialog.start (questions.map Question.turn)) = some (events, h', d') ∧
      dispatchedRequests events = untilClose (questions.map Question.request) ∧
      sentResponses events =
        (c.replies (untilClose (questions.map Question.request)) h).map Sent.wire ∧
      (∀ operation detail, Event.connectionError operation detail ∉ events) ∧
      d'.received = (c.replies (untilClose (questions.map Question.request)) h).map
        Sent.received ∧
      d'.wire = [] := by
  obtain ⟨events, h', d', hserve, hrest⟩ :=
    ConnectionHandler.serve_questions clientIp 0 [] hfuel hanswers hfit
  refine ⟨events, h', d', ?_, hrest⟩
  have hprepare : ∀ d, ConnectionHandler.prepareStream Dialog.stream d = (true, [], d) :=
    fun _ => rfl
  have hvalid : ∀ d, Dialog.stream.isValid d = true := fun _ => rfl
  have hstart : Dialog.start (questions.map Question.turn) = goingOn [] questions := rfl
  unfold ConnectionHandler.handleConnection
  rw [hfactory]
  dsimp only
  rw [hvalid, hprepare, hstart]
  dsimp only
  rw [hserve]
  rfl

/-- The request of the source's own unit test, in two pieces. -/
theorem valid_helloRequest : helloRequest.Valid where
  method := by decide
  target := by unfold TargetText; decide +kernel
  version := by decide
  name := by decide +kernel
  trimmed := by unfold Trim.Trimmed; decide +kernel
  clean := by decide +kernel

theorem helloRequest_pieces :
    helloRequest.render.take 9 ≠ [] ∧ helloRequest.render.drop 9 ≠ [] ∧
      helloRequest.render.length ≤ maxRequestHeaderBytes := by
  decide +kernel

def helloQuestion : Question where
  request := helloRequest
  chunks := [⟨_, helloRequest_pieces.1⟩, ⟨_, helloRequest_pieces.2.1⟩]
  valid := valid_helloRequest
  spells := (congrArg _ (List.append_nil _)).trans (List.take_append_drop _ _)
  fits := helloRequest_pieces.2.2

def okServer : ConnectionHandler Dialog Unit where
  handler := okHandler
  streamFactory := .ok (some Dialog.stream)
  httpsEnabled := false
  timing := fun _ => ⟨0, 0⟩

def okReply : Sent := ⟨false, .keepAlive, .text 200 (ascii "OK") (ascii "ok\n")⟩

theorem lock_step_conversation_hello : ∃ events h' d',
    okServer.handleConnection [] 70000 () (Dialog.start [helloQuestion.turn, helloQuestion.turn]) =
      some (events, h', d') ∧
    dispatchedRequests events = [helloRequest, helloRequest] ∧
    d'.received = [okReply.received, okReply.received] := by
  have hkeep : helloRequest.keepAliveRequested = true := by decide +kernel
  have hhead : isHead helloRequest = false := by decide +kernel
  have hrequests : untilClose ([helloQuestion, helloQuestion].map Question.request) =
      [helloRequest, helloRequest] := by
    show untilClose [helloRequest, helloRequest] = _
    rw [untilClose, if_pos hkeep, untilClose, if_pos hkeep, untilClose]
  have hreply : (⟨isHead helloRequest, ConnectionHandler.policyOf helloRequest,
      .text 200 (ascii "OK") (ascii "ok\n")⟩ : Sent) = okReply := by
    rw [hhead, ConnectionHandler.policyOf, if_pos hkeep]
    rfl
  have hreplies : okServer.replies [helloRequest, helloRequest] () = [okReply, okReply] :=
    congrArg (fun x => [x, x]) hreply
  have hsound : okReply.response.Sound okReply.isHead ∧ ¬ okReply.Stray := by
    refine ⟨⟨by decide, ?_, fun _ => rfl⟩, fun hstray => Bool.false_ne_true hstray.1⟩
    intro hcrlf
    have hmem : cr ∈ okReply.response.reason := hcrlf.subset List.mem_cons_self
    revert hmem
    decide +kernel
  obtain ⟨events, h', d', hrun, hdispatched, -, -, hreceived, -⟩ :=
    lock_step_conversation okServer rfl [] () [helloQuestion, helloQuestion]
      (by rw [hrequests, hreplies]; rfl)
      (by
        rw [hrequests, hreplies]
        simpa using hsound)
      70000 (by decide)
  rw [hrequests] at hdispatched hreceived
  rw [hreplies] at hreceived
  exact ⟨events, h', d', hrun, hdispatched, hreceived⟩

end App
end Garcon
