import Revent.Laws.Conservation

/-!
# Who may settle a request

A request is forwarded to one client, its recorded responder, but answers are matched to requests
by the request id alone: the recorded responder is never compared with the sender. `AnswerOutcome`
says what an answer does, and the sender is not part of it: the one message sent is the answer, to
the requester on record, and the request is taken out when that is accepted. An answer leaves
every other request alone.
-/

namespace Revent

open Interleave (Event Prog Turn)

variable {R : Type}

/-- What a history sent, newest first: to whom, over which channel, what, and whether it was
accepted. -/
def deliveries : History → List (ClientId × Tx × ServerMessage × Bool)
  | [] => []
  | ⟨.send client tx msg, sent⟩ :: h => (client, tx, msg, sent.isOk) :: deliveries h
  | _ :: h => deliveries h

/-- **What an answer does**, from the world it finds: the messages sent and the requests after. -/
inductive AnswerOutcome (answer : Answer) (w : World R) :
    List (ClientId × Tx × ServerMessage × Bool) → HashMap RequestId OngoingQueryRequest → Prop
  /-- There is no such request. -/
  | unknown (absent : w.state.ongoing answer.requestId = none) :
      AnswerOutcome answer w [] w.ongoing
  /-- Its requester is not connected. -/
  | gone {request : OngoingQueryRequest}
      (found : w.state.ongoing answer.requestId = some request)
      (away : w.state.txOf request.requester = none) : AnswerOutcome answer w [] w.ongoing
  /-- Its requester does not accept the answer. -/
  | refused {request : OngoingQueryRequest} {tx : Tx}
      (found : w.state.ongoing answer.requestId = some request)
      (connected : w.state.txOf request.requester = some tx) :
      AnswerOutcome answer w [(request.requester, tx, answer.serverMessage request, false)]
        w.ongoing
  /-- Its requester accepts the answer. -/
  | settled {request : OngoingQueryRequest} {tx : Tx}
      (found : w.state.ongoing answer.requestId = some request)
      (connected : w.state.txOf request.requester = some tx) :
      AnswerOutcome answer w [(request.requester, tx, answer.serverMessage request, true)]
        (w.ongoing.erase answer.requestId)

/-- Only the recorded responder settles a request, and an answer of anyone else has no effect. -/
def OnlyItsResponder (answer : Answer) (w : World R) (events : History) (w' : World R) : Prop :=
  ∀ request, w.state.ongoing answer.requestId = some request →
    answer.responder ≠ request.responder →
    deliveries events = [] ∧ w'.state.ongoing answer.requestId = some request

variable [Repository R] {timing : Timing} {repository : R} {turns : List (ServerTurn R)}
  {w w' : World R} {events : History}

/-- The handler of an answer, once the sender's `last_seen` was refreshed. -/
theorem settle_outcome (answer : Answer) (msg : ClientMessage) :
    (settle answer).Ensures exec
      (fun _ w' h' => AnswerOutcome answer w (deliveries h') w'.ongoing) w (begun msg []) := by
  intro env request w₁ read
  obtain ⟨found, rfl⟩ := exec_getOngoingRequest read
  cases request with
  | none => exact .unknown found.symm
  | some request =>
    intro env requester w₂ looked
    obtain ⟨hrequester, rfl⟩ := exec_getClientById looked
    cases requester with
    | none => exact .gone found.symm (State.txOf_eq_none.mpr hrequester.symm)
    | some info =>
      have connected : w₂.state.txOf request.requester = some info.tx :=
        State.txOf_eq_some.mpr ⟨info, hrequester.symm, rfl⟩
      intro env sent w₃ performed
      have same : w₃.ongoing = w₂.ongoing := exec_requests rfl performed
      cases sent with
      | error err =>
        show AnswerOutcome answer w₂ [(request.requester, info.tx, _, false)] w₃.ongoing
        rw [same]
        exact .refused found.symm connected
      | ok _ =>
        intro env removed w₄ removal
        have erased : w₄.ongoing = w₃.ongoing.erase answer.requestId := requests_exec removal
        show AnswerOutcome answer w₂ [(request.requester, info.tx, _, true)] w₄.ongoing
        rw [erased, same]
        exact .settled found.symm connected

omit [Repository R] in
/-- The outcome depends on the channels and the requests only. -/
theorem AnswerOutcome.congr {answer : Answer} {w₁ : World R}
    {sent : List (ClientId × Tx × ServerMessage × Bool)}
    {requests : HashMap RequestId OngoingQueryRequest}
    (outcome : AnswerOutcome answer w₁ sent requests)
    (channels : ∀ clientId, w₁.state.txOf clientId = w.state.txOf clientId)
    (same : w₁.ongoing = w.ongoing) : AnswerOutcome answer w sent requests := by
  have found : w₁.state.ongoing answer.requestId = w.state.ongoing answer.requestId :=
    congrArg (fun requests => requests[answer.requestId]?) same
  cases outcome with
  | unknown absent =>
    rw [same]
    exact .unknown (found ▸ absent)
  | gone ongoing away =>
    rw [same]
    exact .gone (found ▸ ongoing) (channels _ ▸ away)
  | refused ongoing connected =>
    rw [same]
    exact .refused (found ▸ ongoing) (channels _ ▸ connected)
  | settled ongoing connected =>
    rw [same]
    exact .settled (found ▸ ongoing) (channels _ ▸ connected)

omit [Repository R] in
/-- An answer leaves the requests with other ids. -/
theorem AnswerOutcome.others {answer : Answer}
    {sent : List (ClientId × Tx × ServerMessage × Bool)}
    {requests : HashMap RequestId OngoingQueryRequest}
    (outcome : AnswerOutcome answer w sent requests) {requestId : RequestId}
    (other : requestId ≠ answer.requestId) : requests[requestId]? = w.state.ongoing requestId := by
  cases outcome with
  | unknown | gone | refused => rfl
  | settled =>
    rw [HashMap.getElem?_erase, if_neg (Ne.symm other)]
    rfl

theorem handleMessage_outcome (answer : Answer) :
    (handleMessage answer.clientMessage).Ensures exec
      (fun _ w' h' => AnswerOutcome answer w (deliveries h') w'.ongoing) w [] := by
  intro env _ w₁ refreshed
  have channels : ∀ clientId, w₁.state.txOf clientId = w.state.txOf clientId := txOf_exec refreshed
  have same : w₁.ongoing = w.ongoing := exec_requests rfl refreshed
  have settles := (settle_outcome (w := w₁) answer answer.clientMessage).mono
    fun _ _ _ outcome => outcome.congr channels same
  cases answer with
  | response msg | failed msg => exact settles

/-- **What settles a request** in a sequential run: an answer for it, whoever sent it, once it is
accepted by the requester on record. -/
theorem answerOutcome_of_sequentialRun {answer : Answer}
    (run : SequentialRun timing repository
      (⟨.message answer.clientMessage, w, events⟩ :: turns) w') :
    AnswerOutcome answer w (deliveries events) w'.ongoing ∧
      ∀ requestId ≠ answer.requestId, w'.state.ongoing requestId = w.state.ongoing requestId := by
  have outcome : AnswerOutcome answer w (deliveries events) w'.ongoing := by
    cases run with
    | turn earlier run => exact (handleMessage_outcome answer).elim run
  exact ⟨outcome, fun requestId other => outcome.others other⟩

section Scenario

open Scenario

/-- A request of a client is forwarded to the client itself, and another client responds to it. -/
def Scenario.asksItself : List Call := [registering alice 0, registering bob 1, requesting alice]

/-- The response of the other client, as it is handled. -/
def Scenario.otherResponds (w : World NoopSourceEventRepository) :
    Option (Unit × World NoopSourceEventRepository × History) :=
  (handleMessage (Answer.response ⟨request, bob, []⟩).clientMessage).play exec
    (List.replicate 10 quiet) w []

theorem Scenario.run_of_otherResponds {turns : List (ServerTurn NoopSourceEventRepository)}
    {w w' : World NoopSourceEventRepository} (done : handled asksItself = some (turns, w))
    (last : otherResponds w = some ((), w', events)) :
    SequentialRun Scenario.timing ⟨⟩
      (⟨.message (Answer.response ⟨request, bob, []⟩).clientMessage, w, events⟩ :: turns) w' := by
  have run : Interleave.Alone exec
      (handleMessage (Answer.response ⟨request, bob, []⟩).clientMessage) w [] () w' events :=
    Interleave.alone_of_play last
  exact .turn (Interleave.sequential_of_playCalls .start done) run

omit [Repository R] in
/-- The other client's response is a turn of the law. -/
theorem answerOutcome_interference : ∃ turns w w' events, handled asksItself = some (turns, w) ∧
    otherResponds w = some ((), w', events) ∧
    AnswerOutcome (.response ⟨request, bob, []⟩) w (deliveries events) w'.ongoing := by
  have played : ((handled asksItself).bind fun done => otherResponds done.2).isSome := by
    decide +kernel
  obtain ⟨⟨u, w', events⟩, last⟩ := Option.isSome_iff_exists.mp played
  obtain ⟨⟨turns, w⟩, done, last⟩ := Option.bind_eq_some_iff.mp last
  have run := run_of_otherResponds done last
  exact ⟨turns, w, w', events, done, last, (answerOutcome_of_sequentialRun run).1⟩

omit [Repository R] in
/-- Another client than the recorded responder settles a request. -/
theorem not_onlyItsResponder : ¬ ∀ (answer : Answer)
    (turns : List (ServerTurn NoopSourceEventRepository)) (w w' : World NoopSourceEventRepository)
    (events : History),
    SequentialRun Scenario.timing ⟨⟩ (⟨.message answer.clientMessage, w, events⟩ :: turns) w' →
    OnlyItsResponder answer w events w' := by
  intro only
  have played : ((handled asksItself).bind fun done => (otherResponds done.2).map fun after =>
      ((done.2.state.ongoing request).map (·.responder),
        (after.2.1.state.ongoing request).isSome)) = some (some alice, false) := by
    decide +kernel
  obtain ⟨⟨turns, w⟩, done, last⟩ := Option.bind_eq_some_iff.mp played
  obtain ⟨⟨u, w', events⟩, last, result⟩ := Option.map_eq_some_iff.mp last
  obtain ⟨recorded, gone⟩ := Prod.mk.inj result
  obtain ⟨ongoing, found, responder⟩ := Option.map_eq_some_iff.mp recorded
  have stranger : bob ≠ ongoing.responder := by
    rw [responder]
    decide
  have kept := (only _ _ _ _ _ (run_of_otherResponds done last) ongoing found stranger).2
  have still : (w'.state.ongoing request).isSome = true := by
    have kept : w'.state.ongoing request = some ongoing := kept
    rw [kept]
    rfl
  cases gone.symm.trans still

end Scenario

end Revent
