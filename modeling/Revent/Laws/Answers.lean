import Revent.Laws.Forwarding

/-!
# No lost answer

A responder may answer as soon as `QueryRequested` is in its channel, and the request is recorded
after that: an answer that is handled in between finds no ongoing request and is dropped.

The law is that the handler of the chosen responder's answer finds the request that was forwarded
to it, and goes on to send the answer to its requester. It holds in every run in which no answer
is read between the forwarding and the recording of its request, and no request is recorded while
an answer of the same id is being handled or the id is being forwarded elsewhere, by `Recorded`.
-/

namespace Revent

open Interleave (Event Trace Prog Machine Config Task)

variable {R : Type}

/-- **No lost answer**: an answer of the responder its request was forwarded to, and not settled
since, finds that request; and an answer that found its request is sent to the requester, if that
is connected. -/
structure NoLostAnswer (σ : ServerConfig R) : Prop where
  finds : ∀ later i (answer : Answer) (found : Option OngoingQueryRequest) earlier,
    σ.trace = later ++ (i, ⟨.getOngoingRequest (.answer answer), found⟩) :: earlier →
    forwardedTo answer.requestId earlier = some answer.responder →
    ∃ request, found = some request ∧ request.responder = answer.responder
  looks : ∀ (i : Nat) (task : Task Op Ret Job) (answer : Answer) (request : OngoingQueryRequest) h,
    σ.tasks[i]? = some task →
    σ.trace.of i = ⟨.getOngoingRequest (.answer answer), some request⟩ :: h →
    ∃ next, task.prog = .act (.getClientById (.answering request answer)) next
  sends : ∀ (i : Nat) (task : Task Op Ret Job) (answer : Answer) (request : OngoingQueryRequest)
    (requester : ClientInfo) h, σ.tasks[i]? = some task →
    σ.trace.of i = ⟨.getClientById (.answering request answer), some requester⟩ :: h →
    ∃ next, task.prog =
      .act (.send request.requester requester.tx (answer.serverMessage request)) next

/-- The invariant: an id being processed was sent to its responder by a task about to record it,
or it is recorded for that responder, with nobody about to record it or to remove it. -/
def Recorded (requestId : RequestId) (s : State R) (tr : Trace Op Ret) : Prop :=
  ∀ client, forwardedTo requestId tr = some client →
    (∃ i, SentTo requestId client (tr.of i)) ∨
      (∃ request, s.ongoing requestId = some request ∧ request.responder = client) ∧
        ∀ i, ¬ Sent requestId (tr.of i) ∧ ¬ Settling requestId (tr.of i)

variable [Repository R]

/-- The condition: an answer is read only while no other task is about to record its request, and
a request is recorded only while no other task is about to record the id or handles an answer of
it. -/
def RecordsFirst (σ : ServerConfig R) (i : Nat) (_ : Env R) : Op → Prop
  | .getOngoingRequest (.answer answer) => ∀ j, j ≠ i → ¬ Sent answer.requestId (σ.trace.of j)
  | .handleQueryRequestedEvent request => ∀ j, j ≠ i →
      ¬ Sent request.requestId (σ.trace.of j) ∧ ¬ Answering request.requestId (σ.trace.of j)
  | _ => True

variable {parse : String → Option Uuid} {timing : Timing} {σ : ServerConfig R} {i : Nat}
  {job : Job} {op : Op} {env : Env R} {r : Ret op} {w : World R} {requestId : RequestId}

/-- A task about to record the id stays so, or records it for its responder. -/
theorem Recorded.sent_act {client : ClientId} {k : Nat}
    (site : Site parse timing job (σ.trace.of i) op) (cond : RecordsFirst σ i env op)
    (hexec : exec op env σ.world = some (r, w)) (sent : SentTo requestId client (σ.trace.of k)) :
    (∃ i', SentTo requestId client (Trace.of ((i, ⟨op, r⟩) :: σ.trace) i')) ∨
      (∃ request, w.state.ongoing requestId = some request ∧ request.responder = client) ∧
        ∀ i', ¬ Sent requestId (Trace.of ((i, ⟨op, r⟩) :: σ.trace) i') ∧
          ¬ Settling requestId (Trace.of ((i, ⟨op, r⟩) :: σ.trace) i') := by
  by_cases hk : i = k
  · subst hk
    rcases sent.next (r := r) site with still | ⟨request, rfl, rfl, rfl⟩
    · exact .inl ⟨i, (Trace.of_cons_self _ _ _).symm ▸ still⟩
    · refine .inr ⟨⟨request, ?_, rfl⟩, fun j => ?_⟩
      · rw [ongoing_exec hexec]
        exact if_pos rfl
      · by_cases hj : i = j
        · subst hj
          rw [Trace.of_cons_self]
          refine ⟨?_, nofun⟩
          rintro ⟨_, h⟩
          cases h
        · rw [Trace.of_cons_ne _ hj]
          obtain ⟨unsent, unanswered⟩ := cond j (Ne.symm hj)
          exact ⟨unsent, fun h => unanswered (.settling h)⟩
  · exact .inl ⟨k, (Trace.of_cons_ne _ hk _).symm ▸ sent⟩

/-- Each operation, under the condition, keeps the invariant of every id. -/
theorem Recorded.act (inv : Recorded requestId σ.world.state σ.trace)
    (site : Site parse timing job (σ.trace.of i) op) (cond : RecordsFirst σ i env op)
    (hexec : exec op env σ.world = some (r, w)) :
    Recorded requestId w.state ((i, ⟨op, r⟩) :: σ.trace) := by
  intro client forwarded
  obtain ⟨unsettled, forwards | ⟨unforwarded, before⟩⟩ := forwardedTo_cons forwarded
  · obtain ⟨tx, msg, heq, id⟩ := forwards_eq_some forwards
    refine .inl ⟨i, ?_⟩
    rw [Trace.of_cons_self, heq]
    exact .sent id
  · rcases inv client before with ⟨k, sent⟩ | ⟨⟨request, found, responder⟩, rest⟩
    · exact sent_act site cond hexec sent
    · refine .inr ⟨⟨request, ?_, responder⟩, fun k => ?_⟩
      · -- neither a recording nor a removal of the id is next
        rw [ongoing_exec hexec, ← found]
        cases op with
        | handleQueryRequestedEvent recorded =>
          refine if_neg fun id => ?_
          subst id
          exact (rest i).1 site.sent_of_record
        | removeOngoingRequest removed =>
          refine if_neg fun id => ?_
          subst id
          rcases site.held_of_remove with settling | timingOut
          · exact (rest i).2 settling
          · simp [settles, timingOut.atTimeOut] at unsettled
        | _ => rfl
      · refine ⟨fun sent => ?_, fun settling => ?_⟩
        · rcases Trace.of_cons_cases (Sent requestId) sent with ⟨-, c, mine⟩ | ⟨-, other⟩
          · rcases mine.back site with forwards | sent
            · cases unforwarded.symm.trans forwards
            · exact (rest i).1 ⟨c, sent⟩
          · exact (rest k).1 other
        · rcases Trace.of_cons_cases (Settling requestId) settling with ⟨-, mine⟩ | ⟨-, other⟩
          · cases unsettled.symm.trans mine.settles
          · exact (rest k).2 other

/-- What the law says of the answers that were read. -/
def AnswersFound (tr : Trace Op Ret) : Prop :=
  ∀ {later i} {answer : Answer} {found : Option OngoingQueryRequest} {earlier},
    tr = later ++ (i, ⟨.getOngoingRequest (.answer answer), found⟩) :: earlier →
    forwardedTo answer.requestId earlier = some answer.responder →
    ∃ request, found = some request ∧ request.responder = answer.responder

omit [Repository R] in
theorem Site.unsent_of_answer {answer : Answer} {h : History}
    (site : Site parse timing job h (.getOngoingRequest (.answer answer))) :
    ¬ Sent requestId h := by
  cases site with
  | reading =>
    rintro ⟨_, h⟩
    cases h

theorem AnswersFound.act (answers : AnswersFound σ.trace)
    (inv : ∀ requestId, Recorded requestId σ.world.state σ.trace)
    (site : Site parse timing job (σ.trace.of i) op) (cond : RecordsFirst σ i env op)
    (hexec : exec op env σ.world = some (r, w)) : AnswersFound ((i, ⟨op, r⟩) :: σ.trace) := by
  intro later k answer found earlier htr forwarded
  rcases Trace.cons_eq_append htr with ⟨-, heq, rfl⟩ | ⟨later', -, htail⟩
  · cases heq
    rcases inv answer.requestId _ forwarded with ⟨k, sent⟩ | ⟨⟨request, ongoing, responder⟩, -⟩
    · by_cases hk : k = i
      · subst hk
        exact absurd ⟨_, sent⟩ site.unsent_of_answer
      · exact absurd ⟨_, sent⟩ (cond k hk)
    · exact ⟨request, (exec_getOngoingRequest hexec).1.trans ongoing, responder⟩
  · exact answers htail forwarded

variable {repository : R}

/-- **No lost answer**, in every run in which an answer is read only while no other task is about
to record its request, and a request is recorded only while no other task is about to record the
id or handles an answer of it. -/
theorem noLostAnswer_of_recordsFirst (reach : ReachIf parse timing repository RecordsFirst σ) :
    NoLostAnswer σ := by
  obtain ⟨-, answers⟩ := state_invariant
    (fun s tr => (∀ requestId, Recorded requestId s tr) ∧ AnswersFound tr) reach
    ⟨fun _ => nofun, by simp [AnswersFound]⟩
    fun site cond hexec ⟨inv, answers⟩ => ⟨fun requestId => (inv requestId).act site cond hexec,
      answers.act inv site cond hexec⟩
  refine ⟨fun _ _ _ _ _ => answers, ?_, ?_⟩
  · rintro i ⟨job, prog⟩ answer request h htask hh
    obtain ⟨op, next, rfl, site⟩ := act_of_middle (flowing reach) htask (by rw [hh]; rfl)
    rw [hh] at site
    cases site with
    | answering => exact ⟨next, rfl⟩
    | handle hand => cases hand
    | receive ready | oldClients ready | heartbeat ready | getExpiredRequests ready
    | timingOut ready | readClients ready | broadcasting ready | dropClients ready =>
      exact ready.elim rfl
  · rintro i ⟨job, prog⟩ answer request requester h htask hh
    obtain ⟨op, next, rfl, site⟩ := act_of_middle (flowing reach) htask (by rw [hh]; rfl)
    rw [hh] at site
    cases site with
    | answer is reply =>
      subst reply
      exact ⟨next, rfl⟩
    | handle hand => cases hand
    | receive ready | oldClients ready | heartbeat ready | getExpiredRequests ready
    | timingOut ready | readClients ready | broadcasting ready | dropClients ready =>
      exact ready.elim rfl

section Scenario

open Scenario

namespace Scenario

/-- The readings of answers and the recordings of requests. -/
def readsAnswerOrRecords : Op → Bool
  | .getOngoingRequest (.answer _) => true
  | .handleQueryRequestedEvent _ => true
  | _ => false

/-- The answer whose requester an event found connected. -/
def answerForwarded : Event Op Ret → Option Answer
  | ⟨.getClientById (.answering _ answer), some _⟩ => some answer
  | _ => none

end Scenario

/-- A request is forwarded from one session to another, and the answer of that one found it and its
requester. -/
theorem noLostAnswer_exchange :
    ∃ σ, outcome (whileOthersRest readsAnswerOrRecords)
      (exchange ++ [hears 1 response, turn 1, turn 1, turn 1]) = some σ ∧
      σ.trace.head?.map (fun entry => (entry.1, answerForwarded entry.2)) =
        some (1, some (.response ⟨request, alice, []⟩)) ∧
      forwardedTo request σ.trace = some alice ∧ NoLostAnswer σ := by
  have run : (outcome (whileOthersRest readsAnswerOrRecords)
      (exchange ++ [hears 1 response, turn 1, turn 1, turn 1])).map (fun σ =>
        (σ.trace.head?.map fun entry => (entry.1, answerForwarded entry.2),
          forwardedTo request σ.trace)) =
          some (some (1, some (.response ⟨request, alice, []⟩)), some alice) := by
    decide +kernel
  obtain ⟨σ, hrun, hσ⟩ := Option.map_eq_some_iff.mp run
  obtain ⟨last, forwarded⟩ := Prod.mk.inj hσ
  refine ⟨σ, hrun, last, forwarded, noLostAnswer_of_recordsFirst (reach_outcome ?_ hrun)⟩
  intro σ i env job op next checked task
  have unsent (this : readsAnswerOrRecords op = true) {requestId : RequestId} (j : Nat)
      (hj : j ≠ i) : ¬ Sent requestId (σ.trace.of j) ∧ ¬ Answering requestId (σ.trace.of j) := by
    have rest := (rest_of_whileOthersRest checked task this j hj).1
    exact ⟨fun sent => rest.elim (Forwarding.goesOn (.inr sent)),
      fun answering => rest.elim answering.goesOn⟩
  cases op with
  | getOngoingRequest why =>
    cases why with
    | answer => exact fun j hj => (unsent rfl j hj).1
    | _ => trivial
  | handleQueryRequestedEvent => exact unsent rfl
  | _ => trivial

/-- The answer an event reads, if it found no request. -/
def Scenario.droppedAnswer : Event Op Ret → Option Answer
  | ⟨.getOngoingRequest (.answer answer), none⟩ => some answer
  | _ => none

/-- The chosen responder answers before its request is recorded, and its answer is dropped. -/
theorem not_noLostAnswer : ¬ ∀ σ : ServerConfig NoopSourceEventRepository,
    ReachIf Scenario.parse Scenario.timing ⟨⟩ anyOp σ → NoLostAnswer σ := by
  intro noLost
  have lost : (outcome (fun _ _ => true) ([opened, opened] ++ registers 1 alice ++
      registers 2 bob ++ [hears 2 query, turn 2, turn 2, turn 2, turn 2, turn 2, turn 2,
        hears 1 response, turn 1, turn 1])).map (fun σ =>
        (σ.trace.head?.map fun entry => droppedAnswer entry.2, forwardedTo request σ.trace.tail)) =
          some (some (some (.response ⟨request, alice, []⟩)), some alice) := by
    decide
  obtain ⟨σ, hrun, hσ⟩ := Option.map_eq_some_iff.mp lost
  obtain ⟨hlast, hbefore⟩ := Prod.mk.inj hσ
  match htr : σ.trace with
  | (i, ev) :: earlier =>
    rw [htr] at hlast hbefore
    have hdropped : droppedAnswer ev = some (.response ⟨request, alice, []⟩) :=
      Option.some.inj hlast
    unfold droppedAnswer at hdropped
    split at hdropped
    · cases hdropped
      have law := noLost σ (reach_anyOp hrun)
      obtain ⟨found, hfound, -⟩ := law.finds [] i _ none earlier htr hbefore
      cases hfound
    · cases hdropped
  | [] =>
    rw [htr] at hlast
    cases hlast

end Scenario

end Revent
