import Revent.Laws.Decoding
import Revent.Laws.Identity
import Revent.Laws.Responders

/-!
# Reasons of failures

A failure is translated three times on its way: from the payload to the domain's reason, from that
to the reason of the server message, and from that to the texts of the stream. The name of the
reason survives for every raw value. The details survive for `Unknown`; `ErrorHandling` has none
in the domain, and so its details are dropped by the first translation.
-/

namespace Revent

open Interleave (Alone)

variable {R : Type} {Number Double : Type}

/-- The name of a raw reason. A value out of the enumeration is `Unknown`. -/
def reasonName (reason : Int32) : String := if reason = 1 then "ErrorHandling" else "Unknown"

/-- The details that are kept: those of any reason but `ErrorHandling`. -/
def keptDetails (msg : Proto.QueryHandlingFailed) : String :=
  if msg.reason = 1 then "" else msg.details

/-- **The failure is reported**: one message, to the requester of the ongoing request over its
channel, which is a `QueryRequestedFailed` of that request, with the reason's name and the
details. -/
def ReportsFailure (json : SerdeJson Number Double) (msg : Proto.QueryHandlingFailed)
    (current : OngoingQueryRequest) (dest : Tx) (details : String) (h : History) : Prop :=
  ∃ serverMessage sent, deliveries h = [(current.requester, dest, serverMessage, sent)] ∧
    serverMessage.toProto json = .queryRequestedFailed current.requestId.val.toString
      current.queryId.val (reasonName msg.reason) details

variable {json : SerdeJson Number Double} {parse : String → Option Uuid}
  {msg : Proto.QueryHandlingFailed}

/-- The texts of a reason that was translated. -/
theorem texts_of_reports {reason : QueryHandlingFailedReason}
    (reported : Reports msg.reason msg.details reason) :
    (QueryRequestedFailedReason.handlingError reason).asStr = reasonName msg.reason ∧
      (QueryRequestedFailedReason.handlingError reason).details.getD "" = keptDetails msg := by
  obtain ⟨requestId, raw, details⟩ := msg
  cases reported with
  | errorHandling => exact ⟨rfl, rfl⟩
  | unknown other | detailed other _ =>
    simp only [reasonName, keptDetails, if_neg other]
    exact ⟨rfl, rfl⟩

variable [Repository R] {opt : Option ClientId} {tx dest : Tx} {decoded : ClientMessage}
  {current : OngoingQueryRequest} {w w' : World R} {h : History}

/-- **Failure reasons survive forwarding**, for every reason and every details. -/
theorem reportsFailure_of_alone
    (decode : ClientMessage.ofProto parse (.queryHandlingFailed msg) opt tx = .ok decoded)
    (about : parse msg.requestId = some current.requestId.val)
    (ongoing : w.state.ongoing current.requestId = some current)
    (connected : w.state.txOf current.requester = some dest)
    (run : Alone exec (handleMessage decoded) w [] () w' h) :
    ReportsFailure json msg current dest (keptDetails msg) h := by
  have carries := carries_of_ofProto decode
  generalize sender : opt = session at carries
  cases carries with
  | @queryHandlingFailed clientId _ requestId reason parsed reported =>
    cases Option.some.inj (parsed.symm.trans about)
    let answer : Answer := .failed ⟨current.requestId, clientId, reason⟩
    have outcome : AnswerOutcome answer w (deliveries h) w'.ongoing :=
      (handleMessage_outcome answer).elim run
    obtain ⟨name, details⟩ := texts_of_reports reported
    have texts : (answer.serverMessage current).toProto json =
        .queryRequestedFailed current.requestId.val.toString current.queryId.val
          (reasonName msg.reason) (keptDetails msg) := by
      rw [← name, ← details]
      rfl
    generalize sends : deliveries h = sent at outcome
    generalize w'.ongoing = after at outcome
    cases outcome with
    | unknown absent => cases absent.symm.trans ongoing
    | gone found away =>
      cases found.symm.trans ongoing
      cases away.symm.trans connected
    | refused found channel | settled found channel =>
      cases found.symm.trans ongoing
      cases channel.symm.trans connected
      exact ⟨_, _, sends, texts⟩

section Scenario

open Scenario
open RustLiteSourceEventRepository (noJson)

/-- A failure of the request of the scenarios. -/
def Scenario.failurePayload (reason : Int32) : Proto.QueryHandlingFailed :=
  ⟨"00000000-0000-0000-0000-000000000001", reason, "no rows"⟩

/-- A client that handles its own request fails with a reason. -/
def Scenario.handlesFailure (reason : QueryHandlingFailedReason) :
    Option (World NoopSourceEventRepository × World NoopSourceEventRepository × History) :=
  (handled [registering alice 0, requesting alice]).bind fun done =>
    ((handleMessage (.queryHandlingFailed ⟨request, alice, reason⟩)).play exec
      (List.replicate 10 quiet) done.2 []).map fun after => (done.2, after.2)

/-- The failure finds the request ongoing and its requester connected. -/
theorem Scenario.exists_handlesFailure (reason : QueryHandlingFailedReason)
    (played : (handlesFailure reason).map (fun run => (run.1.state.txOf alice,
      (run.1.state.ongoing request).map fun current => (current.requestId, current.requester))) =
        some (some 0, some (request, alice))) :
    ∃ current w w' h, handlesFailure reason = some (w, w', h) ∧ current.requestId = request ∧
      w.state.ongoing current.requestId = some current ∧
      w.state.txOf current.requester = some 0 ∧
      Alone exec (handleMessage (.queryHandlingFailed ⟨request, alice, reason⟩)) w [] () w' h := by
  obtain ⟨⟨w, w', h⟩, played, result⟩ := Option.map_eq_some_iff.mp played
  obtain ⟨connected, found⟩ := Prod.mk.inj result
  obtain ⟨current, ongoing, fields⟩ := Option.map_eq_some_iff.mp found
  obtain ⟨requestId, requester⟩ := Prod.mk.inj fields
  refine ⟨current, w, w', h, played, requestId, requestId ▸ ongoing, requester ▸ connected, ?_⟩
  obtain ⟨done, -, played⟩ := Option.bind_eq_some_iff.mp played
  obtain ⟨⟨u, after⟩, played, heq⟩ := Option.map_eq_some_iff.mp played
  cases heq
  exact Interleave.alone_of_play played

omit [Repository R] in
/-- A failure of an unknown reason is reported with its details. -/
theorem reportsFailure_unknown : ∃ current w w' h,
    handlesFailure (.unknown (some "no rows")) = some (w, w', h) ∧
      ReportsFailure noJson (failurePayload 0) current 0 "no rows" h := by
  obtain ⟨current, w, w', h, played, requestId, ongoing, connected, run⟩ :=
    exists_handlesFailure (.unknown (some "no rows")) (by decide +kernel)
  refine ⟨current, w, w', h, played, ?_⟩
  have decode : ClientMessage.ofProto Scenario.parse (.queryHandlingFailed (failurePayload 0))
      (some alice) 0 = .ok (.queryHandlingFailed ⟨request, alice, .unknown (some "no rows")⟩) := rfl
  exact reportsFailure_of_alone decode (by rw [requestId]; rfl) ongoing connected run

omit [Repository R] in
/-- The details of an error in the handling are not. -/
theorem not_reportsDetails : ¬ ∀ (msg : Proto.QueryHandlingFailed) (opt : Option ClientId)
    (tx dest : Tx) (decoded : ClientMessage) (current : OngoingQueryRequest)
    (w w' : World NoopSourceEventRepository) (h : History),
    ClientMessage.ofProto Scenario.parse (.queryHandlingFailed msg) opt tx = .ok decoded →
    Scenario.parse msg.requestId = some current.requestId.val →
    w.state.ongoing current.requestId = some current →
    w.state.txOf current.requester = some dest →
    Alone exec (handleMessage decoded) w [] () w' h →
    ReportsFailure noJson msg current dest msg.details h := by
  intro reports
  have played : ((handlesFailure .errorHandling).map fun run =>
      (deliveries run.2.2).map fun sent => match sent.2.2.1.toProto noJson with
        | .queryRequestedFailed _ _ _ details => details
        | _ => "no rows") = some [""] := by
    decide +kernel
  obtain ⟨current, w, w', h, done, requestId, ongoing, connected, run⟩ :=
    exists_handlesFailure .errorHandling (by decide +kernel)
  have decode : ClientMessage.ofProto Scenario.parse (.queryHandlingFailed (failurePayload 1))
      (some alice) 0 = .ok (.queryHandlingFailed ⟨request, alice, .errorHandling⟩) := rfl
  obtain ⟨serverMessage, sent, sends, texts⟩ := reports (failurePayload 1) (some alice) 0 0 _
    current w w' h decode (by rw [requestId]; rfl) ongoing connected run
  rw [done, Option.map_some, sends] at played
  simp only [List.map_cons, texts] at played
  exact absurd played (by decide)

end Scenario

end Revent
