import Revent.Api.GrpcTx
import Revent.Laws.Delivery
import Revent.Laws.Publication

/-!
# Event identity

An event passes from the payload to the domain message, to `NewSourceEvent`, to the row, to the
`SourceEvent` that comes back, and from there to the acknowledgement and the broadcast. Each field
survives, and the clock of the row is the one clock of all. The id does not: `save_source_event`
draws a new UUID and `NewSourceEvent::event_id` is never read.

So the id that the publisher chose is kept exactly when the repository happens to draw it.
-/

namespace Revent

open Interleave (Event Amid)

/-- The message on the stream acknowledges the event. -/
def AcknowledgesEvent (eventId : Uuid) (clock : Nat) {Double : Type} :
    Proto.ServerPayload Double → Prop
  | .sourceEventRegistered id monotonicClock => id = eventId.toString ∧ monotonicClock = clock
  | _ => False

/-- The message on the stream is the event of the payload. -/
def IsEvent (val : Proto.RegisterSourceEvent) (eventId : Uuid) (clock : Nat) {Double : Type} :
    Proto.ServerPayload Double → Prop
  | .sourceEvent event => event.id = eventId.toString ∧ event.aggregateId = val.aggregateId ∧
      event.aggregateType = val.aggregateType ∧ event.monotonicClock = clock
  | _ => False

/-- The row is the one of the payload's event. -/
structure SourceEventRow.IsOf (row : SourceEventRow) (val : Proto.RegisterSourceEvent)
    (eventId : Uuid) (clock : Nat) : Prop where
  id : row.id = eventId.toString
  aggregateId : row.aggregateId = val.aggregateId
  aggregate : row.aggregate = val.aggregateType
  monotonicClock : row.monotonicClock = clock

namespace RustLiteSourceEventRepository

/-- A step of the server over its table. -/
abbrev Stepped := ServerStep RustLiteSourceEventRepository

/-- The row a step appended to the table. -/
def Appends (step : Stepped) (row : SourceEventRow) : Prop :=
  step.after.state.repository.table.rows = step.before.state.repository.table.rows ++ [row]

/-- **Event identity**: the handler of the payload stores a row, sends its acknowledgement and has
events broadcast that all carry the id of the payload, its aggregate, and one clock; and the
acknowledgement matches no other id. -/
structure KeepsIdentity {Number Double : Type} (json : SerdeJson Number Double)
    (val : Proto.RegisterSourceEvent) (msg : RegisterSourceEventMessage) (eventId : Uuid)
    (clock : Nat) (steps : List Stepped) : Prop where
  row : ∃ step ∈ steps, step.event.op = .saveSourceEvent msg ∧
    ∃ row, Appends step row ∧ row.IsOf val eventId clock
  acknowledgement : ∀ step ∈ steps, ∀ client tx serverMessage,
    step.event.op = .send client tx serverMessage →
    AcknowledgesEvent eventId clock (serverMessage.toProto json) ∧
      ∀ other clock', AcknowledgesEvent other clock' (serverMessage.toProto json) → other = eventId
  events : ∀ event ∈ handedOver steps, ∀ sends : List Stepped,
    Amid exec (broadcast event) sends () → ∀ step ∈ sends, ∀ client tx serverMessage,
    step.event.op = .send client tx serverMessage →
    IsEvent val eventId clock (serverMessage.toProto json)

/-- An acknowledgement names one event. -/
theorem eq_of_acknowledgesEvent {a b : Uuid} {clock clock' : Nat} {Double : Type}
    {payload : Proto.ServerPayload Double} (first : AcknowledgesEvent a clock payload)
    (second : AcknowledgesEvent b clock' payload) : a = b := by
  unfold AcknowledgesEvent at first second
  split at first
  · exact Uuid.toString_injective (first.1.symm.trans second.1)
  · exact first.elim

section Identity

variable {Number Double : Type} {json : SerdeJson Number Double} {parse : String → Option Uuid}
  {val : Proto.RegisterSourceEvent} {opt : Option ClientId} {tx : Tx}
  {msg : RegisterSourceEventMessage} {steps : List Stepped} {event : SourceEvent}

/-- What the decoder keeps of the payload. -/
theorem fields_of_decode (decode : ClientMessage.ofProto parse (.registerSourceEvent val) opt tx =
      .ok (.registerSourceEvent msg)) :
    parse val.eventId = some msg.eventId.val ∧ msg.aggregateId.val = val.aggregateId ∧
      msg.aggregateType = val.aggregateType := by
  obtain ⟨source, -, decode⟩ := bind_ok.mp decode
  obtain ⟨decoded, fields, heq⟩ := bind_ok.mp decode
  cases heq
  exact RegisterSourceEventMessage.ofProto_fields fields

/-- What a save keeps of the message. -/
theorem row_of_save {step : Stepped} (saves : step.event = ⟨.saveSourceEvent msg, .ok event⟩)
    (performed : exec step.event.op step.env step.before = some (step.event.ret, step.after)) :
    ∃ row, Appends step row ∧ event.IsRow row ∧ event.Saves msg.toNewSourceEvent ∧
      event.id = ⟨step.env.saving.id⟩ := by
  rw [saves] at performed
  obtain ⟨saved, repository⟩ := Prod.mk.inj (Option.some.inj performed)
  have same : (saveSourceEvent msg.toNewSourceEvent step.env.saving
      step.before.state.repository).1 = .ok event := saved
  rcases saveSourceEvent_cases (msg.toNewSourceEvent, step.env.saving)
    step.before.state.repository with ⟨err, fails⟩ | ⟨event', row, table, succeeds, rows, isRow,
      keeps, drawn, -⟩
  · rw [fails] at same
    cases same
  · rw [succeeds] at same
    cases same
    refine ⟨row, ?_, isRow, keeps, drawn⟩
    have after : step.after.state.repository = ⟨table⟩ := by
      rw [← repository]
      exact congrArg Prod.snd succeeds
    rw [Appends, after]
    exact rows

/-- A broadcast sends its event and nothing else. -/
theorem sourceEvent_of_send {sends : List Stepped} (run : Amid exec (broadcast event) sends ())
    {step : Stepped} (mem : step ∈ sends) {client : ClientId} {tx : Tx}
    {serverMessage : ServerMessage} (is : step.event.op = .send client tx serverMessage) :
    serverMessage = .sourceEvent event := by
  have only : (broadcast event).Flows (fun _ op => ∀ client tx serverMessage,
      op = .send client tx serverMessage → serverMessage = .sourceEvent event)
      (fun h _ => ¬ Holding h) [] := by
    refine (broadcast_flows_visits event).mono_site fun h op site client tx serverMessage is => ?_
    cases site with
    | read | drop => cases is
    | send =>
      cases is
      rfl
  exact only.amid run mem client tx serverMessage is

/-- The id that is kept is the one that was drawn. -/
theorem KeepsIdentity.drawn {eventId : Uuid} {clock : Nat}
    (kept : KeepsIdentity json val msg eventId clock steps) (stored : Stored msg event steps)
    (run : Amid exec (handleMessage (.registerSourceEvent msg)) steps ()) {step : Stepped}
    (mem : step ∈ steps) (is : step.event.op = .saveSourceEvent msg) :
    step.env.saving.id = eventId := by
  obtain ⟨step', mem', saves, only⟩ := stored.saving
  cases only step mem is
  obtain ⟨row, appends, isRow, -, drawn⟩ := row_of_save saves (run.performed mem)
  obtain ⟨step', mem', is', row', appends', isOf⟩ := kept.row
  cases only step' mem' is'
  have same : row = row' := by
    have rows := appends.symm.trans appends'
    exact List.singleton_inj.mp (List.append_cancel_left rows)
  apply Uuid.toString_injective
  calc step.env.saving.id.toString = event.id.val.toString := by rw [drawn]
    _ = row.id := isRow.id.symm
    _ = eventId.toString := same ▸ isOf.id

/-- **Event identity** holds exactly where the UUID that the repository draws is the id that the
publisher chose. -/
theorem keepsIdentity_iff
    (decode : ClientMessage.ofProto parse (.registerSourceEvent val) opt tx =
      .ok (.registerSourceEvent msg))
    (run : Amid exec (handleMessage (.registerSourceEvent msg)) steps ())
    (saved : ∃ step ∈ steps, step.event = ⟨.saveSourceEvent msg, .ok event⟩) :
    (∃ eventId clock, parse val.eventId = some eventId ∧
      KeepsIdentity json val msg eventId clock steps) ↔
      ∀ step ∈ steps, step.event.op = .saveSourceEvent msg →
        parse val.eventId = some step.env.saving.id := by
  have stored := stored_of_amid run saved
  obtain ⟨step, mem, saves, -⟩ := stored.saving
  obtain ⟨row, appends, isRow, keeps, drawn⟩ := row_of_save saves (run.performed mem)
  obtain ⟨-, aggregateId, aggregateType⟩ := fields_of_decode decode
  constructor
  · rintro ⟨eventId, clock, parsed, kept⟩ other mem' is
    rw [parsed, kept.drawn stored run mem' is]
  · intro chosen
    have parsed : parse val.eventId = some event.id.val := by
      rw [drawn]
      exact chosen step mem (by rw [saves])
    have group : event.aggregateId.val = val.aggregateId := by
      rw [keeps.aggregateId]
      exact aggregateId
    have kind : event.aggregateType = val.aggregateType := keeps.aggregateType.trans aggregateType
    refine ⟨event.id.val, event.monotonicClock, parsed,
      ⟨step, mem, by rw [saves], row, appends, ?_⟩, ?_, ?_⟩
    · refine ⟨isRow.id, ?_, ?_, isRow.monotonicClock⟩
      · rw [isRow.aggregateId, group]
      · rw [isRow.aggregate, kind]
    · intro other mem' client dest serverMessage is
      rw [stored.acknowledgement_of_send mem' is]
      have acknowledges : AcknowledgesEvent event.id.val event.monotonicClock
          ((ServerMessage.sourceEventRegistered event.id event.monotonicClock).toProto json) :=
        ⟨rfl, rfl⟩
      exact ⟨acknowledges, fun _ _ also => eq_of_acknowledgesEvent also acknowledges⟩
    · intro event' handed sends broadcasts other mem' client dest serverMessage is
      rw [sourceEvent_of_send broadcasts mem' is, stored.eq_of_handedOver handed]
      exact ⟨rfl, group, kind, rfl⟩

end Identity

section Scenario

open Scenario

/-- What is used of `serde_json` on an empty payload, which is no JSON. -/
def noJson : SerdeJson Unit Unit := ⟨fun _ => none, fun _ => none, ()⟩

/-- A payload of a client. -/
def userCreatedEvent : Proto.RegisterSourceEvent :=
  ⟨"00000000-0000-0000-0000-000000000001", "user-1", "User", [], ∅⟩

/-- The handler of the payload, where the repository draws an id and nobody interferes. -/
def handlesDrawing (id : Uuid) : Option (Unit × List Stepped) :=
  (handleMessage (.registerSourceEvent (publishing alice))).playAmid exec
    (List.replicate 5 (fun w => w, Scenario.stored id)) (twoConnected .new)

/-- The decoder accepts the payload. -/
theorem decode_userCreatedEvent : ClientMessage.ofProto Scenario.parse
    (.registerSourceEvent userCreatedEvent) (some alice) 0 =
      .ok (.registerSourceEvent (publishing alice)) := by
  rfl

/-- The handler comes to its end, having saved an event and drawn the id. -/
theorem exists_handlesDrawing (id : Uuid)
    (played : (handlesDrawing id).map (fun ended => (ended.2.length,
      ended.2.all fun step => step.env.saving.id = id)) = some (5, true)) :
    ∃ (steps : List Stepped) (event : SourceEvent),
      Amid exec (handleMessage (.registerSourceEvent (publishing alice))) steps () ∧
      Stored (publishing alice) event steps ∧ ∀ step ∈ steps, step.env.saving.id = id := by
  obtain ⟨⟨⟨⟩, steps⟩, played, hsteps⟩ := Option.map_eq_some_iff.mp played
  obtain ⟨five, drawn⟩ := Prod.mk.inj hsteps
  have run := Interleave.amid_of_playAmid played
  rcases handled_cases run with ⟨touched, failed, err, rfl, -, -⟩ | ⟨event, stored⟩
  · cases five
  · exact ⟨steps, event, run, stored, fun step mem =>
      of_decide_eq_true (List.all_eq_true.mp drawn step mem)⟩

/-- The repository draws the id of the payload: the identity is kept. -/
theorem keepsIdentity_drawn : ∃ steps eventId clock,
    Scenario.parse userCreatedEvent.eventId = some eventId ∧
      KeepsIdentity noJson userCreatedEvent (publishing alice) eventId clock steps := by
  obtain ⟨steps, event, run, stored, drawn⟩ := exists_handlesDrawing 1 (by decide +kernel)
  obtain ⟨step, mem, saves, -⟩ := stored.saving
  refine ⟨steps, (keepsIdentity_iff decode_userCreatedEvent run ⟨step, mem, saves⟩).mpr ?_⟩
  intro other mem' _
  rw [drawn other mem']
  rfl

/-- The repository draws another id: the publisher's is lost. -/
theorem not_keepsIdentity : ¬ ∀ (val : Proto.RegisterSourceEvent) (opt : Option ClientId) (tx : Tx)
    (msg : RegisterSourceEventMessage) (steps : List Stepped) (event : SourceEvent),
    ClientMessage.ofProto Scenario.parse (.registerSourceEvent val) opt tx =
      .ok (.registerSourceEvent msg) →
    Amid exec (handleMessage (.registerSourceEvent msg)) steps () →
    (∃ step ∈ steps, step.event = ⟨.saveSourceEvent msg, .ok event⟩) →
    ∃ eventId clock, Scenario.parse val.eventId = some eventId ∧
      KeepsIdentity noJson val msg eventId clock steps := by
  intro keeps
  obtain ⟨steps, event, run, stored, drawn⟩ := exists_handlesDrawing 7 (by decide +kernel)
  obtain ⟨step, mem, saves, -⟩ := stored.saving
  obtain ⟨eventId, clock, parsed, kept⟩ := keeps userCreatedEvent _ 0 _ steps event
    decode_userCreatedEvent run ⟨step, mem, saves⟩
  have chosen : eventId = 1 := Option.some.inj (parsed.symm.trans rfl)
  have other := kept.drawn stored run mem (by rw [saves])
  rw [drawn step mem, chosen] at other
  exact absurd other (by decide)

end Scenario

end RustLiteSourceEventRepository

end Revent
