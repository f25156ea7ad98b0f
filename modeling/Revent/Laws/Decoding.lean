import Revent.Api.Transform
import Revent.Laws.Effects

/-!
# What the decoder accepts

Every payload comes to one of three ends (`ofProto_outcome`): it is decoded into a message that
carries its fields, it is refused with an error, or it panics the session's task. The client id
of the session is looked at first, then the client, query and aggregate ids, and a text that
should be a UUID last. The panic of a request id that is none is the documented one. The metadata
of an event is read by nobody (`ofProto_withMetadata`): the message has no field for it.
-/

namespace Revent

namespace Proto.Payload

/-- The payload registers a client, or the session has a client id to speak for. -/
def Speaks (opt : Option ClientId) : Payload → Prop
  | registerClient _ => True
  | _ => opt.isSome

/-- The client id, the query ids and the aggregate id of the payload are valid. -/
def NamesValid : Payload → Prop
  | registerClient r =>
    (3 ≤ r.clientId.length ∧ r.clientId.length ≤ 64) ∧ ∀ query ∈ r.queryHandlers, Named query
  | queryRequest qr => Named qr.queryId
  | registerSourceEvent msg => Named msg.aggregateId
  | _ => True

/-- The request id of the payload. -/
def requestId? : Payload → Option String
  | queryRequest qr => some qr.requestId
  | queryResponse qr => some qr.requestId
  | queryHandlingFailed msg => some msg.requestId
  | _ => none

/-- The event id of the payload. -/
def eventId? : Payload → Option String
  | registerSourceEvent msg => some msg.eventId
  | _ => none

end Proto.Payload

/-- The text of the field, if the payload has it, is a UUID. -/
def UuidValid (parse : String → Option Uuid) (field : Option String) : Prop :=
  ∀ text ∈ field, (parse text).isSome

/-- What is kept of the reason and the details of a failure. -/
inductive Reports : Int32 → String → QueryHandlingFailedReason → Prop where
  | errorHandling (details : String) : Reports 1 details .errorHandling
  | unknown {reason : Int32} (other : reason ≠ 1) : Reports reason "" (.unknown none)
  | detailed {reason : Int32} {details : String} (other : reason ≠ 1) (filled : details ≠ "") :
    Reports reason details (.unknown (some details))

/-- The payload with other metadata, if it has any. -/
def Proto.Payload.withMetadata (metadata : HashMap String String) : Payload → Payload
  | registerSourceEvent msg => registerSourceEvent { msg with metadata }
  | payload => payload

/-- **The message carries the payload's fields**, the metadata of an event left out, and the
session's client id. -/
inductive Carries (parse : String → Option Uuid) (tx : Tx) :
    Option ClientId → Proto.Payload → ClientMessage → Prop where
  | registerClient {opt : Option ClientId} {r : Proto.RegisterClient} {clientId : ClientId}
      {queryHandlers : List QueryId} (named : clientId.val = r.clientId)
      (queries : queryHandlers.map (·.val) = r.queryHandlers) :
    Carries parse tx opt (.registerClient r) (.registerClient ⟨clientId, queryHandlers, tx⟩)
  | queryRequest {clientId : ClientId} {qr : Proto.QueryRequest} {requestId : Uuid}
      {queryId : QueryId} (parsed : parse qr.requestId = some requestId)
      (query : queryId.val = qr.queryId) :
    Carries parse tx (some clientId) (.queryRequest qr)
      (.queryRequest ⟨⟨requestId⟩, clientId, queryId, qr.parameters⟩)
  | queryResponse {clientId : ClientId} {qr : Proto.QueryResponse} {requestId : Uuid}
      (parsed : parse qr.requestId = some requestId) :
    Carries parse tx (some clientId) (.queryResponse qr)
      (.queryResponse ⟨⟨requestId⟩, clientId, qr.result⟩)
  | queryHandlingFailed {clientId : ClientId} {msg : Proto.QueryHandlingFailed} {requestId : Uuid}
      {reason : QueryHandlingFailedReason} (parsed : parse msg.requestId = some requestId)
      (reported : Reports msg.reason msg.details reason) :
    Carries parse tx (some clientId) (.queryHandlingFailed msg)
      (.queryHandlingFailed ⟨⟨requestId⟩, clientId, reason⟩)
  | registerSourceEvent {clientId : ClientId} {msg : Proto.RegisterSourceEvent} {eventId : Uuid}
      {aggregateId : AggregateId} (parsed : parse msg.eventId = some eventId)
      (aggregate : aggregateId.val = msg.aggregateId) :
    Carries parse tx (some clientId) (.registerSourceEvent msg)
      (.registerSourceEvent ⟨clientId, ⟨eventId⟩, aggregateId, msg.aggregateType, msg.payload⟩)
  | heartbeat {clientId : ClientId} :
    Carries parse tx (some clientId) .heartbeat (.heartbeat clientId)

/-- **What the decoder does with a payload**, the panic of an event id left aside. -/
structure Decodes (parse : String → Option Uuid) (payload : Proto.Payload)
    (opt : Option ClientId) (tx : Tx) : Prop where
  accepts : (∃ msg, ClientMessage.ofProto parse payload opt tx = .ok msg) ↔
    payload.Speaks opt ∧ payload.NamesValid ∧ UuidValid parse payload.requestId? ∧
      UuidValid parse payload.eventId?
  carries : ∀ msg, ClientMessage.ofProto parse payload opt tx = .ok msg →
    Carries parse tx opt payload msg
  refuses : ¬ (payload.Speaks opt ∧ payload.NamesValid) →
    ∃ err, ClientMessage.ofProto parse payload opt tx = .error (.error err)
  drops : ∀ metadata, ClientMessage.ofProto parse (payload.withMetadata metadata) opt tx =
    ClientMessage.ofProto parse payload opt tx
  panics : payload.Speaks opt → payload.NamesValid → ¬ UuidValid parse payload.requestId? →
    ∃ message, ClientMessage.ofProto parse payload opt tx = .error (.panic message)

/-- The three ends of decoding. -/
inductive DecodeOutcome (parse : String → Option Uuid) (payload : Proto.Payload)
    (opt : Option ClientId) (tx : Tx) : Except DecodeFailure ClientMessage → Prop where
  | accepted {msg : ClientMessage} (carried : Carries parse tx opt payload msg) :
    DecodeOutcome parse payload opt tx (.ok msg)
  | refused {err : ClientMessageError} (invalid : ¬ (payload.Speaks opt ∧ payload.NamesValid)) :
    DecodeOutcome parse payload opt tx (.error (.error err))
  | panicked {message : String}
      (invalid : ¬ (UuidValid parse payload.requestId? ∧ UuidValid parse payload.eventId?))
      (speaks : payload.Speaks opt) (named : payload.NamesValid) :
    DecodeOutcome parse payload opt tx (.error (.panic message))

variable {parse : String → Option Uuid} {payload : Proto.Payload} {opt : Option ClientId} {tx : Tx}

/-! ## Identifiers -/

theorem ClientId.of_new_error {s : String} {err : ClientIdNotValid} (refused : new s = .error err) :
    ¬ (3 ≤ s.length ∧ s.length ≤ 64) := by
  intro valid
  have accepted : new s = .ok ⟨s, valid⟩ := new_ok.mpr rfl
  cases accepted.symm.trans refused

/-- The query ids of a registration: all of them are valid, or one is refused. -/
theorem queries_outcome (queries : List String) :
    (∃ ids : List QueryId, ids.map (·.val) = queries ∧
      queries.mapM (fun query => orError InvalidName.toQueryIdError (QueryId.new query)) =
        .ok ids) ∨
    (¬ (∀ query ∈ queries, Named query)) ∧
      ∃ err, queries.mapM (fun query => orError InvalidName.toQueryIdError (QueryId.new query)) =
        .error (.error err) := by
  induction queries with
  | nil => exact .inl ⟨[], rfl, rfl⟩
  | cons query queries ih =>
    rw [List.mapM_cons]
    cases first : QueryId.new query with
    | error err =>
      refine .inr ⟨fun valid => ?_, _, rfl⟩
      exact not_named_of_error first (valid query List.mem_cons_self)
    | ok queryId =>
      rcases ih with ⟨ids, vals, rest⟩ | ⟨invalid, err, rest⟩
      · refine .inl ⟨queryId :: ids, ?_, ?_⟩
        · rw [List.map_cons, vals, QueryId.new_ok.mp first]
        · rw [rest]
          rfl
      · refine .inr ⟨fun valid => invalid fun q mem => ?_, err, ?_⟩
        · exact valid q (List.mem_cons_of_mem _ mem)
        · rw [rest]
          rfl

theorem QueryHandlingFailedReason.reports_ofProto (reason : Int32) (details : String) :
    Reports reason details (ofProto reason details) := by
  have unknown (other : reason ≠ 1) :
      Reports reason details (.unknown (if details.isEmpty then none else some details)) := by
    split
    · rename_i empty
      cases String.isEmpty_iff.mp empty
      exact .unknown other
    · rename_i filled
      exact .detailed other fun empty => filled (String.isEmpty_iff.mpr empty)
  by_cases one : reason = 1
  · subst one
    exact .errorHandling details
  · have raw : (Proto.QueryHandlingFailedReason.tryFrom reason).getD .unknown = .unknown := by
      unfold Proto.QueryHandlingFailedReason.tryFrom
      rw [if_neg one]
      split <;> rfl
    unfold ofProto
    rw [raw]
    exact unknown one

/-! ## Payloads -/

/-- A text that is no UUID. -/
theorem not_uuidValid {text : String} (invalid : parse text = none) :
    ¬ UuidValid parse (some text) := by
  intro valid
  have parsed := valid text rfl
  rw [invalid] at parsed
  cases parsed

theorem uuidValid_some {text : String} {uuid : Uuid} (parsed : parse text = some uuid) :
    UuidValid parse (some text) := by
  rintro _ ⟨⟩
  rw [parsed]
  rfl

theorem uuidValid_none : UuidValid parse none := nofun

/-- A panic, for the text that is no UUID. -/
theorem DecodeOutcome.panicked_of_text {text message : String} (invalid : parse text = none)
    (field : payload.requestId? = some text ∨ payload.eventId? = some text)
    (speaks : payload.Speaks opt) (named : payload.NamesValid) :
    DecodeOutcome parse payload opt tx (.error (.panic message)) := by
  refine .panicked (fun ⟨request, event⟩ => ?_) speaks named
  rcases field with is | is
  · rw [is] at request
    exact not_uuidValid invalid request
  · rw [is] at event
    exact not_uuidValid invalid event

/-- **Every payload comes to one of the three ends.** -/
theorem ofProto_outcome (parse : String → Option Uuid) (payload : Proto.Payload)
    (opt : Option ClientId) (tx : Tx) :
    DecodeOutcome parse payload opt tx (ClientMessage.ofProto parse payload opt tx) := by
  cases payload with
  | registerClient r =>
    rcases queries_outcome r.queryHandlers with ⟨ids, vals, checked⟩ | ⟨invalid, err, checked⟩
    · simp only [ClientMessage.ofProto, checked, bind, Except.bind]
      cases named : ClientId.new r.clientId with
      | error err =>
        apply DecodeOutcome.refused
        rintro ⟨-, valid, -⟩
        exact ClientId.of_new_error named valid
      | ok clientId => exact .accepted (.registerClient (ClientId.new_ok.mp named) vals)
    · simp only [ClientMessage.ofProto, checked, bind, Except.bind]
      exact .refused fun valid => invalid valid.2.2
  | queryRequest qr =>
    cases opt with
    | none => exact .refused fun valid => Bool.false_ne_true valid.1
    | some clientId =>
      simp only [ClientMessage.ofProto, QueryRequestMessage.ofProto, registered, bind, Except.bind]
      cases named : QueryId.new qr.queryId with
      | error err =>
        apply DecodeOutcome.refused
        exact fun valid => not_named_of_error named valid.2
      | ok queryId =>
        have query := QueryId.new_ok.mp named
        cases parsed : parse qr.requestId with
        | none => exact .panicked_of_text parsed (.inl rfl) rfl (query.subst queryId.valid)
        | some requestId => exact .accepted (.queryRequest parsed query)
  | queryResponse qr =>
    cases opt with
    | none => exact .refused fun valid => Bool.false_ne_true valid.1
    | some clientId =>
      simp only [ClientMessage.ofProto, registered, bind, Except.bind]
      cases parsed : parse qr.requestId with
      | none => exact .panicked_of_text parsed (.inl rfl) rfl trivial
      | some requestId => exact .accepted (.queryResponse parsed)
  | queryHandlingFailed msg =>
    cases opt with
    | none => exact .refused fun valid => Bool.false_ne_true valid.1
    | some clientId =>
      simp only [ClientMessage.ofProto, registered, bind, Except.bind]
      cases parsed : parse msg.requestId with
      | none => exact .panicked_of_text parsed (.inl rfl) rfl trivial
      | some requestId =>
        apply DecodeOutcome.accepted
        exact .queryHandlingFailed parsed (QueryHandlingFailedReason.reports_ofProto _ _)
  | registerSourceEvent msg =>
    cases opt with
    | none => exact .refused fun valid => Bool.false_ne_true valid.1
    | some clientId =>
      simp only [ClientMessage.ofProto, RegisterSourceEventMessage.ofProto, registered, bind,
        Except.bind]
      cases named : AggregateId.new msg.aggregateId with
      | error err =>
        apply DecodeOutcome.refused
        exact fun valid => not_named_of_error named valid.2
      | ok aggregateId =>
        have aggregate := AggregateId.new_ok.mp named
        cases parsed : parse msg.eventId with
        | none => exact .panicked_of_text parsed (.inr rfl) rfl (aggregate.subst aggregateId.valid)
        | some eventId => exact .accepted (.registerSourceEvent parsed aggregate)
  | heartbeat =>
    cases opt with
    | none => exact .refused fun valid => Bool.false_ne_true valid.1
    | some clientId => exact .accepted .heartbeat

/-- A decoded message carries the payload's fields. -/
theorem carries_of_ofProto {msg : ClientMessage}
    (decode : ClientMessage.ofProto parse payload opt tx = .ok msg) :
    Carries parse tx opt payload msg := by
  have outcome := ofProto_outcome parse payload opt tx
  rw [decode] at outcome
  cases outcome with
  | accepted carried => exact carried

/-- A payload whose fields are carried is valid. -/
theorem Carries.valid {msg : ClientMessage} (carries : Carries parse tx opt payload msg) :
    payload.Speaks opt ∧ payload.NamesValid ∧ UuidValid parse payload.requestId? ∧
      UuidValid parse payload.eventId? := by
  cases carries with
  | @registerClient _ r clientId queryHandlers named queries =>
    refine ⟨trivial, ⟨named ▸ clientId.valid, fun query mem => ?_⟩, uuidValid_none, uuidValid_none⟩
    rw [← queries] at mem
    obtain ⟨queryId, -, rfl⟩ := List.mem_map.mp mem
    exact queryId.valid
  | @queryRequest clientId qr requestId queryId parsed query =>
    exact ⟨rfl, query.subst queryId.valid, uuidValid_some parsed, uuidValid_none⟩
  | queryResponse parsed => exact ⟨rfl, trivial, uuidValid_some parsed, uuidValid_none⟩
  | queryHandlingFailed parsed => exact ⟨rfl, trivial, uuidValid_some parsed, uuidValid_none⟩
  | @registerSourceEvent clientId msg eventId aggregateId parsed aggregate =>
    exact ⟨rfl, aggregate.subst aggregateId.valid, uuidValid_none, uuidValid_some parsed⟩
  | heartbeat => exact ⟨rfl, trivial, uuidValid_none, uuidValid_none⟩

/-- The metadata of an event has no influence on what it is decoded into. -/
theorem ofProto_withMetadata (payload : Proto.Payload) (metadata : HashMap String String) :
    ClientMessage.ofProto parse (payload.withMetadata metadata) opt tx =
      ClientMessage.ofProto parse payload opt tx := by
  cases payload <;> rfl

/-- **What the decoder does with every payload.** -/
theorem decodes (parse : String → Option Uuid) (payload : Proto.Payload) (opt : Option ClientId)
    (tx : Tx) : Decodes parse payload opt tx := by
  have outcome := ofProto_outcome parse payload opt tx
  generalize decoded : ClientMessage.ofProto parse payload opt tx = result at outcome
  cases outcome with
  | accepted carried =>
    have valid := carried.valid
    refine ⟨⟨fun _ => valid, fun _ => ⟨_, decoded⟩⟩, fun msg same => ?_, fun invalid => ?_,
      ofProto_withMetadata payload, fun _ _ invalid => ?_⟩
    · cases same.symm.trans decoded
      exact carried
    · exact absurd ⟨valid.1, valid.2.1⟩ invalid
    · exact absurd valid.2.2.1 invalid
  | refused invalid =>
    refine ⟨⟨fun ⟨msg, same⟩ => ?_, fun valid => ?_⟩, fun msg same => ?_, fun _ => ⟨_, decoded⟩,
      ofProto_withMetadata payload, fun speaks named _ => ?_⟩
    · cases same.symm.trans decoded
    · exact absurd ⟨valid.1, valid.2.1⟩ invalid
    · cases same.symm.trans decoded
    · exact absurd ⟨speaks, named⟩ invalid
  | panicked invalid speaks named =>
    refine ⟨⟨fun ⟨msg, same⟩ => ?_, fun valid => ?_⟩, fun msg same => ?_, fun unnamed => ?_,
      ofProto_withMetadata payload, fun _ _ _ => ⟨_, decoded⟩⟩
    · cases same.symm.trans decoded
    · exact absurd valid.2.2 invalid
    · cases same.symm.trans decoded
    · exact absurd ⟨speaks, named⟩ unnamed

section Scenario

open Scenario (alice)

/-- A response whose request id is no UUID panics the session. -/
theorem decoder_panics : ¬ ∀ (payload : Proto.Payload) (opt : Option ClientId) (tx : Tx),
    (∃ msg, ClientMessage.ofProto Scenario.parse payload opt tx = .ok msg) ∨
      ∃ err, ClientMessage.ofProto Scenario.parse payload opt tx = .error (.error err) := by
  intro total
  have panicked : ClientMessage.ofProto Scenario.parse (.queryResponse ⟨"request", []⟩)
      (some alice) 0 = .error (.panic "request id should be an uuid") := rfl
  rcases total (.queryResponse ⟨"request", []⟩) (some alice) 0 with ⟨msg, ok⟩ | ⟨err, error⟩
  · cases ok.symm.trans panicked
  · cases error.symm.trans panicked

end Scenario

end Revent
