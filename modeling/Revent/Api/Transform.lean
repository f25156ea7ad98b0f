import Revent.Api.Proto

/-!
# Decoding of payloads

`api/grpc/transform.rs`: a payload becomes a client message under the session's client id, or is
refused, or panics the session's task. Which strings are UUIDs is the `uuid` crate's to say:
`parse` is its parser.
-/

namespace Revent

/-- `ClientMessageError`. -/
inductive ClientMessageError where
  | clientNotRegistered
  | validationError (field reason : String)
  deriving DecidableEq

/-- Why no client message comes out: an error is returned, or the task panics with a message. -/
inductive DecodeFailure where
  | error (err : ClientMessageError)
  | panic (message : String)
  deriving DecidableEq

/-- `From<ClientIdNotValid> for ClientMessageError`. -/
def ClientIdNotValid.toError (value : ClientIdNotValid) : ClientMessageError :=
  .validationError "client_id" value.reason

/-- The reason text of `From<InvalidAggregateId>` and of `From<InvalidQueryId>`. -/
def InvalidName.reason : InvalidName → String
  | .empty => "value is empty"
  | .tooShort _ min => "value is too short (min=" ++ toString min ++ ")"
  | .tooLong _ max => "value is too long (max=" ++ toString max ++ ")"

/-- `From<InvalidAggregateId> for ClientMessageError`. -/
def InvalidName.toAggregateIdError (value : InvalidName) : ClientMessageError :=
  .validationError "aggregate_id" value.reason

/-- `From<InvalidQueryId> for ClientMessageError`. -/
def InvalidName.toQueryIdError (value : InvalidName) : ClientMessageError :=
  .validationError "query_id" value.reason

/-- `Result::map_err` into a decoding error. -/
def orError {ε α : Type} (toError : ε → ClientMessageError) :
    Except ε α → Except DecodeFailure α
  | .ok a => .ok a
  | .error e => .error (.error (toError e))

/-- `Result::expect` and `Result::unwrap` of a parsed UUID. -/
def orPanic (message : String) : Option Uuid → Except DecodeFailure Uuid
  | some uuid => .ok uuid
  | none => .error (.panic message)

/-- `let Some(client_id) = client_id_option else { return Err(ClientNotRegistered) }`. -/
def registered : Option ClientId → Except DecodeFailure ClientId
  | some clientId => .ok clientId
  | none => .error (.error .clientNotRegistered)

/-- The translation of `reason` and `details`: a value out of the enumeration is `Unknown`, and
only `Unknown` keeps the details. -/
def QueryHandlingFailedReason.ofProto (reason : Int32) (details : String) :
    QueryHandlingFailedReason :=
  match (Proto.QueryHandlingFailedReason.tryFrom reason).getD .unknown with
  | .unknown => .unknown (if details.isEmpty then none else some details)
  | .errorHandling => .errorHandling

section Parser

variable (parse : String → Option Uuid)

/-- `QueryRequestMessage::from`. -/
def QueryRequestMessage.ofProto (req : Proto.QueryRequest) (clientId : ClientId) :
    Except DecodeFailure QueryRequestMessage := do
  let queryId ← orError InvalidName.toQueryIdError (QueryId.new req.queryId)
  let requestId ← orPanic "called Result::unwrap() on an Err value" (parse req.requestId)
  return ⟨⟨requestId⟩, clientId, queryId, req.parameters⟩

/-- `RegisterSourceEventMessage::from`, which never reads `metadata`. -/
def RegisterSourceEventMessage.ofProto (clientId : ClientId) (val : Proto.RegisterSourceEvent) :
    Except DecodeFailure RegisterSourceEventMessage := do
  let aggregateId ← orError InvalidName.toAggregateIdError (AggregateId.new val.aggregateId)
  let eventId ← orPanic "called Result::unwrap() on an Err value" (parse val.eventId)
  return ⟨clientId, ⟨eventId⟩, aggregateId, val.aggregateType, val.payload⟩

/-- `ClientMessage::from`. -/
def ClientMessage.ofProto (req : Proto.Payload) (clientIdOption : Option ClientId) (tx : Tx) :
    Except DecodeFailure ClientMessage :=
  match req with
  | .registerClient r => do
    let queryHandlers ← r.queryHandlers.mapM fun query =>
      orError InvalidName.toQueryIdError (QueryId.new query)
    let clientId ← orError ClientIdNotValid.toError (ClientId.new r.clientId)
    return .registerClient ⟨clientId, queryHandlers, tx⟩
  | .queryRequest qr => do
    let clientId ← registered clientIdOption
    return .queryRequest (← QueryRequestMessage.ofProto parse qr clientId)
  | .queryResponse qr => do
    let clientId ← registered clientIdOption
    let requestId ← orPanic "request id should be an uuid" (parse qr.requestId)
    return .queryResponse ⟨⟨requestId⟩, clientId, qr.result⟩
  | .queryHandlingFailed msg => do
    let clientId ← registered clientIdOption
    let requestId ← orPanic "request id should be an uuid" (parse msg.requestId)
    return .queryHandlingFailed ⟨⟨requestId⟩, clientId, .ofProto msg.reason msg.details⟩
  | .registerSourceEvent msg => do
    let clientId ← registered clientIdOption
    return .registerSourceEvent (← RegisterSourceEventMessage.ofProto parse clientId msg)
  | .heartbeat => do
    let clientId ← registered clientIdOption
    return .heartbeat clientId

/-! ## What is decoded -/

theorem bind_ok {ε α β : Type} {x : Except ε α} {f : α → Except ε β} {b : β} :
    (x >>= f) = .ok b ↔ ∃ a, x = .ok a ∧ f a = .ok b := by
  cases x with
  | error e => simp [bind, Except.bind]
  | ok a => simp [bind, Except.bind]

theorem registered_ok {opt : Option ClientId} {clientId : ClientId} :
    registered opt = .ok clientId ↔ opt = some clientId := by
  cases opt <;> simp [registered]

theorem orError_ok {ε α : Type} {toError : ε → ClientMessageError} {x : Except ε α} {a : α} :
    orError toError x = .ok a ↔ x = .ok a := by
  cases x <;> simp [orError]

theorem orPanic_ok {message : String} {x : Option Uuid} {uuid : Uuid} :
    orPanic message x = .ok uuid ↔ x = some uuid := by
  cases x <;> simp [orPanic]

variable {parse}

theorem QueryRequestMessage.ofProto_requester {req : Proto.QueryRequest} {clientId : ClientId}
    {msg : QueryRequestMessage} (decode : ofProto parse req clientId = .ok msg) :
    msg.requester = clientId := by
  obtain ⟨queryId, -, decode⟩ := bind_ok.mp decode
  obtain ⟨requestId, -, decode⟩ := bind_ok.mp decode
  cases decode
  rfl

theorem RegisterSourceEventMessage.ofProto_source {val : Proto.RegisterSourceEvent}
    {clientId : ClientId} {msg : RegisterSourceEventMessage}
    (decode : ofProto parse clientId val = .ok msg) : msg.source = clientId := by
  obtain ⟨aggregateId, -, decode⟩ := bind_ok.mp decode
  obtain ⟨eventId, -, decode⟩ := bind_ok.mp decode
  cases decode
  rfl

/-- **What a decoded event carries**: the id its text parses to, and the aggregate as it was
sent. -/
theorem RegisterSourceEventMessage.ofProto_fields {val : Proto.RegisterSourceEvent}
    {clientId : ClientId} {msg : RegisterSourceEventMessage}
    (decode : ofProto parse clientId val = .ok msg) :
    parse val.eventId = some msg.eventId.val ∧ msg.aggregateId.val = val.aggregateId ∧
      msg.aggregateType = val.aggregateType := by
  obtain ⟨aggregateId, named, decode⟩ := bind_ok.mp decode
  obtain ⟨eventId, parsed, decode⟩ := bind_ok.mp decode
  cases decode
  refine ⟨orPanic_ok.mp parsed, ?_, rfl⟩
  exact AggregateId.new_ok.mp (orError_ok.mp named)

/-- **Who a decoded message speaks for**: it registers over the session's own channel, or it
speaks for the client id the session has, and then it is not a disconnect. -/
theorem ClientMessage.ofProto_cases {payload : Proto.Payload} {opt : Option ClientId} {tx : Tx}
    {msg : ClientMessage} (decode : ofProto parse payload opt tx = .ok msg) :
    (∃ m, msg = .registerClient m ∧ m.tx = tx) ∨
      (∃ source, opt = some source ∧ msg.getSource = some source ∧
        ∀ clientId, msg ≠ .disconnectClient clientId) := by
  cases payload with
  | registerClient r =>
    obtain ⟨queries, -, decode⟩ := bind_ok.mp decode
    obtain ⟨clientId, -, decode⟩ := bind_ok.mp decode
    cases decode
    exact .inl ⟨_, rfl, rfl⟩
  | queryRequest qr =>
    obtain ⟨source, hopt, decode⟩ := bind_ok.mp decode
    obtain ⟨m, hm, decode⟩ := bind_ok.mp decode
    cases decode
    refine .inr ⟨source, registered_ok.mp hopt, ?_, fun _ => nofun⟩
    exact congrArg some (QueryRequestMessage.ofProto_requester hm)
  | queryResponse qr =>
    obtain ⟨source, hopt, decode⟩ := bind_ok.mp decode
    obtain ⟨requestId, -, decode⟩ := bind_ok.mp decode
    cases decode
    exact .inr ⟨source, registered_ok.mp hopt, rfl, fun _ => nofun⟩
  | queryHandlingFailed m =>
    obtain ⟨source, hopt, decode⟩ := bind_ok.mp decode
    obtain ⟨requestId, -, decode⟩ := bind_ok.mp decode
    cases decode
    exact .inr ⟨source, registered_ok.mp hopt, rfl, fun _ => nofun⟩
  | registerSourceEvent m =>
    obtain ⟨source, hopt, decode⟩ := bind_ok.mp decode
    obtain ⟨event, hevent, decode⟩ := bind_ok.mp decode
    cases decode
    refine .inr ⟨source, registered_ok.mp hopt, ?_, fun _ => nofun⟩
    exact congrArg some (RegisterSourceEventMessage.ofProto_source hevent)
  | heartbeat =>
    obtain ⟨source, hopt, decode⟩ := bind_ok.mp decode
    cases decode
    exact .inr ⟨source, registered_ok.mp hopt, rfl, fun _ => nofun⟩

end Parser

end Revent
