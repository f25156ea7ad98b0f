import Revent.Domain.Ids

/-!
# Messages

`domain/messages/client.rs`, `domain/messages/server.rs`, `domain/source_events/mod.rs` and
`domain/tx.rs`: what clients send, what the server sends, and the events it stores. A `Tx` is a
channel by its number, so two handles of one `Arc<dyn Tx>` are one `Tx`. The texts of the log
lines are left out.
-/

namespace Revent

/-- `Instant`: a reading of the monotonic clock, in nanoseconds. -/
abbrev Instant := Nat

/-- `Duration`, in nanoseconds. -/
abbrev Duration := Nat

/-- `SystemTime` and `DateTime<Utc>`, in nanoseconds of the epoch. -/
abbrev SystemTime := Int

/-- `Arc<dyn Tx>`: the channel's number. -/
abbrev Tx := Nat

/-- `TxError`. -/
inductive TxError where
  | sendError
  deriving DecidableEq

/-! ## Source events -/

/-- `EventPayload`. -/
abbrev EventPayload := List UInt8

/-- `SourceEvent`: an event as stored. -/
structure SourceEvent where
  id : EventId
  createdAt : SystemTime
  monotonicClock : Nat
  aggregateId : AggregateId
  aggregateType : String
  payload : EventPayload
  deriving DecidableEq

/-- `NewSourceEvent`: an event to store. -/
structure NewSourceEvent where
  eventId : EventId
  aggregateId : AggregateId
  aggregateType : String
  payload : EventPayload
  deriving DecidableEq

/-- `SourceEventRepositoryError`. -/
structure SourceEventRepositoryError where
  message : String
  deriving DecidableEq

/-! ## Client messages -/

/-- `RegisterClientMessage`. -/
structure RegisterClientMessage where
  clientId : ClientId
  queryHandlers : List QueryId
  tx : Tx
  deriving DecidableEq

/-- `QueryRequestMessage`. -/
structure QueryRequestMessage where
  requestId : RequestId
  requester : ClientId
  queryId : QueryId
  parameters : HashMap String String

/-- `QueryResponseMessage`. -/
structure QueryResponseMessage where
  requestId : RequestId
  responder : ClientId
  result : List UInt8
  deriving DecidableEq

/-- `QueryHandlingFailedReason`. -/
inductive QueryHandlingFailedReason where
  | errorHandling
  | unknown (details : Option String)
  deriving DecidableEq

/-- `QueryHandlingFailedMessage`. -/
structure QueryHandlingFailedMessage where
  requestId : RequestId
  responder : ClientId
  reason : QueryHandlingFailedReason
  deriving DecidableEq

/-- `RegisterSourceEventMessage`. -/
structure RegisterSourceEventMessage where
  source : ClientId
  eventId : EventId
  aggregateId : AggregateId
  aggregateType : String
  payload : EventPayload
  deriving DecidableEq

/-- `From<&RegisterSourceEventMessage> for NewSourceEvent`. -/
def RegisterSourceEventMessage.toNewSourceEvent (val : RegisterSourceEventMessage) :
    NewSourceEvent :=
  ⟨val.eventId, val.aggregateId, val.aggregateType, val.payload⟩

/-- `ClientMessage`. -/
inductive ClientMessage where
  | registerClient (msg : RegisterClientMessage)
  | queryRequest (msg : QueryRequestMessage)
  | queryResponse (msg : QueryResponseMessage)
  | queryHandlingFailed (msg : QueryHandlingFailedMessage)
  | registerSourceEvent (msg : RegisterSourceEventMessage)
  | heartbeat (clientId : ClientId)
  | disconnectClient (clientId : ClientId)

/-- `ClientMessage::get_source`. -/
def ClientMessage.getSource : ClientMessage → Option ClientId
  | .registerClient _ => none
  | .queryRequest msg => some msg.requester
  | .queryResponse msg => some msg.responder
  | .registerSourceEvent msg => some msg.source
  | .heartbeat clientId => some clientId
  | .disconnectClient clientId => some clientId
  | .queryHandlingFailed msg => some msg.responder

/-! ## Server messages -/

/-- `ClientRegistrationFailedReason`. -/
inductive ClientRegistrationFailedReason where
  | clientIdDuplicated
  deriving DecidableEq

/-- `QueryRequestedFailedReason`. -/
inductive QueryRequestedFailedReason where
  | requestIdDuplicated
  | queryHandlerNotFound
  | queryTimedOut
  | handlingError (reason : QueryHandlingFailedReason)
  deriving DecidableEq

/-- `QueryRequestedMessage`. -/
structure QueryRequestedMessage where
  requestId : RequestId
  queryId : QueryId
  parameters : HashMap String String

/-- `From<QueryRequestMessage> for QueryRequestedMessage`. -/
def QueryRequestMessage.toQueryRequested (msg : QueryRequestMessage) : QueryRequestedMessage :=
  ⟨msg.requestId, msg.queryId, msg.parameters⟩

/-- `QueryRespondedMessage`. -/
structure QueryRespondedMessage where
  requestId : RequestId
  result : List UInt8
  deriving DecidableEq

/-- `ServerMessage`. -/
inductive ServerMessage where
  | clientRegistered (clientId : ClientId)
  | clientRegistrationFailed (clientId : ClientId) (reason : ClientRegistrationFailedReason)
  | heartbeat
  | queryRequested (msg : QueryRequestedMessage)
  | queryRequestedFailed (requestId : RequestId) (queryId : QueryId)
      (reason : QueryRequestedFailedReason)
  | queryResponded (msg : QueryRespondedMessage)
  | sourceEventRegistered (eventId : EventId) (monotonicClock : Nat)
  | sourceEvent (event : SourceEvent)

namespace ServerMessage

/-- `ServerMessage::client_id_duplicated`. -/
def clientIdDuplicated (clientId : ClientId) : ServerMessage :=
  .clientRegistrationFailed clientId .clientIdDuplicated

/-- `ServerMessage::query_request_id_duplicated`. -/
def queryRequestIdDuplicated (msg : QueryRequestMessage) : ServerMessage :=
  .queryRequestedFailed msg.requestId msg.queryId .requestIdDuplicated

/-- `ServerMessage::query_handler_not_found`. -/
def queryHandlerNotFound (msg : QueryRequestMessage) : ServerMessage :=
  .queryRequestedFailed msg.requestId msg.queryId .queryHandlerNotFound

/-- `ServerMessage::query_timed_out`. -/
def queryTimedOut (requestId : RequestId) (queryId : QueryId) : ServerMessage :=
  .queryRequestedFailed requestId queryId .queryTimedOut

end ServerMessage

end Revent
