import Revent.Domain.Messages

/-!
# Payloads of the control stream

The client half of `proto/revent/v1/*.proto` as prost generates it: strings are unchecked, the
enumeration of failure reasons is a raw `i32`.
-/

namespace Revent.Proto

/-- `RegisterClient`. -/
structure RegisterClient where
  clientId : String
  queryHandlers : List String
  deriving DecidableEq

/-- `QueryRequest`. -/
structure QueryRequest where
  requestId : String
  queryId : String
  parameters : HashMap String String

/-- `QueryResponse`. -/
structure QueryResponse where
  requestId : String
  result : List UInt8
  deriving DecidableEq

/-- `QueryHandlingFailed`, with the raw value of `reason`. -/
structure QueryHandlingFailed where
  requestId : String
  reason : Int32
  details : String

/-- The generated enumeration `QueryHandlingFailedReason`. -/
inductive QueryHandlingFailedReason where
  | unknown
  | errorHandling
  deriving DecidableEq

/-- `QueryHandlingFailedReason::try_from(i32)`. -/
def QueryHandlingFailedReason.tryFrom (value : Int32) : Option QueryHandlingFailedReason :=
  if value = 0 then some .unknown else if value = 1 then some .errorHandling else none

/-- `RegisterSourceEvent`. -/
structure RegisterSourceEvent where
  eventId : String
  aggregateId : String
  aggregateType : String
  payload : List UInt8
  metadata : HashMap String String

/-- `client_to_server_message::Payload`. -/
inductive Payload where
  | registerClient (msg : RegisterClient)
  | queryRequest (msg : QueryRequest)
  | queryResponse (msg : QueryResponse)
  | queryHandlingFailed (msg : QueryHandlingFailed)
  | registerSourceEvent (msg : RegisterSourceEvent)
  | heartbeat

end Revent.Proto
