import Revent.Domain.Messages

/-!
# Server messages on the stream

`api/grpc/mod.rs`: what `GrpcTx::send` makes of a server message before it puts it in the
session's channel, with the server half of `proto/revent/v1/*.proto` as prost generates it.

The payload of an event is JSON. How `serde_json` reads it and what its numbers are as `f64` are
its own: `SerdeJson` is what is used of it. The maps of `serde_json` and of prost are B-tree maps
here, and appear as their entries in the order of the keys.
-/

namespace Revent

/-! ## JSON values -/

/-- `serde_json::Value`. -/
inductive JsonValue (Number : Type) where
  | null
  | bool (b : Bool)
  | number (n : Number)
  | string (s : String)
  | array (values : List (JsonValue Number))
  | object (map : List (String × JsonValue Number))

/-- `serde_json::from_slice`, `Number::as_f64` and `0.0`. -/
structure SerdeJson (Number Double : Type) where
  fromSlice : List UInt8 → Option (JsonValue Number)
  asF64 : Number → Option Double
  zero : Double

namespace Proto

/-! ## The generated types -/

mutual

/-- `prost_types::Value`. -/
inductive Value (Double : Type) where
  | mk (kind : Option (Kind Double))

/-- `prost_types::value::Kind`. -/
inductive Kind (Double : Type) where
  | nullValue (value : Int32)
  | numberValue (n : Double)
  | stringValue (s : String)
  | boolValue (b : Bool)
  | structValue (value : Struct Double)
  | listValue (values : List (Value Double))

/-- `prost_types::Struct`. -/
inductive Struct (Double : Type) where
  | mk (fields : List (String × Value Double))

end

/-- `prost_types::Timestamp`. -/
structure Timestamp where
  seconds : Int
  nanos : Int
  deriving DecidableEq

/-- `SourceEvent`. -/
structure SourceEvent (Double : Type) where
  id : String
  createdAt : Option Timestamp
  monotonicClock : Nat
  aggregateType : String
  aggregateId : String
  payload : Option (Struct Double)

/-- `server_to_client_message::Payload`. -/
inductive ServerPayload (Double : Type) where
  | clientRegistered (clientId : String)
  | clientRegistrationFailed (clientId reason : String)
  | queryRequested (requestId queryId : String) (parameters : HashMap String String)
  | queryResponded (requestId : String) (result : List UInt8)
  | queryRequestedFailed (requestId queryId reason details : String)
  | sourceEventRegistered (eventId : String) (monotonicClock : Nat)
  | sourceEvent (event : SourceEvent Double)
  | heartbeat

end Proto

/-! ## The texts of the reasons -/

/-- `ClientRegistrationFailedReason::as_str`. -/
def ClientRegistrationFailedReason.asStr : ClientRegistrationFailedReason → String
  | .clientIdDuplicated => "ClientIdDuplicated"

namespace QueryRequestedFailedReason

/-- `QueryRequestedFailedReason::as_str`. -/
def asStr : QueryRequestedFailedReason → String
  | .requestIdDuplicated => "RequestIdDuplicated"
  | .queryHandlerNotFound => "QueryHandlerNotFound"
  | .queryTimedOut => "QueryTimedOut"
  | .handlingError .errorHandling => "ErrorHandling"
  | .handlingError (.unknown _) => "Unknown"

/-- `QueryRequestedFailedReason::details`. -/
def details : QueryRequestedFailedReason → Option String
  | .requestIdDuplicated => none
  | .queryHandlerNotFound => none
  | .queryTimedOut => none
  | .handlingError .errorHandling => none
  | .handlingError (.unknown details) => details

end QueryRequestedFailedReason

/-! ## The conversions -/

section Conversions

variable {Number Double : Type} (json : SerdeJson Number Double)

mutual

/-- `json_to_prost_value`. -/
def jsonToProstValue : JsonValue Number → Proto.Value Double
  | .null => .mk (some (.nullValue 0))
  | .bool b => .mk (some (.boolValue b))
  | .number n => .mk (some (.numberValue ((json.asF64 n).getD json.zero)))
  | .string s => .mk (some (.stringValue s))
  | .array v => .mk (some (.listValue (jsonToProstValues v)))
  | .object m => .mk (some (.structValue (.mk (jsonToProstFields m))))

/-- The values of an array, converted. -/
def jsonToProstValues : List (JsonValue Number) → List (Proto.Value Double)
  | [] => []
  | v :: values => jsonToProstValue v :: jsonToProstValues values

/-- The entries of an object, converted. Their keys stay in order. -/
def jsonToProstFields : List (String × JsonValue Number) → List (String × Proto.Value Double)
  | [] => []
  | (k, v) :: map => (k, jsonToProstValue v) :: jsonToProstFields map

end

/-- `json_to_prost_struct`. -/
def jsonToProstStruct : JsonValue Number → Proto.Struct Double
  | .object map => .mk (jsonToProstFields json map)
  | _ => .mk []

/-- The object of a value is converted by `json_to_prost_struct`. -/
theorem jsonToProstValue_object (m : List (String × JsonValue Number)) :
    jsonToProstValue json (.object m) =
      .mk (some (.structValue (jsonToProstStruct json (.object m)))) := by
  rw [jsonToProstValue, jsonToProstStruct]

/-- `From<DomainSourceEvent> for SourceEvent`. -/
def SourceEvent.toProto (event : SourceEvent) : Proto.SourceEvent Double where
  id := event.id.val.toString
  createdAt := some ⟨event.createdAt / 1000000000, event.createdAt % 1000000000⟩
  monotonicClock := event.monotonicClock
  aggregateType := event.aggregateType
  aggregateId := event.aggregateId.val
  payload := some (jsonToProstStruct json ((json.fromSlice event.payload).getD .null))

/-- The `match` of `GrpcTx::send`. -/
def ServerMessage.toProto : ServerMessage → Proto.ServerPayload Double
  | .clientRegistered clientId => .clientRegistered clientId.val
  | .clientRegistrationFailed clientId reason => .clientRegistrationFailed clientId.val reason.asStr
  | .queryRequested msg =>
    .queryRequested msg.requestId.val.toString msg.queryId.val msg.parameters
  | .queryResponded msg => .queryResponded msg.requestId.val.toString msg.result
  | .queryRequestedFailed requestId queryId reason =>
    .queryRequestedFailed requestId.val.toString queryId.val reason.asStr
      (reason.details.getD "")
  | .sourceEventRegistered eventId monotonicClock =>
    .sourceEventRegistered eventId.val.toString monotonicClock
  | .sourceEvent event => .sourceEvent (event.toProto json)
  | .heartbeat => .heartbeat

end Conversions

end Revent
