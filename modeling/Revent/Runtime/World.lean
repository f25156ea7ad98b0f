import Revent.Api.Proto
import Revent.Domain.QueryHandler
import Revent.Interleave.Pool

/-!
# The shared world and its atomic operations

Every `await` of `domain/state.rs` and `api/grpc/control.rs` is one operation of `Op`: one lock
section, one channel send, one call of the repository, one received message. An operation
carries what its call site has in hand besides its arguments (the message being handled, the
client a send is addressed to); `exec` does not read it, the trace shows it.

`exec` is the body of each section. What a section's outcome depends on besides the shared world
is read from `Env`: the clocks, the order of a map's iteration, whether the peer still accepts a
send, what the stream yields, what the database decides. A send through `dyn Tx` may fail at any
time. The capacity of the gRPC channels is added where the sessions are (`Runtime.System`).

`connected_clients` is the only lock kept across an `await`: a broadcast holds a read guard while
it sends. `guards` counts those guards, and the write sections wait for them.
-/

namespace Revent

open Interleave (Event Prog)

/-! ## State -/

/-- `ClientInfo`. -/
structure ClientInfo where
  tx : Tx
  since : SystemTime
  lastSeen : Instant
  deriving DecidableEq

/-- `SourceEventRepository`: what saving an event answers, given what the database decides. -/
class Repository (R : Type) where
  Choice : Type
  saveSourceEvent : NewSourceEvent → Choice → R → Except SourceEventRepositoryError SourceEvent × R

/-- `State`. -/
structure State (R : Type) where
  repository : R
  connectedClients : HashMap ClientId ClientInfo
  queryHandlers : QueryHandler

/-- `State::new`. -/
def State.new {R : Type} (repository : R) : State R := ⟨repository, ∅, .new⟩

/-- The state with what surrounds it: the read guards alive across an `await`, what is in each
channel, the next channel's number, and the broadcasts spawned and not yet started. -/
structure World (R : Type) where
  state : State R
  guards : Nat
  channels : Tx → List ServerMessage
  nextTx : Tx
  spawned : List SourceEvent

namespace World

variable {R : Type}

/-- The world a server starts in. -/
def new (repository : R) : World R := ⟨.new repository, 0, fun _ => [], 0, []⟩

/-- `connected_clients`. -/
abbrev clients (w : World R) : HashMap ClientId ClientInfo := w.state.connectedClients

/-- `query_handlers.query_handlers`. -/
abbrev handlers (w : World R) : HashMap QueryId (List ClientId) :=
  w.state.queryHandlers.queryHandlers

/-- `query_handlers.ongoing_query_requests`. -/
abbrev ongoing (w : World R) : HashMap RequestId OngoingQueryRequest :=
  w.state.queryHandlers.ongoingQueryRequests

/-- The world with another `connected_clients`. -/
def setClients (w : World R) (clients : HashMap ClientId ClientInfo) : World R :=
  { w with state := { w.state with connectedClients := clients } }

/-- The world with another `query_handlers`. -/
def setQueryHandlers (w : World R) (queryHandlers : QueryHandler) : World R :=
  { w with state := { w.state with queryHandlers := queryHandlers } }

end World

/-! ## Operations -/

/-- A message that answers an ongoing request. -/
inductive Answer where
  | response (msg : QueryResponseMessage)
  | failed (msg : QueryHandlingFailedMessage)
  deriving DecidableEq

namespace Answer

/-- The request the answer is for. -/
def requestId : Answer → RequestId
  | .response msg => msg.requestId
  | .failed msg => msg.requestId

/-- The client that sent the answer. -/
def responder : Answer → ClientId
  | .response msg => msg.responder
  | .failed msg => msg.responder

/-- What the requester is sent. -/
def serverMessage (request : OngoingQueryRequest) : Answer → ServerMessage
  | .response msg => .queryResponded ⟨msg.requestId, msg.result⟩
  | .failed msg => .queryRequestedFailed msg.requestId request.queryId (.handlingError msg.reason)

/-- The client message it came in. -/
def clientMessage : Answer → ClientMessage
  | .response msg => .queryResponse msg
  | .failed msg => .queryHandlingFailed msg

end Answer

/-- The call sites that look a client up in `connected_clients`. -/
inductive Lookup where
  | registering (msg : RegisterClientMessage)
  | requester (msg : QueryRequestMessage)
  | responder (selected : ClientId) (msg : QueryRequestMessage)
  | answering (request : OngoingQueryRequest) (answer : Answer)
  | source (event : SourceEvent) (msg : RegisterSourceEventMessage)
  | timingOut (request : OngoingQueryRequest)

/-- The client looked up. -/
def Lookup.clientId : Lookup → ClientId
  | .registering msg => msg.clientId
  | .requester msg => msg.requester
  | .responder selected _ => selected
  | .answering request _ => request.requester
  | .source _ msg => msg.source
  | .timingOut request => request.requester

/-- The call sites of `get_ongoing_request`. -/
inductive Reading where
  | duplicate (msg : QueryRequestMessage)
  | answer (answer : Answer)

/-- The request read. -/
def Reading.requestId : Reading → RequestId
  | .duplicate msg => msg.requestId
  | .answer a => a.requestId

/-- What `stream.message()` and the shutdown watch yield: the loop is left, or a message came,
whose payload may be absent. -/
inductive Received where
  | closed
  | message (payload : Option Proto.Payload)

/-- The atomic operations. -/
inductive Op where
  | receive
  | updateLastSeen (msg : ClientMessage)
  | getClientById (why : Lookup)
  | send (client : ClientId) (tx : Tx) (msg : ServerMessage)
  | insertClient (msg : RegisterClientMessage)
  | addClientQueryHandler (msg : RegisterClientMessage)
  | getOngoingRequest (why : Reading)
  | getClientIdForQueryId (msg : QueryRequestMessage)
  | now (responder : ClientId) (msg : QueryRequestMessage)
  | handleQueryRequestedEvent (request : OngoingQueryRequest)
  | removeOngoingRequest (requestId : RequestId)
  | saveSourceEvent (msg : RegisterSourceEventMessage)
  | spawnBroadcast (event : SourceEvent)
  | removeClient (clientId : ClientId)
  | disconnectClient (clientId : ClientId)
  | oldClients (serverExpirationClient : Duration)
  | getExpiredRequests (queryResponseTimeout : Duration)
  | readClients (event : SourceEvent)
  | dropClients (event : SourceEvent)

/-- The operations' answers. -/
@[reducible] def Ret : Op → Type
  | .receive => Received
  | .getClientById _ => Option ClientInfo
  | .send _ _ _ => Except TxError Unit
  | .getOngoingRequest _ => Option OngoingQueryRequest
  | .getClientIdForQueryId _ => Except QueryRequestHandlerError ClientId
  | .now _ _ => Instant
  | .removeOngoingRequest _ => Option OngoingQueryRequest
  | .saveSourceEvent _ => Except SourceEventRepositoryError SourceEvent
  | .oldClients _ => List (ClientId × Tx)
  | .getExpiredRequests _ => List OngoingQueryRequest
  | .readClients _ => List (ClientId × ClientInfo)
  | _ => Unit

/-- A program of the server: a tree of `await`s. -/
abbrev Async := Prog Op Ret

/-- One `await`. -/
abbrev await (op : Op) : Async (Ret op) := Prog.perform op

/-! ## The meaning of an operation -/

/-- What one operation's outcome depends on besides the shared world. -/
structure Env (R : Type) [Repository R] where
  now : Instant
  systemTime : SystemTime
  delivered : Bool
  received : Received
  clientOrder : List ClientId
  requestOrder : List RequestId
  saving : Repository.Choice R

variable {R : Type} [Repository R]

/-- `client.update_last_seen(now)` on the source's entry, if there is one. -/
def touch (clients : HashMap ClientId ClientInfo) (source : ClientId) (now : Instant) :
    HashMap ClientId ClientInfo :=
  clients.modify source fun info => { info with lastSeen := now }

/-- `From<&RegisterClientMessage> for ClientInfo`, with the readings of the two clocks. -/
def RegisterClientMessage.toClientInfo (msg : RegisterClientMessage) (since : SystemTime)
    (now : Instant) : ClientInfo :=
  ⟨msg.tx, since, now⟩

/-- `old_clients`, at the clock's reading. -/
def oldClients (clients : HashMap ClientId ClientInfo) (order : List ClientId) (now : Instant)
    (serverExpirationClient : Duration) : Option (List (ClientId × Tx)) :=
  (clients.iter order).map fun entries =>
    (entries.filter fun entry => now - entry.2.lastSeen > serverExpirationClient).map
      fun entry => (entry.1, entry.2.tx)

/-- A section that writes `connected_clients`: it waits for the read guards. -/
def writeClients (w : World R) (clients : HashMap ClientId ClientInfo) : Option (Unit × World R) :=
  if w.guards = 0 then some ((), w.setClients clients) else none

/-- The body of each operation; `none` while it waits for a lock, or where `env` is not an
order of the map's keys. -/
def exec : (op : Op) → Env R → World R → Option (Ret op × World R)
  | .receive, env, w => some (env.received, w)
  | .updateLastSeen msg, env, w =>
    match msg.getSource with
    | none => some ((), w)
    | some source => writeClients w (touch w.clients source env.now)
  | .getClientById why, _, w => some (w.clients[why.clientId]?, w)
  | .send _ tx msg, env, w =>
    if env.delivered then
      some (.ok (), { w with channels := Function.update w.channels tx (w.channels tx ++ [msg]) })
    else some (.error .sendError, w)
  | .insertClient msg, env, w =>
    writeClients w (w.clients.insert msg.clientId (msg.toClientInfo env.systemTime env.now))
  | .addClientQueryHandler msg, _, w =>
    some ((), w.setQueryHandlers
      (w.state.queryHandlers.addClientQueryHandler msg.clientId msg.queryHandlers))
  | .getOngoingRequest why, _, w => some (w.state.queryHandlers.getOngoingRequest why.requestId, w)
  | .getClientIdForQueryId msg, _, w =>
    let selected := w.state.queryHandlers.getClientIdForQueryId msg.queryId
    some (selected.1, w.setQueryHandlers selected.2)
  | .now _ _, env, w => some (env.now, w)
  | .handleQueryRequestedEvent request, _, w =>
    some ((), w.setQueryHandlers (w.state.queryHandlers.handleQueryRequestedEvent request))
  | .removeOngoingRequest requestId, _, w =>
    let removed := w.state.queryHandlers.removeOngoingRequest requestId
    some (removed.1, w.setQueryHandlers removed.2)
  | .saveSourceEvent msg, env, w =>
    let saved := Repository.saveSourceEvent msg.toNewSourceEvent env.saving w.state.repository
    some (saved.1, { w with state := { w.state with repository := saved.2 } })
  | .spawnBroadcast event, _, w => some ((), { w with spawned := w.spawned ++ [event] })
  | .removeClient clientId, _, w => writeClients w (w.clients.erase clientId)
  | .disconnectClient clientId, _, w =>
    some ((), w.setQueryHandlers (w.state.queryHandlers.disconnectClient clientId))
  | .oldClients serverExpirationClient, env, w =>
    (oldClients w.clients env.clientOrder env.now serverExpirationClient).map (·, w)
  | .getExpiredRequests queryResponseTimeout, env, w =>
    (w.state.queryHandlers.getExpiredRequests env.requestOrder env.now queryResponseTimeout).map
      (·, w)
  | .readClients _, env, w =>
    (w.clients.iter env.clientOrder).map (·, { w with guards := w.guards + 1 })
  | .dropClients _, _, w => some ((), { w with guards := w.guards - 1 })

end Revent
