import Revent.Runtime.World

/-!
# The message handlers

The methods of `State` in `domain/state.rs`, as programs: one `await` of the source is one
operation here, in the source's order. Log lines are left out.

The two handlers that answer an ongoing request, `handle_query_response_message` and
`handle_query_handling_error_message`, have one body up to the message sent: `settle`.
-/

namespace Revent

/-! ## The awaits -/

/-- `get_client_by_id`. -/
def getClientById (why : Lookup) : Async (Option ClientInfo) := await (.getClientById why)

/-- `tx.send(msg)`, addressed to `client`. -/
def send (client : ClientId) (tx : Tx) (msg : ServerMessage) : Async (Except TxError Unit) :=
  await (.send client tx msg)

/-- `query_handlers.get_ongoing_request(..)`. -/
def getOngoingRequest (why : Reading) : Async (Option OngoingQueryRequest) :=
  await (.getOngoingRequest why)

/-- `query_handlers.get_client_id_for_query_id(msg.query_id())`. -/
def getClientIdForQueryId (msg : QueryRequestMessage) :
    Async (Except QueryRequestHandlerError ClientId) :=
  await (.getClientIdForQueryId msg)

/-- `Instant::now()` in `OngoingQueryRequest::from(responder, msg)`. -/
def instantNow (responder : ClientId) (msg : QueryRequestMessage) : Async Instant :=
  await (.now responder msg)

/-- `query_handlers.remove_ongoing_request(request_id)`. -/
def removeOngoingRequest (requestId : RequestId) : Async (Option OngoingQueryRequest) :=
  await (.removeOngoingRequest requestId)

/-- `repository.save_source_event(msg.into())`. -/
def saveSourceEvent (msg : RegisterSourceEventMessage) :
    Async (Except SourceEventRepositoryError SourceEvent) :=
  await (.saveSourceEvent msg)

/-- `connected_clients.read()`, kept as a guard while the clients are visited. -/
def readClients (event : SourceEvent) : Async (List (ClientId × ClientInfo)) :=
  await (.readClients event)

/-- `old_clients(state, server_expiration_client)`. -/
def getOldClients (serverExpirationClient : Duration) : Async (List (ClientId × Tx)) :=
  await (.oldClients serverExpirationClient)

/-- `query_handlers.get_expired_requests(query_response_timeout)`. -/
def getExpiredRequests (queryResponseTimeout : Duration) : Async (List OngoingQueryRequest) :=
  await (.getExpiredRequests queryResponseTimeout)

/-- An `await` whose answer is not read. -/
def doing (op : Op) : Async Unit := await op >>= fun _ => pure ()

/-! ## The handlers -/

/-- `handle_register_client_message`. -/
def handleRegisterClientMessage (msg : RegisterClientMessage) : Async Unit := do
  match ← getClientById (.registering msg) with
  | some _ => doing (.send msg.clientId msg.tx (.clientIdDuplicated msg.clientId))
  | none =>
    match ← send msg.clientId msg.tx (.clientRegistered msg.clientId) with
    | .error _ => pure ()
    | .ok _ =>
      doing (.insertClient msg)
      doing (.addClientQueryHandler msg)

/-- `if let Some(requester_client_info) = requester_client_info_option { tx.send(..) }`, whose
outcome is dropped. -/
def tellRequester (msg : QueryRequestMessage) (requester : Option ClientInfo)
    (serverMessage : ServerMessage) : Async Unit :=
  match requester with
  | some info => doing (.send msg.requester info.tx serverMessage)
  | none => pure ()

/-- `handle_query_request_message`. -/
def handleQueryRequestMessage (msg : QueryRequestMessage) : Async Unit := do
  let requester ← getClientById (.requester msg)
  match ← getOngoingRequest (.duplicate msg) with
  | some current =>
    if current.isSame msg then pure ()
    else tellRequester msg requester (.queryRequestIdDuplicated msg)
  | none =>
    match ← getClientIdForQueryId msg with
    | .ok selected =>
      match ← getClientById (.responder selected msg) with
      | some responder =>
        match ← send selected responder.tx (.queryRequested msg.toQueryRequested) with
        | .error _ => tellRequester msg requester (.queryHandlerNotFound msg)
        | .ok _ =>
          let now ← instantNow selected msg
          doing (.handleQueryRequestedEvent (.of selected msg now))
      -- the responder was selected but is no longer connected: logged only
      | none => pure ()
    | .error .queryHandlerNotFound => tellRequester msg requester (.queryHandlerNotFound msg)
    | .error .responderNotFound => pure ()

/-- The body of the two handlers that answer an ongoing request. -/
def settle (answer : Answer) : Async Unit := do
  match ← getOngoingRequest (.answer answer) with
  | none => pure ()
  | some request =>
    match ← getClientById (.answering request answer) with
    | none => pure ()
    | some requester =>
      match ← send request.requester requester.tx (answer.serverMessage request) with
      | .error _ => pure ()
      | .ok _ => doing (.removeOngoingRequest answer.requestId)

/-- `handle_query_response_message`. -/
def handleQueryResponseMessage (msg : QueryResponseMessage) : Async Unit := settle (.response msg)

/-- `handle_query_handling_error_message`. -/
def handleQueryHandlingErrorMessage (msg : QueryHandlingFailedMessage) : Async Unit :=
  settle (.failed msg)

/-- `handle_register_source_event_message`. -/
def handleRegisterSourceEventMessage (msg : RegisterSourceEventMessage) : Async Unit := do
  match ← saveSourceEvent msg with
  | .error _ => pure ()
  | .ok event =>
    match ← getClientById (.source event msg) with
    | none => pure ()
    | some source =>
      doing (.send msg.source source.tx (.sourceEventRegistered event.id event.monotonicClock))
      doing (.spawnBroadcast event)

/-- The task spawned by `handle_register_source_event_message`: one send after the other, under
one read guard of `connected_clients`. -/
def broadcast (event : SourceEvent) : Async Unit := do
  let clients ← readClients event
  clients.forM fun entry => doing (.send entry.1 entry.2.tx (.sourceEvent event))
  doing (.dropClients event)

/-- `handle_query_timed_out`. -/
def handleQueryTimedOut (requestId : RequestId) : Async Unit :=
  doing (.removeOngoingRequest requestId)

/-- `handle_disconnected_client_message`. -/
def handleDisconnectedClientMessage (clientId : ClientId) : Async Unit := do
  doing (.removeClient clientId)
  doing (.disconnectClient clientId)

/-- The `match` of `handle_message`. -/
def dispatch : ClientMessage → Async Unit
  | .registerClient msg => handleRegisterClientMessage msg
  | .queryRequest msg => handleQueryRequestMessage msg
  | .queryResponse msg => handleQueryResponseMessage msg
  | .queryHandlingFailed msg => handleQueryHandlingErrorMessage msg
  | .registerSourceEvent msg => handleRegisterSourceEventMessage msg
  | .heartbeat _ => pure ()
  | .disconnectClient clientId => handleDisconnectedClientMessage clientId

/-- `handle_message`. -/
def handleMessage (msg : ClientMessage) : Async Unit := do
  doing (.updateLastSeen msg)
  dispatch msg

/-! ## The timer -/

/-- The body of the first `for` loop of `start`. -/
def heartbeat (clientId : ClientId) (tx : Tx) : Async Unit := do
  match ← send clientId tx .heartbeat with
  | .ok _ => handleMessage (.heartbeat clientId)
  | .error _ => handleMessage (.disconnectClient clientId)

/-- The body of the second `for` loop of `start`. -/
def expire (request : OngoingQueryRequest) : Async Unit := do
  match ← getClientById (.timingOut request) with
  | some info =>
    doing (.send request.requester info.tx (.queryTimedOut request.requestId request.queryId))
  | none => pure ()
  handleQueryTimedOut request.requestId

/-- The durations `start` is given. -/
structure Timing where
  serverExpirationClient : Duration
  queryResponseTimeout : Duration

/-- The body of `start`'s loop, from one `interval.tick()` to the next. -/
def timerTick (timing : Timing) : Async Unit := do
  let txs ← getOldClients timing.serverExpirationClient
  txs.forM fun entry => heartbeat entry.1 entry.2
  let expired ← getExpiredRequests timing.queryResponseTimeout
  expired.forM expire

end Revent
