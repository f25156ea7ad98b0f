import Revent.Runtime.System

/-!
# The call sites

What a task of the server can do next, given its loop's state and its own history: `Site` has one
constructor for each `await` of the source, and `Ends` one for each way out of a loop's pass.
`site_of_act` and `ends_of_done` say that the tasks of every reachable configuration keep to
them. Every law about runs reads the control flow of the handlers from here.
-/

namespace Revent

open Interleave (Event Prog Machine Config Task)

/-- A task's own events, newest first. -/
abbrev History := List (Event Op Ret)

/-! ## What a history says of its task -/

/-- `client_id_option` with the session's channel: set once a registration is over, however it
ended, and given up when the client is disconnected. -/
def clientIdOption : History → Option (ClientId × Tx)
  | [] => none
  | ⟨.send _ tx (.clientRegistrationFailed clientId _), _⟩ :: _ => some (clientId, tx)
  | ⟨.send _ tx (.clientRegistered clientId), .error _⟩ :: _ => some (clientId, tx)
  | ⟨.addClientQueryHandler msg, _⟩ :: _ => some (msg.clientId, msg.tx)
  | ⟨.disconnectClient _, _⟩ :: _ => none
  | _ :: h => clientIdOption h

/-- The client whose heartbeat just failed, with the channel it failed on, until it is
disconnected. -/
def unreachable : History → Option (ClientId × Tx)
  | [] => none
  | ⟨.send clientId tx .heartbeat, .error _⟩ :: _ => some (clientId, tx)
  | ⟨.disconnectClient _, _⟩ :: _ => none
  | _ :: h => unreachable h

/-- The clients of the timer's snapshot that it has not sent a heartbeat to yet. -/
def toVisit : History → List (ClientId × Tx)
  | [] => []
  | ⟨.oldClients _, txs⟩ :: _ => txs
  | ⟨.send _ _ .heartbeat, _⟩ :: h => (toVisit h).tail
  | _ :: h => toVisit h

/-- The requests of the timer's snapshot that it has not begun to time out yet. -/
def toExpire : History → List OngoingQueryRequest
  | [] => []
  | ⟨.getExpiredRequests _, requests⟩ :: _ => requests
  | ⟨.getClientById (.timingOut _), _⟩ :: h => (toExpire h).tail
  | _ :: h => toExpire h

/-- What a task carries from one pass to the next. -/
structure Memory where
  clientIdOption : Option (ClientId × Tx)
  unreachable : Option (ClientId × Tx)
  toVisit : List (ClientId × Tx)
  toExpire : List OngoingQueryRequest

/-- The memory a history leaves. -/
def memory (h : History) : Memory :=
  ⟨clientIdOption h, unreachable h, toVisit h, toExpire h⟩

theorem memory_eq_iff {h : History} {m : Memory} :
    memory h = m ↔ clientIdOption h = m.clientIdOption ∧ unreachable h = m.unreachable ∧
      toVisit h = m.toVisit ∧ toExpire h = m.toExpire := by
  cases m
  simp only [memory, Memory.mk.injEq]

/-- The memory that is a loop's state. -/
def Job.memory : Job → Memory
  | .session tx opt => ⟨opt.map (·, tx), none, [], []⟩
  | .heartbeats txs => ⟨none, none, txs, []⟩
  | .expiredRequests requests => ⟨none, none, [], requests⟩
  | .tick | .broadcast _ => ⟨none, none, [], []⟩

/-- The last event is one a message handler does not end with. A broadcast's own events are not
among them: it belongs to no message. -/
def goesOn : History → Bool
  | ⟨.updateLastSeen (.heartbeat _), _⟩ :: _ => false
  | ⟨.updateLastSeen _, _⟩ :: _ => true
  | ⟨.getClientById (.registering _), _⟩ :: _ => true
  | ⟨.getClientById (.requester _), _⟩ :: _ => true
  | ⟨.getClientById (.timingOut _), _⟩ :: _ => true
  | ⟨.getClientById (.responder _ _), found⟩ :: _ => found.isSome
  | ⟨.getClientById (.answering _ _), found⟩ :: _ => found.isSome
  | ⟨.getClientById (.source _ _), found⟩ :: _ => found.isSome
  | ⟨.send _ _ (.clientRegistered _), .ok _⟩ :: _ => true
  | ⟨.send _ _ (.queryRequested _), .ok _⟩ :: _ => true
  | ⟨.send _ _ (.queryResponded _), .ok _⟩ :: _ => true
  | ⟨.send _ _ (.queryRequestedFailed _ _ (.handlingError _)), .ok _⟩ :: _ => true
  | ⟨.send _ _ (.queryRequestedFailed _ _ .queryTimedOut), _⟩ :: _ => true
  | ⟨.send _ _ (.sourceEventRegistered _ _), _⟩ :: _ => true
  | ⟨.insertClient _, _⟩ :: _ => true
  | ⟨.getOngoingRequest (.duplicate _), none⟩ :: _ => true
  | ⟨.getOngoingRequest (.duplicate msg), some current⟩ ::
      ⟨.getClientById (.requester _), requester⟩ :: _ => !current.isSame msg && requester.isSome
  | ⟨.getOngoingRequest (.answer _), found⟩ :: _ => found.isSome
  | ⟨.getClientIdForQueryId _, .ok _⟩ :: _ => true
  | ⟨.now _ _, _⟩ :: _ => true
  | ⟨.saveSourceEvent _, .ok _⟩ :: _ => true
  | ⟨.removeClient _, _⟩ :: _ => true
  | _ => false

/-- A history a handler can end with. -/
def AtRest (h : History) : Prop := goesOn h = false

/-- A history at rest is in the middle of nothing. -/
theorem AtRest.elim {h : History} {p : Prop} (rest : AtRest h) (middle : goesOn h = true) : p :=
  absurd (rest.symm.trans middle) Bool.false_ne_true

/-- A history from which the next pass of a loop starts. -/
structure Ready (job : Job) (h : History) : Prop where
  rest : AtRest h
  memory : memory h = job.memory

/-- A pass does not start in the middle of a handler. -/
theorem Ready.elim {job : Job} {h : History} {p : Prop} (ready : Ready job h)
    (middle : goesOn h = true) : p :=
  ready.rest.elim middle

/-! ## The sites -/

/-- The history at the first `await` after `handle_message` refreshed `last_seen`. -/
abbrev begun (msg : ClientMessage) (h : History) : History := ⟨.updateLastSeen msg, ()⟩ :: h

variable (parse : String → Option Uuid) (timing : Timing)

/-- The messages a task hands to `handle_message`: a session's are what the decoder accepted, or
its own disconnect at the end; the timer's follow the outcome of its heartbeat. -/
inductive Handed : Job → History → ClientMessage → Prop
  | decoded {tx : Tx} {opt : Option ClientId} {payload : Proto.Payload} {msg : ClientMessage}
      {h : History} (ready : Ready (.session tx opt) h)
      (decode : ClientMessage.ofProto parse payload opt tx = .ok msg) :
      Handed (.session tx opt) (⟨.receive, .message (some payload)⟩ :: h) msg
  | closed {tx : Tx} {clientId : ClientId} {received : Received} {h : History}
      (ready : Ready (.session tx (some clientId)) h) :
      Handed (.session tx (some clientId)) (⟨.receive, received⟩ :: h) (.disconnectClient clientId)
  | alive {clientId : ClientId} {tx : Tx} {txs : List (ClientId × Tx)} {h : History}
      (ready : Ready (.heartbeats ((clientId, tx) :: txs)) h) :
      Handed (.heartbeats ((clientId, tx) :: txs)) (⟨.send clientId tx .heartbeat, .ok ()⟩ :: h)
        (.heartbeat clientId)
  | dead {clientId : ClientId} {tx : Tx} {txs : List (ClientId × Tx)} {err : TxError}
      {h : History} (ready : Ready (.heartbeats ((clientId, tx) :: txs)) h) :
      Handed (.heartbeats ((clientId, tx) :: txs)) (⟨.send clientId tx .heartbeat, .error err⟩ :: h)
        (.disconnectClient clientId)

/-- **The call sites**: with this loop state and this history, a task may be at this `await`. -/
inductive Site : Job → History → Op → Prop
  -- `open_session` and the head of `handle_message`
  | receive {tx : Tx} {opt : Option ClientId} {h : History}
      (ready : Ready (.session tx opt) h) : Site (.session tx opt) h .receive
  | handle {job : Job} {h : History} {msg : ClientMessage} (hand : Handed parse job h msg) :
      Site job h (.updateLastSeen msg)
  -- `handle_register_client_message`
  | registering {job : Job} {h : History} {msg : RegisterClientMessage}
      (hand : Handed parse job h (.registerClient msg)) :
      Site job (begun (.registerClient msg) h) (.getClientById (.registering msg))
  | rejecting {job : Job} {h : History} {msg : RegisterClientMessage} {info : ClientInfo}
      (hand : Handed parse job h (.registerClient msg)) :
      Site job (⟨.getClientById (.registering msg), some info⟩ :: begun (.registerClient msg) h)
        (.send msg.clientId msg.tx (.clientIdDuplicated msg.clientId))
  | acknowledging {job : Job} {h : History} {msg : RegisterClientMessage}
      (hand : Handed parse job h (.registerClient msg)) :
      Site job (⟨.getClientById (.registering msg), none⟩ :: begun (.registerClient msg) h)
        (.send msg.clientId msg.tx (.clientRegistered msg.clientId))
  | inserting {job : Job} {h : History} {msg : RegisterClientMessage}
      (hand : Handed parse job h (.registerClient msg)) :
      Site job (⟨.send msg.clientId msg.tx (.clientRegistered msg.clientId), .ok ()⟩ ::
          ⟨.getClientById (.registering msg), none⟩ :: begun (.registerClient msg) h)
        (.insertClient msg)
  | adding {job : Job} {h : History} {msg : RegisterClientMessage}
      (hand : Handed parse job h (.registerClient msg)) :
      Site job (⟨.insertClient msg, ()⟩ ::
          ⟨.send msg.clientId msg.tx (.clientRegistered msg.clientId), .ok ()⟩ ::
          ⟨.getClientById (.registering msg), none⟩ :: begun (.registerClient msg) h)
        (.addClientQueryHandler msg)
  -- `handle_query_request_message`
  | requester {job : Job} {h : History} {msg : QueryRequestMessage}
      (hand : Handed parse job h (.queryRequest msg)) :
      Site job (begun (.queryRequest msg) h) (.getClientById (.requester msg))
  | duplicate {job : Job} {h : History} {msg : QueryRequestMessage} {info : Option ClientInfo}
      (hand : Handed parse job h (.queryRequest msg)) :
      Site job (⟨.getClientById (.requester msg), info⟩ :: begun (.queryRequest msg) h)
        (.getOngoingRequest (.duplicate msg))
  | duplicated {job : Job} {h : History} {msg : QueryRequestMessage} {info : ClientInfo}
      {current : OngoingQueryRequest} (hand : Handed parse job h (.queryRequest msg))
      (other : current.isSame msg = false) :
      Site job (⟨.getOngoingRequest (.duplicate msg), some current⟩ ::
          ⟨.getClientById (.requester msg), some info⟩ :: begun (.queryRequest msg) h)
        (.send msg.requester info.tx (.queryRequestIdDuplicated msg))
  | selecting {job : Job} {h : History} {msg : QueryRequestMessage} {info : Option ClientInfo}
      (hand : Handed parse job h (.queryRequest msg)) :
      Site job (⟨.getOngoingRequest (.duplicate msg), none⟩ ::
          ⟨.getClientById (.requester msg), info⟩ :: begun (.queryRequest msg) h)
        (.getClientIdForQueryId msg)
  | responder {job : Job} {h : History} {msg : QueryRequestMessage} {info : Option ClientInfo}
      {selected : ClientId} (hand : Handed parse job h (.queryRequest msg)) :
      Site job (⟨.getClientIdForQueryId msg, .ok selected⟩ ::
          ⟨.getOngoingRequest (.duplicate msg), none⟩ ::
          ⟨.getClientById (.requester msg), info⟩ :: begun (.queryRequest msg) h)
        (.getClientById (.responder selected msg))
  | forwarding {job : Job} {h : History} {msg : QueryRequestMessage} {info : Option ClientInfo}
      {selected : ClientId} {responder : ClientInfo}
      (hand : Handed parse job h (.queryRequest msg)) :
      Site job (⟨.getClientById (.responder selected msg), some responder⟩ ::
          ⟨.getClientIdForQueryId msg, .ok selected⟩ ::
          ⟨.getOngoingRequest (.duplicate msg), none⟩ ::
          ⟨.getClientById (.requester msg), info⟩ :: begun (.queryRequest msg) h)
        (.send selected responder.tx (.queryRequested msg.toQueryRequested))
  | unsent {job : Job} {h : History} {msg : QueryRequestMessage} {info : ClientInfo}
      {selected : ClientId} {responder : ClientInfo} {err : TxError}
      (hand : Handed parse job h (.queryRequest msg)) :
      Site job (⟨.send selected responder.tx (.queryRequested msg.toQueryRequested), .error err⟩ ::
          ⟨.getClientById (.responder selected msg), some responder⟩ ::
          ⟨.getClientIdForQueryId msg, .ok selected⟩ ::
          ⟨.getOngoingRequest (.duplicate msg), none⟩ ::
          ⟨.getClientById (.requester msg), some info⟩ :: begun (.queryRequest msg) h)
        (.send msg.requester info.tx (.queryHandlerNotFound msg))
  | stamping {job : Job} {h : History} {msg : QueryRequestMessage} {info : Option ClientInfo}
      {selected : ClientId} {responder : ClientInfo}
      (hand : Handed parse job h (.queryRequest msg)) :
      Site job (⟨.send selected responder.tx (.queryRequested msg.toQueryRequested), .ok ()⟩ ::
          ⟨.getClientById (.responder selected msg), some responder⟩ ::
          ⟨.getClientIdForQueryId msg, .ok selected⟩ ::
          ⟨.getOngoingRequest (.duplicate msg), none⟩ ::
          ⟨.getClientById (.requester msg), info⟩ :: begun (.queryRequest msg) h)
        (.now selected msg)
  | recording {job : Job} {h : History} {msg : QueryRequestMessage} {info : Option ClientInfo}
      {selected : ClientId} {responder : ClientInfo} {now : Instant}
      (hand : Handed parse job h (.queryRequest msg)) :
      Site job (⟨.now selected msg, now⟩ ::
          ⟨.send selected responder.tx (.queryRequested msg.toQueryRequested), .ok ()⟩ ::
          ⟨.getClientById (.responder selected msg), some responder⟩ ::
          ⟨.getClientIdForQueryId msg, .ok selected⟩ ::
          ⟨.getOngoingRequest (.duplicate msg), none⟩ ::
          ⟨.getClientById (.requester msg), info⟩ :: begun (.queryRequest msg) h)
        (.handleQueryRequestedEvent (.of selected msg now))
  | unhandled {job : Job} {h : History} {msg : QueryRequestMessage} {info : ClientInfo}
      (hand : Handed parse job h (.queryRequest msg)) :
      Site job (⟨.getClientIdForQueryId msg, .error .queryHandlerNotFound⟩ ::
          ⟨.getOngoingRequest (.duplicate msg), none⟩ ::
          ⟨.getClientById (.requester msg), some info⟩ :: begun (.queryRequest msg) h)
        (.send msg.requester info.tx (.queryHandlerNotFound msg))
  -- `handle_query_response_message` and `handle_query_handling_error_message`
  | reading {job : Job} {h : History} {answer : Answer} {msg : ClientMessage}
      (is : answer.clientMessage = msg) (hand : Handed parse job h msg) :
      Site job (begun msg h) (.getOngoingRequest (.answer answer))
  | answering {job : Job} {h : History} {answer : Answer} {msg : ClientMessage}
      {request : OngoingQueryRequest} (is : answer.clientMessage = msg)
      (hand : Handed parse job h msg) :
      Site job (⟨.getOngoingRequest (.answer answer), some request⟩ :: begun msg h)
        (.getClientById (.answering request answer))
  | answer {job : Job} {h : History} {answer : Answer} {msg : ClientMessage}
      {request : OngoingQueryRequest} {info : ClientInfo} {serverMessage : ServerMessage}
      (is : answer.clientMessage = msg) (reply : answer.serverMessage request = serverMessage)
      (hand : Handed parse job h msg) :
      Site job (⟨.getClientById (.answering request answer), some info⟩ ::
          ⟨.getOngoingRequest (.answer answer), some request⟩ :: begun msg h)
        (.send request.requester info.tx serverMessage)
  | answered {job : Job} {h : History} {answer : Answer} {msg : ClientMessage}
      {request : OngoingQueryRequest} {info : ClientInfo} {serverMessage : ServerMessage}
      (is : answer.clientMessage = msg) (reply : answer.serverMessage request = serverMessage)
      (hand : Handed parse job h msg) :
      Site job (⟨.send request.requester info.tx serverMessage, .ok ()⟩ ::
          ⟨.getClientById (.answering request answer), some info⟩ ::
          ⟨.getOngoingRequest (.answer answer), some request⟩ :: begun msg h)
        (.removeOngoingRequest answer.requestId)
  -- `handle_register_source_event_message`
  | saving {job : Job} {h : History} {msg : RegisterSourceEventMessage}
      (hand : Handed parse job h (.registerSourceEvent msg)) :
      Site job (begun (.registerSourceEvent msg) h) (.saveSourceEvent msg)
  | source {job : Job} {h : History} {msg : RegisterSourceEventMessage} {event : SourceEvent}
      (hand : Handed parse job h (.registerSourceEvent msg)) :
      Site job (⟨.saveSourceEvent msg, .ok event⟩ :: begun (.registerSourceEvent msg) h)
        (.getClientById (.source event msg))
  | saved {job : Job} {h : History} {msg : RegisterSourceEventMessage} {event : SourceEvent}
      {info : ClientInfo} (hand : Handed parse job h (.registerSourceEvent msg)) :
      Site job (⟨.getClientById (.source event msg), some info⟩ ::
          ⟨.saveSourceEvent msg, .ok event⟩ :: begun (.registerSourceEvent msg) h)
        (.send msg.source info.tx (.sourceEventRegistered event.id event.monotonicClock))
  | spawning {job : Job} {h : History} {msg : RegisterSourceEventMessage} {event : SourceEvent}
      {info : ClientInfo} {sent : Except TxError Unit}
      (hand : Handed parse job h (.registerSourceEvent msg)) :
      Site job (⟨.send msg.source info.tx
            (.sourceEventRegistered event.id event.monotonicClock), sent⟩ ::
          ⟨.getClientById (.source event msg), some info⟩ ::
          ⟨.saveSourceEvent msg, .ok event⟩ :: begun (.registerSourceEvent msg) h)
        (.spawnBroadcast event)
  -- `handle_disconnected_client_message`
  | removing {job : Job} {h : History} {clientId : ClientId}
      (hand : Handed parse job h (.disconnectClient clientId)) :
      Site job (begun (.disconnectClient clientId) h) (.removeClient clientId)
  | disconnecting {job : Job} {h : History} {clientId : ClientId}
      (hand : Handed parse job h (.disconnectClient clientId)) :
      Site job (⟨.removeClient clientId, ()⟩ :: begun (.disconnectClient clientId) h)
        (.disconnectClient clientId)
  -- the timer
  | oldClients {h : History} (ready : Ready .tick h) :
      Site .tick h (.oldClients timing.serverExpirationClient)
  | heartbeat {clientId : ClientId} {tx : Tx} {txs : List (ClientId × Tx)} {h : History}
      (ready : Ready (.heartbeats ((clientId, tx) :: txs)) h) :
      Site (.heartbeats ((clientId, tx) :: txs)) h (.send clientId tx .heartbeat)
  | getExpiredRequests {h : History} (ready : Ready (.heartbeats []) h) :
      Site (.heartbeats []) h (.getExpiredRequests timing.queryResponseTimeout)
  | timingOut {request : OngoingQueryRequest} {requests : List OngoingQueryRequest}
      {h : History} (ready : Ready (.expiredRequests (request :: requests)) h) :
      Site (.expiredRequests (request :: requests)) h (.getClientById (.timingOut request))
  | timeOut {request : OngoingQueryRequest} {requests : List OngoingQueryRequest}
      {info : ClientInfo} {h : History}
      (ready : Ready (.expiredRequests (request :: requests)) h) :
      Site (.expiredRequests (request :: requests))
        (⟨.getClientById (.timingOut request), some info⟩ :: h)
        (.send request.requester info.tx (.queryTimedOut request.requestId request.queryId))
  | timedOut {request : OngoingQueryRequest} {requests : List OngoingQueryRequest}
      {info : ClientInfo} {sent : Except TxError Unit} {h : History}
      (ready : Ready (.expiredRequests (request :: requests)) h) :
      Site (.expiredRequests (request :: requests))
        (⟨.send request.requester info.tx (.queryTimedOut request.requestId request.queryId),
          sent⟩ :: ⟨.getClientById (.timingOut request), some info⟩ :: h)
        (.removeOngoingRequest request.requestId)
  | timedOutGone {request : OngoingQueryRequest} {requests : List OngoingQueryRequest}
      {h : History} (ready : Ready (.expiredRequests (request :: requests)) h) :
      Site (.expiredRequests (request :: requests))
        (⟨.getClientById (.timingOut request), none⟩ :: h)
        (.removeOngoingRequest request.requestId)
  -- a broadcast
  | readClients {event : SourceEvent} {h : History} (ready : Ready (.broadcast event) h) :
      Site (.broadcast event) h (.readClients event)
  | broadcasting {event : SourceEvent} {clients : List (ClientId × ClientInfo)}
      {entry : ClientId × ClientInfo} {h : History}
      (ready : Ready (.broadcast event) h) (read : ⟨.readClients event, clients⟩ ∈ h)
      (mem : entry ∈ clients) :
      Site (.broadcast event) h (.send entry.1 entry.2.tx (.sourceEvent event))
  | dropClients {event : SourceEvent} {h : History} (ready : Ready (.broadcast event) h) :
      Site (.broadcast event) h (.dropClients event)

/-- The ways a registration ends, with what the task has performed for it. -/
inductive RegisterOutcome (msg : RegisterClientMessage) (h : History) : History → Prop
  | rejected {info : ClientInfo} {sent : Except TxError Unit} :
      RegisterOutcome msg h
        (⟨.send msg.clientId msg.tx (.clientIdDuplicated msg.clientId), sent⟩ ::
          ⟨.getClientById (.registering msg), some info⟩ :: begun (.registerClient msg) h)
  | unsent {err : TxError} :
      RegisterOutcome msg h
        (⟨.send msg.clientId msg.tx (.clientRegistered msg.clientId), .error err⟩ ::
          ⟨.getClientById (.registering msg), none⟩ :: begun (.registerClient msg) h)
  | accepted :
      RegisterOutcome msg h
        (⟨.addClientQueryHandler msg, ()⟩ :: ⟨.insertClient msg, ()⟩ ::
          ⟨.send msg.clientId msg.tx (.clientRegistered msg.clientId), .ok ()⟩ ::
          ⟨.getClientById (.registering msg), none⟩ :: begun (.registerClient msg) h)

/-- The ways `handle_message` ends: a registration has an outcome, a disconnect is complete, and
every other message leaves the task's memory as it was. -/
inductive Handled (h : History) : ClientMessage → History → Prop
  | register {msg : RegisterClientMessage} {h' : History} (outcome : RegisterOutcome msg h h') :
      Handled h (.registerClient msg) h'
  | disconnect {clientId : ClientId} :
      Handled h (.disconnectClient clientId)
        (⟨.disconnectClient clientId, ()⟩ :: ⟨.removeClient clientId, ()⟩ ::
          begun (.disconnectClient clientId) h)
  | other {msg : ClientMessage} {h' : History} (other : ∀ m, msg ≠ .registerClient m)
      (live : ∀ clientId, msg ≠ .disconnectClient clientId) (rest : AtRest h')
      (same : memory h' = memory h) : Handled h msg h'

/-- **The ends of the passes**: what a loop goes on with, or that the task is over. -/
inductive Ends : Job → History → Option Job → Prop
  | goOn {job next : Job} {h : History} (ready : Ready next h) : Ends job h (some next)
  | stop {job : Job} {h : History} (rest : AtRest h) : Ends job h none

/-- A pass does not end in the middle of a handler. -/
theorem Ends.elim {job : Job} {h : History} {next : Option Job} {p : Prop}
    (ends : Ends job h next) (middle : goesOn h = true) : p := by
  cases ends with
  | goOn ready => exact ready.elim middle
  | stop rest => exact rest.elim middle

end Revent
