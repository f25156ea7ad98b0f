import Revent.Laws.Responders
import Revent.Laws.Selection

/-!
# The switchboard

What the message handlers are for, without clocks and sections: a `Switchboard` is what they read
and write to route messages, and `Switchboard.handle` says what handling one message makes of it,
what is sent and who is selected, given how the sends and saves turn out.

`handle_of_alone` is the refinement: every handler that runs alone does that, and nothing else
that the switchboard shows.
-/

namespace Revent

open Interleave (Event Prog)
open RoundRobinStrategy (pick)

variable {R : Type}

/-! ## What is routed by -/

/-- The request without its instant. -/
def OngoingQueryRequest.untimed (request : OngoingQueryRequest) : OngoingQueryRequest :=
  { request with createdAt := 0 }

/-- The channels of the connected clients, the handlers of each query, the ongoing requests and
the client selected last. -/
@[ext] structure Switchboard where
  channels : ClientId → Option Tx
  listed : QueryId → List ClientId
  ongoing : RequestId → Option OngoingQueryRequest
  cursor : Option ClientId

/-- The switchboard of a world. -/
def World.switchboard (w : World R) : Switchboard where
  channels := w.state.txOf
  listed := w.state.listed
  ongoing requestId := (w.state.ongoing requestId).map .untimed
  cursor := w.cursor

/-- How the sends and saves turn out while a message is handled. -/
structure Outcomes where
  sent : Nat → Except TxError Unit
  saved : Nat → Except SourceEventRepositoryError SourceEvent

/-- A message put on a channel, and whether it was accepted. -/
abbrev Delivery := ClientId × Tx × ServerMessage × Bool

/-- What handling a message comes to: the switchboard after it, what was sent and who was
selected, both newest first. -/
structure Routed where
  board : Switchboard
  sent : List Delivery
  selected : List (QueryId × ClientId)

namespace Switchboard

/-! ## The moves -/

/-- A client is connected over a channel. -/
def connect (board : Switchboard) (clientId : ClientId) (tx : Tx) : Switchboard :=
  { board with channels := fun id => if clientId = id then some tx else board.channels id }

/-- A client is disconnected. -/
def disconnect (board : Switchboard) (clientId : ClientId) : Switchboard :=
  { board with channels := fun id => if clientId = id then none else board.channels id }

/-- A client is listed for the queries it declares. -/
def enlist (board : Switchboard) (msg : RegisterClientMessage) : Switchboard :=
  { board with listed := fun queryId =>
      board.listed queryId ++ List.replicate (msg.queryHandlers.count queryId) msg.clientId }

/-- A client is taken out of all lists. -/
def delist (board : Switchboard) (clientId : ClientId) : Switchboard :=
  { board with listed := fun queryId => (board.listed queryId).filter (· ≠ clientId) }

/-- A client is selected. -/
def select (board : Switchboard) (clientId : ClientId) : Switchboard :=
  { board with cursor := some clientId }

/-- A request is recorded. -/
def record (board : Switchboard) (request : OngoingQueryRequest) : Switchboard :=
  { board with ongoing := fun id =>
      if request.requestId = id then some request.untimed else board.ongoing id }

/-- A request is forgotten. -/
def forget (board : Switchboard) (requestId : RequestId) : Switchboard :=
  { board with ongoing := fun id => if requestId = id then none else board.ongoing id }

/-- The client that is next for a query. -/
def choice (board : Switchboard) (queryId : QueryId) : Option ClientId :=
  pick board.cursor (sorted (board.listed queryId))

/-- A message for a client, if it is connected. -/
def tell (board : Switchboard) (clientId : ClientId) (msg : ServerMessage)
    (sent : Except TxError Unit) : List Delivery :=
  match board.channels clientId with
  | none => []
  | some tx => [(clientId, tx, msg, sent.isOk)]

/-! ## The messages -/

/-- Registering. -/
def register (board : Switchboard) (msg : RegisterClientMessage) (outcomes : Outcomes) : Routed :=
  match board.channels msg.clientId, outcomes.sent 0 with
  | some _, sent => ⟨board, [(msg.clientId, msg.tx, .clientIdDuplicated msg.clientId, sent.isOk)],
      []⟩
  | none, .error _ => ⟨board, [(msg.clientId, msg.tx, .clientRegistered msg.clientId, false)], []⟩
  | none, .ok _ => ⟨(board.connect msg.clientId msg.tx).enlist msg,
      [(msg.clientId, msg.tx, .clientRegistered msg.clientId, true)], []⟩

/-- Forwarding a request to the client that is next for its query. -/
def forward (board : Switchboard) (msg : QueryRequestMessage) (responder : ClientId)
    (outcomes : Outcomes) : Routed :=
  let selected := [(msg.queryId, responder)]
  let forwarded := ServerMessage.queryRequested msg.toQueryRequested
  match board.channels responder, outcomes.sent 0 with
  | none, _ => ⟨board.select responder, [], selected⟩
  | some tx, .error _ => ⟨board.select responder,
      board.tell msg.requester (.queryHandlerNotFound msg) (outcomes.sent 1) ++
        [(responder, tx, forwarded, false)], selected⟩
  | some tx, .ok _ => ⟨(board.select responder).record (.of responder msg 0),
      [(responder, tx, forwarded, true)], selected⟩

/-- Requesting. -/
def request (board : Switchboard) (msg : QueryRequestMessage) (outcomes : Outcomes) : Routed :=
  match board.ongoing msg.requestId with
  | some current =>
    if current.isSame msg then ⟨board, [], []⟩
    else ⟨board, board.tell msg.requester (.queryRequestIdDuplicated msg) (outcomes.sent 0), []⟩
  | none =>
    match board.choice msg.queryId with
    | none => ⟨board, board.tell msg.requester (.queryHandlerNotFound msg) (outcomes.sent 0), []⟩
    | some responder => board.forward msg responder outcomes

/-- Answering. -/
def settle (board : Switchboard) (answer : Answer) (outcomes : Outcomes) : Routed :=
  match board.ongoing answer.requestId with
  | none => ⟨board, [], []⟩
  | some request =>
    match board.channels request.requester, outcomes.sent 0 with
    | none, _ => ⟨board, [], []⟩
    | some tx, .error _ =>
      ⟨board, [(request.requester, tx, answer.serverMessage request, false)], []⟩
    | some tx, .ok _ => ⟨board.forget answer.requestId,
        [(request.requester, tx, answer.serverMessage request, true)], []⟩

/-- Publishing. -/
def publish (board : Switchboard) (msg : RegisterSourceEventMessage) (outcomes : Outcomes) :
    Routed :=
  match outcomes.saved 0 with
  | .error _ => ⟨board, [], []⟩
  | .ok event => ⟨board, board.tell msg.source
      (.sourceEventRegistered event.id event.monotonicClock) (outcomes.sent 0), []⟩

/-- **What handling a message comes to.** -/
def handle (board : Switchboard) : ClientMessage → Outcomes → Routed
  | .registerClient msg, outcomes => board.register msg outcomes
  | .queryRequest msg, outcomes => board.request msg outcomes
  | .queryResponse msg, outcomes => board.settle (.response msg) outcomes
  | .queryHandlingFailed msg, outcomes => board.settle (.failed msg) outcomes
  | .registerSourceEvent msg, outcomes => board.publish msg outcomes
  | .heartbeat _, _ => ⟨board, [], []⟩
  | .disconnectClient clientId, _ => ⟨(board.disconnect clientId).delist clientId, [], []⟩

/-- What an operation makes of the switchboard. -/
def after (board : Switchboard) : Event Op Ret → Switchboard
  | ⟨.insertClient msg, _⟩ => board.connect msg.clientId msg.tx
  | ⟨.addClientQueryHandler msg, _⟩ => board.enlist msg
  | ⟨.getClientIdForQueryId _, .ok clientId⟩ => board.select clientId
  | ⟨.handleQueryRequestedEvent request, _⟩ => board.record request
  | ⟨.removeOngoingRequest requestId, _⟩ => board.forget requestId
  | ⟨.removeClient clientId, _⟩ => board.disconnect clientId
  | ⟨.disconnectClient clientId, _⟩ => board.delist clientId
  | _ => board

end Switchboard

/-! ## The refinement -/

variable [Repository R] {op : Op} {env : Env R} {r : Ret op} {w w' : World R} {h : History}

/-- **Every operation** moves the switchboard as `after` says. -/
theorem switchboard_exec (performed : exec op env w = some (r, w')) :
    w'.switchboard = w.switchboard.after ⟨op, r⟩ := by
  have channels := funext (txOf_exec performed)
  have listed := funext (listed_exec performed)
  have ongoing (requestId : RequestId) := congrArg (Option.map OngoingQueryRequest.untimed)
    (ongoing_exec performed requestId)
  have cursor := cursor_exec performed
  cases op with
  | getClientIdForQueryId msg =>
    cases r with
    | error err => exact Switchboard.ext channels listed (funext ongoing) cursor
    | ok clientId => exact Switchboard.ext channels listed (funext ongoing) cursor
  | handleQueryRequestedEvent request =>
    refine Switchboard.ext channels listed (funext fun requestId => ?_) cursor
    exact (ongoing requestId).trans (apply_ite _ _ _ _)
  | removeOngoingRequest removed =>
    refine Switchboard.ext channels listed (funext fun requestId => ?_) cursor
    exact (ongoing requestId).trans (apply_ite _ _ _ _)
  | _ => exact Switchboard.ext channels listed (funext ongoing) cursor

/-- What an event shows of how a send turned out. -/
def sendResult : Event Op Ret → Option (Except TxError Unit)
  | ⟨.send _ _ _, sent⟩ => some sent
  | _ => none

/-- What an event shows of how a save turned out. -/
def saveResult : Event Op Ret → Option (Except SourceEventRepositoryError SourceEvent)
  | ⟨.saveSourceEvent _, saved⟩ => some saved
  | _ => none

/-- How the sends of a history turned out, the oldest first. -/
def sendResults (h : History) : List (Except TxError Unit) := (h.filterMap sendResult).reverse

/-- How the saves of a history turned out, the oldest first. -/
def saveResults (h : History) : List (Except SourceEventRepositoryError SourceEvent) :=
  (h.filterMap saveResult).reverse

/-- The sends and saves of a history turned out that way. -/
structure Outcomes.Of (outcomes : Outcomes) (h : History) : Prop where
  sent : ∀ k sent, (sendResults h)[k]? = some sent → outcomes.sent k = sent
  saved : ∀ k saved, (saveResults h)[k]? = some saved → outcomes.saved k = saved

/-- The sends and saves of a history turned out some way. -/
theorem exists_outcomes (h : History) : ∃ outcomes : Outcomes, outcomes.Of h := by
  refine ⟨⟨fun k => (sendResults h)[k]?.getD (.ok ()),
    fun k => (saveResults h)[k]?.getD (.error ⟨""⟩)⟩, fun k sent at_k => ?_,
    fun k saved at_k => ?_⟩
  · simp only [at_k, Option.getD_some]
  · simp only [at_k, Option.getD_some]

/-- What a history shows of routing is what routing comes to for its outcomes. -/
def ComesTo (routed : Outcomes → Routed) (w : World R) (h : History) : Prop :=
  ∀ outcomes : Outcomes, outcomes.Of h →
    routed outcomes = ⟨w.switchboard, deliveries h, selections h⟩

theorem handleRegisterClientMessage_comesTo {msg : RegisterClientMessage} :
    (handleRegisterClientMessage msg).Ensures exec
      (fun _ => ComesTo (w.switchboard.register msg)) w (begun (.registerClient msg) []) := by
  intro env found w₁ looked
  obtain ⟨hfound, rfl⟩ := exec_getClientById looked
  have channel : w₁.switchboard.channels msg.clientId = found.map ClientInfo.tx := by
    rw [hfound]
    rfl
  cases found with
  | some info =>
    intro env sent w₂ performed outcomes turned
    have same : w₂.switchboard = w₁.switchboard := switchboard_exec performed
    simp only [Switchboard.register, channel, Option.map_some, turned.sent 0 sent rfl, same]
    rfl
  | none =>
    intro env sent w₂ performed
    have same : w₂.switchboard = w₁.switchboard := switchboard_exec performed
    cases sent with
    | error err =>
      intro outcomes turned
      simp only [Switchboard.register, channel, Option.map_none, turned.sent 0 _ rfl, same]
      rfl
    | ok _ =>
      intro env _ w₃ inserted env _ w₄ added outcomes turned
      have connected : w₃.switchboard = w₂.switchboard.connect msg.clientId msg.tx :=
        switchboard_exec inserted
      have enlisted : w₄.switchboard = w₃.switchboard.enlist msg := switchboard_exec added
      simp only [Switchboard.register, channel, Option.map_none, turned.sent 0 _ rfl, enlisted,
        connected, same]
      rfl

omit [Repository R] in
/-- The outcomes of a longer history are those of a shorter one. -/
theorem Outcomes.Of.of_cons {outcomes : Outcomes} {ev : Event Op Ret}
    (turned : outcomes.Of (ev :: h)) : outcomes.Of h := by
  have older {α : Type} (f : Event Op Ret → Option α) {k : Nat} {a : α}
      (at_k : (h.filterMap f).reverse[k]? = some a) :
      ((ev :: h).filterMap f).reverse[k]? = some a := by
    obtain ⟨hk, -⟩ := List.getElem?_eq_some_iff.mp at_k
    rw [List.filterMap_cons]
    split
    · exact at_k
    · rw [List.reverse_cons, List.getElem?_append_left hk]
      exact at_k
  exact ⟨fun k sent at_k => turned.sent k sent (older _ at_k),
    fun k saved at_k => turned.saved k saved (older _ at_k)⟩

omit [Repository R] in
/-- How the last send turned out. -/
theorem Outcomes.Of.last {outcomes : Outcomes} {client : ClientId} {tx : Tx} {msg : ServerMessage}
    {sent : Except TxError Unit} (turned : outcomes.Of (⟨.send client tx msg, sent⟩ :: h)) :
    outcomes.sent (sendResults h).length = sent := by
  apply turned.sent
  show ((sent :: h.filterMap sendResult).reverse)[_]? = _
  rw [List.reverse_cons, sendResults, List.getElem?_concat_length]

/-- A requester that was looked up is told something. -/
theorem tellRequester_comesTo {msg : QueryRequestMessage} {requester : Option ClientInfo}
    {serverMessage : ServerMessage} {routed : Outcomes → Routed} (board : Switchboard)
    (found : board.channels msg.requester = requester.map ClientInfo.tx)
    (comes : ∀ outcomes : Outcomes, outcomes.Of h → routed outcomes = ⟨w.switchboard,
      board.tell msg.requester serverMessage (outcomes.sent (sendResults h).length) ++
        deliveries h, selections h⟩) :
    (tellRequester msg requester serverMessage).Ensures exec (fun _ => ComesTo routed) w h := by
  cases requester with
  | none =>
    intro outcomes turned
    rw [comes outcomes turned, Switchboard.tell, found]
    rfl
  | some info =>
    intro env sent w₁ performed outcomes turned
    have same : w₁.switchboard = w.switchboard := switchboard_exec performed
    rw [comes outcomes turned.of_cons, Switchboard.tell, found, turned.last, same]
    rfl

/-- Once a client is selected, the request is forwarded to it. -/
theorem forward_comesTo {msg : QueryRequestMessage} {requester : Option ClientInfo}
    {responder : ClientId} (board : Switchboard)
    (selects : w.switchboard = board.select responder)
    (found : board.channels msg.requester = requester.map ClientInfo.tx) :
    Prog.Ensures exec (fun _ => ComesTo (board.forward msg responder))
      (do
        match ← getClientById (.responder responder msg) with
        | some info =>
          match ← send responder info.tx (.queryRequested msg.toQueryRequested) with
          | .error _ => tellRequester msg requester (.queryHandlerNotFound msg)
          | .ok _ =>
            let now ← instantNow responder msg
            doing (.handleQueryRequestedEvent (.of responder msg now))
        | none => pure ())
      w (⟨.getClientIdForQueryId msg, .ok responder⟩ ::
        ⟨.getOngoingRequest (.duplicate msg), none⟩ ::
        ⟨.getClientById (.requester msg), requester⟩ :: begun (.queryRequest msg) []) := by
  intro env info w₁ looked
  obtain ⟨hinfo, rfl⟩ := exec_getClientById looked
  have channel : board.channels responder = info.map ClientInfo.tx := by
    have same : board.channels = w₁.switchboard.channels := by rw [selects]; rfl
    rw [same, hinfo]
    rfl
  cases info with
  | none =>
    intro outcomes turned
    simp only [Switchboard.forward, channel, Option.map_none, selects]
    rfl
  | some info =>
    intro env sent w₂ performed
    have same : w₂.switchboard = w₁.switchboard := switchboard_exec performed
    cases sent with
    | error err =>
      refine tellRequester_comesTo board found fun outcomes turned => ?_
      simp only [Switchboard.forward, channel, Option.map_some, turned.sent 0 _ rfl, same, selects]
      rfl
    | ok _ =>
      intro env now w₃ stamped env _ w₄ recorded outcomes turned
      have read : w₃.switchboard = w₂.switchboard := switchboard_exec stamped
      have filed : w₄.switchboard = w₃.switchboard.record (.of responder msg now) :=
        switchboard_exec recorded
      simp only [Switchboard.forward, channel, Option.map_some, turned.sent 0 _ rfl, filed, read,
        same, selects]
      rfl

/-- A request is forwarded, unless there is one with its id or nobody is listed for its query. -/
theorem handleQueryRequestMessage_comesTo {msg : QueryRequestMessage} :
    (handleQueryRequestMessage msg).Ensures exec
      (fun _ => ComesTo (w.switchboard.request msg)) w (begun (.queryRequest msg) []) := by
  intro env requester w₁ looked env current w₂ read
  obtain ⟨hrequester, rfl⟩ := exec_getClientById looked
  obtain ⟨hcurrent, rfl⟩ := exec_getOngoingRequest read
  have found : w₂.switchboard.channels msg.requester = requester.map ClientInfo.tx := by
    rw [hrequester]
    rfl
  have ongoing : w₂.switchboard.ongoing msg.requestId = current.map .untimed := by
    rw [hcurrent]
    rfl
  cases current with
  | some current =>
    have is_same : current.untimed.isSame msg = current.isSame msg := rfl
    show Prog.Ensures exec _ (if current.isSame msg then _ else tellRequester msg requester _) _ _
    split
    · rename_i same
      intro outcomes turned
      simp only [Switchboard.request, ongoing, Option.map_some, is_same, if_pos same]
      rfl
    · rename_i other
      refine tellRequester_comesTo w₂.switchboard found fun outcomes turned => ?_
      simp only [Switchboard.request, ongoing, Option.map_some, is_same, if_neg other]
      exact congrArg (Routed.mk _ · _) (List.append_nil _).symm
  | none =>
    intro env selected w₃ selection
    have chosen : selected = (w₂.switchboard.choice msg.queryId).elim _ _ := exec_select selection
    have moved := switchboard_exec selection
    cases choice : w₂.switchboard.choice msg.queryId with
    | none =>
      rw [choice] at chosen
      subst chosen
      refine tellRequester_comesTo w₂.switchboard found fun outcomes turned => ?_
      simp only [Switchboard.request, ongoing, Option.map_none, choice, moved]
      exact congrArg (Routed.mk _ · _) (List.append_nil _).symm
    | some responder =>
      rw [choice] at chosen
      subst chosen
      have request : w₂.switchboard.request msg = w₂.switchboard.forward msg responder := by
        funext outcomes
        simp only [Switchboard.request, ongoing, Option.map_none, choice]
      rw [request]
      exact forward_comesTo w₂.switchboard moved found

theorem settle_comesTo {answer : Answer} (msg : ClientMessage) :
    (settle answer).Ensures exec (fun _ => ComesTo (w.switchboard.settle answer)) w
      (begun msg []) := by
  intro env request w₁ read
  obtain ⟨hrequest, rfl⟩ := exec_getOngoingRequest read
  have ongoing : w₁.switchboard.ongoing answer.requestId = request.map .untimed := by
    rw [hrequest]
    rfl
  cases request with
  | none =>
    intro outcomes turned
    simp only [Switchboard.settle, ongoing, Option.map_none]
    rfl
  | some request =>
    intro env requester w₂ looked
    obtain ⟨hrequester, rfl⟩ := exec_getClientById looked
    have channel : w₂.switchboard.channels request.untimed.requester =
        requester.map ClientInfo.tx := by
      rw [hrequester]
      rfl
    cases requester with
    | none =>
      intro outcomes turned
      simp only [Switchboard.settle, ongoing, Option.map_some, channel, Option.map_none]
      rfl
    | some info =>
      intro env sent w₃ performed
      have same : w₃.switchboard = w₂.switchboard := switchboard_exec performed
      cases sent with
      | error err =>
        intro outcomes turned
        simp only [Switchboard.settle, ongoing, Option.map_some, channel, turned.sent 0 _ rfl, same]
        rfl
      | ok _ =>
        intro env removed w₄ removal outcomes turned
        have forgotten : w₄.switchboard = w₃.switchboard.forget answer.requestId :=
          switchboard_exec removal
        simp only [Switchboard.settle, ongoing, Option.map_some, channel, turned.sent 0 _ rfl,
          forgotten, same]
        rfl

theorem handleRegisterSourceEventMessage_comesTo {msg : RegisterSourceEventMessage} :
    (handleRegisterSourceEventMessage msg).Ensures exec
      (fun _ => ComesTo (w.switchboard.publish msg)) w (begun (.registerSourceEvent msg) []) := by
  intro env saved w₁ saving
  have same : w₁.switchboard = w.switchboard := switchboard_exec saving
  cases saved with
  | error err =>
    intro outcomes turned
    simp only [Switchboard.publish, turned.saved 0 _ rfl, same]
    rfl
  | ok event =>
    intro env source w₂ looked
    obtain ⟨hsource, rfl⟩ := exec_getClientById looked
    have channel : w.switchboard.channels msg.source = source.map ClientInfo.tx := by
      rw [hsource, ← same]
      rfl
    cases source with
    | none =>
      intro outcomes turned
      simp only [Switchboard.publish, turned.saved 0 _ rfl, Switchboard.tell, channel,
        Option.map_none, same]
      rfl
    | some info =>
      intro env sent w₃ performed env _ w₄ spawned outcomes turned
      have told : w₃.switchboard = w₂.switchboard := switchboard_exec performed
      have handed : w₄.switchboard = w₃.switchboard := switchboard_exec spawned
      simp only [Switchboard.publish, turned.saved 0 _ rfl, turned.sent 0 _ rfl, Switchboard.tell,
        channel, Option.map_some, handed, told, same]
      rfl

theorem handleDisconnectedClientMessage_comesTo {clientId : ClientId} :
    (handleDisconnectedClientMessage clientId).Ensures exec
      (fun _ => ComesTo fun _ => ⟨(w.switchboard.disconnect clientId).delist clientId, [], []⟩) w
      (begun (.disconnectClient clientId) []) := by
  intro env _ w₁ removed env _ w₂ disconnected outcomes turned
  have away : w₁.switchboard = w.switchboard.disconnect clientId := switchboard_exec removed
  have delisted : w₂.switchboard = w₁.switchboard.delist clientId := switchboard_exec disconnected
  rw [delisted, away]
  rfl

theorem handleMessage_comesTo (msg : ClientMessage) :
    (handleMessage msg).Ensures exec (fun _ => ComesTo (w.switchboard.handle msg)) w [] := by
  intro env _ w₁ refreshed
  have same : w₁.switchboard = w.switchboard := switchboard_exec refreshed
  rw [← same]
  cases msg with
  | registerClient msg => exact handleRegisterClientMessage_comesTo
  | queryRequest msg => exact handleQueryRequestMessage_comesTo
  | queryResponse msg | queryHandlingFailed msg => exact settle_comesTo _
  | registerSourceEvent msg => exact handleRegisterSourceEventMessage_comesTo
  | heartbeat clientId => exact fun _ _ => rfl
  | disconnectClient clientId => exact handleDisconnectedClientMessage_comesTo

/-- **The refinement**: what the handler of a message, run alone, shows of routing is what
handling the message comes to on the switchboard. -/
theorem handle_of_alone {msg : ClientMessage} {events : History} {outcomes : Outcomes}
    (run : Interleave.Alone exec (handleMessage msg) w [] () w' events)
    (turned : outcomes.Of events) : w.switchboard.handle msg outcomes =
      ⟨w'.switchboard, deliveries events, selections events⟩ :=
  (handleMessage_comesTo msg).elim run outcomes turned

end Revent
