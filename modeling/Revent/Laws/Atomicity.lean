import Revent.Laws.Broadcasts
import Revent.Laws.Clock
import Revent.Laws.Frames
import Revent.Laws.Switchboard

/-!
# Failure atomicity

Each handler has one send or save its outcome depends on, and updates nothing before that is
accepted. So a handler that fails there leaves the world as the refresh of `last_seen` left it, up
to the cursor of the round robin, and the refresh of a second attempt overwrites the first one's:
whatever the second attempt can do, a first attempt could have done (`alone_again`).

What handling a message comes to depends on the instants and the drawn row ids in nothing else
than the instants and the row ids (`alike_of_works`), which compares a retry with a first attempt
that ran at another time.
-/

namespace Revent

open Interleave (Event Prog Alone)

variable {R : Type}

/-! ## Failing -/

/-- The messages whose handler goes by whether they are accepted. -/
def ServerMessage.decides : ServerMessage → Bool
  | .clientRegistered _ | .queryRequested _ | .queryResponded _ => true
  | .queryRequestedFailed _ _ _ => true
  | _ => false

/-- A send that decides was refused, or a save failed. -/
def fails : Event Op Ret → Bool
  | ⟨.send _ _ msg, .error _⟩ => msg.decides
  | ⟨.saveSourceEvent _, .error _⟩ => true
  | _ => false

/-- The handling failed. -/
def Failed (h : History) : Prop := h.any fails = true

/-- `connected_clients` up to the source's `last_seen`, `query_handlers` and
`ongoing_query_requests` are as before, and so is the round robin but for a query request. -/
structure Untouched (msg : ClientMessage) (w w' : World R) : Prop where
  clients : SeenOnly msg.getSource w.clients w'.clients
  handlers : w'.handlers = w.handlers
  ongoing : w'.ongoing = w.ongoing
  cursor : (∀ m, msg ≠ .queryRequest m) → w'.cursor = w.cursor

variable [Repository R] {w w' : World R} {h : History} {env : Env R}

/-- A refused send changes nothing. -/
theorem exec_refused {client : ClientId} {tx : Tx} {msg : ServerMessage} {err : TxError}
    (h : exec (.send client tx msg) env w = some (.error err, w')) : w' = w := by
  simp only [exec] at h
  split at h
  · cases h
  · cases h
    rfl

theorem handleRegisterClientMessage_atomic {msg : RegisterClientMessage} :
    (handleRegisterClientMessage msg).Ensures exec (fun _ w' h' => Failed h' → w' = w) w
      (begun (.registerClient msg) []) := by
  intro env found w₁ looked
  obtain ⟨-, rfl⟩ := exec_getClientById looked
  cases found with
  | some info =>
    intro env sent w₂ performed failed
    cases sent <;> cases failed
  | none =>
    intro env sent w₂ performed
    cases sent with
    | error err => exact fun _ => exec_refused performed
    | ok _ =>
      intro env _ w₃ inserted env _ w₄ added failed
      cases failed

theorem settle_atomic {answer : Answer} (msg : ClientMessage) :
    (settle answer).Ensures exec (fun _ w' h' => Failed h' → w' = w) w (begun msg []) := by
  intro env request w₁ read
  obtain ⟨-, rfl⟩ := exec_getOngoingRequest read
  cases request with
  | none => exact fun _ => rfl
  | some request =>
    intro env requester w₂ looked
    obtain ⟨-, rfl⟩ := exec_getClientById looked
    cases requester with
    | none => exact fun _ => rfl
    | some info =>
      intro env sent w₃ performed
      cases sent with
      | error err => exact fun _ => exec_refused performed
      | ok _ =>
        intro env removed w₄ removal failed
        cases failed

theorem tellRequester_keepsRequests {msg : QueryRequestMessage} {requester : Option ClientInfo}
    {serverMessage : ServerMessage} (same : w'.ongoing = w.ongoing) :
    (tellRequester msg requester serverMessage).Ensures exec
      (fun _ w'' h' => Failed h' → w''.ongoing = w.ongoing) w' h := by
  cases requester with
  | none => exact fun _ => same
  | some info =>
    intro env sent w'' performed _
    have kept : w''.ongoing = w'.ongoing := requests_exec performed
    exact kept.trans same

/-- A query request that fails records nothing. -/
theorem handleQueryRequestMessage_atomic {msg : QueryRequestMessage} :
    (handleQueryRequestMessage msg).Ensures exec
      (fun _ w' h' => Failed h' → w'.ongoing = w.ongoing) w (begun (.queryRequest msg) []) := by
  intro env requester w₁ looked env current w₂ read
  obtain ⟨-, rfl⟩ := exec_getClientById looked
  obtain ⟨-, rfl⟩ := exec_getOngoingRequest read
  cases current with
  | some current =>
    show Prog.Ensures exec _ (if current.isSame msg then _ else tellRequester msg requester _) _ _
    split
    · exact fun _ => rfl
    · exact tellRequester_keepsRequests rfl
  | none =>
    intro env selected w₃ selection
    have same : w₃.ongoing = w₂.ongoing := requests_exec selection
    cases selected with
    | error err =>
      cases err with
      | queryHandlerNotFound => exact tellRequester_keepsRequests same
      | responderNotFound => exact fun _ => same
    | ok selected =>
      intro env responder w₄ looked
      obtain ⟨-, rfl⟩ := exec_getClientById looked
      cases responder with
      | none => exact fun _ => same
      | some responder =>
        intro env sent w₅ performed
        have sent_same : w₅.ongoing = w₄.ongoing := requests_exec performed
        cases sent with
        | error err => exact tellRequester_keepsRequests (sent_same.trans same)
        | ok _ =>
          intro env now w₆ stamped env _ w₇ recorded failed
          cases failed

/-! ## The refresh of `last_seen` -/

/-- A second refresh overwrites the first one. -/
theorem touch_touch (clients : HashMap ClientId ClientInfo) (source : ClientId)
    (now now' : Instant) :
    touch (touch clients source now) source now' = touch clients source now' := by
  refine Std.ExtTreeMap.ext_getElem? fun clientId => ?_
  simp only [touch, HashMap.getElem?_modify]
  split
  · rw [Option.map_map]
    rfl
  · rfl

/-- Who refreshes after a refresh finds what the first one found. -/
theorem exec_updateLastSeen_again {msg : ClientMessage} {u : Unit}
    (refreshed : exec (.updateLastSeen msg) env w = some (u, w')) (env' : Env R) :
    exec (.updateLastSeen msg) env' w' = exec (.updateLastSeen msg) env' w := by
  simp only [exec] at refreshed ⊢
  cases source : msg.getSource with
  | none =>
    simp only [source] at refreshed ⊢
    cases refreshed
    rfl
  | some clientId =>
    simp only [source, writeClients] at refreshed ⊢
    split at refreshed
    · cases refreshed
      show (if w.guards = 0 then some ((), w.setClients
        (touch (touch w.clients clientId env.now) clientId env'.now)) else none) = _
      rw [touch_touch]
    · cases refreshed

/-- So a handler that begins with a refresh does after it what it does before it. -/
theorem alone_again {msg : ClientMessage} {u : Unit} {v : World R} {events : History}
    (refreshed : exec (.updateLastSeen msg) env w = some (u, w')) :
    Alone exec (handleMessage msg) w' [] () v events ↔
      Alone exec (handleMessage msg) w [] () v events := by
  constructor
  · rintro (_ | ⟨performed, rest⟩)
    rw [exec_updateLastSeen_again refreshed] at performed
    exact .act performed rest
  · rintro (_ | ⟨performed, rest⟩)
    rw [← exec_updateLastSeen_again refreshed] at performed
    exact .act performed rest

/-! ## Up to instants and row ids -/

/-- The event without the id and the instant of its row. -/
def SourceEvent.content (event : SourceEvent) : Nat × AggregateId × String × EventPayload :=
  (event.monotonicClock, event.aggregateId, event.aggregateType, event.payload)

/-- The row without its id and its instant. -/
def SourceEventRow.content (row : SourceEventRow) : Nat × String × String × EventPayload :=
  (row.monotonicClock, row.aggregate, row.aggregateId, row.payload)

/-- The message without the id of a row. -/
def ServerMessage.anonymous : ServerMessage → ServerMessage
  | .sourceEventRegistered _ monotonicClock => .sourceEventRegistered ⟨0⟩ monotonicClock
  | msg => msg

/-- What was sent, over which channel and to whom. -/
def Delivery.content (delivery : Delivery) : ClientId × Tx × ServerMessage :=
  (delivery.1, delivery.2.1, delivery.2.2.1.anonymous)

/-- The same state up to instants and row ids, with the same broadcasts to come. -/
structure Alike (v v' : World RustLiteSourceEventRepository) : Prop where
  switchboard : v.switchboard = v'.switchboard
  handlers : v.handlers = v'.handlers
  rows : v.state.repository.table.rows.map SourceEventRow.content =
    v'.state.repository.table.rows.map SourceEventRow.content
  spawned : v.spawned.map SourceEvent.content = v'.spawned.map SourceEvent.content

namespace Routed

/-- No send that decides was refused. -/
def Works (routed : Routed) : Prop :=
  ∀ delivery ∈ routed.sent, delivery.2.2.1.decides = true → delivery.2.2.2 = true

/-- The same switchboard and the same messages. -/
def Agrees (routed routed' : Routed) : Prop :=
  routed.board = routed'.board ∧
    routed.sent.map Delivery.content = routed'.sent.map Delivery.content

/-- A refused send that decides does not work. -/
theorem not_works {board : Switchboard} {client : ClientId} {tx : Tx} {msg : ServerMessage}
    {selected : List (QueryId × ClientId)} (decides : msg.decides = true) :
    ¬ Works ⟨board, [(client, tx, msg, false)], selected⟩ := by
  intro works
  cases works _ (List.mem_singleton_self _) decides

end Routed

namespace Switchboard

variable {board : Switchboard} {outcomes outcomes' : Outcomes}

theorem register_agrees {msg : RegisterClientMessage} :
    (board.register msg outcomes).Works → (board.register msg outcomes').Works →
      (board.register msg outcomes).Agrees (board.register msg outcomes') := by
  unfold register
  cases board.channels msg.clientId with
  | some tx => exact fun _ _ => ⟨rfl, rfl⟩
  | none =>
    cases outcomes.sent 0 with
    | error err => exact fun works => absurd works (Routed.not_works rfl)
    | ok _ =>
      cases outcomes'.sent 0 with
      | error err => exact fun _ works' => absurd works' (Routed.not_works rfl)
      | ok _ => exact fun _ _ => ⟨rfl, rfl⟩

theorem settle_agrees {answer : Answer} :
    (board.settle answer outcomes).Works → (board.settle answer outcomes').Works →
      (board.settle answer outcomes).Agrees (board.settle answer outcomes') := by
  have decides (request : OngoingQueryRequest) :
      (answer.serverMessage request).decides = true := by
    cases answer <;> rfl
  unfold settle
  cases board.ongoing answer.requestId with
  | none => exact fun _ _ => ⟨rfl, rfl⟩
  | some request =>
    dsimp only
    cases board.channels request.requester with
    | none => exact fun _ _ => ⟨rfl, rfl⟩
    | some tx =>
      cases outcomes.sent 0 with
      | error err => exact fun works => absurd works (Routed.not_works (decides request))
      | ok _ =>
        cases outcomes'.sent 0 with
        | error err => exact fun _ works' => absurd works' (Routed.not_works (decides request))
        | ok _ => exact fun _ _ => ⟨rfl, rfl⟩

end Switchboard

omit [Repository R] in
/-- What a handling that did not fail sent works. -/
theorem works_of_not_failed {events : History} {board : Switchboard}
    {selected : List (QueryId × ClientId)} (succeeded : ¬ Failed events) :
    Routed.Works ⟨board, deliveries events, selected⟩ := by
  intro delivery mem decides
  induction events with
  | nil => cases mem
  | cons ev events ih =>
    have rest : ¬ Failed events := fun failed => succeeded (by
      rw [Failed, List.any_cons, failed, Bool.or_true])
    obtain ⟨op, r⟩ := ev
    cases op with
    | send client tx msg =>
      rcases List.mem_cons.mp mem with rfl | before
      · cases r with
        | ok _ => rfl
        | error err =>
          refine absurd ?_ succeeded
          rw [Failed, List.any_cons, show fails ⟨.send client tx msg, .error err⟩ = true from
            decides, Bool.true_or]
      · exact ih rest before
    | _ => exact ih rest mem

/-- The handler table that handling a message without a failure leaves. -/
def World.tableAfter (w : World R) : ClientMessage → HashMap QueryId (List ClientId)
  | .registerClient msg => (w.state.txOf msg.clientId).elim
      (QueryHandler.pushHandlers msg.clientId w.handlers msg.queryHandlers) fun _ => w.handlers
  | .disconnectClient clientId =>
    w.handlers.filterMap fun _ clients => QueryHandler.retainOthers clientId clients
  | _ => w.handlers

theorem handleRegisterClientMessage_table {msg : RegisterClientMessage} :
    (handleRegisterClientMessage msg).Ensures exec
      (fun _ w' h' => ¬ Failed h' → w'.handlers = w.tableAfter (.registerClient msg)) w
      (begun (.registerClient msg) []) := by
  intro env found w₁ looked
  obtain ⟨hfound, rfl⟩ := exec_getClientById looked
  have channel : w₁.state.txOf msg.clientId = found.map ClientInfo.tx :=
    (congrArg (Option.map ClientInfo.tx) hfound).symm
  cases found with
  | some info =>
    intro env sent w₂ performed _
    have same : w₂.handlers = w₁.handlers := handlers_exec performed
    rw [same, World.tableAfter, channel]
    rfl
  | none =>
    intro env sent w₂ performed
    have same : w₂.handlers = w₁.handlers := handlers_exec performed
    cases sent with
    | error err => exact fun succeeded => absurd rfl succeeded
    | ok _ =>
      intro env _ w₃ inserted env _ w₄ added _
      have kept : w₃.handlers = w₂.handlers := handlers_exec inserted
      have pushed : w₄.handlers = QueryHandler.pushHandlers _ _ _ := handlers_exec added
      rw [pushed, kept, same, World.tableAfter, channel]
      rfl

/-- **The handler table** after a message whose handling did not fail. -/
theorem handlers_of_alone {msg : ClientMessage} {events : History}
    (run : Alone exec (handleMessage msg) w [] () w' events) (succeeded : ¬ Failed events) :
    w'.handlers = w.tableAfter msg := by
  cases msg with
  | registerClient msg =>
    cases run with
    | act refreshed rest =>
      cases refreshed
      exact handleRegisterClientMessage_table.elim rest succeeded
  | disconnectClient clientId =>
    have disconnects : (handleMessage (.disconnectClient clientId)).Ensures exec
        (fun _ w' _ => w'.handlers = w.tableAfter (.disconnectClient clientId)) w [] := by
      intro env _ w₁ refreshed env _ w₂ removed env _ w₃ disconnected
      have same : w₁.handlers = w.handlers := handlers_exec refreshed
      have kept : w₂.handlers = w₁.handlers := handlers_exec removed
      have filtered : w₃.handlers = w₂.handlers.filterMap _ := handlers_exec disconnected
      show w₃.handlers = _
      rw [filtered, kept, same]
      rfl
    exact disconnects.elim run
  | _ => exact ((framed_of_alone run).registry rfl).2

/-- Only a source event is handed to a broadcast. -/
theorem spawned_of_alone {msg : ClientMessage} {events : History}
    (run : Alone exec (handleMessage msg) w [] () w' events)
    (other : ∀ m, msg ≠ .registerSourceEvent m) : w'.spawned = w.spawned := by
  apply kept_of_alone run _ rfl
  intro op env r w₁ w₂ h performs performed same
  rw [spawned_exec performed, same]
  cases op with
  | spawnBroadcast event =>
    obtain ⟨m, about⟩ := performs
    exact absurd about (other m)
  | _ => exact List.append_nil _

section RustLite

open RustLiteSourceEventRepository (saveSourceEvent_cases)

variable {w w' v v' : World RustLiteSourceEventRepository} {msg : ClientMessage}
  {events again first : History}

/-- A save that fails changes nothing. -/
theorem exec_unsaved {env : Env RustLiteSourceEventRepository} {msg : RegisterSourceEventMessage}
    {err : SourceEventRepositoryError}
    (h : exec (.saveSourceEvent msg) env w = some (.error err, w')) : w' = w := by
  obtain ⟨failed, left⟩ := Prod.mk.inj (Option.some.inj h)
  rw [← left]
  rcases saveSourceEvent_cases (msg.toNewSourceEvent, env.saving) w.state.repository with
    ⟨err', unsaved⟩ | ⟨event, row, table, saved, -⟩
  · show { w with state := { w.state with
      repository := (RustLiteSourceEventRepository.saveSourceEvent _ _ _).2 } } = w
    rw [unsaved]
  · cases (congrArg Prod.fst saved).symm.trans failed

theorem handleRegisterSourceEventMessage_atomic {msg : RegisterSourceEventMessage} :
    (handleRegisterSourceEventMessage msg).Ensures exec (fun _ w' h' => Failed h' → w' = w) w
      (begun (.registerSourceEvent msg) []) := by
  intro env saved w₁ saving
  cases saved with
  | error err => exact fun _ => exec_unsaved saving
  | ok event =>
    intro env source w₂ looked
    cases source with
    | none =>
      intro failed
      cases failed
    | some info =>
      intro env sent w₃ performed env _ w₄ spawned failed
      cases sent <;> cases failed

/-- **A message whose handling fails**, if it is no query request, does nothing but refresh its
source's `last_seen`. -/
theorem refreshed_of_failed (other : ∀ m, msg ≠ .queryRequest m)
    (run : Alone exec (handleMessage msg) w [] () w' events) (failed : Failed events) :
    ∃ (env : Env RustLiteSourceEventRepository) (u : Unit),
      exec (.updateLastSeen msg) env w = some (u, w') := by
  cases run with
  | @act _ _ env u _ _ w₁ _ _ _ refreshed rest =>
    refine ⟨env, u, ?_⟩
    have same : w' = w₁ := by
      cases msg with
      | registerClient msg => exact handleRegisterClientMessage_atomic.elim rest failed
      | queryRequest msg => exact absurd rfl (other msg)
      | queryResponse msg => exact (settle_atomic _).elim rest failed
      | queryHandlingFailed msg => exact (settle_atomic _).elim rest failed
      | registerSourceEvent msg => exact handleRegisterSourceEventMessage_atomic.elim rest failed
      | heartbeat clientId =>
        cases rest
        cases failed
      | disconnectClient clientId =>
        cases rest with
        | act removed rest =>
          cases rest with
          | act disconnected rest =>
            cases rest
            cases failed
    rw [same]
    exact refreshed

/-- **A handling that fails leaves the state untouched.** -/
theorem untouched_of_failed (run : Alone exec (handleMessage msg) w [] () w' events)
    (failed : Failed events) : Untouched msg w w' := by
  have framed := framed_of_alone run
  by_cases asks : ∃ m, msg = .queryRequest m
  · obtain ⟨m, rfl⟩ := asks
    obtain ⟨clients, handlers⟩ := framed.registry rfl
    refine ⟨clients, handlers, ?_, fun other => absurd rfl (other m)⟩
    cases run with
    | act refreshed rest =>
      have same := requests_exec refreshed
      exact (handleQueryRequestMessage_atomic.elim rest failed).trans same
  · have other (m : QueryRequestMessage) : msg ≠ .queryRequest m := fun is => asks ⟨m, is⟩
    obtain ⟨env, u, refreshed⟩ := refreshed_of_failed other run failed
    refine ⟨?_, handlers_exec refreshed, requests_exec refreshed, framed.cursor⟩
    have clients : w'.clients = clientsAfter env w.clients (.updateLastSeen msg) :=
      clients_exec refreshed
    rw [clients, clientsAfter]
    cases msg.getSource with
    | none => exact .refl
    | some source => exact SeenOnly.refl.touch env.now

/-! ### Two handlings that do not fail -/

/-- What publishing an event comes to: its row is appended, and if its source is connected, it is
acknowledged over the source's channel and handed to a broadcast. -/
structure Published (msg : RegisterSourceEventMessage) (event : SourceEvent)
    (row : SourceEventRow) (w w' : World RustLiteSourceEventRepository) (h : History) : Prop where
  rows : w'.state.repository.table.rows = w.state.repository.table.rows ++ [row]
  isRow : event.IsRow row
  saves : event.Saves msg.toNewSourceEvent
  clock : event.monotonicClock = w.state.repository.table.maxClock + 1
  spawned : w'.spawned = w.spawned ++ (w.state.txOf msg.source).elim [] fun _ => [event]
  sent : (deliveries h).map Delivery.content = (w.state.txOf msg.source).elim []
    fun tx => [(msg.source, tx, .sourceEventRegistered ⟨0⟩ event.monotonicClock)]

theorem handleRegisterSourceEventMessage_published {msg : RegisterSourceEventMessage} :
    (handleRegisterSourceEventMessage msg).Ensures exec
      (fun _ w' h' => ¬ Failed h' → ∃ event row, Published msg event row w w' h') w
      (begun (.registerSourceEvent msg) []) := by
  intro env saved w₁ saving
  obtain ⟨answer, left⟩ := Prod.mk.inj (Option.some.inj saving)
  rcases saveSourceEvent_cases (msg.toNewSourceEvent, env.saving) w.state.repository with
    ⟨err, unsaved⟩ | ⟨event, row, table, stored, rows, isRow, saves, -, clock⟩
  · have failed : saved = .error err := answer.symm.trans (congrArg Prod.fst unsaved)
    subst failed
    exact fun succeeded => absurd rfl succeeded
  · have success : saved = .ok event := answer.symm.trans (congrArg Prod.fst stored)
    subst success
    have repository : w₁.state.repository = ⟨table⟩ := by
      rw [← left]
      exact congrArg Prod.snd stored
    have queue : w₁.spawned = w.spawned := by rw [← left]
    intro env source w₂ looked
    obtain ⟨hsource, rfl⟩ := exec_getClientById looked
    have channel : w.state.txOf msg.source = source.map ClientInfo.tx := by
      rw [hsource, ← left]
      rfl
    cases source with
    | none =>
      refine fun _ => ⟨event, row, ?_, isRow, saves, clock, ?_, ?_⟩
      · rw [repository, rows]
      · rw [channel, queue]
        exact (List.append_nil _).symm
      · rw [channel]
        rfl
    | some info =>
      intro env sent w₃ performed env _ w₄ spawned _
      have told := repository_exec performed nofun
      have kept := repository_exec spawned nofun
      have after_told := spawned_exec performed
      have after := spawned_exec spawned
      refine ⟨event, row, ?_, isRow, saves, clock, ?_, ?_⟩
      · show w₄.state.repository.table.rows = _
        rw [kept, told, repository, rows]
      · show w₄.spawned = _
        rw [after, after_told, queue, channel]
        exact congrArg (· ++ [event]) (List.append_nil _)
      · rw [channel]
        rfl

/-- The refresh before it does not matter. -/
theorem Published.of_refreshed {msg : RegisterSourceEventMessage} {event : SourceEvent}
    {row : SourceEventRow} {w₁ : World RustLiteSourceEventRepository} {h : History} {u : Unit}
    {env : Env RustLiteSourceEventRepository} {handled : ClientMessage}
    (published : Published msg event row w₁ w' h)
    (refreshed : exec (.updateLastSeen handled) env w = some (u, w₁)) :
    Published msg event row w w' h := by
  have repository := repository_exec refreshed nofun
  have channel : w₁.state.txOf msg.source = w.state.txOf msg.source := txOf_exec refreshed _
  have queue : w₁.spawned = w.spawned := (spawned_exec refreshed).trans (List.append_nil _)
  obtain ⟨rows, isRow, saves, clock, spawned, sent⟩ := published
  rw [repository] at rows clock
  rw [channel] at spawned sent
  rw [queue] at spawned
  exact ⟨rows, isRow, saves, clock, spawned, sent⟩

/-- Whatever a handling saves, it saves with the same content. -/
theorem Published.alike {msg : RegisterSourceEventMessage} {event event' : SourceEvent}
    {row row' : SourceEventRow} {h h' : History} (published : Published msg event row w v h)
    (published' : Published msg event' row' w v' h') (switchboard : v.switchboard = v'.switchboard)
    (handlers : v.handlers = v'.handlers) : Alike v v' ∧
      (deliveries h).map Delivery.content = (deliveries h').map Delivery.content := by
  have clocks : event.monotonicClock = event'.monotonicClock :=
    published.clock.trans published'.clock.symm
  have aggregates : event.aggregateId = event'.aggregateId :=
    published.saves.aggregateId.trans published'.saves.aggregateId.symm
  have types : event.aggregateType = event'.aggregateType :=
    published.saves.aggregateType.trans published'.saves.aggregateType.symm
  have payloads : event.payload = event'.payload :=
    published.saves.payload.trans published'.saves.payload.symm
  have same_event : event.content = event'.content := by
    simp only [SourceEvent.content, clocks, aggregates, types, payloads]
  have same_row : row.content = row'.content := by
    simp only [SourceEventRow.content, published.isRow.monotonicClock,
      published.isRow.aggregate, published.isRow.aggregateId, published.isRow.payload,
      published'.isRow.monotonicClock, published'.isRow.aggregate, published'.isRow.aggregateId,
      published'.isRow.payload, clocks, aggregates, types, payloads]
  refine ⟨⟨switchboard, handlers, ?_, ?_⟩, ?_⟩
  · rw [published.rows, published'.rows, List.map_append, List.map_append, List.map_singleton,
      List.map_singleton, same_row]
  · rw [published.spawned, published'.spawned]
    cases w.state.txOf msg.source with
    | none => rfl
    | some tx => simp only [Option.elim_some, List.map_append, List.map_singleton, same_event]
  · rw [published.sent, published'.sent, clocks]

/-- On the switchboard, what handling a message without a failure comes to does not depend on the
outcomes otherwise, but for what a save answers. -/
theorem agrees_of_works {board : Switchboard} {outcomes outcomes' : Outcomes}
    (asks : ∀ m, msg ≠ .queryRequest m) (publishes : ∀ m, msg ≠ .registerSourceEvent m)
    (works : (board.handle msg outcomes).Works) (works' : (board.handle msg outcomes').Works) :
    (board.handle msg outcomes).Agrees (board.handle msg outcomes') := by
  cases msg with
  | registerClient msg => exact Switchboard.register_agrees works works'
  | queryRequest msg => exact absurd rfl (asks msg)
  | queryResponse msg => exact Switchboard.settle_agrees works works'
  | queryHandlingFailed msg => exact Switchboard.settle_agrees works works'
  | registerSourceEvent msg => exact absurd rfl (publishes msg)
  | heartbeat clientId => exact ⟨rfl, rfl⟩
  | disconnectClient clientId => exact ⟨rfl, rfl⟩

/-- Publishing leaves the switchboard. -/
theorem switchboard_of_publish {msg : RegisterSourceEventMessage}
    (run : Alone exec (handleMessage (.registerSourceEvent msg)) w [] () v events) :
    v.switchboard = w.switchboard := by
  obtain ⟨outcomes, turned⟩ := exists_outcomes events
  have after := congrArg Routed.board (handle_of_alone run turned)
  refine after.symm.trans ?_
  show (w.switchboard.publish msg outcomes).board = w.switchboard
  unfold Switchboard.publish
  cases outcomes.saved 0 with
  | error err => rfl
  | ok event => rfl

/-- **Two handlings of a message from the same state** that do not fail send the same and reach
the same state, up to instants and row ids. -/
theorem alike_of_works (other : ∀ m, msg ≠ .queryRequest m)
    (run : Alone exec (handleMessage msg) w [] () v again)
    (run' : Alone exec (handleMessage msg) w [] () v' first)
    (succeeded : ¬ Failed again) (succeeded' : ¬ Failed first) : Alike v v' ∧
      (deliveries again).map Delivery.content = (deliveries first).map Delivery.content := by
  have handlers : v.handlers = v'.handlers :=
    (handlers_of_alone run succeeded).trans (handlers_of_alone run' succeeded').symm
  by_cases publishes : ∃ m, msg = .registerSourceEvent m
  · obtain ⟨m, rfl⟩ := publishes
    have switchboard : v.switchboard = v'.switchboard :=
      (switchboard_of_publish run).trans (switchboard_of_publish run').symm
    cases run with
    | act refreshed rest =>
      cases run' with
      | act refreshed' rest' =>
        obtain ⟨event, row, published⟩ := handleRegisterSourceEventMessage_published.elim rest
          succeeded
        obtain ⟨event', row', published'⟩ := handleRegisterSourceEventMessage_published.elim rest'
          succeeded'
        have from_w := published.of_refreshed refreshed
        exact from_w.alike (published'.of_refreshed refreshed') switchboard handlers
  · have publishes (m : RegisterSourceEventMessage) : msg ≠ .registerSourceEvent m :=
      fun is => publishes ⟨m, is⟩
    obtain ⟨outcomes, turned⟩ := exists_outcomes again
    obtain ⟨outcomes', turned'⟩ := exists_outcomes first
    have routed := handle_of_alone run turned
    have routed' := handle_of_alone run' turned'
    obtain ⟨switchboard, sent⟩ := agrees_of_works other publishes
      (routed ▸ works_of_not_failed succeeded) (routed' ▸ works_of_not_failed succeeded')
    rw [routed, routed'] at switchboard sent
    refine ⟨⟨switchboard, handlers, ?_, ?_⟩, sent⟩
    · rw [((framed_of_alone run).repository publishes).2,
        ((framed_of_alone run').repository publishes).2]
    · rw [spawned_of_alone run publishes, spawned_of_alone run' publishes]

/-- **Failure atomicity** of a handling that took the world `w` to `w'`. -/
structure Atomic (msg : ClientMessage) (w w' : World RustLiteSourceEventRepository) : Prop where
  untouched : Untouched msg w w'
  /-- A retry does what a first attempt could have done. -/
  retry : (∀ m, msg ≠ .queryRequest m) → ∀ v again,
    Alone exec (handleMessage msg) w' [] () v again ↔
      Alone exec (handleMessage msg) w [] () v again
  /-- A retry that works comes to what a first attempt that works comes to, whenever that was. -/
  alike : (∀ m, msg ≠ .queryRequest m) → ∀ v again v' first,
    Alone exec (handleMessage msg) w' [] () v again → ¬ Failed again →
    Alone exec (handleMessage msg) w [] () v' first → ¬ Failed first →
    Alike v v' ∧
      (deliveries again).map Delivery.content = (deliveries first).map Delivery.content

/-- **Every handling that fails** is atomic. -/
theorem atomic_of_failed (run : Alone exec (handleMessage msg) w [] () w' events)
    (failed : Failed events) : Atomic msg w w' where
  untouched := untouched_of_failed run failed
  retry other v again := by
    obtain ⟨env, u, refreshed⟩ := refreshed_of_failed other run failed
    exact alone_again refreshed
  alike other v again v' first retried succeeded fresh succeeded' := by
    obtain ⟨env, u, refreshed⟩ := refreshed_of_failed other run failed
    exact alike_of_works other ((alone_again refreshed).mp retried) fresh succeeded succeeded'

section Scenario

open Scenario

/-- What a refused send meets. -/
def Scenario.refusingEnv : Env RustLiteSourceEventRepository :=
  ⟨0, 0, false, .closed, [], [], ⟨.ok (), 0, 0, .ok (), "", .ok ()⟩⟩

/-- A registration whose acknowledgement is refused is atomic. -/
theorem atomic_refusal : ∃ w' events, Failed events ∧
    (handleMessage (.registerClient ⟨alice, [usersGetAll], 0⟩)).play exec
      (List.replicate 10 refusingEnv) (.new .new) [] = some ((), w', events) ∧
    Atomic (.registerClient ⟨alice, [usersGetAll], 0⟩) (.new .new) w' := by
  have played : ((handleMessage (.registerClient ⟨alice, [usersGetAll], 0⟩)).play exec
      (List.replicate 10 refusingEnv) (.new .new) []).map (fun after => after.2.2.any fails) =
        some true := by
    decide +kernel
  obtain ⟨⟨u, w', events⟩, last, failed⟩ := Option.map_eq_some_iff.mp played
  exact ⟨w', events, failed, last, atomic_of_failed (Interleave.alone_of_play last) failed⟩

end Scenario

end RustLite

end Revent
