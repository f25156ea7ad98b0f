import Revent.Laws.Effects

/-!
# The registry in sequential runs

When one call is handled after the other, `connected_clients` and `query_handlers` are both
determined by the registrations the server accepted: `accepted` lists those of the clients that
are still connected, in order of acceptance. `Entries` says that the entries are theirs, `Lists`
that each query's list is made of their declarations, in that order and as often as declared.

Between the two updates of a registration or a disconnect the lists are one registration behind
or ahead, so the two are separate invariants; every handler restores both before it ends.
-/

namespace Revent

open Interleave (Event Prog Alone Turn Sequential)

variable {R : Type}

/-- The accepted registrations of the clients that are connected, in order of acceptance. -/
def accepted : History → List RegisterClientMessage
  | [] => []
  | ⟨.insertClient msg, _⟩ :: h => accepted h ++ [msg]
  | ⟨.removeClient clientId, _⟩ :: h => (accepted h).filter (·.clientId ≠ clientId)
  | _ :: h => accepted h

/-- What the registrations declare for a query: each client as often as it declared it. -/
def declared (registrations : List RegisterClientMessage) (query : QueryId) : List ClientId :=
  registrations.flatMap fun msg => List.replicate (msg.queryHandlers.count query) msg.clientId

/-- The entries are those of the registrations. -/
structure Entries (s : State R) (registrations : List RegisterClientMessage) : Prop where
  tx : ∀ clientId,
    s.txOf clientId = (registrations.find? (·.clientId = clientId)).map (·.tx)
  once : (registrations.map (·.clientId)).Nodup

/-- The lists are those of the registrations, and no query has an empty one. -/
structure Lists (s : State R) (registrations : List RegisterClientMessage) : Prop where
  listed : ∀ query, s.listed query = declared registrations query
  noneEmpty : QueryHandler.NoneEmpty s.queryHandlers.queryHandlers

/-! ## What the operations make of them -/

variable [Repository R] {registrations : List RegisterClientMessage} {op : Op} {env : Env R}
  {r : Ret op} {w w' : World R}

omit [Repository R] in
/-- A client without an entry has no registration. -/
theorem Entries.absent (entries : Entries w.state registrations) {clientId : ClientId}
    (absent : w.state.txOf clientId = none) : clientId ∉ registrations.map (·.clientId) := by
  have none_found := Option.map_eq_none_iff.mp ((entries.tx clientId).symm.trans absent)
  intro mem
  obtain ⟨msg, hmsg, id⟩ := List.mem_map.mp mem
  have differs := List.find?_eq_none.mp none_found msg hmsg
  exact differs (decide_eq_true id)

/-- An insertion where there is no entry appends its registration. -/
theorem Entries.insertClient {msg : RegisterClientMessage} {u : Unit}
    (entries : Entries w.state registrations) (absent : w.state.txOf msg.clientId = none)
    (performed : exec (.insertClient msg) env w = some (u, w')) :
    Entries w'.state (registrations ++ [msg]) where
  tx clientId := by
    have before := entries.tx clientId
    rw [txOf_exec performed, List.find?_append]
    show (if msg.clientId = clientId then some msg.tx else w.state.txOf clientId) = _
    by_cases mine : msg.clientId = clientId
    · subst mine
      have nobody := Option.map_eq_none_iff.mp (before.symm.trans absent)
      simp [nobody]
    · simp [mine, before]
  once := by
    rw [List.map_append]
    refine List.nodup_append.mpr ⟨entries.once, List.nodup_singleton _, ?_⟩
    intro a ha b hb heq
    rw [heq, List.mem_singleton.mp hb] at ha
    exact entries.absent absent ha

omit [Repository R] in
/-- Without a client's registrations, the others are found as before. -/
theorem find?_without (removed clientId : ClientId) :
    (registrations.filter (·.clientId ≠ removed)).find? (·.clientId = clientId) =
      if removed = clientId then none else registrations.find? (·.clientId = clientId) := by
  rw [List.find?_filter]
  split
  · simp_all
  · rename_i other
    refine congrArg (List.find? · registrations) (funext fun msg => ?_)
    by_cases id : msg.clientId = clientId
    · simp [id, Ne.symm other]
    · simp [id]

/-- A removal drops the client's registration. -/
theorem Entries.removeClient {removed : ClientId} {u : Unit}
    (entries : Entries w.state registrations)
    (performed : exec (.removeClient removed) env w = some (u, w')) :
    Entries w'.state (registrations.filter (·.clientId ≠ removed)) where
  tx clientId := by
    rw [txOf_exec performed, find?_without]
    show (if removed = clientId then none else w.state.txOf clientId) = _
    rw [entries.tx clientId, apply_ite (Option.map _)]
    rfl
  once := (List.filter_sublist.map _).nodup entries.once

/-- Adding a registration's handlers brings the lists up to it. -/
theorem Lists.addClientQueryHandler {msg : RegisterClientMessage} {u : Unit}
    (lists : Lists w.state registrations)
    (performed : exec (.addClientQueryHandler msg) env w = some (u, w')) :
    Lists w'.state (registrations ++ [msg]) where
  listed query := by
    rw [listed_exec performed]
    show w.state.listed query ++ _ = _
    rw [lists.listed query]
    simp [declared]
  noneEmpty := by
    have table : w'.handlers = _ := handlers_exec performed
    show QueryHandler.NoneEmpty w'.handlers
    rw [table]
    exact QueryHandler.noneEmpty_pushHandlers lists.noneEmpty

/-- A disconnect takes the client's declarations out of the lists. -/
theorem Lists.disconnectClient {removed : ClientId} {u : Unit}
    (lists : Lists w.state registrations)
    (performed : exec (.disconnectClient removed) env w = some (u, w')) :
    Lists w'.state (registrations.filter (·.clientId ≠ removed)) where
  listed query := by
    rw [listed_exec performed]
    show (w.state.listed query).filter _ = _
    rw [lists.listed query]
    clear lists performed
    unfold declared
    induction registrations with
    | nil => rfl
    | cons msg registrations ih =>
      rw [List.flatMap_cons, List.filter_append, ih, List.filter_cons]
      by_cases mine : msg.clientId = removed
      · simp [mine]
      · simp [mine]
  noneEmpty := by
    have table : w'.handlers = _ := handlers_exec performed
    show QueryHandler.NoneEmpty w'.handlers
    rw [table]
    exact QueryHandler.noneEmpty_retainOthers

omit [Repository R] in
theorem Entries.congr (entries : Entries w.state registrations)
    (same : ∀ clientId, w'.state.txOf clientId = w.state.txOf clientId) :
    Entries w'.state registrations :=
  ⟨fun clientId => (same clientId).trans (entries.tx clientId), entries.once⟩

omit [Repository R] in
theorem Lists.congr (lists : Lists w.state registrations) (same : w'.handlers = w.handlers) :
    Lists w'.state registrations where
  listed query := by
    rw [← lists.listed query]
    exact congrArg (fun handlers => handlers[query]?.getD []) same
  noneEmpty := by
    show QueryHandler.NoneEmpty w'.handlers
    rw [same]
    exact lists.noneEmpty

/-! ## The invariant of a call -/

/-- The operations that update the registry. -/
def updatesRegistry : Op → Bool
  | .insertClient _ | .addClientQueryHandler _ | .removeClient _ | .disconnectClient _ => true
  | _ => false

/-- The selection found no listed client, or one that is not connected. -/
def selectionFailed : Event Op Ret → Bool
  | ⟨.getClientIdForQueryId _, .error .responderNotFound⟩ => true
  | ⟨.getClientById (.responder _ _), none⟩ => true
  | _ => false

/-- The registry is in step with the registrations of the past and of the call so far, and no
selection of the call failed. -/
structure InRegistry (past : History) (w : World R) (h : History) : Prop where
  entries : Entries w.state (accepted (h ++ past))
  lists : Lists w.state (accepted (h ++ past))
  selections : ∀ ev ∈ h, selectionFailed ev = false

variable {past h : History} {u : Unit}

omit [Repository R] in
/-- A listed client is connected. -/
theorem InRegistry.connected (inv : InRegistry past w h) (query : QueryId) {clientId : ClientId}
    (listed : clientId ∈ w.state.listed query) :
    ∃ info, w.state.connectedClients[clientId]? = some info := by
  rw [inv.lists.listed query] at listed
  obtain ⟨msg, hmsg, mem⟩ := List.mem_flatMap.mp listed
  have id : clientId = msg.clientId := List.eq_of_mem_replicate mem
  refine Option.isSome_iff_exists.mp (Option.isSome_iff_ne_none.mpr fun absent => ?_)
  have no_registration := inv.entries.absent (State.txOf_eq_none.mpr absent)
  exact no_registration (List.mem_map.mpr ⟨msg, hmsg, id.symm⟩)

/-- An operation that does not update the registry leaves the channels and the lists. -/
theorem exec_registry (keeps : updatesRegistry op = false)
    (performed : exec op env w = some (r, w')) :
    (∀ clientId, w'.state.txOf clientId = w.state.txOf clientId) ∧ w'.handlers = w.handlers := by
  have channels := txOf_exec performed
  have table := handlers_exec performed
  cases op with
  | insertClient | addClientQueryHandler | removeClient | disconnectClient => cases keeps
  | _ => exact ⟨channels, table⟩

/-- An operation that does not update the registry keeps the invariant, if it is no failed
selection. -/
theorem InRegistry.keep (inv : InRegistry past w h) (keeps : updatesRegistry op = false)
    (selected : selectionFailed ⟨op, r⟩ = false) (performed : exec op env w = some (r, w')) :
    InRegistry past w' (⟨op, r⟩ :: h) := by
  obtain ⟨channels, table⟩ := exec_registry keeps performed
  have same : accepted (⟨op, r⟩ :: h ++ past) = accepted (h ++ past) := by
    cases op with
    | insertClient | removeClient => cases keeps
    | _ => rfl
  refine ⟨?_, ?_, List.forall_mem_cons.mpr ⟨selected, inv.selections⟩⟩
  · rw [same]
    exact inv.entries.congr channels
  · rw [same]
    exact inv.lists.congr table

/-- **A selection** finds that nobody is listed, or chooses a client that is connected. -/
theorem InRegistry.select {msg : QueryRequestMessage}
    {selected : Except QueryRequestHandlerError ClientId} (inv : InRegistry past w h)
    (selection : exec (.getClientIdForQueryId msg) env w = some (selected, w')) :
    InRegistry past w' (⟨.getClientIdForQueryId msg, selected⟩ :: h) ∧
      (selected = .error .queryHandlerNotFound ∨ ∃ clientId info, selected = .ok clientId ∧
        w'.state.connectedClients[clientId]? = some info) := by
  have chosen : selected = (w.state.queryHandlers.getClientIdForQueryId msg.queryId).1 := by
    cases selection
    rfl
  rcases w.state.queryHandlers.getClientIdForQueryId_fst msg.queryId with
    nobody | ⟨clientId, listed, choice⟩
  · rw [nobody] at chosen
    subst chosen
    exact ⟨inv.keep rfl rfl selection, .inl rfl⟩
  · rw [choice] at chosen
    subst chosen
    have inv := inv.keep rfl rfl selection
    have listed : clientId ∈ w'.state.listed msg.queryId := by
      rw [listed_exec selection]
      exact listed
    obtain ⟨info, connected⟩ := inv.connected msg.queryId listed
    exact ⟨inv, .inr ⟨clientId, info, rfl, connected⟩⟩

/-! ## The handlers -/

theorem handleRegisterClientMessage_inRegistry {msg : RegisterClientMessage}
    (inv : InRegistry past w h) :
    (handleRegisterClientMessage msg).Ensures exec (fun _ => InRegistry past) w h := by
  intro env found w₁ looked
  have inv := inv.keep rfl rfl looked
  obtain ⟨hfound, rfl⟩ := exec_getClientById looked
  cases found with
  | some info =>
    intro env sent w₂ performed
    exact inv.keep rfl rfl performed
  | none =>
    intro env sent w₂ acknowledged
    have inv := inv.keep rfl rfl acknowledged
    have same := exec_send acknowledged
    cases sent with
    | error err => exact inv
    | ok _ =>
      have absent : w₂.state.txOf msg.clientId = none := by
        rw [same]
        exact State.txOf_eq_none.mpr hfound.symm
      intro env _ w₃ inserted env _ w₄ added
      -- the lists lag behind the entries until the second update
      have entries := inv.entries.insertClient absent inserted
      have lists := inv.lists.congr (handlers_exec inserted)
      refine ⟨entries.congr (txOf_exec added), lists.addClientQueryHandler added, ?_⟩
      exact List.forall_mem_cons.mpr ⟨rfl, List.forall_mem_cons.mpr ⟨rfl, inv.selections⟩⟩

theorem handleDisconnectedClientMessage_inRegistry {clientId : ClientId}
    (inv : InRegistry past w h) :
    (handleDisconnectedClientMessage clientId).Ensures exec (fun _ => InRegistry past) w h := by
  intro env _ w₁ removed env _ w₂ disconnected
  have entries := inv.entries.removeClient removed
  have lists := inv.lists.congr (handlers_exec removed)
  refine ⟨entries.congr (txOf_exec disconnected), lists.disconnectClient disconnected, ?_⟩
  exact List.forall_mem_cons.mpr ⟨rfl, List.forall_mem_cons.mpr ⟨rfl, inv.selections⟩⟩

/-- An operation that keeps the registry and selects nobody, whatever it answers. -/
def Aside (op : Op) : Prop := updatesRegistry op = false ∧ ∀ r, selectionFailed ⟨op, r⟩ = false

/-- A program of such operations keeps the invariant. -/
theorem InRegistry.aside {α : Type} {p : Async α} {h₀ : History}
    (aside : p.Flows (fun _ => Aside) (fun _ _ => True) h₀) (inv : InRegistry past w h) :
    p.Ensures exec (fun _ => InRegistry past) w h :=
  aside.ensures (fun ⟨keeps, selects⟩ performed inv => inv.keep keeps (selects _) performed) inv

theorem tellRequester_aside {msg : QueryRequestMessage} {requester : Option ClientInfo}
    {serverMessage : ServerMessage} :
    (tellRequester msg requester serverMessage).Flows (fun _ => Aside) (fun _ _ => True) h := by
  cases requester with
  | none => trivial
  | some info => exact ⟨⟨rfl, fun _ => rfl⟩, fun _ => trivial⟩

theorem settle_aside {answer : Answer} :
    (settle answer).Flows (fun _ => Aside) (fun _ _ => True) h := by
  refine ⟨⟨rfl, fun _ => rfl⟩, fun request => ?_⟩
  cases request with
  | none => trivial
  | some request =>
    refine ⟨⟨rfl, fun _ => rfl⟩, fun requester => ?_⟩
    cases requester with
    | none => trivial
    | some info =>
      refine ⟨⟨rfl, fun _ => rfl⟩, fun sent => ?_⟩
      cases sent with
      | error err => trivial
      | ok _ => exact ⟨⟨rfl, fun _ => rfl⟩, fun _ => trivial⟩

theorem expire_aside {request : OngoingQueryRequest} :
    (expire request).Flows (fun _ => Aside) (fun _ _ => True) h := by
  refine ⟨⟨rfl, fun _ => rfl⟩, fun requester => ?_⟩
  cases requester with
  | none => exact ⟨⟨rfl, fun _ => rfl⟩, fun _ => trivial⟩
  | some info => exact ⟨⟨rfl, fun _ => rfl⟩, fun _ => ⟨⟨rfl, fun _ => rfl⟩, fun _ => trivial⟩⟩

/-- The operations of source events and their broadcasts, which touch no other part. -/
def ofSourceEvents : Op → Bool
  | .saveSourceEvent _ | .getClientById (.source _ _) | .spawnBroadcast _ => true
  | .send _ _ (.sourceEventRegistered _ _) | .send _ _ (.sourceEvent _) => true
  | .readClients _ | .dropClients _ => true
  | _ => false

theorem handleRegisterSourceEventMessage_ofSourceEvents (msg : RegisterSourceEventMessage) :
    (handleRegisterSourceEventMessage msg).Flows (fun _ op => ofSourceEvents op = true)
      (fun _ _ => True) h := by
  refine ⟨rfl, fun saved => ?_⟩
  cases saved with
  | error err => trivial
  | ok event =>
    refine ⟨rfl, fun source => ?_⟩
    cases source with
    | none => trivial
    | some info => exact ⟨rfl, fun _ => ⟨rfl, fun _ => trivial⟩⟩

theorem broadcast_ofSourceEvents (event : SourceEvent) :
    (broadcast event).Flows (fun _ op => ofSourceEvents op = true) (fun _ _ => True) h := by
  refine ⟨rfl, fun clients => ?_⟩
  have sends (entry : ClientId × ClientInfo) (h : History) :
      (doing (.send entry.1 entry.2.tx (.sourceEvent event))).Flows
        (fun _ op => ofSourceEvents op = true) (fun _ _ => True) h := ⟨rfl, fun _ => trivial⟩
  refine (Interleave.flows_forM sends clients).bind fun _ _ _ => ?_
  exact ⟨rfl, fun _ => trivial⟩

theorem aside_ofSourceEvents (events : ofSourceEvents op = true) : Aside op := by
  unfold ofSourceEvents at events
  split at events
  all_goals first | exact ⟨rfl, fun _ => rfl⟩ | cases events

/-- A request is forwarded to a connected client. -/
theorem handleQueryRequestMessage_inRegistry {msg : QueryRequestMessage}
    (inv : InRegistry past w h) :
    (handleQueryRequestMessage msg).Ensures exec (fun _ => InRegistry past) w h := by
  intro env requester w₁ looked
  have inv := inv.keep rfl rfl looked
  intro env current w₂ read
  have inv := inv.keep rfl rfl read
  cases current with
  | some current =>
    show Prog.Ensures exec _ (if current.isSame msg then _ else tellRequester msg requester _) _ _
    split
    · exact inv
    · exact inv.aside (tellRequester_aside (h := []))
  | none =>
    intro env selected w₃ selection
    obtain ⟨inv, rfl | ⟨clientId, info, rfl, connected⟩⟩ := inv.select selection
    · exact inv.aside (tellRequester_aside (h := []))
    · intro env responder w₄ found
      have is_connected : responder = some info :=
        (exec_getClientById found).1.trans connected
      subst is_connected
      have inv := inv.keep rfl rfl found
      intro env sent w₅ performed
      have inv := inv.keep rfl rfl performed
      cases sent with
      | error err => exact inv.aside (tellRequester_aside (h := []))
      | ok _ =>
        intro env now w₆ stamped
        have inv := inv.keep rfl rfl stamped
        intro env _ w₇ recorded
        exact inv.keep rfl rfl recorded

/-- **Every message** leaves the registry in step. -/
theorem handleMessage_inRegistry {msg : ClientMessage} (inv : InRegistry past w h) :
    (handleMessage msg).Ensures exec (fun _ => InRegistry past) w h := by
  intro env _ w₁ refreshed
  have inv := inv.keep rfl rfl refreshed
  cases msg with
  | registerClient msg => exact handleRegisterClientMessage_inRegistry inv
  | queryRequest msg => exact handleQueryRequestMessage_inRegistry inv
  | queryResponse msg | queryHandlingFailed msg => exact inv.aside (settle_aside (h := []))
  | registerSourceEvent msg =>
    have events := handleRegisterSourceEventMessage_ofSourceEvents msg (h := [])
    exact inv.aside (events.mono_site fun _ _ => aside_ofSourceEvents)
  | heartbeat clientId => exact inv
  | disconnectClient clientId => exact handleDisconnectedClientMessage_inRegistry inv

theorem heartbeat_inRegistry (clientId : ClientId) (tx : Tx) (inv : InRegistry past w h) :
    (heartbeat clientId tx).Ensures exec (fun _ => InRegistry past) w h := by
  intro env sent w₁ performed
  have inv := inv.keep rfl rfl performed
  cases sent with
  | ok _ => exact handleMessage_inRegistry inv
  | error err => exact handleMessage_inRegistry inv

theorem timerTick_inRegistry {timing : Timing} (inv : InRegistry past w h) :
    (timerTick timing).Ensures exec (fun _ => InRegistry past) w h := by
  intro env txs w₁ snapshot
  have inv := inv.keep rfl rfl snapshot
  have visited := Interleave.ensures_forM (fun _ => InRegistry past)
    (fun entry _ _ _ inv => heartbeat_inRegistry entry.1 entry.2 inv) txs inv
  refine visited.bind fun _ w₂ h₂ inv => ?_
  intro env expired w₃ reading
  have inv := inv.keep rfl rfl reading
  exact Interleave.ensures_forM (fun _ => InRegistry past)
    (fun request _ _ _ inv => inv.aside (expire_aside (h := []))) expired inv

/-- **Every call** leaves the registry in step. -/
theorem call_inRegistry {timing : Timing} (call : Call) (inv : InRegistry past w h) :
    (call.prog timing).Ensures exec (fun _ => InRegistry past) w h := by
  cases call with
  | message msg => exact handleMessage_inRegistry inv
  | tick => exact timerTick_inRegistry inv
  | broadcast event =>
    have events := broadcast_ofSourceEvents event (h := [])
    exact inv.aside (events.mono_site fun _ _ => aside_ofSourceEvents)

/-! ## The law -/

omit [Repository R] in
/-- The events of a run, newest first. -/
def history (turns : List (ServerTurn R)) : History := turns.flatMap (·.events)

variable {timing : Timing} {repository : R} {turns : List (ServerTurn R)}

/-- The registry is in step at every boundary of a sequential run. -/
theorem inRegistry (run : SequentialRun timing repository turns w) :
    InRegistry (history turns) w [] ∧ ∀ ev ∈ history turns, selectionFailed ev = false := by
  induction run with
  | start =>
    have none_listed : ∀ query, (World.new repository).state.listed query = [] := fun _ => rfl
    have nothing : ∀ ev ∈ ([] : History), selectionFailed ev = false :=
      fun _ hev => absurd hev List.not_mem_nil
    exact ⟨⟨⟨fun _ => rfl, List.nodup_nil⟩, ⟨none_listed, nofun⟩, nothing⟩, nothing⟩
  | @turn turns call w w' events earlier run ih =>
    obtain ⟨inv, selections⟩ := ih
    have after := (call_inRegistry call inv).elim run
    refine ⟨⟨after.entries, after.lists, fun _ hev => absurd hev List.not_mem_nil⟩,
      fun ev hev => ?_⟩
    rcases List.mem_append.mp hev with hev | hev
    · exact after.selections ev hev
    · exact selections ev hev

/-- What the accepted registrations of a run make of the registry. -/
structure Characterised (w : World R) (events : History) : Prop where
  /-- Each connected client has one registration among them, which created its entry. -/
  entries : Entries w.state (accepted events)
  /-- A query's list is what they declare, and a query they do not declare has no entry. -/
  lists : ∀ query, w.handlers[query]? =
    if declared (accepted events) query = [] then none else some (declared (accepted events) query)
  /-- The queries found for a client are those its registration declares, each once. -/
  queries : ∀ order clientId queries,
    w.state.queryHandlers.getQueryHandlersForClientId order clientId = some queries →
    queries.Nodup ∧ ∀ query, query ∈ queries ↔
      ∃ msg ∈ accepted events, msg.clientId = clientId ∧ query ∈ msg.queryHandlers
  /-- A responder that is selected is connected. -/
  responders : ∀ query clientId,
    (w.state.queryHandlers.getClientIdForQueryId query).1 = .ok clientId →
    ∃ info, w.clients[clientId]? = some info
  /-- No selection failed. -/
  selections : ∀ ev ∈ events, selectionFailed ev = false

theorem mem_declared {query : QueryId} {clientId : ClientId} :
    clientId ∈ declared registrations query ↔
      ∃ msg ∈ registrations, msg.clientId = clientId ∧ query ∈ msg.queryHandlers := by
  simp only [declared, List.mem_flatMap, List.mem_replicate, ne_eq, List.count_eq_zero, not_not]
  constructor
  · rintro ⟨msg, hmsg, mem, rfl⟩
    exact ⟨msg, hmsg, rfl, mem⟩
  · rintro ⟨msg, hmsg, rfl, mem⟩
    exact ⟨msg, hmsg, mem, rfl⟩

/-- **The registry in sequential runs**: in every state between two calls the lists are exactly
the declarations of the accepted registrations, in order of acceptance. -/
theorem characterised_of_sequentialRun (run : SequentialRun timing repository turns w) :
    Characterised w (history turns) := by
  obtain ⟨inv, selections⟩ := inRegistry run
  have listed := inv.lists.listed
  refine ⟨inv.entries, fun query => ?_, fun order clientId queries found => ?_,
    fun query clientId choice => ?_, selections⟩
  · have table : w.handlers[query]?.getD [] = declared (accepted (history turns)) query :=
      listed query
    rw [← table]
    cases entry : w.handlers[query]? with
    | none => rfl
    | some clients =>
      have filled : clients ≠ [] := by
        rintro rfl
        exact inv.lists.noneEmpty query entry
      simp [filled]
  · refine ⟨QueryHandler.nodup_getQueryHandlersForClientId found, fun query => ?_⟩
    rw [QueryHandler.mem_getQueryHandlersForClientId found, ← mem_declared]
    exact listed query ▸ Iff.rfl
  · rcases w.state.queryHandlers.getClientIdForQueryId_fst query with
      nobody | ⟨selected, mem, chosen⟩
    · cases nobody.symm.trans choice
    · cases chosen.symm.trans choice
      exact inv.connected query mem

section Scenario

open Scenario

omit [Repository R] in
/-- Two clients register, one requests, the other responds and is disconnected. -/
theorem characterised_calls : ∃ turns w, handled [registering alice 0, registering bob 1,
    requesting alice, responding bob, .message (.disconnectClient bob)] = some (turns, w) ∧
    Characterised w (history turns) := by
  obtain ⟨⟨turns, w⟩, played⟩ := Option.isSome_iff_exists.mp (by decide :
    (handled [registering alice 0, registering bob 1, requesting alice, responding bob,
      .message (.disconnectClient bob)]).isSome)
  have run := Interleave.sequential_of_playCalls .start played
  exact ⟨turns, w, played, characterised_of_sequentialRun run⟩

end Scenario

end Revent
