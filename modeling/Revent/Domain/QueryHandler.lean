import Revent.Domain.Messages

/-!
# The query handlers

`domain/query_handlers.rs` and the round robin of `domain/mod.rs`: who handles which query, the
requests that wait for an answer, and the choice of a responder. Each function is the body of
one lock section.
-/

namespace Revent

/-! ## Round robin -/

/-- `RoundRobinStrategy`. -/
structure RoundRobinStrategy where
  lastSelected : Option ClientId
  deriving DecidableEq

/-- `RoundRobinStrategy::new`. -/
def RoundRobinStrategy.new : RoundRobinStrategy := ⟨none⟩

/-- `sorted_candidates.iter().position(..)` and the successor found from it: the first candidate
when there is no last selection among the candidates, the next one around otherwise. -/
def RoundRobinStrategy.pick (last : Option ClientId) (sorted : List ClientId) : Option ClientId :=
  match last.bind fun last => sorted.findIdx? (· == last) with
  | none => sorted[0]?
  | some pos => sorted[(pos + 1) % sorted.length]?

/-- `RoundRobinStrategy::next`. -/
def RoundRobinStrategy.next (strategy : RoundRobinStrategy) (candidates : List ClientId) :
    Option ClientId × RoundRobinStrategy :=
  if candidates.isEmpty then (none, ⟨none⟩)
  else
    let next := pick strategy.lastSelected (candidates.insertionSort (· ≤ ·))
    (next, ⟨next⟩)

/-- Among candidates there is always a next one. -/
theorem RoundRobinStrategy.next_fst (strategy : RoundRobinStrategy) (candidates : List ClientId)
    (some_candidate : candidates ≠ []) :
    ∃ clientId ∈ candidates, (strategy.next candidates).1 = some clientId := by
  have perm := candidates.perm_insertionSort (· ≤ ·)
  have picked (i : Nat) (hi : i < (candidates.insertionSort (· ≤ ·)).length) :
      ∃ clientId ∈ candidates, (candidates.insertionSort (· ≤ ·))[i]? = some clientId := by
    refine ⟨(candidates.insertionSort (· ≤ ·))[i], ?_, List.getElem?_eq_getElem hi⟩
    exact perm.mem_iff.mp (List.getElem_mem hi)
  have pos : 0 < (candidates.insertionSort (· ≤ ·)).length := by
    rw [perm.length_eq]
    exact List.length_pos_iff.mpr some_candidate
  have filled : candidates.isEmpty = false := by simpa using some_candidate
  simp only [next, filled, Bool.false_eq_true, if_false, pick]
  split
  · exact picked 0 pos
  · exact picked _ (Nat.mod_lt _ pos)

/-! ## Ongoing requests -/

/-- `OngoingQueryRequest`. -/
structure OngoingQueryRequest where
  requestId : RequestId
  queryId : QueryId
  parameters : HashMap String String
  requester : ClientId
  responder : ClientId
  createdAt : Instant

/-- `OngoingQueryRequest::from`, with the reading of the clock it takes. -/
def OngoingQueryRequest.of (responder : ClientId) (msg : QueryRequestMessage) (now : Instant) :
    OngoingQueryRequest :=
  ⟨msg.requestId, msg.queryId, msg.parameters, msg.requester, responder, now⟩

/-- `OngoingQueryRequest::is_same`. -/
def OngoingQueryRequest.isSame (request : OngoingQueryRequest) (msg : QueryRequestMessage) : Bool :=
  request.requestId == msg.requestId && request.queryId == msg.queryId &&
    request.requester == msg.requester

/-! ## The handler table -/

/-- `QueryHandler`. -/
structure QueryHandler where
  queryHandlers : HashMap QueryId (List ClientId)
  ongoingQueryRequests : HashMap RequestId OngoingQueryRequest
  clientSelectionStrategy : RoundRobinStrategy

/-- `QueryRequestHandlerError`. -/
inductive QueryRequestHandlerError where
  | queryHandlerNotFound
  | responderNotFound
  deriving DecidableEq

namespace QueryHandler

/-- `QueryHandler::new`. -/
def new : QueryHandler := ⟨∅, ∅, .new⟩

/-- The loop of `add_client_query_handler`: `entry(..).or_default().push(..)` for each query. -/
def pushHandlers (clientId : ClientId) (handlers : HashMap QueryId (List ClientId))
    (queries : List QueryId) : HashMap QueryId (List ClientId) :=
  queries.foldl (fun handlers query =>
    handlers.alter query fun clients => some (clients.getD [] ++ [clientId])) handlers

/-- `QueryHandler::add_client_query_handler`. -/
def addClientQueryHandler (handler : QueryHandler) (clientId : ClientId)
    (queries : List QueryId) : QueryHandler :=
  { handler with queryHandlers := pushHandlers clientId handler.queryHandlers queries }

/-- One entry in the `retain` of `disconnect_client`: the list without the client, dropped when
it is empty. -/
def retainOthers (clientId : ClientId) (clients : List ClientId) : Option (List ClientId) :=
  let clients := clients.filter (· ≠ clientId)
  if clients.isEmpty then none else some clients

/-- `QueryHandler::disconnect_client`. -/
def disconnectClient (handler : QueryHandler) (clientId : ClientId) : QueryHandler :=
  { handler with
    queryHandlers :=
      handler.queryHandlers.filterMap fun _ clients => retainOthers clientId clients }

/-- `QueryHandler::get_client_id_for_query_id`. -/
def getClientIdForQueryId (handler : QueryHandler) (queryId : QueryId) :
    Except QueryRequestHandlerError ClientId × QueryHandler :=
  match handler.queryHandlers[queryId]?.filter (!·.isEmpty) with
  | none => (.error .queryHandlerNotFound, handler)
  | some activeHandlers =>
    let (next, strategy) := handler.clientSelectionStrategy.next activeHandlers
    ((match next with
      | some clientId => .ok clientId
      | none => .error .responderNotFound),
      { handler with clientSelectionStrategy := strategy })

/-- `QueryHandler::get_query_handlers_for_client_id`. -/
def getQueryHandlersForClientId (handler : QueryHandler) (order : List QueryId)
    (clientId : ClientId) : Option (List QueryId) :=
  (handler.queryHandlers.iter order).map fun entries =>
    (entries.filter fun entry => entry.2.contains clientId).map Prod.fst

/-- `QueryHandler::get_ongoing_request`. -/
def getOngoingRequest (handler : QueryHandler) (requestId : RequestId) :
    Option OngoingQueryRequest :=
  handler.ongoingQueryRequests[requestId]?

/-- `QueryHandler::get_expired_requests`, at the clock's reading. -/
def getExpiredRequests (handler : QueryHandler) (order : List RequestId) (now : Instant)
    (queryResponseTimeout : Duration) : Option (List OngoingQueryRequest) :=
  (handler.ongoingQueryRequests.iter order).map fun entries =>
    (entries.filter fun entry => now - entry.2.createdAt > queryResponseTimeout).map Prod.snd

/-- `QueryHandler::handle_query_requested_event`. -/
def handleQueryRequestedEvent (handler : QueryHandler) (request : OngoingQueryRequest) :
    QueryHandler :=
  { handler with
    ongoingQueryRequests := handler.ongoingQueryRequests.insert request.requestId request }

/-- `QueryHandler::remove_ongoing_request`. -/
def removeOngoingRequest (handler : QueryHandler) (requestId : RequestId) :
    Option OngoingQueryRequest × QueryHandler :=
  (handler.ongoingQueryRequests[requestId]?,
    { handler with ongoingQueryRequests := handler.ongoingQueryRequests.erase requestId })

/-! ### The lists of handlers -/

/-- The clients listed for a query. -/
def listed (handler : QueryHandler) (queryId : QueryId) : List ClientId :=
  handler.queryHandlers[queryId]?.getD []

theorem pushHandlers_getD {clientId : ClientId} {queries : List QueryId}
    {handlers : HashMap QueryId (List ClientId)} {query : QueryId} :
    (pushHandlers clientId handlers queries)[query]?.getD [] =
      handlers[query]?.getD [] ++ List.replicate (queries.count query) clientId := by
  induction queries generalizing handlers with
  | nil => simp [pushHandlers]
  | cons q queries ih =>
    show (pushHandlers clientId (handlers.alter q _) queries)[query]?.getD [] = _
    rw [ih, HashMap.getElem?_alter, List.count_cons]
    by_cases hq : q = query
    · subst hq
      rw [if_pos rfl, beq_self_eq_true, if_pos rfl, Nat.add_comm, List.replicate_add]
      simp
    · simp [hq]

/-- Registering handlers appends the client once for each time it declared the query. -/
theorem listed_addClientQueryHandler (handler : QueryHandler) (clientId : ClientId)
    (queries : List QueryId) (query : QueryId) :
    (handler.addClientQueryHandler clientId queries).listed query =
      handler.listed query ++ List.replicate (queries.count query) clientId :=
  pushHandlers_getD

theorem retainOthers_getD (clientId : ClientId) (clients : List ClientId) :
    (retainOthers clientId clients).getD [] = clients.filter (· ≠ clientId) := by
  simp only [retainOthers]
  split
  · rename_i empty
    exact (List.isEmpty_iff.mp empty).symm
  · rfl

/-- Disconnecting a client takes it out of every list. -/
theorem listed_disconnectClient (handler : QueryHandler) (clientId : ClientId) (query : QueryId) :
    (handler.disconnectClient clientId).listed query =
      (handler.listed query).filter (· ≠ clientId) := by
  unfold listed disconnectClient
  rw [Std.ExtTreeMap.getElem?_filterMap]
  cases handler.queryHandlers[query]? with
  | none => rfl
  | some clients => exact retainOthers_getD clientId clients

/-- Selecting a responder moves the round robin only. -/
theorem getClientIdForQueryId_snd (handler : QueryHandler) (queryId : QueryId) :
    ∃ strategy, (handler.getClientIdForQueryId queryId).2 =
      { handler with clientSelectionStrategy := strategy } := by
  unfold getClientIdForQueryId
  split
  · exact ⟨handler.clientSelectionStrategy, rfl⟩
  · exact ⟨_, rfl⟩

/-- **A selection** finds that nobody is listed, or chooses a listed client. -/
theorem getClientIdForQueryId_fst (handler : QueryHandler) (queryId : QueryId) :
    (handler.getClientIdForQueryId queryId).1 = .error .queryHandlerNotFound ∨
      ∃ clientId ∈ handler.listed queryId,
        (handler.getClientIdForQueryId queryId).1 = .ok clientId := by
  unfold getClientIdForQueryId
  split
  · exact .inl rfl
  · rename_i clients active
    obtain ⟨found, filled⟩ := Option.filter_eq_some_iff.mp active
    have listed : handler.listed queryId = clients := by
      rw [QueryHandler.listed, found, Option.getD_some]
    obtain ⟨clientId, mem, next⟩ :=
      handler.clientSelectionStrategy.next_fst clients (by simpa using filled)
    refine .inr ⟨clientId, listed ▸ mem, ?_⟩
    simp only [next]

/-- The queries found for a client are those it is listed for. -/
theorem mem_getQueryHandlersForClientId {handler : QueryHandler} {order queries : List QueryId}
    {clientId : ClientId}
    (h : handler.getQueryHandlersForClientId order clientId = some queries) (query : QueryId) :
    query ∈ queries ↔ clientId ∈ handler.listed query := by
  obtain ⟨entries, hiter, rfl⟩ := Option.map_eq_some_iff.mp h
  rw [List.mem_map, listed]
  constructor
  · rintro ⟨entry, hentry, rfl⟩
    obtain ⟨mem, contains⟩ := List.mem_filter.mp hentry
    rw [(HashMap.mem_iter hiter).mp mem]
    simpa using contains
  · intro mem
    cases found : handler.queryHandlers[query]? with
    | none => rw [found] at mem; cases mem
    | some clients =>
      rw [found, Option.getD_some] at mem
      refine ⟨(query, clients), List.mem_filter.mpr ⟨(HashMap.mem_iter hiter).mpr found, ?_⟩, rfl⟩
      simpa using mem

/-- No query is found twice for a client. -/
theorem nodup_getQueryHandlersForClientId {handler : QueryHandler} {order queries : List QueryId}
    {clientId : ClientId}
    (h : handler.getQueryHandlersForClientId order clientId = some queries) : queries.Nodup := by
  obtain ⟨entries, hiter, rfl⟩ := Option.map_eq_some_iff.mp h
  exact (List.filter_sublist.map Prod.fst).nodup (HashMap.iter_keys_nodup hiter)

/-- No table entry is left empty. -/
def NoneEmpty (handlers : HashMap QueryId (List ClientId)) : Prop :=
  ∀ query : QueryId, handlers[query]? ≠ some []

theorem noneEmpty_pushHandlers {clientId : ClientId} {queries : List QueryId}
    {handlers : HashMap QueryId (List ClientId)} (noneEmpty : NoneEmpty handlers) :
    NoneEmpty (pushHandlers clientId handlers queries) := by
  induction queries generalizing handlers with
  | nil => exact noneEmpty
  | cons q queries ih =>
    have pushed :
        NoneEmpty (handlers.alter q fun clients => some (clients.getD [] ++ [clientId])) := by
      intro query
      rw [HashMap.getElem?_alter]
      split
      · simp
      · exact noneEmpty query
    exact ih pushed

theorem noneEmpty_retainOthers {clientId : ClientId} {handlers : HashMap QueryId (List ClientId)} :
    NoneEmpty (handlers.filterMap fun _ clients => retainOthers clientId clients) := by
  intro query
  rw [Std.ExtTreeMap.getElem?_filterMap]
  cases handlers[query]? with
  | none => nofun
  | some clients =>
    show retainOthers clientId clients ≠ some []
    simp only [retainOthers]
    split
    · nofun
    · rename_i filled
      intro empty
      exact filled (by rw [Option.some.inj empty]; rfl)

/-! ### The ongoing requests -/

/-- Every request is filed under its own id. -/
def Keyed (handler : QueryHandler) : Prop :=
  ∀ requestId request, handler.getOngoingRequest requestId = some request →
    request.requestId = requestId

/-- What expired is ongoing. -/
theorem mem_getExpiredRequests {handler : QueryHandler} {order : List RequestId} {now : Instant}
    {queryResponseTimeout : Duration} {requests : List OngoingQueryRequest}
    (h : handler.getExpiredRequests order now queryResponseTimeout = some requests)
    {request : OngoingQueryRequest} (mem : request ∈ requests) :
    ∃ requestId, handler.getOngoingRequest requestId = some request := by
  obtain ⟨entries, hiter, rfl⟩ := Option.map_eq_some_iff.mp h
  obtain ⟨entry, hentry, rfl⟩ := List.mem_map.mp mem
  exact ⟨entry.1, (HashMap.mem_iter hiter).mp (List.mem_filter.mp hentry).1⟩

/-- No id expires twice in one reading. -/
theorem nodup_getExpiredRequests {handler : QueryHandler} {order : List RequestId}
    {now : Instant} {queryResponseTimeout : Duration} {requests : List OngoingQueryRequest}
    (keyed : handler.Keyed)
    (h : handler.getExpiredRequests order now queryResponseTimeout = some requests) :
    (requests.map (·.requestId)).Nodup := by
  obtain ⟨entries, hiter, rfl⟩ := Option.map_eq_some_iff.mp h
  rw [List.map_map]
  have ids (p : RequestId × OngoingQueryRequest → Bool) :
      (entries.filter p).map ((·.requestId) ∘ Prod.snd) = (entries.filter p).map Prod.fst :=
    List.map_congr_left fun entry hentry =>
      keyed entry.1 entry.2 ((HashMap.mem_iter hiter).mp (List.mem_filter.mp hentry).1)
  rw [ids]
  exact (List.filter_sublist.map Prod.fst).nodup (HashMap.iter_keys_nodup hiter)

end QueryHandler

end Revent
