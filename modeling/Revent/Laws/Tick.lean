import Revent.Laws.Responders
import Revent.Laws.Selection

/-!
# A tick of the timer

What one tick does, executed without interleaving, to the clients, the lists, the requests and
the channels. Both loops go over snapshots of maps that their rounds change. A round of the first
concerns one client of the snapshot, and a round of the second one request, so a loop comes to
what its rounds come to one by one, and the outcome of each send decides its round alone.

The operations of a tick read the clock each for itself: `clock` says when each of them happens.
-/

namespace Revent

open Interleave (Event Prog Alone)

variable {R : Type} [Repository R]

/-- The operations, each of them performed when the clock says. -/
def atClock (clock : Op → Instant) (op : Op) (env : Env R) (w : World R) :
    Option (Ret op × World R) :=
  if env.now = clock op then exec op env w else none

/-- The client was not seen for longer than the expiration, as the tick looks. -/
def IsOld (clock : Op → Instant) (timing : Timing) (info : ClientInfo) : Prop :=
  clock (.oldClients timing.serverExpirationClient) - info.lastSeen > timing.serverExpirationClient

/-- The request is ongoing for longer than the timeout, as the tick looks. -/
def IsExpired (clock : Op → Instant) (timing : Timing) (request : OngoingQueryRequest) : Prop :=
  clock (.getExpiredRequests timing.queryResponseTimeout) - request.createdAt >
    timing.queryResponseTimeout

/-- The clients after the heartbeats: who accepted one was just seen, who did not is gone. -/
def beatClients (clock : Op → Instant) (old : List ClientId) (accepts : ClientId → Bool)
    (clientId : ClientId) (info : Option ClientInfo) : Option ClientInfo :=
  if clientId ∈ old then
    if accepts clientId then
      info.map fun info => { info with lastSeen := clock (.updateLastSeen (.heartbeat clientId)) }
    else none
  else info

/-- Without those who did not accept their heartbeat. -/
def withoutLost (old : List ClientId) (accepts : ClientId → Bool) (clients : List ClientId) :
    List ClientId :=
  clients.filter fun clientId => ¬ (clientId ∈ old ∧ accepts clientId = false)

/-- The heartbeats, and what became of each. -/
def heartbeats (old : List (ClientId × Tx)) (accepts : ClientId → Bool) :
    List (ClientId × Tx × ServerMessage × Bool) :=
  old.map fun entry => (entry.1, entry.2, .heartbeat, accepts entry.1)

/-- The timeouts of the requests whose requester is connected, and what became of each. -/
def timeouts (w : World R) (expired : List OngoingQueryRequest) (told : RequestId → Bool) :
    List (ClientId × Tx × ServerMessage × Bool) :=
  expired.filterMap fun request => (w.state.txOf request.requester).map fun tx =>
    (request.requester, tx, .queryTimedOut request.requestId request.queryId,
      told request.requestId)

/-- Nothing else of the world changes but the channels. -/
structure SameRest (w w' : World R) : Prop where
  repository : w'.state.repository = w.state.repository
  cursor : w'.cursor = w.cursor
  spawned : w'.spawned = w.spawned

/-- **The effect of a tick**: the old clients and the expired requests, whether each client
accepted its heartbeat and each requester was told, and what follows from that. -/
structure TickEffect (clock : Op → Instant) (timing : Timing) (w w' : World R) (h : History)
    (old : List (ClientId × Tx)) (accepts : ClientId → Bool) (expired : List OngoingQueryRequest)
    (told : RequestId → Bool) : Prop where
  old_once : (old.map (·.1)).Nodup
  mem_old : ∀ clientId tx, (clientId, tx) ∈ old ↔
    ∃ info, w.clients[clientId]? = some info ∧ info.tx = tx ∧ IsOld clock timing info
  expired_once : (expired.map (·.requestId)).Nodup
  mem_expired : ∀ request, request ∈ expired ↔
    w.state.ongoing request.requestId = some request ∧ IsExpired clock timing request
  sent : (deliveries h).reverse = heartbeats old accepts ++ timeouts w' expired told
  clients : ∀ clientId, w'.clients[clientId]? =
    beatClients clock (old.map (·.1)) accepts clientId w.clients[clientId]?
  listed : ∀ query, w'.state.listed query =
    withoutLost (old.map (·.1)) accepts (w.state.listed query)
  ongoing : ∀ requestId, w'.state.ongoing requestId =
    if requestId ∈ expired.map (·.requestId) then none else w.state.ongoing requestId
  rest : SameRest w w'

variable {clock : Op → Instant} {timing : Timing} {op : Op} {env : Env R} {r : Ret op}
  {w w' : World R} {h : History}

theorem atClock_some {done : Ret op × World R} (h : atClock clock op env w = some done) :
    env.now = clock op ∧ exec op env w = some done := by
  unfold atClock at h
  split at h
  · rename_i now
    exact ⟨now, h⟩
  · cases h

/-! ## What a tick leaves alone -/

/-- The operations a tick performs. -/
def OfTick : Op → Prop
  | .updateLastSeen _ | .getClientById _ | .send _ _ _ | .removeClient _ | .disconnectClient _
  | .oldClients _ | .getExpiredRequests _ | .removeOngoingRequest _ => True
  | _ => False

theorem SameRest.exec (of : OfTick op) (performed : exec op env w = some (r, w'))
    {w₀ : World R} (same : SameRest w₀ w) : SameRest w₀ w' := by
  have repository : w'.state.repository = w.state.repository := by
    refine repository_exec performed fun msg is => ?_
    rw [is] at of
    exact of
  have cursor : w'.cursor = w.cursor := by
    have moved := cursor_exec performed
    cases op with
    | getClientIdForQueryId msg => exact of.elim
    | _ => exact moved
  have spawned : w'.spawned = w.spawned := by
    cases op with
    | send client tx msg =>
      simp only [Revent.exec] at performed
      split at performed <;> cases performed <;> rfl
    | saveSourceEvent | spawnBroadcast | readClients | dropClients => exact of.elim
    | _ =>
      obtain ⟨s, rfl⟩ := exec_onState performed trivial
      rfl
  exact ⟨repository.trans same.repository, cursor.trans same.cursor, spawned.trans same.spawned⟩

omit [Repository R] in
theorem timerTick_ofTick :
    (timerTick timing).Flows (fun _ => OfTick) (fun _ _ => True) h := by
  have beats (entry : ClientId × Tx) (h : History) :
      (heartbeat entry.1 entry.2).Flows (fun _ => OfTick) (fun _ _ => True) h := by
    refine ⟨trivial, fun sent => ?_⟩
    cases sent with
    | ok _ => exact ⟨trivial, fun _ => trivial⟩
    | error _ => exact ⟨trivial, fun _ => ⟨trivial, fun _ => ⟨trivial, fun _ => trivial⟩⟩⟩
  have expires (request : OngoingQueryRequest) (h : History) :
      (expire request).Flows (fun _ => OfTick) (fun _ _ => True) h := by
    refine ⟨trivial, fun requester => ?_⟩
    cases requester with
    | none => exact ⟨trivial, fun _ => trivial⟩
    | some info => exact ⟨trivial, fun _ => ⟨trivial, fun _ => trivial⟩⟩
  refine ⟨trivial, fun txs => (Interleave.flows_forM beats txs).bind fun _ _ _ => ?_⟩
  exact ⟨trivial, fun expired => Interleave.flows_forM expires expired⟩

/-- A tick leaves the rest of the world alone. -/
theorem timerTick_rest :
    (timerTick timing).Ensures (atClock clock) (fun _ w' _ => SameRest w w') w h := by
  refine (timerTick_ofTick (h := [])).ensures ?_ ⟨rfl, rfl, rfl⟩
  intro op env r w₁ w₂ h of performed same
  exact same.exec of (atClock_some performed).2

/-! ## The snapshots -/

/-- The first snapshot holds the old clients, each of them once. -/
theorem snapshot_old {expiration : Duration} {txs : List (ClientId × Tx)}
    (h : exec (.oldClients expiration) env w = some (txs, w')) :
    (txs.map (·.1)).Nodup ∧ ∀ clientId tx, (clientId, tx) ∈ txs ↔
      ∃ info, w.clients[clientId]? = some info ∧ info.tx = tx ∧
        env.now - info.lastSeen > expiration := by
  obtain ⟨l, found, heq⟩ := Option.map_eq_some_iff.mp h
  cases heq
  obtain ⟨entries, hiter, rfl⟩ := Option.map_eq_some_iff.mp found
  constructor
  · rw [List.map_map]
    exact (List.filter_sublist.map Prod.fst).nodup (HashMap.iter_keys_nodup hiter)
  · intro clientId tx
    rw [List.mem_map]
    constructor
    · rintro ⟨⟨clientId', info⟩, mem, heq⟩
      cases heq
      obtain ⟨mem, old⟩ := List.mem_filter.mp mem
      exact ⟨info, (HashMap.mem_iter hiter).mp mem, rfl, of_decide_eq_true old⟩
    · rintro ⟨info, entry, rfl, old⟩
      refine ⟨(clientId, info), List.mem_filter.mpr ⟨?_, decide_eq_true old⟩, rfl⟩
      exact (HashMap.mem_iter hiter).mpr entry

/-- The second snapshot holds the expired requests, each of them once. -/
theorem snapshot_expired {timeout : Duration} {requests : List OngoingQueryRequest}
    (keyed : w.state.queryHandlers.Keyed)
    (h : exec (.getExpiredRequests timeout) env w = some (requests, w')) :
    (requests.map (·.requestId)).Nodup ∧ ∀ request, request ∈ requests ↔
      w.state.ongoing request.requestId = some request ∧
        env.now - request.createdAt > timeout := by
  have found := exec_getExpiredRequests h
  refine ⟨QueryHandler.nodup_getExpiredRequests keyed found, fun request => ?_⟩
  obtain ⟨entries, hiter, rfl⟩ := Option.map_eq_some_iff.mp found
  rw [List.mem_map]
  constructor
  · rintro ⟨⟨requestId, request'⟩, mem, rfl⟩
    obtain ⟨mem, expired⟩ := List.mem_filter.mp mem
    have ongoing := (HashMap.mem_iter hiter).mp mem
    have own : request'.requestId = requestId := keyed requestId request' ongoing
    exact ⟨own ▸ ongoing, of_decide_eq_true expired⟩
  · rintro ⟨ongoing, expired⟩
    refine ⟨(request.requestId, request), List.mem_filter.mpr ⟨?_, decide_eq_true expired⟩, rfl⟩
    exact (HashMap.mem_iter hiter).mpr ongoing

/-! ## The heartbeats -/

/-- What some heartbeats come to, each with whether it was accepted. -/
structure Beaten (clock : Op → Instant) (w : World R) (h : History) (beaten : List (ClientId × Tx))
    (accepts : ClientId → Bool) (w' : World R) (h' : History) : Prop where
  sent : deliveries h' = (heartbeats beaten accepts).reverse ++ deliveries h
  clients : ∀ clientId, w'.clients[clientId]? =
    beatClients clock (beaten.map (·.1)) accepts clientId w.clients[clientId]?
  listed : ∀ query, w'.state.listed query =
    withoutLost (beaten.map (·.1)) accepts (w.state.listed query)
  ongoing : w'.ongoing = w.ongoing

omit [Repository R] in
/-- A client that accepts its heartbeat was just seen. -/
theorem getElem?_touch_heartbeat (w : World R) (clientId other : ClientId) :
    (touch w.clients clientId (clock (.updateLastSeen (.heartbeat clientId))))[other]? =
      beatClients clock [clientId] (fun _ => true) other w.clients[other]? := by
  unfold touch beatClients
  rw [HashMap.getElem?_modify]
  by_cases same : clientId = other
  · subst same
    rw [if_pos rfl, if_pos (List.mem_singleton_self clientId), if_pos rfl]
  · have notMem : other ∉ [clientId] := fun mem => same (List.mem_singleton.mp mem).symm
    rw [if_neg same, if_neg notMem]

omit [Repository R] in
/-- A client that does not is gone. -/
theorem getElem?_erase_touched (w : World R) (clientId other : ClientId) (now : Instant) :
    ((touch w.clients clientId now).erase clientId)[other]? =
      beatClients clock [clientId] (fun _ => false) other w.clients[other]? := by
  unfold touch beatClients
  rw [HashMap.getElem?_erase]
  by_cases same : clientId = other
  · subst same
    rw [if_pos rfl, if_pos (List.mem_singleton_self clientId)]
    rfl
  · have notMem : other ∉ [clientId] := fun mem => same (List.mem_singleton.mp mem).symm
    rw [if_neg same, if_neg notMem, HashMap.getElem?_modify, if_neg same]

theorem withoutLost_accepted (old clients : List ClientId) :
    withoutLost old (fun _ => true) clients = clients := by
  simp only [withoutLost, Bool.true_eq_false, and_false, not_false_eq_true, decide_true,
    List.filter_true]

theorem withoutLost_refused (clientId : ClientId) (clients : List ClientId) :
    withoutLost [clientId] (fun _ => false) clients = clients.filter (· ≠ clientId) := by
  simp only [withoutLost, List.mem_singleton, and_true, ne_eq]

/-- **One heartbeat.** -/
theorem heartbeat_beaten (clientId : ClientId) (tx : Tx) :
    (heartbeat clientId tx).Ensures (atClock clock)
      (fun _ w' h' => ∃ ok, Beaten clock w h [(clientId, tx)] (fun _ => ok) w' h') w h := by
  intro env sent w₁ performed
  have sends : w₁.state = w.state := exec_send (atClock_some performed).2
  have clients : w₁.clients = w.clients := congrArg State.connectedClients sends
  cases sent with
  | ok _ =>
    intro env _ w₂ performed
    obtain ⟨now, refreshed⟩ := atClock_some performed
    refine ⟨true, rfl, fun other => ?_, fun query => ?_, ?_⟩
    · have touched : w₂.clients = touch w₁.clients clientId env.now := clients_exec refreshed
      rw [touched, clients, now]
      exact getElem?_touch_heartbeat w clientId other
    · rw [withoutLost_accepted, listed_exec refreshed, sends]
      rfl
    · rw [requests_exec refreshed]
      exact congrArg (fun s : State R => s.queryHandlers.ongoingQueryRequests) sends
  | error err =>
    intro env _ w₂ performed₂ env' _ w₃ performed₃ env'' _ w₄ performed₄
    have refreshed := (atClock_some performed₂).2
    have removed := (atClock_some performed₃).2
    have disconnected := (atClock_some performed₄).2
    refine ⟨false, rfl, fun other => ?_, fun query => ?_, ?_⟩
    · have erased : w₄.clients = (touch w₁.clients clientId env.now).erase clientId := by
        rw [clients_exec disconnected, clients_exec removed, clients_exec refreshed]
        rfl
      rw [erased, clients]
      exact getElem?_erase_touched w clientId other env.now
    · show _ = withoutLost [clientId] _ _
      rw [withoutLost_refused, listed_exec disconnected, listed_exec removed,
        listed_exec refreshed, sends]
      rfl
    · rw [requests_exec disconnected, requests_exec removed, requests_exec refreshed]
      exact congrArg (fun s : State R => s.queryHandlers.ongoingQueryRequests) sends

theorem beatClients_snoc {old : List ClientId} {accepts : ClientId → Bool} {clientId : ClientId}
    (ok : Bool) (fresh : clientId ∉ old) (other : ClientId) (info : Option ClientInfo) :
    beatClients clock [clientId] (fun _ => ok) other (beatClients clock old accepts other info) =
      beatClients clock (old ++ [clientId]) (Function.update accepts clientId ok) other info := by
  by_cases same : other = clientId
  · subst same
    have last : other ∈ old ++ [other] := List.mem_append_right _ (List.mem_singleton_self other)
    simp only [beatClients, if_pos (List.mem_singleton_self other), if_neg fresh, if_pos last,
      Function.update_self]
  · simp only [beatClients, List.mem_append, List.mem_singleton, same, or_false, if_false,
      Function.update_of_ne same]

theorem withoutLost_snoc {old : List ClientId} {accepts : ClientId → Bool} {clientId : ClientId}
    (ok : Bool) (fresh : clientId ∉ old) (clients : List ClientId) :
    withoutLost [clientId] (fun _ => ok) (withoutLost old accepts clients) =
      withoutLost (old ++ [clientId]) (Function.update accepts clientId ok) clients := by
  unfold withoutLost
  rw [List.filter_filter]
  refine List.filter_congr fun other _ => ?_
  by_cases same : other = clientId
  · subst same
    simp [fresh]
  · simp [same]

theorem heartbeats_snoc {beaten : List (ClientId × Tx)} {accepts : ClientId → Bool}
    {clientId : ClientId} (tx : Tx) (ok : Bool) (fresh : clientId ∉ beaten.map (·.1)) :
    heartbeats (beaten ++ [(clientId, tx)]) (Function.update accepts clientId ok) =
      heartbeats beaten accepts ++ [(clientId, tx, .heartbeat, ok)] := by
  have same : heartbeats beaten (Function.update accepts clientId ok) =
      heartbeats beaten accepts := by
    refine List.map_congr_left fun entry mem => ?_
    rw [Function.update_of_ne]
    rintro rfl
    exact fresh (List.mem_map_of_mem mem)
  rw [← same]
  simp only [heartbeats, List.map_append, List.map_cons, List.map_nil, Function.update_self]

omit [Repository R] in
/-- A heartbeat after others, to another client. -/
theorem Beaten.snoc {w₁ : World R} {h₁ h' : History} {beaten : List (ClientId × Tx)}
    {accepts : ClientId → Bool} {clientId : ClientId} {tx : Tx} {ok : Bool}
    (sofar : Beaten clock w h beaten accepts w₁ h₁)
    (beat : Beaten clock w₁ h₁ [(clientId, tx)] (fun _ => ok) w' h')
    (fresh : clientId ∉ beaten.map (·.1)) :
    Beaten clock w h (beaten ++ [(clientId, tx)]) (Function.update accepts clientId ok) w' h' := by
  refine ⟨?_, fun other => ?_, fun query => ?_, beat.ongoing.trans sofar.ongoing⟩
  · rw [heartbeats_snoc tx ok fresh, beat.sent, sofar.sent, List.reverse_append, List.append_assoc]
    rfl
  · rw [beat.clients, sofar.clients, List.map_append]
    exact beatClients_snoc ok fresh other _
  · rw [beat.listed, sofar.listed, List.map_append]
    exact withoutLost_snoc ok fresh _

/-- **The first loop**: each client of the snapshot gets its heartbeat, and what follows from
it. -/
theorem heartbeats_beaten {old : List (ClientId × Tx)} (once : (old.map (·.1)).Nodup) :
    (old.forM fun entry => heartbeat entry.1 entry.2).Ensures (atClock clock)
      (fun _ w' h' => ∃ accepts, Beaten clock w h old accepts w' h') w h := by
  have start : Beaten clock w h [] (fun _ => true) w h :=
    ⟨rfl, fun _ => rfl, fun query => (withoutLost_accepted [] _).symm, rfl⟩
  apply Interleave.ensures_forM_once (fun beaten w' h' => ∃ accepts,
    Beaten clock w h beaten accepts w' h') _ once ⟨_, start⟩
  rintro beaten ⟨clientId, tx⟩ w₁ h₁ fresh ⟨accepts, sofar⟩
  refine (heartbeat_beaten clientId tx).mono fun _ w₂ h₂ ⟨ok, beat⟩ => ?_
  exact ⟨_, sofar.snoc beat fresh⟩

/-! ## The timeouts -/

/-- What some timeouts come to, each with whether its requester was told. -/
structure TimedOut (w : World R) (h : History) (done : List OngoingQueryRequest)
    (told : RequestId → Bool) (w' : World R) (h' : History) : Prop where
  sent : deliveries h' = (timeouts w done told).reverse ++ deliveries h
  clients : w'.clients = w.clients
  listed : ∀ query, w'.state.listed query = w.state.listed query
  ongoing : ∀ requestId, w'.state.ongoing requestId =
    if requestId ∈ done.map (·.requestId) then none else w.state.ongoing requestId

omit [Repository R] in
theorem timeouts_congr {w₁ w₂ : World R} (same : w₁.clients = w₂.clients)
    (expired : List OngoingQueryRequest) (told : RequestId → Bool) :
    timeouts w₁ expired told = timeouts w₂ expired told := by
  simp only [timeouts, State.txOf, same]

/-- **One timeout.** -/
theorem expire_timedOut (request : OngoingQueryRequest) :
    (expire request).Ensures (atClock clock)
      (fun _ w' h' => ∃ ok, TimedOut w h [request] (fun _ => ok) w' h') w h := by
  have removes {w₁ w₂ : World R} {env : Env R} {removed : Option OngoingQueryRequest}
      (same : w₁.state = w.state)
      (performed : atClock clock (.removeOngoingRequest request.requestId) env w₁ =
        some (removed, w₂)) : w₂.clients = w.clients ∧
        (∀ query, w₂.state.listed query = w.state.listed query) ∧
        ∀ requestId, w₂.state.ongoing requestId =
          if requestId ∈ [request.requestId] then none else w.state.ongoing requestId := by
    have performed := (atClock_some performed).2
    refine ⟨?_, fun query => ?_, fun requestId => ?_⟩
    · rw [clients_exec performed]
      exact congrArg State.connectedClients same
    · rw [listed_exec performed, same]
      rfl
    · rw [ongoing_exec performed, same]
      simp only [ongoingAfter, List.mem_singleton, eq_comm]
  intro env requester w₁ looked
  obtain ⟨found, rfl⟩ := exec_getClientById (atClock_some looked).2
  cases requester with
  | none =>
    intro env removed w₂ performed
    obtain ⟨clients, listed, ongoing⟩ := removes rfl performed
    refine ⟨true, ?_, clients, listed, ongoing⟩
    have away : w₁.state.txOf request.requester = none := State.txOf_eq_none.mpr found.symm
    simp only [timeouts, List.filterMap_cons, away, Option.map_none, List.filterMap_nil]
    rfl
  | some info =>
    intro env sent w₂ sends env' removed w₃ performed
    have same : w₂.state = w₁.state := exec_send (atClock_some sends).2
    obtain ⟨clients, listed, ongoing⟩ := removes same performed
    refine ⟨sent.isOk, ?_, clients, listed, ongoing⟩
    have connected : w₁.state.txOf request.requester = some info.tx :=
      State.txOf_eq_some.mpr ⟨info, found.symm, rfl⟩
    simp only [timeouts, List.filterMap_cons, connected, Option.map_some, List.filterMap_nil]
    rfl

omit [Repository R] in
theorem timeouts_snoc (w : World R) {done : List OngoingQueryRequest} {told : RequestId → Bool}
    {request : OngoingQueryRequest} (ok : Bool)
    (fresh : request.requestId ∉ done.map (·.requestId)) :
    timeouts w (done ++ [request]) (Function.update told request.requestId ok) =
      timeouts w done told ++ timeouts w [request] (fun _ => ok) := by
  unfold timeouts
  rw [List.filterMap_append]
  congr 1
  · refine List.filterMap_congr fun other mem => ?_
    have differs : other.requestId ≠ request.requestId := by
      intro same
      exact fresh (List.mem_map.mpr ⟨other, mem, same⟩)
    rw [Function.update_of_ne differs]
  · simp only [List.filterMap_cons, List.filterMap_nil, Function.update_self]

omit [Repository R] in
/-- A timeout after others, of another request. -/
theorem TimedOut.snoc {w₁ : World R} {h₁ h' : History} {done : List OngoingQueryRequest}
    {told : RequestId → Bool} {request : OngoingQueryRequest} {ok : Bool}
    (sofar : TimedOut w h done told w₁ h₁)
    (next : TimedOut w₁ h₁ [request] (fun _ => ok) w' h')
    (fresh : request.requestId ∉ done.map (·.requestId)) :
    TimedOut w h (done ++ [request]) (Function.update told request.requestId ok) w' h' := by
  refine ⟨?_, next.clients.trans sofar.clients, fun query => ?_, fun requestId => ?_⟩
  · rw [timeouts_snoc w ok fresh, next.sent, sofar.sent, timeouts_congr sofar.clients,
      List.reverse_append, List.append_assoc]
  · rw [next.listed, sofar.listed]
  · rw [next.ongoing, sofar.ongoing, List.map_append]
    by_cases last : requestId ∈ [request].map (·.requestId)
    · rw [if_pos last, if_pos (List.mem_append_right _ last)]
    · simp only [List.mem_append, last, or_false, if_false]

/-- **The second loop**: each request of the snapshot is timed out. -/
theorem expired_timedOut {expired : List OngoingQueryRequest}
    (once : (expired.map (·.requestId)).Nodup) :
    (expired.forM expire).Ensures (atClock clock)
      (fun _ w' h' => ∃ told, TimedOut w h expired told w' h') w h := by
  have start : TimedOut w h [] (fun _ => true) w h := ⟨rfl, rfl, fun _ => rfl, fun _ => rfl⟩
  apply Interleave.ensures_forM_once (fun done w' h' => ∃ told, TimedOut w h done told w' h') _
    once ⟨_, start⟩
  rintro done request w₁ h₁ fresh ⟨told, sofar⟩
  refine (expire_timedOut request).mono fun _ w₂ h₂ ⟨ok, next⟩ => ?_
  exact ⟨_, sofar.snoc next fresh⟩

/-! ## The tick -/

/-- A tick's loops, one after the other, between its snapshots. -/
theorem timerTick_loops (keyed : w.state.queryHandlers.Keyed) :
    (timerTick timing).Ensures (atClock clock)
      (fun _ w' h' => SameRest w w' →
        ∃ old accepts expired told, TickEffect clock timing w w' h' old accepts expired told)
      w [] := by
  intro env old w₁ performed
  obtain ⟨now, snapshot⟩ := atClock_some performed
  obtain ⟨old_once, mem_old⟩ := snapshot_old snapshot
  have same₁ : w₁.state = w.state := exec_reading snapshot trivial
  refine (heartbeats_beaten old_once).bind fun _ w₂ h₂ ⟨accepts, beaten⟩ => ?_
  have ongoing₂ : w₂.ongoing = w.ongoing := by
    rw [beaten.ongoing]
    exact congrArg (fun s : State R => s.queryHandlers.ongoingQueryRequests) same₁
  have found₂ (requestId : RequestId) : w₂.state.ongoing requestId = w.state.ongoing requestId :=
    congrArg (fun requests => requests[requestId]?) ongoing₂
  have keyed₂ : w₂.state.queryHandlers.Keyed := fun requestId request found =>
    keyed requestId request ((found₂ requestId).symm.trans found)
  intro env' expired w₃ performed'
  obtain ⟨now', snapshot'⟩ := atClock_some performed'
  obtain ⟨expired_once, mem_expired⟩ := snapshot_expired keyed₂ snapshot'
  have same₃ : w₃.state = w₂.state := exec_reading snapshot' trivial
  refine (expired_timedOut expired_once).mono fun _ w' h' ⟨told, timedOut⟩ rest => ?_
  have clients₁ : w₁.clients = w.clients := congrArg State.connectedClients same₁
  have clients' : w'.clients = w₂.clients :=
    timedOut.clients.trans (congrArg State.connectedClients same₃)
  refine ⟨old, accepts, expired, told, ?_⟩
  constructor
  case old_once => exact old_once
  case mem_old =>
    intro clientId tx
    rw [mem_old, now]
    rfl
  case expired_once => exact expired_once
  case mem_expired =>
    intro request
    rw [mem_expired, now', found₂]
    rfl
  case sent =>
    have before : deliveries h₂ = (heartbeats old accepts).reverse ++ [] := beaten.sent
    have all : deliveries h' = (timeouts w₃ expired told).reverse ++ deliveries h₂ := timedOut.sent
    rw [all, before, List.append_nil, List.reverse_append, List.reverse_reverse,
      List.reverse_reverse, timeouts_congr timedOut.clients.symm]
  case clients =>
    intro clientId
    rw [clients', beaten.clients, clients₁]
  case listed =>
    intro query
    rw [timedOut.listed, same₃, beaten.listed, same₁]
  case ongoing =>
    intro requestId
    rw [timedOut.ongoing, same₃, found₂]
  case rest => exact rest

/-- Requests are filed under their own ids in every state that a server reaches. -/
theorem keyed_of_reach {parse : String → Option Uuid} {repository : R} {σ : ServerConfig R}
    {cond : ServerConfig R → Nat → Env R → Op → Prop}
    (reach : ReachIf parse timing repository cond σ) : σ.world.state.queryHandlers.Keyed :=
  state_invariant (fun s _ => s.queryHandlers.Keyed) reach nofun
    fun _ _ performed keyed => keyed_exec performed keyed

/-- **The effect of a tick**, in every state in which requests are filed under their own ids. -/
theorem tickEffect_of_alone (keyed : w.state.queryHandlers.Keyed)
    (run : Alone (atClock clock) (timerTick timing) w [] () w' h) :
    ∃ old accepts expired told, TickEffect clock timing w w' h old accepts expired told := by
  have rest : SameRest w w' := timerTick_rest.elim run
  exact (timerTick_loops keyed).elim run rest

section Scenario

open Scenario

/-- What a step of a tick meets at the instant 100, with two clients and one request. -/
def Scenario.lateStep (delivered : Bool) : Env NoopSourceEventRepository :=
  { quiet with now := 100, delivered, clientOrder := [alice, bob], requestOrder := [request] }

/-- Two clients and a request of the first one grow old; the second client refuses its
heartbeat. -/
def Scenario.tickOfTwoClients :
    Option (World NoopSourceEventRepository × World NoopSourceEventRepository × History) :=
  (handled [registering alice 0, registering bob 1, requesting alice]).bind fun done =>
    ((timerTick Scenario.timing).play (atClock fun _ => 100)
      ([lateStep true, lateStep true, lateStep true, lateStep false] ++
        List.replicate 7 (lateStep true)) done.2 []).map fun after => (done.2, after.2)

omit [Repository R] in
/-- The tick of the scenario has the effect of a tick. -/
theorem tickEffect_ticked : ∃ w w' h old accepts expired told, tickOfTwoClients = some (w, w', h) ∧
    TickEffect (fun _ => 100) Scenario.timing w w' h old accepts expired told := by
  have played : tickOfTwoClients.isSome := by decide +kernel
  obtain ⟨⟨w, w', h⟩, played⟩ := Option.isSome_iff_exists.mp played
  obtain ⟨done, earlier, ticks⟩ := Option.bind_eq_some_iff.mp played
  obtain ⟨⟨u, after⟩, ticks, heq⟩ := Option.map_eq_some_iff.mp ticks
  cases heq
  have keyed : done.2.state.queryHandlers.Keyed :=
    keyed_of_sequentialRun (Interleave.sequential_of_playCalls .start earlier)
  obtain ⟨old, accepts, expired, told, effect⟩ :=
    tickEffect_of_alone keyed (Interleave.alone_of_play ticks)
  exact ⟨_, _, _, old, accepts, expired, told, played, effect⟩

end Scenario

end Revent
