import Mathlib.Data.List.Dedup
import Revent.Laws.Flow

/-!
# The effects of the operations

What one operation does to the three parts of the state that the laws speak of: the channel each
connected client holds, the list of each query's handlers, and the ongoing request of each id.
Each part has one function that says what the operation makes of it, and one equation that ties
it to `exec`. `state_invariant` is the induction every law about runs of the server goes by.
-/

namespace Revent

open Interleave (Event Trace Prog Machine Config Task)

variable {R : Type}

namespace State

/-- The channel of a connected client. -/
def txOf (s : State R) (clientId : ClientId) : Option Tx :=
  s.connectedClients[clientId]?.map ClientInfo.tx

/-- The clients listed for a query. -/
def listed (s : State R) (queryId : QueryId) : List ClientId := s.queryHandlers.listed queryId

/-- The ongoing request with an id. -/
def ongoing (s : State R) (requestId : RequestId) : Option OngoingQueryRequest :=
  s.queryHandlers.getOngoingRequest requestId

theorem txOf_eq_none {s : State R} {clientId : ClientId} :
    s.txOf clientId = none ↔ s.connectedClients[clientId]? = none := Option.map_eq_none_iff

theorem txOf_eq_some {s : State R} {clientId : ClientId} {tx : Tx} :
    s.txOf clientId = some tx ↔ ∃ info, s.connectedClients[clientId]? = some info ∧ info.tx = tx :=
  Option.map_eq_some_iff

end State

/-! ## What an operation makes of each part -/

/-- The channel of a client after an operation: an insertion sets it, a removal drops it. -/
def txAfter (clientId : ClientId) (tx : Option Tx) : Op → Option Tx
  | .insertClient msg => if msg.clientId = clientId then some msg.tx else tx
  | .removeClient removed => if removed = clientId then none else tx
  | _ => tx

/-- The list of a query after an operation: a registration appends to it, a disconnect filters
it. -/
def listedAfter (queryId : QueryId) (clients : List ClientId) : Op → List ClientId
  | .addClientQueryHandler msg =>
    clients ++ List.replicate (msg.queryHandlers.count queryId) msg.clientId
  | .disconnectClient removed => clients.filter (· ≠ removed)
  | _ => clients

/-- The handler table after an operation. -/
def handlersAfter (handlers : HashMap QueryId (List ClientId)) :
    Op → HashMap QueryId (List ClientId)
  | .addClientQueryHandler msg => QueryHandler.pushHandlers msg.clientId handlers msg.queryHandlers
  | .disconnectClient removed =>
    handlers.filterMap fun _ clients => QueryHandler.retainOthers removed clients
  | _ => handlers

/-- The ongoing requests after an operation. -/
def requestsAfter (requests : HashMap RequestId OngoingQueryRequest) :
    Op → HashMap RequestId OngoingQueryRequest
  | .handleQueryRequestedEvent request => requests.insert request.requestId request
  | .removeOngoingRequest removed => requests.erase removed
  | _ => requests

/-- The ongoing request of an id after an operation. -/
def ongoingAfter (requestId : RequestId) (ongoing : Option OngoingQueryRequest) :
    Op → Option OngoingQueryRequest
  | .handleQueryRequestedEvent request =>
    if request.requestId = requestId then some request else ongoing
  | .removeOngoingRequest removed => if removed = requestId then none else ongoing
  | _ => ongoing

/-- Refreshing `last_seen` changes no channel. -/
theorem touch_tx (clients : HashMap ClientId ClientInfo) (source clientId : ClientId)
    (now : Instant) :
    (touch clients source now)[clientId]?.map ClientInfo.tx =
      clients[clientId]?.map ClientInfo.tx := by
  unfold touch
  rw [HashMap.getElem?_modify]
  split
  · rw [Option.map_map]
    rfl
  · rfl

theorem writeClients_some {w w' : World R} {clients : HashMap ClientId ClientInfo} {u : Unit}
    (h : writeClients w clients = some (u, w')) : w' = w.setClients clients := by
  unfold writeClients at h
  split at h
  · cases h
    rfl
  · cases h

variable [Repository R] {op : Op} {env : Env R} {w w' : World R} {r : Ret op}

/-- Refreshing `last_seen` leaves every channel and the query handlers as they were. -/
theorem exec_updateLastSeen {msg : ClientMessage} {u : Unit}
    (h : exec (.updateLastSeen msg) env w = some (u, w')) :
    (∀ clientId, w'.state.txOf clientId = w.state.txOf clientId) ∧
      w'.state.queryHandlers = w.state.queryHandlers := by
  simp only [exec] at h
  split at h
  · cases h
    exact ⟨fun _ => rfl, rfl⟩
  · rw [writeClients_some h]
    exact ⟨fun _ => touch_tx _ _ _ _, rfl⟩

theorem exec_send {client : ClientId} {tx : Tx} {msg : ServerMessage} {sent : Except TxError Unit}
    (h : exec (.send client tx msg) env w = some (sent, w')) : w'.state = w.state := by
  simp only [exec] at h
  split at h <;> cases h <;> rfl

/-- The operations that change nothing of the state but the channels, the repository and the
guards keep every part. -/
theorem exec_reading (h : exec op env w = some (r, w'))
    (reading : match op with
      | .oldClients _ | .getExpiredRequests _ | .readClients _ => True
      | _ => False) : w'.state = w.state := by
  cases op with
  | oldClients d | getExpiredRequests d | readClients e =>
    obtain ⟨l, -, heq⟩ := Option.map_eq_some_iff.mp h
    cases heq
    rfl
  | _ => exact reading.elim

/-- **The channels of the connected clients** after an operation. -/
theorem txOf_exec (h : exec op env w = some (r, w')) (clientId : ClientId) :
    w'.state.txOf clientId = txAfter clientId (w.state.txOf clientId) op := by
  cases op with
  | updateLastSeen msg => exact (exec_updateLastSeen h).1 clientId
  | insertClient msg =>
    rw [writeClients_some h]
    show ((w.clients.insert _ _)[clientId]?).map _ = _
    rw [HashMap.getElem?_insert]
    exact apply_ite _ _ _ _
  | removeClient removed =>
    rw [writeClients_some h]
    show ((w.clients.erase _)[clientId]?).map _ = _
    rw [HashMap.getElem?_erase]
    exact apply_ite _ _ _ _
  | send client tx msg => rw [exec_send h]; rfl
  | oldClients | getExpiredRequests | readClients => rw [exec_reading h trivial]; rfl
  | _ => cases h; rfl

/-- **The handler table** after an operation. -/
theorem handlers_exec (h : exec op env w = some (r, w')) :
    w'.handlers = handlersAfter w.handlers op := by
  cases op with
  | updateLastSeen msg => exact congrArg QueryHandler.queryHandlers (exec_updateLastSeen h).2
  | insertClient msg | removeClient removed => rw [writeClients_some h]; rfl
  | getClientIdForQueryId msg =>
    cases h
    obtain ⟨strategy, hs⟩ := w.state.queryHandlers.getClientIdForQueryId_snd msg.queryId
    exact (congrArg QueryHandler.queryHandlers hs).trans rfl
  | send client tx msg =>
    have same := exec_send h
    exact congrArg (fun s : State R => s.queryHandlers.queryHandlers) same
  | oldClients | getExpiredRequests | readClients =>
    have same := exec_reading h trivial
    exact congrArg (fun s : State R => s.queryHandlers.queryHandlers) same
  | _ => cases h; rfl

/-- The handlers of each query after an operation. -/
theorem listed_exec (h : exec op env w = some (r, w')) (queryId : QueryId) :
    w'.state.listed queryId = listedAfter queryId (w.state.listed queryId) op := by
  have table : w'.state.listed queryId = (handlersAfter w.handlers op)[queryId]?.getD [] :=
    congrArg (fun handlers => handlers[queryId]?.getD []) (handlers_exec h)
  rw [table]
  cases op with
  | addClientQueryHandler msg => exact QueryHandler.listed_addClientQueryHandler _ _ _ _
  | disconnectClient removed => exact QueryHandler.listed_disconnectClient _ _ _
  | _ => rfl

/-- **The ongoing requests** after an operation. -/
theorem requests_exec (h : exec op env w = some (r, w')) :
    w'.ongoing = requestsAfter w.ongoing op := by
  cases op with
  | updateLastSeen msg => exact congrArg QueryHandler.ongoingQueryRequests (exec_updateLastSeen h).2
  | insertClient msg | removeClient removed => rw [writeClients_some h]; rfl
  | getClientIdForQueryId msg =>
    cases h
    obtain ⟨strategy, hs⟩ := w.state.queryHandlers.getClientIdForQueryId_snd msg.queryId
    exact (congrArg QueryHandler.ongoingQueryRequests hs).trans rfl
  | send client tx msg =>
    have same := exec_send h
    exact congrArg (fun s : State R => s.queryHandlers.ongoingQueryRequests) same
  | oldClients | getExpiredRequests | readClients =>
    have same := exec_reading h trivial
    exact congrArg (fun s : State R => s.queryHandlers.ongoingQueryRequests) same
  | _ => cases h; rfl

/-- The ongoing request of each id after an operation. -/
theorem ongoing_exec (h : exec op env w = some (r, w')) (requestId : RequestId) :
    w'.state.ongoing requestId = ongoingAfter requestId (w.state.ongoing requestId) op := by
  have requests : w'.state.ongoing requestId = (requestsAfter w.ongoing op)[requestId]? :=
    congrArg (fun requests => requests[requestId]?) (requests_exec h)
  rw [requests]
  cases op with
  | handleQueryRequestedEvent request => exact HashMap.getElem?_insert
  | removeOngoingRequest removed => exact HashMap.getElem?_erase
  | _ => rfl

/-- `connected_clients` after an operation. -/
def clientsAfter (env : Env R) (clients : HashMap ClientId ClientInfo) :
    Op → HashMap ClientId ClientInfo
  | .updateLastSeen msg => msg.getSource.elim clients (touch clients · env.now)
  | .insertClient msg => clients.insert msg.clientId (msg.toClientInfo env.systemTime env.now)
  | .removeClient removed => clients.erase removed
  | _ => clients

/-- **The entries of the connected clients** after an operation. -/
theorem clients_exec (h : exec op env w = some (r, w')) :
    w'.clients = clientsAfter env w.clients op := by
  cases op with
  | updateLastSeen msg =>
    simp only [exec] at h
    simp only [clientsAfter]
    cases source : msg.getSource with
    | none =>
      rw [source] at h
      cases h
      rfl
    | some source' =>
      rw [source] at h
      rw [writeClients_some h]
      rfl
  | insertClient msg | removeClient removed => rw [writeClients_some h]; rfl
  | send client tx msg =>
    have same := exec_send h
    exact congrArg (fun s : State R => s.connectedClients) same
  | oldClients | getExpiredRequests | readClients =>
    have same := exec_reading h trivial
    exact congrArg (fun s : State R => s.connectedClients) same
  | _ => cases h; rfl

/-- Only a save reaches the repository. -/
theorem repository_exec (h : exec op env w = some (r, w'))
    (other : ∀ msg, op ≠ .saveSourceEvent msg) : w'.state.repository = w.state.repository := by
  cases op with
  | saveSourceEvent msg => exact absurd rfl (other msg)
  | updateLastSeen msg =>
    simp only [exec] at h
    split at h
    · cases h
      rfl
    · rw [writeClients_some h]
      rfl
  | insertClient msg | removeClient removed =>
    rw [writeClients_some h]
    rfl
  | send client tx msg => rw [exec_send h]
  | oldClients | getExpiredRequests | readClients => rw [exec_reading h trivial]
  | _ =>
    cases h
    rfl

/-! ## What surrounds the state -/

/-- The operation changes nothing but the state. -/
def OnState : Op → Prop
  | .send _ _ _ | .spawnBroadcast _ | .readClients _ | .dropClients _ => False
  | _ => True

theorem exec_onState (h : exec op env w = some (r, w')) (on : OnState op) :
    ∃ s, w' = { w with state := s } := by
  cases op with
  | send | spawnBroadcast | readClients | dropClients => exact on.elim
  | updateLastSeen msg =>
    simp only [exec] at h
    split at h
    · cases h
      exact ⟨_, rfl⟩
    · exact ⟨_, writeClients_some h⟩
  | insertClient | removeClient => exact ⟨_, writeClients_some h⟩
  | oldClients | getExpiredRequests =>
    obtain ⟨l, -, heq⟩ := Option.map_eq_some_iff.mp h
    cases heq
    exact ⟨_, rfl⟩
  | _ =>
    cases h
    exact ⟨_, rfl⟩

/-! ## What an operation answers -/

theorem exec_getClientById {why : Lookup} {found : Option ClientInfo}
    (h : exec (.getClientById why) env w = some (found, w')) :
    found = w.state.connectedClients[why.clientId]? ∧ w' = w := by
  cases h
  exact ⟨rfl, rfl⟩

theorem exec_getOngoingRequest {why : Reading} {found : Option OngoingQueryRequest}
    (h : exec (.getOngoingRequest why) env w = some (found, w')) :
    found = w.state.ongoing why.requestId ∧ w' = w := by
  cases h
  exact ⟨rfl, rfl⟩

/-- A snapshot of the timer holds the channels of connected clients. -/
theorem exec_oldClients {expiration : Duration} {txs : List (ClientId × Tx)}
    (h : exec (.oldClients expiration) env w = some (txs, w')) {clientId : ClientId} {tx : Tx}
    (mem : (clientId, tx) ∈ txs) : w.state.txOf clientId = some tx := by
  obtain ⟨l, hl, heq⟩ := Option.map_eq_some_iff.mp h
  cases heq
  obtain ⟨entries, hiter, rfl⟩ := Option.map_eq_some_iff.mp hl
  obtain ⟨entry, hentry, heq⟩ := List.mem_map.mp mem
  cases heq
  exact State.txOf_eq_some.mpr
    ⟨entry.2, (HashMap.mem_iter hiter).mp (List.mem_filter.mp hentry).1, rfl⟩

/-- A send that comes back refused was not delivered. -/
theorem exec_send_error {client : ClientId} {tx : Tx} {msg : ServerMessage} {err : TxError}
    (h : exec (.send client tx msg) env w = some (.error err, w')) : env.delivered = false := by
  simp only [exec] at h
  split at h
  · cases h
  · rename_i refused
    exact Bool.not_eq_true _ ▸ refused

theorem exec_getExpiredRequests {timeout : Duration} {requests : List OngoingQueryRequest}
    (h : exec (.getExpiredRequests timeout) env w = some (requests, w')) :
    w.state.queryHandlers.getExpiredRequests env.requestOrder env.now timeout = some requests := by
  obtain ⟨l, hl, heq⟩ := Option.map_eq_some_iff.mp h
  cases heq
  exact hl

/-- Every operation files requests under their own ids. -/
theorem keyed_exec (h : exec op env w = some (r, w')) (keyed : w.state.queryHandlers.Keyed) :
    w'.state.queryHandlers.Keyed := by
  intro requestId request found
  have after := (ongoing_exec h requestId).symm.trans found
  unfold ongoingAfter at after
  split at after
  · split at after
    · rename_i id
      cases after
      exact id
    · exact keyed requestId request after
  · split at after
    · cases after
    · exact keyed requestId request after
  · exact keyed requestId request after

omit [Repository R] in
/-- The surroundings do not touch the state. -/
theorem move_state {x : Ext} {job : Option Job} (h : move x w = some (w', job)) :
    w'.state = w.state := by
  cases x with
  | openSession | read => cases h; rfl
  | startBroadcast place =>
    obtain ⟨event, -, heq⟩ := Option.map_eq_some_iff.mp h
    cases heq
    rfl

/-! ## Invariants of the server -/

section Reach

variable {parse : String → Option Uuid} {timing : Timing} {repository : R}
  {cond : ServerConfig R → Nat → Env R → Op → Prop} {σ : ServerConfig R}

/-- The configurations the server reaches when each operation is performed under a condition. -/
abbrev ReachIf (parse : String → Option Uuid) (timing : Timing) (repository : R)
    (cond : ServerConfig R → Nat → Env R → Op → Prop) : ServerConfig R → Prop :=
  (server R parse timing).Reach (Machine.Acting cond) (initial parse timing repository)

/-- **An invariant of the state and the trace** holds in every run when each operation, performed
at its call site and under the run's condition, keeps it. -/
theorem state_invariant (Inv : State R → Trace Op Ret → Prop)
    (reach : ReachIf parse timing repository cond σ) (hinit : Inv (.new repository) [])
    (hact : ∀ {σ : ServerConfig R} {i : Nat} {env : Env R} {job : Job} {op : Op} {r : Ret op}
      {w : World R}, Site parse timing job (σ.trace.of i) op → cond σ i env op →
      exec op env σ.world = some (r, w) → Inv σ.world.state σ.trace →
      Inv w.state ((i, ⟨op, r⟩) :: σ.trace)) : Inv σ.world.state σ.trace := by
  refine Machine.Reach.invariant (fun w tr => Inv w.state tr) reach hinit ?_ ?_
  · intro σ i env job op next r w hreach htask hok hexec ih
    exact hact (site_of_act (flowing hreach) htask) (hok job op next htask)
      (serverExec_exec hexec) ih
  · intro x w w' job tr hmove ih
    rw [move_state hmove]
    exact ih

/-- Any operation may be performed. -/
def anyOp (_ : ServerConfig R) (_ : Nat) (_ : Env R) (_ : Op) : Prop := True

end Reach

section Scenario

open Scenario

variable {schedule : List (ServerLabel NoopSourceEventRepository)}
  {σ : ServerConfig NoopSourceEventRepository}

/-- A scenario reaches where it ends, under any condition its check stands for. -/
theorem Scenario.reach_outcome
    {check : ServerConfig NoopSourceEventRepository → ServerLabel NoopSourceEventRepository → Bool}
    {cond : ServerConfig NoopSourceEventRepository → Nat → Env NoopSourceEventRepository →
      Op → Prop}
    (hcheck : ∀ σ i env job op next, check σ (.act i env) = true →
      σ.tasks[i]? = some ⟨job, .act op next⟩ → cond σ i env op)
    (run : outcome check schedule = some σ) : ReachIf Scenario.parse Scenario.timing ⟨⟩ cond σ := by
  refine Machine.reach_of_runIf (fun σ ℓ checked => ?_) run
  cases ℓ with
  | act i env => exact fun job op next => hcheck σ i env job op next checked
  | loop | ext => trivial

/-- Any scenario is a run. -/
theorem Scenario.reach_anyOp (run : outcome (fun _ _ => true) schedule = some σ) :
    ReachIf Scenario.parse Scenario.timing ⟨⟩ anyOp σ :=
  reach_outcome (fun _ _ _ _ _ _ _ _ => trivial) run

namespace Scenario

/-- The tasks that acted. -/
def actors (tr : Trace Op Ret) : List Nat := (tr.map Prod.fst).dedup

/-- Who did not act has the empty history. -/
theorem like_of_actors {like : History → Bool} {j : Nat} {tr : Trace Op Ret}
    (nil : like [] = true) (acted : j ∈ actors tr → like (tr.of j) = true) :
    like (tr.of j) = true := by
  by_cases mem : j ∈ actors tr
  · exact acted mem
  · have never : tr.of j = [] := by
      refine Machine.Trace.of_eq_nil fun entry at_entry is => mem ?_
      exact List.mem_dedup.mpr (List.mem_map.mpr ⟨entry, at_entry, is⟩)
    rw [never]
    exact nil

/-- All tasks have histories like this. -/
def allAre (like : History → Bool) (tr : Trace Op Ret) : Bool :=
  (actors tr).all fun j => like (tr.of j)

theorem of_allAre (like : History → Bool) {tr : Trace Op Ret} (nil : like [] = true)
    (checked : allAre like tr = true) (j : Nat) : like (tr.of j) = true :=
  like_of_actors nil (List.all_eq_true.mp checked j)

/-- All tasks but task `i` have histories like this. -/
def othersAre (like : History → Bool) (i : Nat) (tr : Trace Op Ret) : Bool :=
  (actors tr).all fun j => j = i || like (tr.of j)

theorem of_othersAre {like : History → Bool} {i j : Nat} {tr : Trace Op Ret}
    (nil : like [] = true) (checked : othersAre like i tr = true) (hj : j ≠ i) :
    like (tr.of j) = true := by
  refine like_of_actors nil fun mem => ?_
  simpa [hj] using List.all_eq_true.mp checked j mem

/-- The task is between two messages and has no request left to time out. -/
def resting (h : History) : Bool := !goesOn h && (toExpire h).isEmpty

/-- These operations are performed only while all other tasks rest. -/
def whileOthersRest (these : Op → Bool) (σ : ServerConfig NoopSourceEventRepository) :
    ServerLabel NoopSourceEventRepository → Bool
  | .act i _ =>
    match σ.tasks[i]? with
    | some ⟨_, .act op _⟩ => !these op || othersAre resting i σ.trace
    | _ => true
  | _ => true

/-- A task that rests is in the middle of nothing. -/
theorem rest_of_whileOthersRest {these : Op → Bool} {i : Nat}
    {env : Env NoopSourceEventRepository} {job : Job} {op : Op}
    {next : Ret op → Async (Option Job)} (checked : whileOthersRest these σ (.act i env) = true)
    (task : σ.tasks[i]? = some ⟨job, .act op next⟩) (this : these op = true) :
    ∀ j, j ≠ i → AtRest (σ.trace.of j) ∧ toExpire (σ.trace.of j) = [] := by
  intro j hj
  simp only [whileOthersRest, task, this, Bool.not_true, Bool.false_or] at checked
  obtain ⟨rest, nothing⟩ := Bool.and_eq_true_iff.mp (of_othersAre rfl checked hj)
  exact ⟨Bool.eq_false_of_not_eq_true' rest, List.isEmpty_iff.mp nothing⟩

end Scenario

end Scenario

end Revent
