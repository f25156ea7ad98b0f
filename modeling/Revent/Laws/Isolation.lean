import Revent.Laws.Provenance

/-!
# Who may touch what

A session works on the one client it took up, and on the requests that its payloads name. However
the tasks are interleaved, the entry of a client and its places in the handler lists are changed
only by a task that received a registration of that very id, or that just sent the client a
heartbeat; and an ongoing request is changed only by a task that received a payload with its id, or
that found it expired (`isolated_of_reach`).
-/

namespace Revent

open Interleave (Event Trace Machine)

variable {R : Type}

/-- The task has to do with the client: it received a registration of the id, or sent a heartbeat
there. -/
inductive KnowsClient (clientId : ClientId) (h : History) : Prop where
  | named {r : Proto.RegisterClient}
      (received : ⟨.receive, .message (some (.registerClient r))⟩ ∈ h)
      (id : r.clientId = clientId.val)
  | beaten {tx : Tx} {sent : Except TxError Unit}
      (beat : ⟨.send clientId tx .heartbeat, sent⟩ ∈ h)

/-- The task has to do with the request: it received a payload with its id, or found it expired. -/
inductive KnowsRequest (parse : String → Option Uuid) (requestId : RequestId) (h : History) :
    Prop where
  | named {payload : Proto.Payload} {text : String}
      (received : ⟨.receive, .message (some payload)⟩ ∈ h)
      (field : payload.requestId? = some text) (parsed : parse text = some requestId.val)
  | expired {timeout : Duration} {requests : List OngoingQueryRequest}
      {request : OngoingQueryRequest} (found : ⟨.getExpiredRequests timeout, requests⟩ ∈ h)
      (mem : request ∈ requests) (id : request.requestId = requestId)

/-- **A task touches only what it has to do with.** -/
structure Isolated (parse : String → Option Uuid) (h : History) (w w' : World R) : Prop where
  clients : ∀ clientId, w'.clients[clientId]? ≠ w.clients[clientId]? → KnowsClient clientId h
  listed : ∀ query clientId, (w'.state.listed query).count clientId ≠
    (w.state.listed query).count clientId → KnowsClient clientId h
  ongoing : ∀ requestId, w'.state.ongoing requestId ≠ w.state.ongoing requestId →
    KnowsRequest parse requestId h

/-! ## What the hands of a task hold -/

section Hands

variable {parse : String → Option Uuid} {timing : Timing} {job : Job} {h : History} {op : Op}
  {clientId : ClientId}

theorem KnowsClient.cons {ev : Event Op Ret} (knows : KnowsClient clientId h) :
    KnowsClient clientId (ev :: h) := by
  cases knows with
  | named received id => exact .named (List.mem_cons_of_mem _ received) id
  | beaten beat => exact .beaten (List.mem_cons_of_mem _ beat)

theorem KnowsRequest.cons {requestId : RequestId} {ev : Event Op Ret}
    (knows : KnowsRequest parse requestId h) : KnowsRequest parse requestId (ev :: h) := by
  cases knows with
  | named received field parsed => exact .named (List.mem_cons_of_mem _ received) field parsed
  | expired found mem id => exact .expired (List.mem_cons_of_mem _ found) mem id

/-- A registration in the hands of a task was received by it. -/
theorem Handed.knows_registrant {msg : RegisterClientMessage}
    (hand : Handed parse job h (.registerClient msg)) : KnowsClient msg.clientId h := by
  obtain ⟨r, took, named⟩ := hand.took_registration
  exact .named took.1 named.symm

theorem Handed.knows_request {msg : QueryRequestMessage}
    (hand : Handed parse job h (.queryRequest msg)) : KnowsRequest parse msg.requestId h := by
  obtain ⟨qr, took, parsed, -⟩ := hand.took_request
  exact .named took.1 rfl parsed

theorem Handed.knows_answered {answer : Answer} (hand : Handed parse job h answer.clientMessage) :
    KnowsRequest parse answer.requestId h := by
  obtain ⟨payload, received, opt, tx, carries⟩ | ⟨_, same⟩ | ⟨_, same⟩ := hand.took_payload
  · cases answer with
    | response msg =>
      cases carries with
      | queryResponse parsed => exact .named received rfl parsed
    | failed msg =>
      cases carries with
      | queryHandlingFailed parsed => exact .named received rfl parsed
  · cases answer <;> cases same
  · cases answer <;> cases same

/-- Whoever a message in the hands of a task speaks for, the session took up, or the timer sent a
heartbeat. -/
theorem Handed.speaks {msg : ClientMessage} (hand : Handed parse job h msg)
    (source : msg.getSource = some clientId) :
    (∃ tx, clientIdOption h = some (clientId, tx)) ∨ KnowsClient clientId h := by
  cases hand with
  | @decoded tx opt payload msg h ready decode =>
    obtain ⟨m, rfl, -⟩ | ⟨source', rfl, speaks, -⟩ := ClientMessage.ofProto_cases decode
    · cases source
    · cases speaks.symm.trans source
      exact .inl ⟨tx, congrArg Memory.clientIdOption ready.memory⟩
  | @closed tx client received h ready =>
    cases source
    exact .inl ⟨tx, congrArg Memory.clientIdOption ready.memory⟩
  | alive | dead =>
    cases source
    exact .inr (.beaten List.mem_cons_self)

/-- A request still to expire is one of those that were found expired. -/
theorem knows_of_mem_toExpire {request : OngoingQueryRequest} (mem : request ∈ toExpire h) :
    KnowsRequest parse request.requestId h := by
  fun_induction toExpire h with
  | case1 => cases mem
  | case2 => exact .expired List.mem_cons_self mem rfl
  | case3 _ _ _ ih => exact (ih (List.mem_of_mem_tail mem)).cons
  | case4 _ _ _ _ ih => exact (ih mem).cons

/-- **Taking a client up** comes after a registration of it was received. -/
theorem Site.knows_taken {r : Ret op} {tx : Tx} (site : Site parse timing job h op)
    (taken : clientIdOption (⟨op, r⟩ :: h) = some (clientId, tx)) :
    clientIdOption h = some (clientId, tx) ∨ KnowsClient clientId h := by
  unfold clientIdOption at taken
  split at taken
  · cases taken
  · rename_i same
    cases same
    cases taken
    cases site with
    | rejecting hand => exact .inr hand.knows_registrant.cons.cons
    | @answer _ _ answer _ _ _ _ _ reply => cases answer <;> cases reply
  · rename_i same
    cases same
    cases taken
    cases site with
    | acknowledging hand => exact .inr hand.knows_registrant.cons.cons
    | @answer _ _ answer _ _ _ _ _ reply => cases answer <;> cases reply
  · rename_i same
    cases same
    cases taken
    cases site with
    | adding hand => exact .inr hand.knows_registrant.cons.cons.cons.cons
  · cases taken
  · rename_i same
    cases same
    exact .inl taken

end Hands

/-! ## What an operation may change -/

/-- The client whose entry or lists the operation may change. -/
def Op.client? : Op → Option ClientId
  | .updateLastSeen msg => msg.getSource
  | .insertClient msg | .addClientQueryHandler msg => some msg.clientId
  | .removeClient clientId | .disconnectClient clientId => some clientId
  | _ => none

/-- The ongoing request that the operation may change. -/
def Op.request? : Op → Option RequestId
  | .handleQueryRequestedEvent request => some request.requestId
  | .removeOngoingRequest requestId => some requestId
  | _ => none

section Changes

variable {op : Op} {clientId : ClientId} {requestId : RequestId}

theorem client?_of_clientsAfter [Repository R] {env : Env R} {clients : HashMap ClientId ClientInfo}
    (changed : (clientsAfter env clients op)[clientId]? ≠ clients[clientId]?) :
    op.client? = some clientId := by
  unfold clientsAfter at changed
  split at changed
  · rename_i msg
    show msg.getSource = some clientId
    cases source : msg.getSource with
    | none =>
      rw [source] at changed
      exact absurd rfl changed
    | some source' =>
      rw [source, Option.elim_some, touch, HashMap.getElem?_modify] at changed
      split at changed
      · rename_i same
        rw [same]
      · exact absurd rfl changed
  · rename_i msg
    rw [HashMap.getElem?_insert] at changed
    split at changed
    · rename_i same
      exact congrArg some same
    · exact absurd rfl changed
  · rename_i removed
    rw [HashMap.getElem?_erase] at changed
    split at changed
    · rename_i same
      exact congrArg some same
    · exact absurd rfl changed
  · exact absurd rfl changed

theorem client?_of_listedAfter {query : QueryId} {clients : List ClientId}
    (changed : (listedAfter query clients op).count clientId ≠ clients.count clientId) :
    op.client? = some clientId := by
  unfold listedAfter at changed
  split at changed
  · rename_i msg
    by_cases same : msg.clientId = clientId
    · exact congrArg some same
    · have none :
          (List.replicate (msg.queryHandlers.count query) msg.clientId).count clientId = 0 :=
        List.count_eq_zero.mpr fun mem => same (List.eq_of_mem_replicate mem).symm
      rw [List.count_append, none, Nat.add_zero] at changed
      exact absurd rfl changed
  · rename_i removed
    by_cases same : removed = clientId
    · exact congrArg some same
    · rw [List.count_filter (by simpa using Ne.symm same)] at changed
      exact absurd rfl changed
  · exact absurd rfl changed

theorem request?_of_ongoingAfter {ongoing : Option OngoingQueryRequest}
    (changed : ongoingAfter requestId ongoing op ≠ ongoing) : op.request? = some requestId := by
  unfold ongoingAfter at changed
  split at changed
  · split at changed
    · rename_i same
      exact congrArg some same
    · exact absurd rfl changed
  · split at changed
    · rename_i same
      exact congrArg some same
    · exact absurd rfl changed
  · exact absurd rfl changed

variable {parse : String → Option Uuid} {timing : Timing} {job : Job} {h : History}

/-- Whoever a message in the hands of a task speaks for, the task has to do with. -/
theorem Handed.knows_source {msg : ClientMessage} (hand : Handed parse job h msg)
    (source : msg.getSource = some clientId)
    (taken : ∀ tx, clientIdOption h = some (clientId, tx) → KnowsClient clientId h) :
    KnowsClient clientId h := by
  rcases hand.speaks source with ⟨tx, up⟩ | known
  · exact taken tx up
  · exact known

/-- **The client an operation may change** is one that its task has to do with. -/
theorem Site.knows_client (site : Site parse timing job h op)
    (changes : op.client? = some clientId)
    (taken : ∀ tx, clientIdOption h = some (clientId, tx) → KnowsClient clientId h) :
    KnowsClient clientId h := by
  cases site with
  | handle hand => exact hand.knows_source changes taken
  | inserting hand =>
    cases changes
    exact hand.knows_registrant.cons.cons.cons
  | adding hand =>
    cases changes
    exact hand.knows_registrant.cons.cons.cons.cons
  | @removing _ h' _ hand =>
    cases changes
    obtain ⟨tx, up⟩ | known := hand.speaks rfl
    · exact taken tx up
    · exact known.cons
  | @disconnecting _ h' _ hand =>
    cases changes
    obtain ⟨tx, up⟩ | known := hand.speaks rfl
    · exact taken tx up
    · exact known.cons.cons
  | _ => cases changes

/-- **The request an operation may change** is one that its task has to do with. -/
theorem Site.knows_request (site : Site parse timing job h op)
    (changes : op.request? = some requestId) : KnowsRequest parse requestId h := by
  cases site with
  | recording hand =>
    cases changes
    exact hand.knows_request.cons.cons.cons.cons.cons.cons.cons
  | answered is _ hand =>
    cases changes
    subst is
    exact hand.knows_answered.cons.cons.cons.cons
  | @timedOut request _ _ _ _ ready =>
    cases changes
    have expires : toExpire _ = request :: _ := congrArg Memory.toExpire ready.memory
    exact (knows_of_mem_toExpire (expires ▸ List.mem_cons_self)).cons.cons
  | @timedOutGone request _ _ ready =>
    cases changes
    have expires : toExpire _ = request :: _ := congrArg Memory.toExpire ready.memory
    exact (knows_of_mem_toExpire (expires ▸ List.mem_cons_self)).cons
  | _ => cases changes

end Changes

/-! ## The law -/

section Run

variable [Repository R] {parse : String → Option Uuid} {timing : Timing} {repository : R}
  {cond : ServerConfig R → Nat → Env R → Op → Prop} {σ σ' : ServerConfig R} {i : Nat}

/-- A task that works as a client received a registration of its id before. -/
theorem knows_of_clientIdOption (reach : ReachIf parse timing repository cond σ)
    {clientId : ClientId} {tx : Tx} (taken : clientIdOption (σ.trace.of i) = some (clientId, tx)) :
    KnowsClient clientId (σ.trace.of i) := by
  refine state_invariant (fun _ tr => ∀ i clientId tx,
    clientIdOption (Trace.of tr i) = some (clientId, tx) → KnowsClient clientId (Trace.of tr i))
    reach ?_ ?_ i clientId tx taken
  · intro i clientId tx taken
    cases taken
  · intro σ i env job op r w site _ _ knows k clientId tx taken
    by_cases here : i = k
    · subst here
      rw [Trace.of_cons_self] at taken ⊢
      rcases site.knows_taken taken with before | known
      · exact (knows i clientId tx before).cons
      · exact known.cons
    · rw [Trace.of_cons_ne _ here] at taken ⊢
      exact knows k clientId tx taken

/-- **Who may touch what**, at every step of every run. -/
theorem isolated_of_reach {env : Env R} (reach : ReachIf parse timing repository cond σ)
    (stepped : (server R parse timing).step σ (.act i env) = some σ') :
    Isolated parse (σ.trace.of i) σ.world σ'.world := by
  cases Machine.step_cases stepped with
  | @act _ _ job op next r w task performed =>
    have site := site_of_act (flowing reach) task
    have performed := serverExec_exec performed
    have taken (clientId : ClientId) (tx : Tx)
        (up : clientIdOption (σ.trace.of i) = some (clientId, tx)) :
        KnowsClient clientId (σ.trace.of i) := knows_of_clientIdOption reach up
    refine ⟨fun clientId changed => ?_, fun query clientId changed => ?_,
      fun requestId changed => ?_⟩
    · rw [clients_exec performed] at changed
      exact site.knows_client (client?_of_clientsAfter changed) (taken clientId)
    · rw [listed_exec performed] at changed
      exact site.knows_client (client?_of_listedAfter changed) (taken clientId)
    · rw [ongoing_exec performed] at changed
      exact site.knows_request (request?_of_ongoingAfter changed)

end Run

section Scenario

open Scenario

/-- The last step of a session that ends: it unlists the client that the session registered. -/
theorem isolated_departure : ∃ σ σ', outcome (fun _ _ => true) session.dropLast = some σ ∧
    (server _ Scenario.parse Scenario.timing).step σ (turn 1) = some σ' ∧
    Isolated Scenario.parse (σ.trace.of 1) σ.world σ'.world := by
  have last : ((outcome (fun _ _ => true) session.dropLast).bind fun σ =>
      (server _ Scenario.parse Scenario.timing).step σ (turn 1)).isSome := by
    decide +kernel
  obtain ⟨σ', stepped⟩ := Option.isSome_iff_exists.mp last
  obtain ⟨σ, run, stepped⟩ := Option.bind_eq_some_iff.mp stepped
  exact ⟨σ, σ', run, stepped, isolated_of_reach (reach_anyOp run) stepped⟩

end Scenario

end Revent
