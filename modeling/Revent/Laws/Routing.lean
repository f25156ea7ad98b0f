import Revent.Laws.Requests

/-!
# Routing integrity

A request travels as a message in the hands of the task that forwards it, then as an entry of the
ongoing requests, then as a copy in the hands of the handlers that answer it and of the timer.
Wherever it is, it was asked: a client sent it, and it was forwarded before (`Asked`). So every
answer and every time-out goes to the client that asked, after the request was forwarded, and
every forwarding goes to a client that was listed for the query when it was selected.
-/

namespace Revent

open Interleave (Event Trace Prog Machine Config Task)

/-- A query request came in: a session that spoke for its requester received a payload that
decodes to it. -/
def ReceivedRequest (parse : String → Option Uuid) (msg : QueryRequestMessage)
    (tr : Trace Op Ret) : Prop :=
  ∃ later i payload tx earlier, tr = later ++ (i, ⟨.receive, .message (some payload)⟩) :: earlier ∧
    clientIdOption (Trace.of earlier i) = some (msg.requester, tx) ∧
    ClientMessage.ofProto parse payload (some msg.requester) tx = .ok (.queryRequest msg)

/-- The request was forwarded to the client. -/
def ForwardedRequest (msg : QueryRequestMessage) (responder : ClientId) (tr : Trace Op Ret) :
    Prop :=
  ∃ i tx, (i, ⟨.send responder tx (.queryRequested msg.toQueryRequested), .ok ()⟩) ∈ tr

/-- The message tells the outcome of a request: its id, and the query id if it names one. -/
def ServerMessage.outcomeOf : ServerMessage → Option (RequestId × Option QueryId)
  | .queryResponded msg => some (msg.requestId, none)
  | .queryRequestedFailed requestId queryId (.handlingError _) => some (requestId, some queryId)
  | .queryRequestedFailed requestId queryId .queryTimedOut => some (requestId, some queryId)
  | _ => none

/-- **Routing integrity**: a request is forwarded as it was received, to a client that was listed
for the query where the run selected it; an outcome is told to the client that asked for it, after
the request was received from it and forwarded; and every send is over the channel of its client's
entry where the task looked it up. -/
structure RoutingIntegrity {R : Type} [Repository R] (parse : String → Option Uuid)
    (timing : Timing) (repository : R) (σ : ServerConfig R) : Prop where
  requested : ∀ later i client tx forwarded sent earlier,
    σ.trace = later ++ (i, ⟨.send client tx (.queryRequested forwarded), sent⟩) :: earlier →
    ∃ msg, forwarded = msg.toQueryRequested ∧ ReceivedRequest parse msg earlier ∧
      ∃ σ₀, (server R parse timing).Performed (Machine.Acting anyOp)
          (initial parse timing repository) σ i ⟨.getClientIdForQueryId msg, .ok client⟩ σ₀ ∧
        σ₀.trace <:+ earlier ∧ client ∈ σ₀.world.state.listed msg.queryId
  told : ∀ later i client tx message sent earlier requestId named,
    σ.trace = later ++ (i, ⟨.send client tx message, sent⟩) :: earlier →
    message.outcomeOf = some (requestId, named) →
    ∃ msg responder, msg.requester = client ∧ msg.requestId = requestId ∧
      (∀ queryId, named = some queryId → msg.queryId = queryId) ∧
      ReceivedRequest parse msg earlier ∧ ForwardedRequest msg responder earlier
  addressed : ∀ later i client tx message sent earlier,
    σ.trace = later ++ (i, ⟨.send client tx message, sent⟩) :: earlier →
    (∃ forwarded, message = .queryRequested forwarded) ∨ message.outcomeOf ≠ none →
    ∃ why info σ₀, (server R parse timing).Performed (Machine.Acting anyOp)
        (initial parse timing repository) σ i ⟨.getClientById why, some info⟩ σ₀ ∧
      σ₀.trace <:+ earlier ∧ σ₀.world.clients[client]? = some info ∧ info.tx = tx

/-! ## Where a request is -/

/-- The request was asked: it was received and forwarded. -/
def Asked (parse : String → Option Uuid) (request : OngoingQueryRequest) (tr : Trace Op Ret) :
    Prop :=
  ∃ msg responder now, request = .of responder msg now ∧ ReceivedRequest parse msg tr ∧
    ForwardedRequest msg responder tr

section Moves

variable {parse : String → Option Uuid} {timing : Timing} {job : Job} {op : Op} {r : Ret op}
  {h : History}

theorem ReceivedRequest.cons {msg : QueryRequestMessage} {tr : Trace Op Ret}
    {entry : Nat × Event Op Ret} (received : ReceivedRequest parse msg tr) :
    ReceivedRequest parse msg (entry :: tr) := by
  obtain ⟨later, i, payload, tx, earlier, rfl, source, decode⟩ := received
  exact ⟨entry :: later, i, payload, tx, earlier, rfl, source, decode⟩

theorem Asked.cons {request : OngoingQueryRequest} {tr : Trace Op Ret}
    {entry : Nat × Event Op Ret} (asked : Asked parse request tr) :
    Asked parse request (entry :: tr) := by
  obtain ⟨msg, responder, now, rfl, received, k, tx, forwarded⟩ := asked
  exact ⟨msg, responder, now, rfl, received.cons, k, tx, List.mem_cons_of_mem _ forwarded⟩

/-- The task received the query request while it spoke for the requester. -/
def TookRequest (parse : String → Option Uuid) (msg : QueryRequestMessage) (h : History) : Prop :=
  ∃ later payload tx earlier, h = later ++ ⟨.receive, .message (some payload)⟩ :: earlier ∧
    clientIdOption earlier = some (msg.requester, tx) ∧
    ClientMessage.ofProto parse payload (some msg.requester) tx = .ok (.queryRequest msg)

theorem TookRequest.cons {msg : QueryRequestMessage} {ev : Event Op Ret}
    (took : TookRequest parse msg h) : TookRequest parse msg (ev :: h) := by
  obtain ⟨later, payload, tx, earlier, rfl, source, decode⟩ := took
  exact ⟨ev :: later, payload, tx, earlier, rfl, source, decode⟩

theorem TookRequest.received {msg : QueryRequestMessage} {tr : Trace Op Ret} {i : Nat}
    (took : TookRequest parse msg (tr.of i)) : ReceivedRequest parse msg tr := by
  obtain ⟨later, payload, tx, earlier, split, source, decode⟩ := took
  obtain ⟨after, before, rfl, rfl⟩ := Trace.split_of split
  exact ⟨after, i, payload, tx, before, rfl, source, decode⟩

/-- A query request is handed over by a session that received it. -/
theorem Handed.took {msg : QueryRequestMessage} (hand : Handed parse job h (.queryRequest msg)) :
    TookRequest parse msg h := by
  cases hand with
  | @decoded tx opt payload _ h ready decode =>
    rcases ClientMessage.ofProto_cases decode with ⟨m, same, -⟩ | ⟨source, rfl, speaks, -⟩
    · cases same
    · cases speaks
      exact ⟨[], payload, tx, h, rfl, congrArg Memory.clientIdOption ready.memory, decode⟩

/-- The answer of an operation hands its task a request with an id. -/
inductive HandsRequest : RequestId → OngoingQueryRequest → Event Op Ret → Prop
  | read {why : Reading} {requestId : RequestId} {request : OngoingQueryRequest}
      (id : why.requestId = requestId) :
      HandsRequest requestId request ⟨.getOngoingRequest why, some request⟩
  | expired {timeout : Duration} {requests : List OngoingQueryRequest}
      {request : OngoingQueryRequest} (mem : request ∈ requests) :
      HandsRequest request.requestId request ⟨.getExpiredRequests timeout, requests⟩

/-- A request still to expire is one of a reading. -/
theorem mem_toExpire {request : OngoingQueryRequest} (mem : request ∈ toExpire h) :
    ∃ ev ∈ h, HandsRequest request.requestId request ev := by
  fun_induction toExpire h with
  | case1 => cases mem
  | case2 => exact ⟨_, List.mem_cons_self, .expired mem⟩
  | case3 _ _ _ ih =>
    obtain ⟨ev, hev, hands⟩ := ih (List.mem_of_mem_tail mem)
    exact ⟨ev, List.mem_cons_of_mem _ hev, hands⟩
  | case4 _ _ _ _ ih =>
    obtain ⟨ev, hev, hands⟩ := ih mem
    exact ⟨ev, List.mem_cons_of_mem _ hev, hands⟩

/-- A forwarding: the request was received, and the client selected for it. -/
theorem Site.selected_of_forward {client : ClientId} {tx : Tx} {forwarded : QueryRequestedMessage}
    (site : Site parse timing job h (.send client tx (.queryRequested forwarded))) :
    ∃ msg, forwarded = msg.toQueryRequested ∧ TookRequest parse msg h ∧
      ⟨.getClientIdForQueryId msg, .ok client⟩ ∈ h := by
  cases site with
  | @forwarding _ _ msg _ _ _ hand =>
    exact ⟨msg, rfl, hand.took.cons.cons.cons.cons.cons, by simp⟩
  | @answer _ _ answer _ _ _ _ _ reply => cases answer <;> cases reply

/-- A recording: the request was received, and it was forwarded to its responder. -/
theorem Site.forwarded_of_record {request : OngoingQueryRequest}
    (site : Site parse timing job h (.handleQueryRequestedEvent request)) :
    ∃ msg responder now, request = .of responder msg now ∧ TookRequest parse msg h ∧
      ∃ tx, ⟨.send responder tx (.queryRequested msg.toQueryRequested), .ok ()⟩ ∈ h := by
  cases site with
  | @recording _ _ msg _ selected responder now hand =>
    exact ⟨msg, selected, now, rfl, hand.took.cons.cons.cons.cons.cons.cons.cons, responder.tx,
      by simp⟩

/-- An outcome: its request was handed to the task, and its client is the requester. -/
theorem Site.handed_of_outcome {client : ClientId} {tx : Tx} {message : ServerMessage}
    {requestId : RequestId} {named : Option QueryId}
    (site : Site parse timing job h (.send client tx message))
    (outcome : message.outcomeOf = some (requestId, named)) :
    ∃ request, request.requester = client ∧
      (∀ queryId, named = some queryId → request.queryId = queryId) ∧
      ∃ ev ∈ h, HandsRequest requestId request ev := by
  cases site with
  | @answer _ h' answer _ request _ _ is reply hand =>
    refine ⟨request, rfl, ?_⟩
    cases answer with
    | response msg =>
      cases reply
      cases outcome
      refine ⟨nofun, ⟨.getOngoingRequest (.answer (.response msg)), some request⟩, ?_, .read rfl⟩
      simp
    | failed msg =>
      cases reply
      cases outcome
      refine ⟨fun queryId same => Option.some.inj same,
        ⟨.getOngoingRequest (.answer (.failed msg)), some request⟩, by simp, .read rfl⟩
  | @timeOut request requests info h' ready =>
    cases outcome
    have expires : toExpire h' = request :: requests := congrArg Memory.toExpire ready.memory
    obtain ⟨ev, mem, hands⟩ := mem_toExpire (expires ▸ List.mem_cons_self : request ∈ toExpire h')
    exact ⟨request, rfl, fun queryId same => Option.some.inj same, ev,
      List.mem_cons_of_mem _ mem, hands⟩
  | _ => cases outcome

/-- A forwarding or an outcome goes over the channel that the task looked up. -/
theorem Site.looked_up {client : ClientId} {tx : Tx} {message : ServerMessage}
    (site : Site parse timing job h (.send client tx message))
    (routed : (∃ forwarded, message = .queryRequested forwarded) ∨ message.outcomeOf ≠ none) :
    ∃ why info, ⟨.getClientById why, some info⟩ ∈ h ∧ why.clientId = client ∧ info.tx = tx := by
  cases site with
  | forwarding | answer | timeOut => exact ⟨_, _, List.mem_cons_self, rfl, rfl⟩
  | _ =>
    rcases routed with ⟨forwarded, same⟩ | outcome
    · cases same
    · exact absurd rfl outcome

end Moves

/-! ## The invariant -/

/-- The invariant: the ongoing requests were asked, and so were the requests handed to a task,
under the ids they were read for. -/
structure AskedFirst {R : Type} (parse : String → Option Uuid) (s : State R)
    (tr : Trace Op Ret) : Prop where
  ongoing : ∀ {requestId request}, s.ongoing requestId = some request → Asked parse request tr
  handed : ∀ {i ev requestId request}, (i, ev) ∈ tr → HandsRequest requestId request ev →
    Asked parse request tr ∧ request.requestId = requestId

section Invariant

variable {R : Type} [Repository R] {parse : String → Option Uuid} {timing : Timing}
  {σ : ServerConfig R} {i : Nat} {job : Job} {op : Op} {env : Env R} {r : Ret op} {w : World R}

/-- What a task is handed is ongoing, with its own id. -/
theorem HandsRequest.ongoing {requestId : RequestId} {request : OngoingQueryRequest}
    (hands : HandsRequest requestId request ⟨op, r⟩) (hexec : exec op env σ.world = some (r, w))
    (keyed : σ.world.state.queryHandlers.Keyed) :
    σ.world.state.ongoing requestId = some request ∧ request.requestId = requestId := by
  cases hands with
  | read id =>
    have found := (exec_getOngoingRequest hexec).1.symm
    subst id
    exact ⟨found, keyed _ _ found⟩
  | expired mem =>
    obtain ⟨requestId, found⟩ := QueryHandler.mem_getExpiredRequests
      (exec_getExpiredRequests hexec) mem
    have id := keyed requestId request found
    exact ⟨id ▸ found, rfl⟩

/-- Each operation keeps the invariant. -/
theorem AskedFirst.act (inv : AskedFirst parse σ.world.state σ.trace)
    (keyed : σ.world.state.queryHandlers.Keyed)
    (site : Site parse timing job (σ.trace.of i) op)
    (hexec : exec op env σ.world = some (r, w)) :
    AskedFirst parse w.state ((i, ⟨op, r⟩) :: σ.trace) where
  ongoing := by
    intro requestId request found
    rw [ongoing_exec hexec] at found
    unfold ongoingAfter at found
    split at found
    · split at found
      · cases found
        obtain ⟨msg, responder, now, rfl, took, tx, forwarded⟩ := site.forwarded_of_record
        exact Asked.cons ⟨msg, responder, now, rfl, took.received, i, tx, Trace.mem_of forwarded⟩
      · exact (inv.ongoing found).cons
    · split at found
      · cases found
      · exact (inv.ongoing found).cons
    · exact (inv.ongoing found).cons
  handed := by
    intro k ev requestId request mem hands
    rcases List.mem_cons.mp mem with heq | mem
    · cases heq
      obtain ⟨found, id⟩ := hands.ongoing hexec keyed
      exact ⟨(inv.ongoing found).cons, id⟩
    · obtain ⟨asked, id⟩ := inv.handed mem hands
      exact ⟨asked.cons, id⟩

variable {repository : R} {cond : ServerConfig R → Nat → Env R → Op → Prop}

/-- Wherever a request is, it was asked. -/
theorem askedFirst (reach : ReachIf parse timing repository cond σ) :
    σ.world.state.queryHandlers.Keyed ∧ AskedFirst parse σ.world.state σ.trace :=
  state_invariant (fun s tr => s.queryHandlers.Keyed ∧ AskedFirst parse s tr) reach
    ⟨nofun, ⟨nofun, nofun⟩⟩
    fun site _ hexec ⟨keyed, inv⟩ => ⟨keyed_exec hexec keyed, inv.act keyed site hexec⟩

/-- A selected client was listed for the query where it was selected. -/
theorem exec_getClientIdForQueryId {msg : QueryRequestMessage} {client : ClientId}
    (hexec : exec (.getClientIdForQueryId msg) env σ.world = some (.ok client, w)) :
    client ∈ σ.world.state.listed msg.queryId := by
  obtain ⟨selected, -⟩ := Prod.mk.inj (Option.some.inj hexec)
  rcases σ.world.state.queryHandlers.getClientIdForQueryId_fst msg.queryId with
    absent | ⟨found, mem, chosen⟩
  · cases absent.symm.trans selected
  · cases chosen.symm.trans selected
    exact mem

/-- The site of an event of the trace, where the run passed. -/
theorem site_of_trace {later earlier : Trace Op Ret} {ev : Event Op Ret}
    (reach : ReachIf parse timing repository cond σ)
    (htr : σ.trace = later ++ (i, ev) :: earlier) :
    ∃ σ₀ job, ReachIf parse timing repository cond σ₀ ∧ σ₀.trace = earlier ∧
      Site parse timing job (earlier.of i) ev.op := by
  obtain ⟨σ₀, ⟨before, env, w, performed, σ₁, stepped, -, trace, -⟩, rfl⟩ := reach.split rfl htr
  cases Machine.step_cases stepped with
  | act task _ =>
    cases trace
    exact ⟨σ₀, _, before, rfl, site_of_act (flowing before) task⟩

/-- A run passes through what was performed before an event of its trace. -/
theorem performed_before {later earlier : Trace Op Ret} {entry : Nat × Event Op Ret}
    {ev : Event Op Ret} (reach : ReachIf parse timing repository cond σ)
    (htr : σ.trace = later ++ entry :: earlier) (mem : (i, ev) ∈ earlier) :
    ∃ σ₀, (server R parse timing).Performed (Machine.Acting cond)
        (initial parse timing repository) σ i ev σ₀ ∧ σ₀.trace <:+ earlier := by
  obtain ⟨between, before, rfl⟩ := List.append_of_mem mem
  have split : σ.trace = (later ++ entry :: between) ++ (i, ev) :: before := by
    rw [htr, List.append_assoc, List.cons_append]
  obtain ⟨σ₀, performed, rfl⟩ := reach.split rfl split
  exact ⟨σ₀, performed, List.IsSuffix.trans (List.suffix_cons _ _) (List.suffix_append _ _)⟩

/-- Where a run passed, the event was performed. -/
theorem exec_performed {ok : ServerConfig R → ServerLabel R → Prop} {init σ₀ : ServerConfig R}
    (performed : (server R parse timing).Performed ok init σ i ⟨op, r⟩ σ₀) :
    ∃ (env : Env R) (w : World R), exec op env σ₀.world = some (r, w) := by
  obtain ⟨env, w, hexec, -⟩ := performed.here
  exact ⟨env, w, serverExec_exec hexec⟩

/-- **Routing integrity**, in every run. -/
theorem routingIntegrity_of_reach (reach : ReachIf parse timing repository anyOp σ) :
    RoutingIntegrity parse timing repository σ := by
  refine ⟨?_, ?_, ?_⟩
  · intro later i client tx forwarded sent earlier htr
    obtain ⟨-, job, -, -, site⟩ := site_of_trace reach htr
    obtain ⟨msg, rfl, took, selected⟩ := site.selected_of_forward
    refine ⟨msg, rfl, took.received, ?_⟩
    obtain ⟨σ₀, performed, suffix⟩ := performed_before reach htr (Trace.mem_of selected)
    obtain ⟨env, w, hexec⟩ := exec_performed performed
    exact ⟨σ₀, performed, suffix, exec_getClientIdForQueryId hexec⟩
  · intro later i client tx message sent earlier requestId named htr outcome
    obtain ⟨σ₀, job, reach₀, rfl, site⟩ := site_of_trace reach htr
    obtain ⟨request, rfl, naming, ev, mem, hands⟩ := site.handed_of_outcome outcome
    obtain ⟨⟨msg, responder, now, rfl, received, forwarded⟩, rfl⟩ :=
      (askedFirst reach₀).2.handed (Trace.mem_of mem) hands
    exact ⟨msg, responder, rfl, rfl, naming, received, forwarded⟩
  · intro later i client tx message sent earlier htr routed
    obtain ⟨-, job, -, -, site⟩ := site_of_trace reach htr
    obtain ⟨why, info, mem, rfl, is⟩ := site.looked_up routed
    obtain ⟨σ₀, performed, suffix⟩ := performed_before reach htr (Trace.mem_of mem)
    obtain ⟨env, w, hexec⟩ := exec_performed performed
    exact ⟨why, info, σ₀, performed, suffix, (exec_getClientById hexec).1.symm, is⟩

end Invariant

section Scenario

open Scenario

/-- A session alone is forwarded its own query and sent its own response. -/
theorem routingIntegrity_session : ∃ σ, outcome (fun _ _ => true) session = some σ ∧
    RoutingIntegrity Scenario.parse Scenario.timing ⟨⟩ σ := by
  obtain ⟨σ, run⟩ := Option.isSome_iff_exists.mp
    (by decide +kernel : (outcome (fun _ _ => true) session).isSome)
  exact ⟨σ, run, routingIntegrity_of_reach (reach_anyOp run)⟩

end Scenario

end Revent
