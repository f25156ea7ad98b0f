import Revent.Laws.Requests
import Revent.Laws.Switchboard

/-!
# The round trip of a query

From the request to its answer, over whatever is handled in between. A request that was forwarded
is ongoing, and its requester waits for the answer on its channel (`Awaits`). Registrations, even
of the requester's own id, requests, even repeated ones, events, heartbeats, answers to other
requests and the departures of others leave it so; so does a tick of the timer that neither finds
the request expired nor fails to send the requester a heartbeat. Then the first answer, whoever
sends it, is sent to the requester over that channel, with its result or its reason, and ends the
exchange if it is accepted (`roundTrip_of_sequentialRun`).
-/

namespace Revent

open Interleave (Event Prog Alone Sequential)

variable {R : Type}

namespace Switchboard

/-- The requester of an ongoing request waits for its answer on a channel. -/
structure Awaits (board : Switchboard) (request : OngoingQueryRequest) (tx : Tx) : Prop where
  ongoing : board.ongoing request.requestId = some request.untimed
  requester : board.channels request.requester = some tx

end Switchboard

/-- The message is no answer to the request, and not the departure of its requester. -/
def ClientMessage.Spares (request : OngoingQueryRequest) : ClientMessage → Prop
  | .queryResponse msg => msg.requestId ≠ request.requestId
  | .queryHandlingFailed msg => msg.requestId ≠ request.requestId
  | .disconnectClient clientId => clientId ≠ request.requester
  | _ => True

/-- A request with the id is found expired. -/
def findsExpired (requestId : RequestId) : Event Op Ret → Bool
  | ⟨.getExpiredRequests _, requests⟩ => requests.any fun request => request.requestId = requestId
  | _ => false

/-- A heartbeat to the client fails. -/
def failsHeartbeat (clientId : ClientId) : Event Op Ret → Bool
  | ⟨.send client _ .heartbeat, .error _⟩ => client = clientId
  | _ => false

/-- No heartbeat to the requester fails, and the request is not found expired. -/
structure TickSpares (request : OngoingQueryRequest) (events : History) : Prop where
  beats : ∀ ev ∈ events, failsHeartbeat request.requester ev = false
  current : ∀ ev ∈ events, findsExpired request.requestId ev = false

/-- **A turn leaves an exchange alone.** -/
def Spares (request : OngoingQueryRequest) (turn : ServerTurn R) : Prop :=
  match turn.call with
  | .message msg => msg.Spares request
  | .tick => TickSpares request turn.events
  | .broadcast _ => True

/-! ## On the switchboard -/

namespace Switchboard

variable {board : Switchboard} {request : OngoingQueryRequest} {tx : Tx} {outcomes : Outcomes}

/-- A registration does not replace the channel that the answer is awaited on. -/
theorem Awaits.after_register (awaits : board.Awaits request tx) (msg : RegisterClientMessage) :
    (board.register msg outcomes).board.Awaits request tx := by
  unfold Switchboard.register
  split
  · exact awaits
  · exact awaits
  · rename_i free _
    refine ⟨awaits.ongoing, ?_⟩
    have other : msg.clientId ≠ request.requester := by
      intro same
      rw [same, awaits.requester] at free
      cases free
    exact (if_neg other).trans awaits.requester

/-- A request does not take the id of one that is ongoing. -/
theorem Awaits.after_request (awaits : board.Awaits request tx) (msg : QueryRequestMessage) :
    (board.request msg outcomes).board.Awaits request tx := by
  have forwarded (free : board.ongoing msg.requestId = none) (responder : ClientId) :
      (board.forward msg responder outcomes).board.Awaits request tx := by
    have other : msg.requestId ≠ request.requestId := by
      intro same
      rw [same, awaits.ongoing] at free
      cases free
    unfold forward
    split
    · exact ⟨awaits.ongoing, awaits.requester⟩
    · exact ⟨awaits.ongoing, awaits.requester⟩
    · exact ⟨(if_neg other).trans awaits.ongoing, awaits.requester⟩
  unfold Switchboard.request
  split
  · split <;> exact awaits
  · rename_i free
    split
    · exact awaits
    · exact forwarded free _

/-- An answer to another request leaves the exchange alone. -/
theorem Awaits.after_answer (awaits : board.Awaits request tx) {answer : Answer}
    (other : answer.requestId ≠ request.requestId) :
    (board.settle answer outcomes).board.Awaits request tx := by
  unfold Switchboard.settle
  split
  · exact awaits
  · split
    · exact awaits
    · exact awaits
    · exact ⟨(if_neg other).trans awaits.ongoing, awaits.requester⟩

/-- **A message that spares an exchange leaves it open.** -/
theorem Awaits.after_message (awaits : board.Awaits request tx) {msg : ClientMessage}
    (spares : msg.Spares request) : (board.handle msg outcomes).board.Awaits request tx := by
  cases msg with
  | registerClient msg => exact awaits.after_register msg
  | queryRequest msg => exact awaits.after_request msg
  | queryResponse msg => exact awaits.after_answer spares
  | queryHandlingFailed msg => exact awaits.after_answer spares
  | registerSourceEvent msg =>
    show (board.publish msg outcomes).board.Awaits request tx
    unfold publish
    split <;> exact awaits
  | heartbeat => exact awaits
  | disconnectClient clientId => exact ⟨awaits.ongoing, (if_neg spares).trans awaits.requester⟩

/-- **A request that is forwarded opens an exchange.** -/
theorem awaits_of_forwarded {msg : QueryRequestMessage} {responder : ClientId} {channel : Tx}
    {asked : QueryRequestedMessage} (requester : board.channels msg.requester = some tx)
    (forwarded : (responder, channel, .queryRequested asked, true) ∈
      (board.request msg outcomes).sent) :
    (board.request msg outcomes).board.Awaits (.of responder msg 0) tx := by
  have told (serverMessage : ServerMessage) (sent : Except TxError Unit) {delivery : Delivery}
      (mem : delivery ∈ board.tell msg.requester serverMessage sent) :
      delivery.2.2.1 = serverMessage := by
    unfold tell at mem
    split at mem
    · cases mem
    · rw [List.mem_singleton.mp mem]
  revert forwarded
  unfold request
  split
  · split
    · nofun
    · exact fun mem => nomatch told _ _ mem
  · split
    · exact fun mem => nomatch told _ _ mem
    · unfold forward
      split
      · nofun
      · intro mem
        rcases List.mem_append.mp mem with mem | mem
        · exact nomatch told _ _ mem
        · exact nomatch List.mem_singleton.mp mem
      · intro mem
        cases List.mem_singleton.mp mem
        exact ⟨if_pos rfl, requester⟩

/-- **The answer ends the exchange**: it is sent where it is awaited. -/
theorem Awaits.answered (awaits : board.Awaits request tx) {answer : Answer}
    (same : answer.requestId = request.requestId) :
    board.settle answer outcomes =
      ⟨if (outcomes.sent 0).isOk then board.forget request.requestId else board,
        [(request.requester, tx, answer.serverMessage request, (outcomes.sent 0).isOk)], []⟩ := by
  have requester : board.channels request.untimed.requester = some tx := awaits.requester
  unfold Switchboard.settle
  rw [same, awaits.ongoing]
  dsimp only
  rw [requester]
  cases outcomes.sent 0 <;> cases answer <;> rfl

end Switchboard

/-! ## In a run -/

/-- What a history shows as sent is among its deliveries. -/
theorem mem_deliveries {h : History} {client : ClientId} {tx : Tx} {msg : ServerMessage}
    {sent : Except TxError Unit} (mem : ⟨.send client tx msg, sent⟩ ∈ h) :
    (client, tx, msg, sent.isOk) ∈ deliveries h := by
  fun_induction deliveries h with
  | case1 => cases mem
  | case2 _ _ _ _ _ ih =>
    rcases List.mem_cons.mp mem with same | mem
    · cases same
      exact List.mem_cons_self
    · exact List.mem_cons_of_mem _ (ih mem)
  | case3 _ _ other ih =>
    rcases List.mem_cons.mp mem with same | mem
    · exact absurd same.symm (other _ _ _ _)
    · exact ih mem

section Run

variable [Repository R] {request : OngoingQueryRequest} {tx : Tx} {w w' : World R} {h : History}
  {timing : Timing} {repository : R}

theorem TickSpares.tail {ev : Event Op Ret} (spares : TickSpares request (ev :: h)) :
    TickSpares request h where
  beats ev mem := spares.beats ev (List.mem_cons_of_mem _ mem)
  current ev mem := spares.current ev (List.mem_cons_of_mem _ mem)

/-- The exchange is open, if what happened so far left it alone. -/
def LeftOpen (request : OngoingQueryRequest) (tx : Tx) (w : World R) (h : History) : Prop :=
  TickSpares request h → w.switchboard.Awaits request tx

/-- An operation that keeps the switchboard keeps the exchange. -/
theorem LeftOpen.next {op : Op} {env : Env R} {r : Ret op} (left : LeftOpen request tx w h)
    (performed : exec op env w = some (r, w'))
    (keeps : w.switchboard.after ⟨op, r⟩ = w.switchboard) :
    LeftOpen request tx w' (⟨op, r⟩ :: h) := by
  intro spares
  rw [switchboard_exec performed, keeps]
  exact left spares.tail

/-- A heartbeat takes away only a client that refused it. -/
theorem heartbeat_leftOpen (clientId : ClientId) (channel : Tx)
    (left : LeftOpen request tx w h) :
    (heartbeat clientId channel).Ensures exec (fun _ => LeftOpen request tx) w h := by
  intro env sent w₁ performed
  have left := left.next performed rfl
  cases sent with
  | ok _ => exact fun env _ w₂ refreshed => left.next refreshed rfl
  | error err =>
    intro env _ w₂ refreshed
    have left := left.next refreshed rfl
    intro env _ w₃ removed env _ w₄ disconnected spares
    have open_before := left spares.tail.tail
    have other : clientId ≠ request.requester := by
      rintro rfl
      have beats := spares.beats ⟨.send request.requester channel .heartbeat, .error err⟩
        (by simp)
      simp [failsHeartbeat] at beats
    rw [switchboard_exec disconnected, switchboard_exec removed]
    exact ⟨open_before.ongoing, (if_neg other).trans open_before.requester⟩

/-- Giving a request up ends no other exchange. -/
theorem expire_leftOpen {given : OngoingQueryRequest} (left : LeftOpen request tx w h)
    (other : given.requestId ≠ request.requestId) :
    (expire given).Ensures exec (fun _ => LeftOpen request tx) w h := by
  have removes {w : World R} {h : History} (left : LeftOpen request tx w h) :
      (handleQueryTimedOut given.requestId).Ensures exec (fun _ => LeftOpen request tx) w h := by
    intro env removed w₁ performed spares
    have awaits := left spares.tail
    rw [switchboard_exec performed]
    exact ⟨(if_neg other).trans awaits.ongoing, awaits.requester⟩
  intro env requester w₁ looked
  have left := left.next looked rfl
  cases requester with
  | none => exact removes left
  | some info => exact fun env sent w₂ performed => removes (left.next performed rfl)

/-- **A tick that spares an exchange leaves it open.** -/
theorem timerTick_leftOpen (left : LeftOpen request tx w h) :
    (timerTick timing).Ensures exec (fun _ => LeftOpen request tx) w h := by
  intro env txs w₁ snapshot
  have beats := Interleave.ensures_forM (fun _ => LeftOpen request tx)
    (fun entry _ _ _ left => heartbeat_leftOpen entry.1 entry.2 left) txs
    (left.next snapshot rfl)
  refine beats.bind fun _ w₂ h₂ left => ?_
  intro env expired w₃ reading
  have left := left.next reading rfl
  by_cases found : findsExpired request.requestId
      ⟨.getExpiredRequests timing.queryResponseTimeout, expired⟩ = true
  · -- then the tick does not spare the exchange
    refine Prog.ensures_iff.mpr fun _ w' h' run spares => ?_
    obtain ⟨events, rfl, -⟩ := run.events
    have current := spares.current _ (List.mem_append_right events List.mem_cons_self)
    cases found.symm.trans current
  · have others (given : OngoingQueryRequest) (mem : given ∈ expired) :
        given.requestId ≠ request.requestId := by
      intro same
      exact found (List.any_eq_true.mpr ⟨given, mem, decide_eq_true same⟩)
    have expires := Interleave.ensures_forM
      (fun rest w h => LeftOpen request tx w h ∧ rest ⊆ expired)
      (fun given rest w h kept => (expire_leftOpen kept.1
        (others given (kept.2 List.mem_cons_self))).mono fun _ _ _ left =>
          ⟨left, (List.cons_subset.mp kept.2).2⟩)
      expired ⟨left, List.Subset.refl expired⟩
    exact expires.mono fun _ _ _ kept => kept.1

/-- **A turn that spares an exchange leaves it open.** -/
theorem awaits_of_spares {turn : ServerTurn R} (spares : Spares request turn)
    (run : Alone exec (turn.call.prog timing) turn.before [] () w' turn.events)
    (awaits : turn.before.switchboard.Awaits request tx) : w'.switchboard.Awaits request tx := by
  obtain ⟨call, before, events⟩ := turn
  cases call with
  | message msg =>
    obtain ⟨outcomes, turned⟩ := exists_outcomes events
    have after : (before.switchboard.handle msg outcomes).board.Awaits request tx :=
      awaits.after_message spares
    rwa [handle_of_alone run turned] at after
  | tick => exact (timerTick_leftOpen fun _ => awaits).elim run spares
  | broadcast event =>
    have flows := broadcast_ofSourceEvents event (h := [])
    have aside : (broadcast event).Ensures exec
        (fun _ w' _ => w'.switchboard.Awaits request tx) before [] := by
      refine flows.ensures ?_ awaits
      intro op env r w w' h of performed awaits
      rw [switchboard_exec performed]
      cases op with
      | insertClient | addClientQueryHandler | getClientIdForQueryId | handleQueryRequestedEvent
      | removeOngoingRequest | removeClient | disconnectClient => cases of
      | _ => exact awaits
    exact aside.elim run

variable {earlier between : List (ServerTurn R)} {w₀ : World R} {msg : QueryRequestMessage}
  {query : QueryRequestedMessage} {responder : ClientId} {channel : Tx} {answer : Answer}
  {asked events : History}

/-- **The round trip**, in every sequential run: a request of a connected client is forwarded, and
an answer to it is handled, with nothing in between that takes the request or its requester away.
Then the answer is what the requester is sent over its channel, and all that is sent; the request
is over if the requester accepts it, and nothing changed otherwise. -/
theorem roundTrip_of_sequentialRun
    (run : SequentialRun timing repository (⟨.message answer.clientMessage, w, events⟩ ::
      (between ++ ⟨.message (.queryRequest msg), w₀, asked⟩ :: earlier)) w')
    (connected : w₀.state.txOf msg.requester = some tx)
    (forwarded : ⟨.send responder channel (.queryRequested query), .ok ()⟩ ∈ asked)
    (spared : ∀ turn ∈ between, Spares (.of responder msg 0) turn)
    (same : answer.requestId = msg.requestId) :
    ∃ accepted, deliveries events =
        [(msg.requester, tx, answer.serverMessage (.of responder msg 0), accepted)] ∧
      w'.switchboard =
        if accepted then w.switchboard.forget msg.requestId else w.switchboard := by
  cases run with
  | turn before answered =>
    obtain ⟨w₁, -, requested, after⟩ := before.split
    -- the request opens the exchange
    obtain ⟨outcomes, turned⟩ := exists_outcomes asked
    have routed := handle_of_alone requested turned
    have sent : (responder, channel, .queryRequested query, true) ∈
        (w₀.switchboard.request msg outcomes).sent := by
      show _ ∈ (w₀.switchboard.handle (.queryRequest msg) outcomes).sent
      rw [routed]
      exact mem_deliveries forwarded
    have awaits := Switchboard.awaits_of_forwarded connected sent
    rw [show w₀.switchboard.request msg outcomes = _ from routed] at awaits
    -- what is handled in between leaves it open
    have awaits := after.holds (fun w => w.switchboard.Awaits (.of responder msg 0) tx)
      (fun turn mem w' run => awaits_of_spares (spared turn mem) run) awaits
    -- and the answer ends it
    obtain ⟨outcomes, turned⟩ := exists_outcomes events
    have routed := handle_of_alone answered turned
    have settles : w.switchboard.handle answer.clientMessage outcomes =
        w.switchboard.settle answer outcomes := by cases answer <;> rfl
    rw [settles, awaits.answered same] at routed
    exact ⟨(outcomes.sent 0).isOk, (congrArg Routed.sent routed).symm,
      (congrArg Routed.board routed).symm⟩

end Run

section Scenario

open Scenario

instance (request : OngoingQueryRequest) : (msg : ClientMessage) → Decidable (msg.Spares request)
  | .queryResponse msg => inferInstanceAs (Decidable (msg.requestId ≠ request.requestId))
  | .queryHandlingFailed msg => inferInstanceAs (Decidable (msg.requestId ≠ request.requestId))
  | .disconnectClient clientId => inferInstanceAs (Decidable (clientId ≠ request.requester))
  | .registerClient _ | .queryRequest _ | .registerSourceEvent _ | .heartbeat _ => isTrue trivial

/-- The turn leaves the exchange alone. -/
def Scenario.leavesExchangeAlone (request : OngoingQueryRequest) (turn : ServerTurn R) : Bool :=
  match turn.call with
  | .message msg => decide (msg.Spares request)
  | .tick => turn.events.all fun ev =>
      !failsHeartbeat request.requester ev && !findsExpired request.requestId ev
  | .broadcast _ => true

theorem Scenario.spares_of_leavesExchangeAlone {request : OngoingQueryRequest} {turn : ServerTurn R}
    (checked : leavesExchangeAlone request turn = true) : Spares request turn := by
  unfold leavesExchangeAlone at checked
  unfold Spares
  split at checked
  · exact of_decide_eq_true checked
  · have both (ev : Event Op Ret) (mem : ev ∈ turn.events) :
        failsHeartbeat request.requester ev = false ∧
          findsExpired request.requestId ev = false := by
      simpa using List.all_eq_true.mp checked ev mem
    exact ⟨fun ev mem => (both ev mem).1, fun ev mem => (both ev mem).2⟩
  · trivial

/-- A step at a reading of the clock, in which sends are refused. -/
def Scenario.refusingAt (now : Instant) : Env NoopSourceEventRepository :=
  { quiet with now, delivered := false, clientOrder := [alice],
               requestOrder := [request, secondRequest] }

/-- A client asks twice, somebody tries to register under its id, another client asks under the id
of its second request and leaves, the timer gives the first one up without reaching the client, and
the answer to the second one comes. -/
def Scenario.roundTripCalls : List (Call × List (Env NoopSourceEventRepository)) :=
  ([registering alice 0, registering bob 1,
    .message (.queryRequest ⟨secondRequest, alice, usersGetAll, ∅⟩)].map
      (·, List.replicate 10 quiet)) ++
  ([requesting alice, registering alice 1, requesting bob, .message (.disconnectClient bob)].map
    (·, List.replicate 10 { quiet with now := 95 })) ++
  [(.tick, List.replicate 10 (refusingAt 100)), (responding alice, List.replicate 10 quiet)]

/-- The request of that run, as it is recorded. -/
def Scenario.askedQuery : QueryRequestMessage := ⟨request, alice, usersGetAll, ∅⟩

/-- A requester does not accept that its request timed out. -/
def Scenario.givesUpInVain (requestId : RequestId) : Event Op Ret → Bool
  | ⟨.send _ _ (.queryRequestedFailed id _ .queryTimedOut), .error _⟩ => id = requestId
  | _ => false

/-- The calls that were handled are those of a round trip. -/
def Scenario.isRoundTrip : List (ServerTurn NoopSourceEventRepository) → Bool
  | _ :: t₄ :: t₃ :: t₂ :: t₁ :: asked :: _ =>
    asked.before.state.txOf alice = some 0 &&
      asked.events.any (fun ev => forwards request ev = some bob) &&
      t₄.events.any (givesUpInVain secondRequest) &&
      [t₄, t₃, t₂, t₁].all (leavesExchangeAlone (.of bob askedQuery 0))
  | _ => false

/-- The round trip of that run, over a tick that gives another request of the client up in vain. -/
theorem roundTrip_awaited : ∃ turn tick turns w,
    Interleave.playCalls exec (Call.prog Scenario.timing) roundTripCalls [] (.new ⟨⟩) =
      some (turn :: tick :: turns, w) ∧ tick.events.any (givesUpInVain secondRequest) = true ∧
    ∃ accepted, deliveries turn.events =
      [(alice, 0, .queryResponded ⟨request, []⟩, accepted)] ∧ w.switchboard =
        if accepted then turn.before.switchboard.forget request else turn.before.switchboard := by
  have played : (Interleave.playCalls exec (Call.prog Scenario.timing) roundTripCalls []
      (.new ⟨⟩)).any fun done => isRoundTrip done.1 := by
    decide +kernel
  obtain ⟨⟨turns, w⟩, done, checked⟩ := (Option.any_eq_true _ _).mp played
  have run := Interleave.sequential_of_playCalls .start done
  have calls := Interleave.calls_of_playCalls done
  unfold isRoundTrip at checked
  split at checked
  · rename_i answered t₄ t₃ t₂ t₁ asked earlier same
    obtain rfl : turns = _ := same
    simp only [Bool.and_eq_true] at checked
    obtain ⟨⟨⟨connected, some_forwards⟩, vain⟩, spared⟩ := checked
    obtain ⟨ev, mem, forwarded⟩ := List.any_eq_true.mp some_forwards
    simp only [roundTripCalls, List.map_cons, List.map_nil, List.reverse_cons, List.reverse_nil,
      List.nil_append, List.cons_append, List.append_nil, List.cons.injEq] at calls
    obtain ⟨answering, -, -, -, -, requested, -⟩ := calls
    obtain ⟨call, before, events⟩ := answered
    obtain ⟨call', w₀, asked⟩ := asked
    obtain rfl : call = .message (Answer.response ⟨request, alice, []⟩).clientMessage := answering
    obtain rfl : call' = .message (.queryRequest askedQuery) := requested
    obtain ⟨channel, query, sends, -⟩ := forwards_eq_some (of_decide_eq_true forwarded)
    obtain rfl : ev = _ := sends
    have run : SequentialRun Scenario.timing ⟨⟩
        (⟨.message (Answer.response ⟨request, alice, []⟩).clientMessage, before, events⟩ ::
          ([t₄, t₃, t₂, t₁] ++ ⟨.message (.queryRequest askedQuery), w₀, asked⟩ :: earlier)) w :=
      run
    have spares (turn : ServerTurn NoopSourceEventRepository) (mem : turn ∈ [t₄, t₃, t₂, t₁]) :
        Spares (.of bob askedQuery 0) turn :=
      spares_of_leavesExchangeAlone (List.all_eq_true.mp spared turn mem)
    exact ⟨_, _, _, w, done, vain,
      roundTrip_of_sequentialRun run (of_decide_eq_true connected) mem spares rfl⟩
  · cases checked

end Scenario

end Revent
