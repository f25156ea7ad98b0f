import Revent.Laws.Roster

/-!
# Conservation of queries

In a sequential run every query of a client is owed an answer until one is sent: a request that is
not an exact repeat is answered at once, or forwarded and recorded, and what is recorded is taken
out only together with an answer. The law counts, for one client: requests handled are answers
sent plus requests ongoing, from before its first request on, while the client stays connected and
accepts what it is sent.

`Owing` is the equation of one call, `Served` adds that the client is connected while anything is
ongoing for it. A request reaches a responder because the registry is in step (`InRegistry`).
-/

namespace Revent

open Interleave (Event Prog Turn)

variable {R : Type}

/-! ## What is counted -/

/-- The client was sent an answer to a query and accepted it. -/
def answers (client : ClientId) : Event Op Ret → Bool
  | ⟨.send addressee _ (.queryResponded _), .ok _⟩ => addressee = client
  | ⟨.send addressee _ (.queryRequestedFailed _ _ _), .ok _⟩ => addressee = client
  | _ => false

/-- The client did not accept what it was sent. -/
def refuses (client : ClientId) : Event Op Ret → Bool
  | ⟨.send addressee _ _, .error _⟩ => addressee = client
  | _ => false

/-- The number of ongoing requests of a client. -/
def World.ongoingOf (w : World R) (client : ClientId) : Nat :=
  HashMap.countP w.ongoing fun request => request.requester = client

/-- The call handles a request of the client, and not an exact repeat of one ongoing then. -/
def requests (client : ClientId) (call : Call) (before : World R) : Bool :=
  match call with
  | .message (.queryRequest msg) =>
    msg.requester = client && !(before.state.ongoing msg.requestId).any (·.isSame msg)
  | _ => false

/-- The call handles a request of the client. -/
def asks (client : ClientId) : Call → Bool
  | .message (.queryRequest msg) => msg.requester = client
  | _ => false

/-- From before its first request on, the client is connected and accepts what it is sent. -/
def Attended (client : ClientId) (turns : List (ServerTurn R)) : Prop :=
  ∃ late early, turns = late ++ early ∧ (∀ turn ∈ early, asks client turn.call = false) ∧
    ∀ turn ∈ late, turn.before.state.txOf client ≠ none ∧
      ∀ ev ∈ turn.events, refuses client ev = false

/-! ## The equation of a call -/

/-- Nothing is owed to the client, or it accepts what it is sent. -/
def Attentive (client : ClientId) (n : Nat) (h : History) : Prop :=
  n = 0 ∨ ∀ ev ∈ h, refuses client ev = false

theorem Attentive.tail {client : ClientId} {n : Nat} {ev : Event Op Ret} {h : History}
    (attentive : Attentive client n (ev :: h)) : Attentive client n h :=
  attentive.imp_right fun accepts ev hev => accepts ev (List.mem_cons_of_mem _ hev)

/-- The answers of the call so far and the requests ongoing make the number owed. -/
structure Owing (client : ClientId) (n : Nat) (w : World R) (h : History) : Prop where
  keyed : w.state.queryHandlers.Keyed
  owed : Attentive client n h → h.countP (answers client) + w.ongoingOf client = n

/-- And the client is connected while a request of it is ongoing. -/
structure Served (client : ClientId) (n : Nat) (w : World R) (h : History) : Prop
    extends Owing client n w h where
  connected : Attentive client n h → 0 < w.ongoingOf client → w.state.txOf client ≠ none

variable [Repository R] {client : ClientId} {n : Nat} {op : Op} {env env' : Env R} {r : Ret op}
  {w w' w₁ : World R} {h : History} {request : OngoingQueryRequest} {requestId : RequestId}

/-- The operations that update the ongoing requests. -/
def updatesRequests : Op → Bool
  | .handleQueryRequestedEvent _ | .removeOngoingRequest _ => true
  | _ => false

theorem exec_requests (keeps : updatesRequests op = false)
    (performed : exec op env w = some (r, w')) : w'.ongoing = w.ongoing := by
  have after := requests_exec performed
  cases op with
  | handleQueryRequestedEvent | removeOngoingRequest => cases keeps
  | _ => exact after

/-- An operation that neither answers nor updates the requests keeps the equation. -/
theorem Owing.keep (owing : Owing client n w h) (performed : exec op env w = some (r, w'))
    (keeps : updatesRequests op = false) (silent : answers client ⟨op, r⟩ = false) :
    Owing client n w' (⟨op, r⟩ :: h) where
  keyed := keyed_exec performed owing.keyed
  owed attentive := by
    have before := owing.owed attentive.tail
    rw [List.countP_cons, silent]
    simpa [World.ongoingOf, exec_requests keeps performed] using before

/-- A client's channel stays as it is, or is the one inserted, unless the client is removed. -/
theorem connected_exec (connected : w.state.txOf client ≠ none)
    (performed : exec op env w = some (r, w')) (stays : op ≠ .removeClient client) :
    w'.state.txOf client ≠ none := by
  rw [txOf_exec performed]
  unfold txAfter
  split
  · split
    · nofun
    · exact connected
  · split
    · rename_i removed same
      exact absurd (same ▸ rfl) stays
    · exact connected
  · exact connected

/-- And its client stays connected, unless it is removed. -/
theorem Served.keep (served : Served client n w h) (performed : exec op env w = some (r, w'))
    (keeps : updatesRequests op = false) (silent : answers client ⟨op, r⟩ = false)
    (stays : op ≠ .removeClient client) : Served client n w' (⟨op, r⟩ :: h) where
  toOwing := served.toOwing.keep performed keeps silent
  connected attentive ongoing := by
    have before : 0 < w.ongoingOf client := by
      simpa [World.ongoingOf, exec_requests keeps performed] using ongoing
    exact connected_exec (served.connected attentive.tail before) performed stays

/-- An ongoing request of the client counts. -/
theorem ongoingOf_removed (client : ClientId) {removed : Option OngoingQueryRequest}
    (found : w.state.ongoing requestId = some request)
    (performed : exec (.removeOngoingRequest requestId) env w = some (removed, w')) :
    w'.ongoingOf client + (if request.requester = client then 1 else 0) = w.ongoingOf client := by
  have erased : w'.ongoing = w.ongoing.erase requestId := requests_exec performed
  have counted :=
    HashMap.countP_erase (p := fun request => decide (request.requester = client)) found
  simpa [World.ongoingOf, erased] using counted

/-- A request is taken out, which is not the client's or was just answered. -/
theorem Served.removed {removed : Option OngoingQueryRequest}
    (keyed : w.state.queryHandlers.Keyed)
    (owed : Attentive client n h → h.countP (answers client) + w.ongoingOf client =
      n + if request.requester = client then 1 else 0)
    (connected : Attentive client n h → 0 < w.ongoingOf client → w.state.txOf client ≠ none)
    (found : w.state.ongoing requestId = some request)
    (performed : exec (.removeOngoingRequest requestId) env w = some (removed, w')) :
    Served client n w' (⟨.removeOngoingRequest requestId, removed⟩ :: h) where
  keyed := keyed_exec performed keyed
  owed attentive := by
    have before := owed attentive.tail
    have fewer := ongoingOf_removed client found performed
    have silent : answers client ⟨.removeOngoingRequest requestId, removed⟩ = false := rfl
    rw [List.countP_cons, silent]
    simp only [Bool.false_eq_true, if_false]
    omega
  connected attentive ongoing := by
    have fewer := ongoingOf_removed client found performed
    have before := connected attentive.tail (by omega)
    exact connected_exec before performed nofun

/-- A request is answered, and taken out. -/
theorem Served.answered {tx : Tx} {msg : ServerMessage} {removed : Option OngoingQueryRequest}
    {u : Unit} (served : Served client n w h)
    (terminal : answers client ⟨.send request.requester tx msg, .ok u⟩ =
      decide (request.requester = client))
    (found : w.state.ongoing requestId = some request)
    (sent : exec (.send request.requester tx msg) env w = some (.ok u, w₁))
    (performed : exec (.removeOngoingRequest requestId) env' w₁ = some (removed, w')) :
    Served client n w' (⟨.removeOngoingRequest requestId, removed⟩ ::
      ⟨.send request.requester tx msg, .ok u⟩ :: h) := by
  have same : w₁.state = w.state := exec_send sent
  have ongoing : w₁.ongoingOf client = w.ongoingOf client := by
    simp only [World.ongoingOf, World.ongoing, same]
  refine .removed (same ▸ served.keyed) (fun attentive => ?_) (fun attentive => ?_)
    (same ▸ found) performed
  · have before := served.owed attentive.tail
    rw [List.countP_cons, terminal, ongoing]
    simp only [decide_eq_true_eq]
    omega
  · rw [ongoing, same]
    exact served.connected attentive.tail

/-! ## The handlers -/

/-- A request is recorded where there is none with its id. -/
theorem Owing.recorded {u : Unit} (owing : Owing client n w h)
    (absent : w.state.ongoing request.requestId = none)
    (performed : exec (.handleQueryRequestedEvent request) env w = some (u, w')) :
    Owing client (n + if request.requester = client then 1 else 0) w'
      (⟨.handleQueryRequestedEvent request, u⟩ :: h) where
  keyed := keyed_exec performed owing.keyed
  owed attentive := by
    have inserted : w'.ongoing = w.ongoing.insert request.requestId request :=
      requests_exec performed
    have counted := HashMap.countP_insert (v := request)
      (p := fun request => decide (request.requester = client)) absent
    have more : w'.ongoingOf client =
        w.ongoingOf client + if request.requester = client then 1 else 0 := by
      simpa [World.ongoingOf, inserted] using counted
    have silent : answers client ⟨.handleQueryRequestedEvent request, u⟩ = false := rfl
    have before := owing.owed (attentive.tail.imp_left fun none_owed => by omega)
    rw [List.countP_cons, silent, more]
    simp only [Bool.false_eq_true, if_false]
    omega

variable {timing : Timing} {repository : R} {turns : List (ServerTurn R)}

omit [Repository R] in
/-- Before the last turn the client was attended to, and in it the client was connected and
accepted what it was sent, or had asked for nothing yet. -/
theorem Attended.cases {turn : ServerTurn R} (attended : Attended client (turn :: turns)) :
    Attended client turns ∧
      ((∀ turn' ∈ turn :: turns, asks client turn'.call = false) ∨
        turn.before.state.txOf client ≠ none ∧ ∀ ev ∈ turn.events, refuses client ev = false) := by
  obtain ⟨late, early, split, silent, attentive⟩ := attended
  cases late with
  | nil =>
    cases split
    have before : ∀ turn ∈ turns, asks client turn.call = false :=
      fun turn' mem => silent turn' (List.mem_cons_of_mem _ mem)
    exact ⟨⟨[], turns, rfl, before, nofun⟩, .inl silent⟩
  | cons last late =>
    obtain ⟨rfl, rfl⟩ := List.cons.inj split
    have before := fun turn' mem => attentive turn' (List.mem_cons_of_mem _ mem)
    exact ⟨⟨late, early, rfl, silent, before⟩, .inr (attentive _ List.mem_cons_self)⟩

theorem keyed_of_sequentialRun (run : SequentialRun timing repository turns w) :
    w.state.queryHandlers.Keyed :=
  run.invariant (fun performed keyed => keyed_exec performed keyed) nofun

section Scenario

open Scenario

end Scenario

end Revent
