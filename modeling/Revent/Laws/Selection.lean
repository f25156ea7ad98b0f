import Revent.Laws.Roster
import Revent.Lists.Rotation

/-!
# The selections of a sequential run

Every `QueryHandler` has one `client_selection_strategy`, so all its selections move one cursor:
`World.cursor` is the client that was selected last, for whichever query id. A selection chooses
by the cursor and the sorted list of its query, so it does not depend on the order of the list.

Only the handler of a query request selects, and it leaves the lists as they are. So in a run
during which the list of a query does not change, `selectsBy_of_sequentialRun` gives each
selection for the query from the cursor that the selections before it left.
-/

namespace Revent

open Interleave (Event Prog Turn)
open RoundRobinStrategy (pick)

variable {R : Type}

/-! ## The choice -/

/-- The candidates in the order of the round robin. -/
def sorted (clients : List ClientId) : List ClientId := clients.insertionSort (· ≤ ·)

theorem sorted_perm (clients : List ClientId) : (sorted clients).Perm clients :=
  clients.perm_insertionSort (· ≤ ·)

/-- The order of the list does not matter. -/
theorem sorted_congr {clients clients' : List ClientId} (perm : clients.Perm clients') :
    sorted clients = sorted clients' := by
  apply List.Perm.eq_of_pairwise' (List.pairwise_insertionSort (· ≤ ·) clients)
    (List.pairwise_insertionSort (· ≤ ·) clients')
  exact ((sorted_perm clients).trans perm).trans (sorted_perm clients').symm

/-- Where nobody is a candidate, nobody is chosen. -/
theorem pick_sorted_nil (last : Option ClientId) : pick last (sorted []) = none := by
  cases last <;> rfl

/-- Whoever is chosen is a candidate, and the next one around if the last one chosen is a
candidate too. -/
theorem pick_eq_some {last : Option ClientId} {candidates : List ClientId} {clientId : ClientId}
    (choice : pick last candidates = some clientId) : clientId ∈ candidates ∧
      ∀ previous ∈ last, previous ∈ candidates → Lists.Next candidates previous clientId := by
  unfold pick at choice
  split at choice
  · rename_i nowhere
    refine ⟨List.mem_of_getElem? choice, fun previous hlast mem => ?_⟩
    rw [Option.mem_def.mp hlast, Option.bind_some, List.findIdx?_eq_none_iff] at nowhere
    have absent := nowhere previous mem
    simp at absent
  · rename_i place found
    refine ⟨List.mem_of_getElem? choice, fun previous hlast mem => ⟨place, ?_, choice⟩⟩
    rw [Option.mem_def.mp hlast, Option.bind_some] at found
    obtain ⟨hplace, here, -⟩ := List.findIdx?_eq_some_iff_getElem.mp found
    rw [List.getElem?_eq_getElem hplace, eq_of_beq here]

/-- Among candidates somebody is chosen. -/
theorem pick_isSome (last : Option ClientId) {clients : List ClientId} (filled : clients ≠ []) :
    ∃ clientId, pick last (sorted clients) = some clientId := by
  have pos : 0 < (sorted clients).length := by
    rw [(sorted_perm clients).length_eq]
    exact List.length_pos_iff.mpr filled
  unfold pick
  split
  · exact ⟨_, List.getElem?_eq_getElem pos⟩
  · exact ⟨_, List.getElem?_eq_getElem (Nat.mod_lt _ pos)⟩

/-- The client that was selected last. -/
def World.cursor (w : World R) : Option ClientId :=
  w.state.queryHandlers.clientSelectionStrategy.lastSelected

/-- The client that a selection chooses for a query. -/
def World.choice (w : World R) (queryId : QueryId) : Option ClientId :=
  pick w.cursor (sorted (w.state.listed queryId))

/-- The clients that an event selects, with the query. -/
def selected : Event Op Ret → Option (QueryId × ClientId)
  | ⟨.getClientIdForQueryId msg, .ok clientId⟩ => some (msg.queryId, clientId)
  | _ => none

/-- The selections of a history, newest first. -/
def selections (h : History) : List (QueryId × ClientId) := h.filterMap selected

/-- A selection chooses by the cursor among those listed, and moves the cursor there. -/
theorem select_eq (w : World R) (queryId : QueryId) :
    (w.state.queryHandlers.getClientIdForQueryId queryId).1 =
        (w.choice queryId).elim (.error .queryHandlerNotFound) .ok ∧
      (w.state.queryHandlers.getClientIdForQueryId queryId).2.clientSelectionStrategy =
        ⟨(w.choice queryId).or w.cursor⟩ := by
  have nobody (empty : w.state.listed queryId = []) : w.choice queryId = none := by
    rw [World.choice, empty, pick_sorted_nil]
  unfold QueryHandler.getClientIdForQueryId
  cases entry : w.state.queryHandlers.queryHandlers[queryId]? with
  | none =>
    have empty : w.state.listed queryId = [] := by simp [State.listed, QueryHandler.listed, entry]
    rw [nobody empty]
    exact ⟨rfl, rfl⟩
  | some clients =>
    have listed : w.state.listed queryId = clients := by
      simp [State.listed, QueryHandler.listed, entry]
    cases clients with
    | nil =>
      rw [nobody listed]
      exact ⟨rfl, rfl⟩
    | cons first clients =>
      obtain ⟨clientId, picked⟩ := pick_isSome w.cursor (List.cons_ne_nil first clients)
      have choice : w.choice queryId = some clientId := by rw [World.choice, listed, picked]
      have next : w.state.queryHandlers.clientSelectionStrategy.next (first :: clients) =
          (some clientId, ⟨some clientId⟩) := by
        show (pick w.cursor (sorted _), (⟨pick w.cursor (sorted _)⟩ : RoundRobinStrategy)) = _
        rw [picked]
      simp [Option.filter, next, choice]

variable [Repository R] {op : Op} {env : Env R} {r : Ret op} {w w' : World R}

/-- **What a selection answers.** -/
theorem exec_select {msg : QueryRequestMessage}
    {answer : Except QueryRequestHandlerError ClientId}
    (h : exec (.getClientIdForQueryId msg) env w = some (answer, w')) :
    answer = (w.choice msg.queryId).elim (.error .queryHandlerNotFound) .ok := by
  cases h
  exact (select_eq w msg.queryId).1

/-- Who is selected is the client chosen. -/
theorem choice_of_selected {queryId : QueryId} {clientId : ClientId}
    (h : exec op env w = some (r, w')) (select : selected ⟨op, r⟩ = some (queryId, clientId)) :
    w.choice queryId = some clientId := by
  unfold selected at select
  split at select
  · rename_i msg clientId' heq
    cases heq
    cases select
    have answer := exec_select h
    cases choice : w.choice msg.queryId with
    | none =>
      rw [choice] at answer
      cases answer
    | some chosen =>
      rw [choice] at answer
      cases answer
      rfl
  · cases select

/-- **The cursor** after an operation: the client it selected, or where the cursor was. -/
theorem cursor_exec (h : exec op env w = some (r, w')) :
    w'.cursor = ((selected ⟨op, r⟩).map Prod.snd).or w.cursor := by
  cases op with
  | updateLastSeen msg =>
    have same := (exec_updateLastSeen h).2
    exact congrArg (·.clientSelectionStrategy.lastSelected) same
  | insertClient msg | removeClient removed => rw [writeClients_some h]; rfl
  | getClientIdForQueryId msg =>
    have answer := exec_select h
    have moved : w'.cursor = (w.choice msg.queryId).or w.cursor := by
      cases h
      exact congrArg (·.lastSelected) (select_eq w msg.queryId).2
    rw [moved, answer]
    cases w.choice msg.queryId with
    | none => rfl
    | some clientId => rfl
  | send client tx msg =>
    have same := exec_send h
    exact congrArg (fun s : State R => s.queryHandlers.clientSelectionStrategy.lastSelected) same
  | oldClients | getExpiredRequests | readClients =>
    have same := exec_reading h trivial
    exact congrArg (fun s : State R => s.queryHandlers.clientSelectionStrategy.lastSelected) same
  | _ => cases h; rfl

/-! ## The selections of a run -/

/-- Where the selections, newest first, leave the cursor. -/
def cursorAfter (start : Option ClientId) (made : List (QueryId × ClientId)) : Option ClientId :=
  (made.head?.map Prod.snd).or start

/-- Each selection for the query is the choice from where the selections before it left the
cursor. -/
def SelectsBy (queryId : QueryId) (candidates : List ClientId) (start : Option ClientId)
    (made : List (QueryId × ClientId)) : Prop :=
  ∀ later clientId earlier, made = later ++ (queryId, clientId) :: earlier →
    pick (cursorAfter start earlier) candidates = some clientId

/-- The cursor is where the selections of the past and of the call so far left it, and those for
the query are choices from its clients. -/
structure Selecting (queryId : QueryId) (clients : List ClientId) (start : Option ClientId)
    (past : History) (w : World R) (h : History) : Prop where
  cursor : w.cursor = cursorAfter start (selections (h ++ past))
  made : SelectsBy queryId (sorted clients) start (selections (h ++ past))

variable {queryId : QueryId} {clients : List ClientId} {start : Option ClientId}
  {past h : History}

/-- An operation keeps this, if it selects nobody for the query but from its clients. -/
theorem Selecting.step (inv : Selecting queryId clients start past w h)
    (performed : exec op env w = some (r, w'))
    (listed : ∀ clientId, selected ⟨op, r⟩ = some (queryId, clientId) →
      (w.state.listed queryId).Perm clients) :
    Selecting queryId clients start past w' (⟨op, r⟩ :: h) := by
  have moved := cursor_exec performed
  have selects (clientId : ClientId) (select : selected ⟨op, r⟩ = some (queryId, clientId)) :
      pick (cursorAfter start (selections (h ++ past))) (sorted clients) = some clientId := by
    rw [← inv.cursor, ← sorted_congr (listed clientId select)]
    exact choice_of_selected performed select
  cases select : selected ⟨op, r⟩ with
  | none =>
    have same : selections (⟨op, r⟩ :: h ++ past) = selections (h ++ past) :=
      List.filterMap_cons_none select
    rw [select] at moved
    exact ⟨by rw [same]; exact moved.trans inv.cursor, by rw [same]; exact inv.made⟩
  | some selection =>
    have grown : selections (⟨op, r⟩ :: h ++ past) = selection :: selections (h ++ past) :=
      List.filterMap_cons_some select
    rw [select] at moved
    refine ⟨by rw [grown]; exact moved, fun later clientId earlier split => ?_⟩
    rw [grown] at split
    rcases List.cons_eq_append_iff.mp split with ⟨-, heq⟩ | ⟨later', -, before⟩
    · obtain ⟨rfl, rfl⟩ := List.cons.inj heq
      exact selects clientId select
    · exact inv.made later' clientId earlier before

/-- The operation selects nobody. -/
def SelectsNobody (op : Op) : Prop := ∀ r, selected ⟨op, r⟩ = none

theorem Aside.selectsNobody (aside : Aside op) : SelectsNobody op := by
  cases op with
  | getClientIdForQueryId msg => cases aside.2 (.error .responderNotFound)
  | _ => exact fun _ => rfl

theorem handleQueryRequestMessage_keepsRegistry {msg : QueryRequestMessage} :
    (handleQueryRequestMessage msg).Flows (fun _ op => updatesRegistry op = false)
      (fun _ _ => True) h := by
  have tells {requester : Option ClientInfo} {serverMessage : ServerMessage} {h : History} :
      (tellRequester msg requester serverMessage).Flows (fun _ op => updatesRegistry op = false)
        (fun _ _ => True) h := tellRequester_aside.mono_site fun _ _ aside => aside.1
  refine ⟨rfl, fun requester => ⟨rfl, fun current => ?_⟩⟩
  cases current with
  | some current =>
    show Prog.Flows _ _ _ (if current.isSame msg then _ else tellRequester msg requester _)
    split
    · trivial
    · exact tells
  | none =>
    refine ⟨rfl, fun selected => ?_⟩
    cases selected with
    | error err =>
      cases err with
      | queryHandlerNotFound => exact tells
      | responderNotFound => trivial
    | ok selected =>
      refine ⟨rfl, fun responder => ?_⟩
      cases responder with
      | none => trivial
      | some responder =>
        refine ⟨rfl, fun sent => ?_⟩
        cases sent with
        | error err => exact tells
        | ok _ => exact ⟨rfl, fun _ => ⟨rfl, fun _ => trivial⟩⟩

theorem handleRegisterClientMessage_selectsNobody {msg : RegisterClientMessage} :
    (handleRegisterClientMessage msg).Flows (fun _ => SelectsNobody) (fun _ _ => True) h := by
  refine ⟨fun _ => rfl, fun found => ?_⟩
  cases found with
  | some info => exact ⟨fun _ => rfl, fun _ => trivial⟩
  | none =>
    refine ⟨fun _ => rfl, fun sent => ?_⟩
    cases sent with
    | error err => trivial
    | ok _ => exact ⟨fun _ => rfl, fun _ => ⟨fun _ => rfl, fun _ => trivial⟩⟩

theorem disconnect_selectsNobody {clientId : ClientId} :
    (handleMessage (.disconnectClient clientId)).Flows (fun _ => SelectsNobody)
      (fun _ _ => True) h :=
  ⟨fun _ => rfl, fun _ => ⟨fun _ => rfl, fun _ => ⟨fun _ => rfl, fun _ => trivial⟩⟩⟩

theorem heartbeat_selectsNobody {clientId : ClientId} {tx : Tx} :
    (heartbeat clientId tx).Flows (fun _ => SelectsNobody) (fun _ _ => True) h := by
  refine ⟨fun _ => rfl, fun sent => ?_⟩
  cases sent with
  | ok _ => exact ⟨fun _ => rfl, fun _ => trivial⟩
  | error err => exact disconnect_selectsNobody

/-- **Only the handler of a query request selects**, and it leaves the registry alone. -/
theorem call_selects (timing : Timing) (call : Call) :
    (call.prog timing).Flows (fun _ op => updatesRegistry op = false) (fun _ _ => True) [] ∨
      (call.prog timing).Flows (fun _ => SelectsNobody) (fun _ _ => True) [] := by
  cases call with
  | message msg =>
    cases msg with
    | queryRequest msg => exact .inl ⟨rfl, fun _ => handleQueryRequestMessage_keepsRegistry⟩
    | registerClient msg =>
      exact .inr ⟨fun _ => rfl, fun _ => handleRegisterClientMessage_selectsNobody⟩
    | queryResponse msg | queryHandlingFailed msg =>
      exact .inr ⟨fun _ => rfl, fun _ => settle_aside.mono_site fun _ _ => Aside.selectsNobody⟩
    | registerSourceEvent msg =>
      refine .inr ⟨fun _ => rfl, fun _ => ?_⟩
      exact (handleRegisterSourceEventMessage_ofSourceEvents msg).mono_site fun _ _ events =>
        (aside_ofSourceEvents events).selectsNobody
    | heartbeat clientId => exact .inr ⟨fun _ => rfl, fun _ => trivial⟩
    | disconnectClient clientId => exact .inr disconnect_selectsNobody
  | tick =>
    refine .inr ⟨fun _ => rfl, fun txs => ?_⟩
    refine (Interleave.flows_forM (fun _ _ => heartbeat_selectsNobody) txs).bind fun _ _ _ => ?_
    refine ⟨fun _ => rfl, fun expired => Interleave.flows_forM (fun _ _ => ?_) expired⟩
    exact expire_aside.mono_site fun _ _ => Aside.selectsNobody
  | broadcast event =>
    exact .inr ((broadcast_ofSourceEvents event).mono_site fun _ _ events =>
      (aside_ofSourceEvents events).selectsNobody)

/-- A call keeps this, if the query's list is of the clients before it. -/
theorem call_selecting {timing : Timing} (call : Call)
    (inv : Selecting queryId clients start past w [])
    (listed : (w.state.listed queryId).Perm clients) :
    (call.prog timing).Ensures exec (fun _ => Selecting queryId clients start past) w [] := by
  rcases call_selects timing call with keeps | selectsNobody
  · have kept : (call.prog timing).Ensures exec (fun _ w h =>
        Selecting queryId clients start past w h ∧ (w.state.listed queryId).Perm clients) w [] := by
      refine keeps.ensures (fun keeps performed ⟨inv, listed⟩ => ?_) ⟨inv, listed⟩
      have same := (exec_registry keeps performed).2
      refine ⟨inv.step performed fun _ _ => listed, ?_⟩
      show ((World.handlers _)[queryId]?.getD []).Perm clients
      rw [same]
      exact listed
    exact kept.mono fun _ _ _ inv => inv.1
  · refine selectsNobody.ensures (fun nobody performed inv => ?_) inv
    refine inv.step performed fun clientId select => ?_
    cases (nobody _).symm.trans select

/-- **The selections of a run** for a query whose list does not change: each is the choice from
where the selections before it left the cursor. -/
theorem selectsBy_of_sequentialRun {timing : Timing} {repository : R}
    {continuation turns : List (ServerTurn R)}
    (run : SequentialRun timing repository (continuation ++ turns) w)
    (listed : ∀ turn ∈ continuation, (turn.before.state.listed queryId).Perm clients) :
    ∃ start, SelectsBy queryId (sorted clients) start (selections (history continuation)) := by
  have selecting : ∃ start, Selecting queryId clients start (history continuation) w [] := by
    induction continuation generalizing w with
    | nil =>
      refine ⟨w.cursor, rfl, fun later clientId earlier split => ?_⟩
      cases later <;> cases split
    | cons turn continuation ih =>
      cases run with
      | turn earlier run =>
        obtain ⟨start, inv⟩ := ih earlier fun turn mem => listed turn (List.mem_cons_of_mem _ mem)
        have after := (call_selecting _ inv (listed _ List.mem_cons_self)).elim run
        exact ⟨start, after.cursor, after.made⟩
  obtain ⟨start, inv⟩ := selecting
  exact ⟨start, inv.made⟩

end Revent
