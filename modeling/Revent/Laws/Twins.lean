import Revent.Laws.Fairness
import Revent.Laws.Switchboard

/-!
# Routing and the order of registration

The order in which clients register shows in the order of the handler lists and nowhere else, and
the round robin sorts the list before it chooses. So two switchboards whose lists are
permutations of each other are `Twins`: every message is handled alike on both, and leaves twins.
Two runs that begin with the same accepted registrations in two orders, and go on with the same
messages and the same outcomes, therefore choose the same responders and send the same messages.
-/

namespace Revent

open Interleave (Event Turn)

variable {R : Type}

/-! ## Twins -/

namespace Switchboard

variable {a b : Switchboard} {clientId : ClientId} {outcomes : Outcomes}

/-- The same switchboard up to the order of its lists. -/
structure Twins (a b : Switchboard) : Prop where
  channels : a.channels = b.channels
  listed : ∀ queryId, (a.listed queryId).Perm (b.listed queryId)
  ongoing : a.ongoing = b.ongoing
  cursor : a.cursor = b.cursor

theorem Twins.connect (twins : a.Twins b) (tx : Tx) :
    (a.connect clientId tx).Twins (b.connect clientId tx) :=
  { twins with channels := by simp only [Switchboard.connect, twins.channels] }

theorem Twins.disconnect (twins : a.Twins b) :
    (a.disconnect clientId).Twins (b.disconnect clientId) :=
  { twins with channels := by simp only [Switchboard.disconnect, twins.channels] }

theorem Twins.enlist (twins : a.Twins b) (msg : RegisterClientMessage) :
    (a.enlist msg).Twins (b.enlist msg) :=
  { twins with listed := fun queryId => (twins.listed queryId).append_right _ }

theorem Twins.delist (twins : a.Twins b) : (a.delist clientId).Twins (b.delist clientId) :=
  { twins with listed := fun queryId => (twins.listed queryId).filter _ }

theorem Twins.select (twins : a.Twins b) : (a.select clientId).Twins (b.select clientId) :=
  { twins with cursor := rfl }

theorem Twins.record (twins : a.Twins b) (request : OngoingQueryRequest) :
    (a.record request).Twins (b.record request) :=
  { twins with ongoing := by simp only [Switchboard.record, twins.ongoing] }

theorem Twins.forget (twins : a.Twins b) (requestId : RequestId) :
    (a.forget requestId).Twins (b.forget requestId) :=
  { twins with ongoing := by simp only [Switchboard.forget, twins.ongoing] }

/-- **The choice** does not depend on the order of the list. -/
theorem Twins.choice (twins : a.Twins b) (queryId : QueryId) :
    a.choice queryId = b.choice queryId := by
  unfold Switchboard.choice
  rw [twins.cursor, sorted_congr (twins.listed queryId)]

theorem Twins.tell (twins : a.Twins b) (msg : ServerMessage) (sent : Except TxError Unit) :
    a.tell clientId msg sent = b.tell clientId msg sent := by
  unfold Switchboard.tell
  rw [twins.channels]

end Switchboard

/-- The same messages and selections, and twins after them. -/
structure Routed.Twins (a b : Routed) : Prop where
  board : a.board.Twins b.board
  sent : a.sent = b.sent
  selected : a.selected = b.selected

namespace Switchboard

variable {a b : Switchboard}

theorem Twins.register (twins : a.Twins b) (msg : RegisterClientMessage) (outcomes : Outcomes) :
    (a.register msg outcomes).Twins (b.register msg outcomes) := by
  unfold Switchboard.register
  rw [twins.channels]
  split
  · exact ⟨twins, rfl, rfl⟩
  · exact ⟨twins, rfl, rfl⟩
  · exact ⟨(twins.connect _).enlist msg, rfl, rfl⟩

theorem Twins.forward (twins : a.Twins b) (msg : QueryRequestMessage) (responder : ClientId)
    (outcomes : Outcomes) :
    (a.forward msg responder outcomes).Twins (b.forward msg responder outcomes) := by
  unfold Switchboard.forward
  rw [twins.channels, twins.tell]
  dsimp only
  split
  · exact ⟨twins.select, rfl, rfl⟩
  · exact ⟨twins.select, rfl, rfl⟩
  · exact ⟨twins.select.record _, rfl, rfl⟩

theorem Twins.request (twins : a.Twins b) (msg : QueryRequestMessage) (outcomes : Outcomes) :
    (a.request msg outcomes).Twins (b.request msg outcomes) := by
  unfold Switchboard.request
  rw [twins.ongoing, twins.choice, twins.tell, twins.tell]
  split
  · split
    · exact ⟨twins, rfl, rfl⟩
    · exact ⟨twins, rfl, rfl⟩
  · split
    · exact ⟨twins, rfl, rfl⟩
    · exact twins.forward msg _ outcomes

theorem Twins.settle (twins : a.Twins b) (answer : Answer) (outcomes : Outcomes) :
    (a.settle answer outcomes).Twins (b.settle answer outcomes) := by
  unfold Switchboard.settle
  rw [twins.ongoing, twins.channels]
  split
  · exact ⟨twins, rfl, rfl⟩
  · split
    · exact ⟨twins, rfl, rfl⟩
    · exact ⟨twins, rfl, rfl⟩
    · exact ⟨twins.forget _, rfl, rfl⟩

theorem Twins.publish (twins : a.Twins b) (msg : RegisterSourceEventMessage)
    (outcomes : Outcomes) : (a.publish msg outcomes).Twins (b.publish msg outcomes) := by
  unfold Switchboard.publish
  split
  · exact ⟨twins, rfl, rfl⟩
  · exact ⟨twins, twins.tell _ _, rfl⟩

/-- **Every message** is handled alike on twins, and leaves twins. -/
theorem Twins.handle (twins : a.Twins b) (msg : ClientMessage) (outcomes : Outcomes) :
    (a.handle msg outcomes).Twins (b.handle msg outcomes) := by
  cases msg with
  | registerClient msg => exact twins.register msg outcomes
  | queryRequest msg => exact twins.request msg outcomes
  | queryResponse msg | queryHandlingFailed msg => exact twins.settle _ outcomes
  | registerSourceEvent msg => exact twins.publish msg outcomes
  | heartbeat clientId => exact ⟨twins, rfl, rfl⟩
  | disconnectClient clientId => exact ⟨twins.disconnect.delist, rfl, rfl⟩

end Switchboard

/-! ## The registrations -/

variable [Repository R] {timing : Timing} {repository : R} {w₁ w₂ : World R}
  {first₁ first₂ rest₁ rest₂ : List (ServerTurn R)}

/-- The turn handles a registration. -/
def IsRegistration (turn : ServerTurn R) : Prop := ∃ msg, turn.call = .message (.registerClient msg)

/-- A registration records no request and leaves the cursor. -/
theorem Switchboard.register_frame (board : Switchboard) (msg : RegisterClientMessage)
    (outcomes : Outcomes) : (board.register msg outcomes).board.ongoing = board.ongoing ∧
      (board.register msg outcomes).board.cursor = board.cursor := by
  unfold Switchboard.register
  split
  · exact ⟨rfl, rfl⟩
  · exact ⟨rfl, rfl⟩
  · exact ⟨rfl, rfl⟩

/-- While clients only register, there is no ongoing request and no selection. -/
theorem unrouted_of_registering (run : SequentialRun timing repository first₁ w₁)
    (registering : ∀ turn ∈ first₁, IsRegistration turn) :
    (∀ requestId, w₁.switchboard.ongoing requestId = none) ∧ w₁.switchboard.cursor = none := by
  induction run with
  | start => exact ⟨fun _ => rfl, rfl⟩
  | @turn turns call w w' events earlier run ih =>
    obtain ⟨ongoing, cursor⟩ := ih fun turn mem => registering turn (List.mem_cons_of_mem _ mem)
    obtain ⟨msg, rfl⟩ := registering _ List.mem_cons_self
    obtain ⟨outcomes, turned⟩ := exists_outcomes events
    have routed := congrArg Routed.board (handle_of_alone run turned)
    obtain ⟨requests, last⟩ := w.switchboard.register_frame msg outcomes
    have after : (w.switchboard.register msg outcomes).board = w'.switchboard := routed
    rw [after] at requests last
    rw [requests, last]
    exact ⟨ongoing, cursor⟩

/-- Among registrations of different clients, the order does not matter to find a client's. -/
theorem find?_perm {registrations registrations' : List RegisterClientMessage}
    (perm : registrations.Perm registrations')
    (once : (registrations.map (·.clientId)).Nodup) (clientId : ClientId) :
    registrations.find? (·.clientId = clientId) = registrations'.find? (·.clientId = clientId) := by
  induction perm with
  | nil => rfl
  | cons msg _ ih =>
    rw [List.find?_cons, List.find?_cons, ih (List.nodup_cons.mp once).2]
  | swap msg msg' registrations =>
    have differ : msg'.clientId ≠ msg.clientId := by
      intro same
      exact (List.nodup_cons.mp once).1 (List.mem_cons.mpr (.inl same))
    by_cases mine : msg.clientId = clientId
    · have other : msg'.clientId ≠ clientId := mine ▸ differ
      simp [mine, other]
    · simp only [List.find?_cons, decide_eq_false mine]
  | trans first _ ih ih' =>
    exact (ih once).trans (ih' ((first.map _).nodup once))

/-- **The same registrations in two orders** leave twins. -/
theorem twins_of_registering (run₁ : SequentialRun timing repository first₁ w₁)
    (run₂ : SequentialRun timing repository first₂ w₂)
    (registering₁ : ∀ turn ∈ first₁, IsRegistration turn)
    (registering₂ : ∀ turn ∈ first₂, IsRegistration turn)
    (reordered : (accepted (history first₁)).Perm (accepted (history first₂))) :
    w₁.switchboard.Twins w₂.switchboard := by
  have one := (inRegistry run₁).1
  have two := (inRegistry run₂).1
  obtain ⟨ongoing₁, cursor₁⟩ := unrouted_of_registering run₁ registering₁
  obtain ⟨ongoing₂, cursor₂⟩ := unrouted_of_registering run₂ registering₂
  refine ⟨funext fun clientId => ?_, fun queryId => ?_, funext fun requestId => ?_, ?_⟩
  · show w₁.state.txOf clientId = w₂.state.txOf clientId
    rw [one.entries.tx, two.entries.tx]
    exact congrArg (Option.map _) (find?_perm reordered one.entries.once clientId)
  · show (w₁.state.listed queryId).Perm (w₂.state.listed queryId)
    rw [one.lists.listed, two.lists.listed]
    exact reordered.flatMap_right _
  · rw [ongoing₁, ongoing₂]
  · rw [cursor₁, cursor₂]

/-! ## The law -/

/-- The turns handle the same message, with the same outcomes of their sends and saves. -/
def SameHandling (turn₁ turn₂ : ServerTurn R) : Prop :=
  ∃ msg, turn₁.call = .message msg ∧ turn₂.call = .message msg ∧
    ∃ outcomes : Outcomes, outcomes.Of turn₁.events ∧ outcomes.Of turn₂.events

/-- **Routing alike**: the turns select the same responders and send the same messages, and the
worlds after them have the same clients connected over the same channels, the same requests up to
the instant they were recorded at, and the same lists up to the order. -/
structure RoutesAlike (rest₁ rest₂ : List (ServerTurn R)) (w₁ w₂ : World R) : Prop where
  responders : List.Forall₂
    (fun turn₁ turn₂ => selections turn₁.events = selections turn₂.events) rest₁ rest₂
  messages : List.Forall₂
    (fun turn₁ turn₂ => deliveries turn₁.events = deliveries turn₂.events) rest₁ rest₂
  connected : ∀ clientId, w₁.state.txOf clientId = w₂.state.txOf clientId
  requests : ∀ requestId, (w₁.state.ongoing requestId).map (·.untimed) =
    (w₂.state.ongoing requestId).map (·.untimed)
  lists : ∀ queryId, (w₁.state.listed queryId).Perm (w₂.state.listed queryId)

omit [Repository R] in
theorem RoutesAlike.of_twins (twins : w₁.switchboard.Twins w₂.switchboard)
    (responders : List.Forall₂
      (fun turn₁ turn₂ => selections turn₁.events = selections turn₂.events) rest₁ rest₂)
    (messages : List.Forall₂
      (fun turn₁ turn₂ => deliveries turn₁.events = deliveries turn₂.events) rest₁ rest₂) :
    RoutesAlike rest₁ rest₂ w₁ w₂ :=
  ⟨responders, messages, congrFun twins.channels, congrFun twins.ongoing, twins.listed⟩

/-- A turn of the same handling from twins routes alike, and leaves twins. -/
theorem twins_of_turn {w₁' w₂' : World R} {turn₁ turn₂ : ServerTurn R}
    (twins : turn₁.before.switchboard.Twins turn₂.before.switchboard)
    (same : SameHandling turn₁ turn₂)
    (run₁ : Interleave.Alone exec (turn₁.call.prog timing) turn₁.before [] () w₁' turn₁.events)
    (run₂ : Interleave.Alone exec (turn₂.call.prog timing) turn₂.before [] () w₂' turn₂.events) :
    Routed.Twins ⟨w₁'.switchboard, deliveries turn₁.events, selections turn₁.events⟩
      ⟨w₂'.switchboard, deliveries turn₂.events, selections turn₂.events⟩ := by
  obtain ⟨msg, call₁, call₂, outcomes, turned₁, turned₂⟩ := same
  rw [call₁] at run₁
  rw [call₂] at run₂
  have handled := twins.handle msg outcomes
  rwa [handle_of_alone run₁ turned₁, handle_of_alone run₂ turned₂] at handled

/-- **Routing does not depend on the order of registration.** -/
theorem routesAlike_of_reordered
    (run₁ : SequentialRun timing repository (rest₁ ++ first₁) w₁)
    (run₂ : SequentialRun timing repository (rest₂ ++ first₂) w₂)
    (registering₁ : ∀ turn ∈ first₁, IsRegistration turn)
    (registering₂ : ∀ turn ∈ first₂, IsRegistration turn)
    (reordered : (accepted (history first₁)).Perm (accepted (history first₂)))
    (same : List.Forall₂ SameHandling rest₁ rest₂) : RoutesAlike rest₁ rest₂ w₁ w₂ := by
  have alike : w₁.switchboard.Twins w₂.switchboard ∧ List.Forall₂ (fun turn₁ turn₂ =>
      selections turn₁.events = selections turn₂.events ∧
        deliveries turn₁.events = deliveries turn₂.events) rest₁ rest₂ := by
    induction same generalizing w₁ w₂ with
    | nil => exact ⟨twins_of_registering run₁ run₂ registering₁ registering₂ reordered, .nil⟩
    | cons handling _ ih =>
      cases run₁ with
      | turn earlier₁ run₁ =>
        cases run₂ with
        | turn earlier₂ run₂ =>
          obtain ⟨twins, before⟩ := ih earlier₁ earlier₂
          obtain ⟨after, sent, selected⟩ := twins_of_turn twins handling run₁ run₂
          exact ⟨after, .cons ⟨selected, sent⟩ before⟩
  exact .of_twins alike.1 (alike.2.imp fun _ _ both => both.1) (alike.2.imp fun _ _ both => both.2)

section Scenario

open Scenario

/-- The outcomes when every send is accepted. -/
def Scenario.allAccepted : Outcomes := ⟨fun _ => .ok (), fun _ => .error ⟨""⟩⟩

/-- The event is no save, and no send that was refused. -/
def Scenario.isAccepted : Event Op Ret → Bool
  | ⟨.send _ _ _, .error _⟩ => false
  | ⟨.saveSourceEvent _, _⟩ => false
  | _ => true

omit [Repository R] in
theorem Scenario.of_allAccepted {h : History} (accepts : h.all isAccepted = true) :
    allAccepted.Of h := by
  have accepted {α : Type} {f : Event Op Ret → Option α} {k : Nat} {a : α}
      (at_k : (h.filterMap f).reverse[k]? = some a) :
      ∃ ev, isAccepted ev = true ∧ f ev = some a := by
    have mem := List.mem_reverse.mp (List.mem_of_getElem? at_k)
    obtain ⟨ev, hev, is⟩ := List.mem_filterMap.mp mem
    exact ⟨ev, List.all_eq_true.mp accepts ev hev, is⟩
  constructor
  · intro k sent at_k
    obtain ⟨ev, accepts, is⟩ := accepted at_k
    unfold sendResult at is
    split at is
    · cases is
      cases sent with
      | error err => cases accepts
      | ok _ => rfl
    · cases is
  · intro k saved at_k
    obtain ⟨ev, accepts, is⟩ := accepted at_k
    unfold saveResult at is
    split at is
    · cases accepts
    · cases is

omit [Repository R] in
/-- Turns of the same messages whose sends are all accepted are handled alike. -/
theorem Scenario.forall₂_sameHandling {msgs : List ClientMessage}
    (calls₁ : rest₁.map (·.call) = msgs.map .message)
    (calls₂ : rest₂.map (·.call) = msgs.map .message)
    (accepts₁ : ∀ turn ∈ rest₁, turn.events.all isAccepted = true)
    (accepts₂ : ∀ turn ∈ rest₂, turn.events.all isAccepted = true) :
    List.Forall₂ SameHandling rest₁ rest₂ := by
  induction msgs generalizing rest₁ rest₂ with
  | nil =>
    rw [List.map_eq_nil_iff.mp calls₁, List.map_eq_nil_iff.mp calls₂]
    exact .nil
  | cons msg msgs ih =>
    obtain ⟨turn₁, rest₁, rfl, call₁, calls₁⟩ := List.map_eq_cons_iff.mp calls₁
    obtain ⟨turn₂, rest₂, rfl, call₂, calls₂⟩ := List.map_eq_cons_iff.mp calls₂
    obtain ⟨all₁, accepts₁⟩ := List.forall_mem_cons.mp accepts₁
    obtain ⟨all₂, accepts₂⟩ := List.forall_mem_cons.mp accepts₂
    refine .cons ⟨msg, call₁, call₂, allAccepted, ?_, ?_⟩ (ih calls₁ calls₂ accepts₁ accepts₂)
    · exact of_allAccepted all₁
    · exact of_allAccepted all₂

/-- What the runs go on with, newest first: two requests, the disconnect of one client, and another
request. -/
def Scenario.laterMessages : List ClientMessage :=
  [.queryRequest ⟨⟨3⟩, alice, usersGetAll, ∅⟩, .disconnectClient bob,
    .queryRequest ⟨⟨2⟩, alice, usersGetAll, ∅⟩, .queryRequest ⟨⟨1⟩, alice, usersGetAll, ∅⟩]

/-- Two registrations and what comes later, newest first. -/
def Scenario.twoRegistrations (first second : RegisterClientMessage) : List ClientMessage :=
  laterMessages ++ [.registerClient second, .registerClient first]

/-- The run of them. -/
def Scenario.handlesInOrder (first second : RegisterClientMessage) :
    Option (List (ServerTurn NoopSourceEventRepository) × World NoopSourceEventRepository) :=
  handled ((twoRegistrations first second).reverse.map Call.message)

/-- What is checked of such a run: the accepted registrations, the responders chosen later, and
that every send was accepted. -/
def Scenario.registeredAndSelected
    (run : List (ServerTurn NoopSourceEventRepository) × World NoopSourceEventRepository) :
    List RegisterClientMessage × List ClientId × Bool :=
  (accepted (history (run.1.drop 4)), (selections (history (run.1.take 4))).map Prod.snd,
    run.1.all fun turn => turn.events.all isAccepted)

/-- The parts of such a run are as the theorem takes them. -/
theorem Scenario.parts_of_handlesInOrder {first second : RegisterClientMessage}
    {turns : List (ServerTurn NoopSourceEventRepository)} {w : World NoopSourceEventRepository}
    (done : handlesInOrder first second = some (turns, w)) :
    SequentialRun Scenario.timing ⟨⟩ (turns.take 4 ++ turns.drop 4) w ∧
      (turns.take 4).map (·.call) = laterMessages.map .message ∧
      ∀ turn ∈ turns.drop 4, IsRegistration turn := by
  have calls : turns.map (·.call) = (twoRegistrations first second).map Call.message := by
    rw [Interleave.calls_of_playCalls done]
    simp
  refine ⟨?_, ?_, fun turn mem => ?_⟩
  · rw [List.take_append_drop]
    exact Interleave.sequential_of_playCalls .start done
  · rw [List.map_take, calls]
    rfl
  · have mem : turn.call ∈ (turns.map (·.call)).drop 4 := by
      rw [← List.map_drop]
      exact List.mem_map_of_mem mem
    rw [calls] at mem
    have mem : turn.call ∈ [Call.message (.registerClient second),
      .message (.registerClient first)] := mem
    rcases List.mem_cons.mp mem with is | mem
    · exact ⟨second, is⟩
    · exact ⟨first, List.mem_singleton.mp mem⟩

omit [Repository R] in
/-- Two clients register in either order, and the round robin goes on with the same one. -/
theorem routesAlike_reordering : ∃ first₁ first₂ rest₁ rest₂
    : List (ServerTurn NoopSourceEventRepository), ∃ w₁ w₂,
    SequentialRun Scenario.timing ⟨⟩ (rest₁ ++ first₁) w₁ ∧
    SequentialRun Scenario.timing ⟨⟩ (rest₂ ++ first₂) w₂ ∧
    accepted (history first₁) ≠ accepted (history first₂) ∧
    (selections (history rest₁)).map Prod.snd = [alice, bob, alice] ∧
    RoutesAlike rest₁ rest₂ w₁ w₂ := by
  have played₁ : (handlesInOrder ⟨alice, [usersGetAll], 0⟩ ⟨bob, [usersGetAll], 1⟩).map
      registeredAndSelected =
        some ([⟨alice, [usersGetAll], 0⟩, ⟨bob, [usersGetAll], 1⟩], [alice, bob, alice], true) := by
    decide +kernel
  have played₂ : (handlesInOrder ⟨bob, [usersGetAll], 1⟩ ⟨alice, [usersGetAll], 0⟩).map
      registeredAndSelected =
        some ([⟨bob, [usersGetAll], 1⟩, ⟨alice, [usersGetAll], 0⟩], [alice, bob, alice], true) := by
    decide +kernel
  obtain ⟨⟨turns₁, w₁⟩, done₁, shown₁⟩ := Option.map_eq_some_iff.mp played₁
  obtain ⟨⟨turns₂, w₂⟩, done₂, shown₂⟩ := Option.map_eq_some_iff.mp played₂
  obtain ⟨accepted₁, shown₁⟩ := Prod.mk.inj shown₁
  obtain ⟨accepted₂, shown₂⟩ := Prod.mk.inj shown₂
  obtain ⟨selected₁, all₁⟩ := Prod.mk.inj shown₁
  obtain ⟨-, all₂⟩ := Prod.mk.inj shown₂
  obtain ⟨run₁, calls₁, registering₁⟩ := parts_of_handlesInOrder done₁
  obtain ⟨run₂, calls₂, registering₂⟩ := parts_of_handlesInOrder done₂
  refine ⟨_, _, _, _, w₁, w₂, run₁, run₂, ?_, selected₁,
    routesAlike_of_reordered run₁ run₂ registering₁ registering₂ ?_
      (forall₂_sameHandling calls₁ calls₂ ?_ ?_)⟩
  · rw [accepted₁, accepted₂]
    decide
  · rw [accepted₁, accepted₂]
    exact .swap _ _ _
  · exact fun turn mem => List.all_eq_true.mp all₁ turn (List.mem_of_mem_take mem)
  · exact fun turn mem => List.all_eq_true.mp all₂ turn (List.mem_of_mem_take mem)

end Scenario

end Revent
