import Mathlib.Data.List.Count
import Revent.Interleave.Footprint
import Revent.Laws.Delivery
import Revent.Laws.Frames
import Revent.Laws.Publication
import Revent.Laws.Twins

/-!
# Messages that may change places

What handling a message reads and writes, cell by cell: the channel of a client, how often a client
is listed for a query, the ongoing request of an id, the client selected last, and the repository.
The order within a list is no cell, since a selection sorts the list, and no instant is. Two
messages are independent if neither writes what the other one reads or writes: answers to different
requests are, and so are an answer and a source event, and the registration of a client and the
departure of another one. Two source events are not: the repository numbers them.

`commutes_of_inTurn` is the result on the handlers: a batch of which every two messages are
independent comes to the same in any order, and for each of them the same is sent, saved and handed
to a broadcast, if the same sends are accepted and the database decides alike.
-/

namespace Revent

open Interleave (Footprint Alone)

variable {R : Type}

/-- What the message handlers read and write, instants aside. -/
structure Desk (R : Type) where
  board : Switchboard
  repository : R

/-- The desk of a world. -/
def World.desk (w : World R) : Desk R := ⟨w.switchboard, w.state.repository⟩

/-- What a desk is read by. -/
inductive Cell where
  | channel (clientId : ClientId)
  | listed (query : QueryId) (clientId : ClientId)
  | ongoing (requestId : RequestId)
  | cursor
  | repository

/-- What a cell holds. -/
def Cell.Value (R : Type) : Cell → Type
  | .channel _ => Option Tx
  | .listed _ _ => Nat
  | .ongoing _ => Option OngoingQueryRequest
  | .cursor => Option ClientId
  | .repository => R

/-- The cells of a client's entry and of its place in the lists. -/
def ofClient (clientId : ClientId) : Set Cell :=
  {cell | cell = .channel clientId ∨ ∃ query, cell = .listed query clientId}

/-- The channels. -/
def allChannels : Set Cell := {cell | ∃ clientId, cell = .channel clientId}

/-- The list of a query. -/
def listOf (query : QueryId) : Set Cell := {cell | ∃ clientId, cell = .listed query clientId}

/-- What handling a message shows: what is sent and who is selected, both newest first, what is
saved, and what is handed to a broadcast. -/
@[ext] structure Observed where
  sent : List Delivery
  selected : List (QueryId × ClientId)
  saved : List (Except SourceEventRepositoryError SourceEvent)
  handed : List SourceEvent

section Handling

variable [Repository R]

/-- How the sends of a message turn out, and what the database decides if it is saved. -/
structure Circumstances (R : Type) [Repository R] where
  sent : Nat → Except TxError Unit
  saving : Repository.Choice R

/-- The outcomes of the sends and of these saves. -/
def Circumstances.outcomes (given : Circumstances R)
    (saved : List (Except SourceEventRepositoryError SourceEvent)) : Outcomes :=
  ⟨given.sent, fun k => saved[k]?.getD (.error ⟨""⟩)⟩

/-- What a message saves, and the repository after it. -/
def ClientMessage.save (saving : Repository.Choice R) (repository : R) :
    ClientMessage → List (Except SourceEventRepositoryError SourceEvent) × R
  | .registerSourceEvent msg =>
    let saved := Repository.saveSourceEvent msg.toNewSourceEvent saving repository
    ([saved.1], saved.2)
  | _ => ([], repository)

/-- What a message hands to a broadcast: the event it saves, if its source is connected. -/
def ClientMessage.handed (board : Switchboard)
    (saved : List (Except SourceEventRepositoryError SourceEvent)) :
    ClientMessage → List SourceEvent
  | .registerSourceEvent msg =>
    match board.channels msg.source with
    | none => []
    | some _ => saved.filterMap (·.toOption)
  | _ => []

namespace Desk

/-- The cell of a desk. -/
def read (desk : Desk R) : (cell : Cell) → cell.Value R
  | .channel clientId => desk.board.channels clientId
  | .listed query clientId => (desk.board.listed query).count clientId
  | .ongoing requestId => desk.board.ongoing requestId
  | .cursor => desk.board.cursor
  | .repository => desk.repository

/-- Handling a message, with what it shows. -/
def perform (item : ClientMessage × Circumstances R) (desk : Desk R) : Desk R × Observed :=
  let saved := item.1.save item.2.saving desk.repository
  let routed := desk.board.handle item.1 (item.2.outcomes saved.1)
  (⟨routed.board, saved.2⟩,
    ⟨routed.sent, routed.selected, saved.1, item.1.handed desk.board saved.1⟩)

end Desk

end Handling

/-- The footprint of an answer: which requester is told, the request says. -/
def Answer.footprint (answer : Answer) : Footprint Cell :=
  ⟨{.ongoing answer.requestId} ∪ allChannels, {.ongoing answer.requestId}⟩

/-- **The footprint of a message.** -/
def ClientMessage.footprint : ClientMessage → Footprint Cell
  | .registerClient msg => ⟨{.channel msg.clientId}, ofClient msg.clientId⟩
  | .queryRequest msg => ⟨{.ongoing msg.requestId, .cursor} ∪ allChannels ∪ listOf msg.queryId,
      {.ongoing msg.requestId, .cursor}⟩
  | .queryResponse msg => (Answer.response msg).footprint
  | .queryHandlingFailed msg => (Answer.failed msg).footprint
  | .registerSourceEvent msg => ⟨{.channel msg.source, .repository}, {.repository}⟩
  | .heartbeat _ => ⟨∅, ∅⟩
  | .disconnectClient clientId => ⟨∅, ofClient clientId⟩

variable [Repository R]

/-- An operation, where the database decides like this. -/
def execSaving (saving : Repository.Choice R) (op : Op) (env : Env R) (w : World R) :
    Option (Ret op × World R) := exec op { env with saving } w

/-- Messages handled one after the other, each without interleaving and in its circumstances, with
what is seen of each of them. -/
inductive InTurn : World R → List (ClientMessage × Circumstances R) → World R →
    List ((ClientMessage × Circumstances R) × Observed) → Prop where
  | none {w : World R} : InTurn w [] w []
  | next {w w₁ w' : World R} {msg : ClientMessage} {given : Circumstances R} {events : History}
      {batch : List (ClientMessage × Circumstances R)}
      {told : List ((ClientMessage × Circumstances R) × Observed)}
      (alone : Alone (execSaving given.saving) (handleMessage msg) w [] () w₁ events)
      (turned : ∀ k sent, (sendResults events)[k]? = some sent → given.sent k = sent)
      (rest : InTurn w₁ batch w' told) :
      InTurn w ((msg, given) :: batch) w'
        (((msg, given), ⟨deliveries events, selections events, saveResults events,
          events.filterMap spawns⟩) :: told)

/-! ## What is saved and broadcast -/

omit [Repository R] in
/-- A history without saves has no results of saves. -/
theorem saveResults_eq_nil {h : History}
    (unsaved : ∀ msg saved, ⟨.saveSourceEvent msg, saved⟩ ∉ h) : saveResults h = [] := by
  unfold saveResults
  rw [List.reverse_eq_nil_iff, List.filterMap_eq_nil_iff]
  intro ev mem
  unfold saveResult
  split
  · exact absurd mem (unsaved _ _)
  · rfl

/-- A source event is saved once, at the start. -/
theorem handleRegisterSourceEventMessage_saves {saving : Repository.Choice R} {w : World R}
    {msg : RegisterSourceEventMessage} :
    (handleRegisterSourceEventMessage msg).Ensures (execSaving saving)
      (fun _ w' h => ClientMessage.save saving w.state.repository (.registerSourceEvent msg) =
        (saveResults h, w'.state.repository)) w (begun (.registerSourceEvent msg) []) := by
  intro env saved w₁ performed
  have same : Repository.saveSourceEvent msg.toNewSourceEvent saving w.state.repository =
      (saved, w₁.state.repository) := by
    obtain ⟨rfl, rfl⟩ := Prod.mk.inj (Option.some.inj performed)
    rfl
  simp only [ClientMessage.save, same]
  cases saved with
  | error err => rfl
  | ok event =>
    intro env source w₂ looked
    have kept := repository_exec looked nofun
    cases source with
    | none =>
      rw [← kept]
      rfl
    | some info =>
      intro env sent w₃ told env _ w₄ handed
      rw [← kept, ← repository_exec told nofun, ← repository_exec handed nofun]
      rfl

/-- **What a handler saves** is what its message saves. -/
theorem save_of_alone {saving : Repository.Choice R} {w w' : World R} {msg : ClientMessage}
    {events : History}
    (run : Alone (execSaving saving) (handleMessage msg) w [] () w' events) :
    msg.save saving w.state.repository = (saveResults events, w'.state.repository) := by
  have others (unsaved : (∀ m saved, ⟨.saveSourceEvent m, saved⟩ ∉ events) ∧
      w'.state.repository = w.state.repository) :
      ([], w.state.repository) = (saveResults events, w'.state.repository) := by
    rw [saveResults_eq_nil unsaved.1, unsaved.2]
  have framed := framed_of_alone (run.mono fun performed => ⟨_, performed⟩)
  cases msg with
  | registerSourceEvent msg =>
    have saves : (handleMessage (.registerSourceEvent msg)).Ensures (execSaving saving)
        (fun _ w' h => ClientMessage.save saving w.state.repository (.registerSourceEvent msg) =
          (saveResults h, w'.state.repository)) w [] := by
      intro env _ w₁ refreshed
      rw [← repository_exec refreshed nofun]
      exact handleRegisterSourceEventMessage_saves
    exact saves.elim run
  | _ => exact others (framed.repository nofun)

/-- A source event is handed to a broadcast if it is saved and its source is connected. -/
theorem handleRegisterSourceEventMessage_hands {w : World R} {msg : RegisterSourceEventMessage} :
    (handleRegisterSourceEventMessage msg).Ensures exec
      (fun _ _ h => ClientMessage.handed w.switchboard (saveResults h) (.registerSourceEvent msg) =
        h.filterMap spawns) w (begun (.registerSourceEvent msg) []) := by
  intro env saved w₁ saving
  have same : w₁.switchboard = w.switchboard := switchboard_exec saving
  cases saved with
  | error err =>
    show (match w.switchboard.channels msg.source with | none => [] | some _ => _) = _
    split <;> rfl
  | ok event =>
    intro env source w₂ looked
    obtain ⟨hsource, rfl⟩ := exec_getClientById looked
    have channel : w.switchboard.channels msg.source = source.map ClientInfo.tx := by
      rw [hsource, ← same]
      rfl
    cases source with
    | none =>
      simp only [ClientMessage.handed, channel, Option.map_none]
      rfl
    | some info =>
      intro env sent w₃ performed env _ w₄ spawned
      simp only [ClientMessage.handed, channel, Option.map_some]
      rfl

/-- **What a handler hands to a broadcast** is what its message does. -/
theorem handed_of_alone {w w' : World R} {msg : ClientMessage} {events : History}
    (run : Alone exec (handleMessage msg) w [] () w' events) :
    msg.handed w.switchboard (saveResults events) = events.filterMap spawns := by
  have others (other : ∀ m, msg ≠ .registerSourceEvent m) : [] = events.filterMap spawns := by
    apply kept_of_alone run _ rfl
    intro op env r w₁ w₂ h performs _ none
    cases op with
    | spawnBroadcast event =>
      obtain ⟨m, about⟩ := performs
      exact absurd about (other m)
    | _ => exact none
  cases msg with
  | registerSourceEvent msg =>
    have hands : (handleMessage (.registerSourceEvent msg)).Ensures exec
        (fun _ _ h => ClientMessage.handed w.switchboard (saveResults h)
          (.registerSourceEvent msg) = h.filterMap spawns) w [] := by
      intro env _ w₁ refreshed
      have same : w₁.switchboard = w.switchboard := switchboard_exec refreshed
      rw [← same]
      exact handleRegisterSourceEventMessage_hands
    exact hands.elim run
  | _ => exact others nofun

/-! ## What a message comes to -/

namespace Switchboard

variable {a b : Switchboard}

/-- What a registration comes to by the client's channel. -/
theorem register_congr (outcomes : Outcomes) (msg : RegisterClientMessage)
    (channel : a.channels msg.clientId = b.channels msg.clientId) :
    (a.register msg outcomes).sent = (b.register msg outcomes).sent ∧
      (a.register msg outcomes).selected = (b.register msg outcomes).selected ∧
      (a.register msg outcomes).board.channels msg.clientId =
        (b.register msg outcomes).board.channels msg.clientId ∧
      ∀ query, ∃ more, (a.register msg outcomes).board.listed query = a.listed query ++ more ∧
        (b.register msg outcomes).board.listed query = b.listed query ++ more := by
  unfold register
  rw [channel]
  split
  · exact ⟨rfl, rfl, channel, fun query => ⟨[], by simp⟩⟩
  · exact ⟨rfl, rfl, channel, fun query => ⟨[], by simp⟩⟩
  · refine ⟨rfl, rfl, ?_, fun query => ⟨_, rfl, rfl⟩⟩
    exact (if_pos rfl).trans (if_pos rfl).symm

/-- What a request comes to by what it reads. -/
theorem request_congr (outcomes : Outcomes) (msg : QueryRequestMessage)
    (channels : a.channels = b.channels)
    (ongoing : a.ongoing msg.requestId = b.ongoing msg.requestId)
    (choice : a.choice msg.queryId = b.choice msg.queryId) (cursor : a.cursor = b.cursor) :
    (a.request msg outcomes).sent = (b.request msg outcomes).sent ∧
      (a.request msg outcomes).selected = (b.request msg outcomes).selected ∧
      (a.request msg outcomes).board.ongoing msg.requestId =
        (b.request msg outcomes).board.ongoing msg.requestId ∧
      (a.request msg outcomes).board.cursor = (b.request msg outcomes).board.cursor := by
  have tell (serverMessage : ServerMessage) (sent : Except TxError Unit) :
      a.tell msg.requester serverMessage sent = b.tell msg.requester serverMessage sent := by
    unfold Switchboard.tell
    rw [channels]
  unfold request
  rw [ongoing, choice, tell, tell]
  split
  · split <;> exact ⟨rfl, rfl, ongoing, cursor⟩
  · split
    · exact ⟨rfl, rfl, ongoing, cursor⟩
    · unfold forward
      rw [channels, tell]
      dsimp only
      split
      · exact ⟨rfl, rfl, ongoing, rfl⟩
      · exact ⟨rfl, rfl, ongoing, rfl⟩
      · exact ⟨rfl, rfl, (if_pos rfl).trans (if_pos rfl).symm, rfl⟩

/-- What an answer comes to by what it reads. -/
theorem settle_congr (outcomes : Outcomes) (answer : Answer)
    (channels : a.channels = b.channels)
    (ongoing : a.ongoing answer.requestId = b.ongoing answer.requestId) :
    (a.settle answer outcomes).sent = (b.settle answer outcomes).sent ∧
      (a.settle answer outcomes).selected = (b.settle answer outcomes).selected ∧
      (a.settle answer outcomes).board.ongoing answer.requestId =
        (b.settle answer outcomes).board.ongoing answer.requestId := by
  unfold settle
  rw [ongoing, channels]
  split
  · exact ⟨rfl, rfl, ongoing⟩
  · split
    · exact ⟨rfl, rfl, ongoing⟩
    · exact ⟨rfl, rfl, ongoing⟩
    · exact ⟨rfl, rfl, (if_pos rfl).trans (if_pos rfl).symm⟩

end Switchboard

/-! ## Cells -/

namespace Desk

variable {a b : Desk R}

omit [Repository R] in
/-- Cell by cell the same is the same up to the order of the lists. -/
theorem twins_of_alike (alike : Interleave.Alike read a b) :
    a.board.Twins b.board ∧ a.repository = b.repository where
  left := {
    channels := funext fun clientId => alike (.channel clientId)
    listed query := List.perm_iff_count.mpr fun clientId => alike (.listed query clientId)
    ongoing := funext fun requestId => alike (.ongoing requestId)
    cursor := alike .cursor }
  right := alike .repository

omit [Repository R] in
/-- What a registration leaves alone. -/
theorem read_register_other (desk : Desk R) (msg : RegisterClientMessage) (outcomes : Outcomes)
    {cell : Cell} (other : cell ∉ ofClient msg.clientId) :
    { desk with board := (desk.board.register msg outcomes).board }.read cell =
      desk.read cell := by
  unfold Switchboard.register
  split
  · rfl
  · rfl
  · cases cell with
    | channel clientId =>
      have differ : msg.clientId ≠ clientId := fun same => other (Or.inl (same ▸ rfl))
      exact if_neg differ
    | listed query clientId =>
      have differ : msg.clientId ≠ clientId := fun same => other (Or.inr ⟨query, same ▸ rfl⟩)
      show List.count clientId (_ ++ List.replicate _ msg.clientId) = _
      rw [List.count_append, List.count_replicate, if_neg (by simpa using differ), Nat.add_zero]
      rfl
    | ongoing | cursor | repository => rfl

theorem register_of (msg : RegisterClientMessage) (given : Circumstances R) :
    (ClientMessage.registerClient msg).footprint.Of read
      (perform (.registerClient msg, given)) where
  frame desk _ other := desk.read_register_other msg _ other
  answer a b agree := by
    obtain ⟨sent, selected, -⟩ := Switchboard.register_congr (given.outcomes []) msg (agree _ rfl)
    exact Observed.ext sent selected rfl rfl
  result a b agree cell written same := by
    obtain ⟨-, -, channel, lists⟩ :=
      Switchboard.register_congr (given.outcomes []) msg (agree _ rfl)
    obtain rfl | ⟨query, rfl⟩ := written
    · exact channel
    · obtain ⟨more, left, right⟩ := lists query
      show List.count msg.clientId _ = List.count msg.clientId _
      have counts : (a.board.listed query).count msg.clientId =
          (b.board.listed query).count msg.clientId := same
      rw [show (a.perform (.registerClient msg, given)).1.board.listed query = _ from left,
        show (b.perform (.registerClient msg, given)).1.board.listed query = _ from right,
        List.count_append, List.count_append, counts]

omit [Repository R] in
/-- What a request leaves alone. -/
theorem read_request_other (desk : Desk R) (msg : QueryRequestMessage) (outcomes : Outcomes)
    {cell : Cell} (other : cell ≠ .ongoing msg.requestId ∧ cell ≠ .cursor) :
    { desk with board := (desk.board.request msg outcomes).board }.read cell = desk.read cell := by
  obtain ⟨differ, no_cursor⟩ := other
  have selected (responder : ClientId) :
      { desk with board := desk.board.select responder }.read cell = desk.read cell := by
    cases cell with
    | channel | listed | ongoing | repository => rfl
    | cursor => exact absurd rfl no_cursor
  have recorded (responder : ClientId) :
      { desk with board := (desk.board.select responder).record (.of responder msg 0) }.read cell =
        desk.read cell := by
    cases cell with
    | channel | listed | repository => rfl
    | ongoing requestId => exact if_neg fun same => differ (congrArg Cell.ongoing same.symm)
    | cursor => exact absurd rfl no_cursor
  unfold Switchboard.request Switchboard.forward
  repeat' split
  · rfl
  · rfl
  · rfl
  · exact selected _
  · exact selected _
  · exact recorded _

theorem request_of (msg : QueryRequestMessage) (given : Circumstances R) :
    (ClientMessage.queryRequest msg).footprint.Of read
      (perform (.queryRequest msg, given)) := by
  have local_of {a b : Desk R} (agree : ∀ cell ∈ (ClientMessage.queryRequest msg).footprint.reads,
      a.read cell = b.read cell) := by
    have cursor : a.board.cursor = b.board.cursor := agree .cursor (Or.inl (Or.inl (Or.inr rfl)))
    have listed : (a.board.listed msg.queryId).Perm (b.board.listed msg.queryId) :=
      List.perm_iff_count.mpr fun clientId =>
        agree (.listed msg.queryId clientId) (Or.inr ⟨clientId, rfl⟩)
    have choice : a.board.choice msg.queryId = b.board.choice msg.queryId := by
      unfold Switchboard.choice
      rw [cursor, sorted_congr listed]
    exact Switchboard.request_congr (given.outcomes []) msg
      (funext fun clientId => agree (.channel clientId) (Or.inl (Or.inr ⟨clientId, rfl⟩)))
      (agree (.ongoing msg.requestId) (Or.inl (Or.inl (Or.inl rfl)))) choice cursor
  refine ⟨fun desk cell other => ?_, fun a b agree => ?_, fun a b agree cell written _ => ?_⟩
  · apply desk.read_request_other msg (given.outcomes [])
    exact ⟨fun same => other (Or.inl same), fun same => other (Or.inr same)⟩
  · obtain ⟨sent, selected, -⟩ := local_of agree
    exact Observed.ext sent selected rfl rfl
  · obtain ⟨-, -, ongoing, cursor⟩ := local_of agree
    obtain rfl | rfl := written
    · exact ongoing
    · exact cursor

omit [Repository R] in
/-- What an answer leaves alone. -/
theorem read_settle_other (desk : Desk R) (answer : Answer) (outcomes : Outcomes)
    {cell : Cell} (other : cell ≠ .ongoing answer.requestId) :
    { desk with board := (desk.board.settle answer outcomes).board }.read cell =
      desk.read cell := by
  have forgotten :
      { desk with board := desk.board.forget answer.requestId }.read cell = desk.read cell := by
    cases cell with
    | channel | listed | cursor | repository => rfl
    | ongoing requestId => exact if_neg fun same => other (congrArg Cell.ongoing same.symm)
  unfold Switchboard.settle
  repeat' split
  · rfl
  · rfl
  · rfl
  · exact forgotten

omit [Repository R] in
/-- Both kinds of answers keep to the footprint of their request. -/
theorem settle_of (answer : Answer) (outcomes : Outcomes) :
    answer.footprint.Of read fun desk : Desk R =>
      let routed := desk.board.settle answer outcomes
      (⟨routed.board, desk.repository⟩, (⟨routed.sent, routed.selected, [], []⟩ : Observed)) := by
  have local_of {a b : Desk R}
      (agree : ∀ cell ∈ answer.footprint.reads, a.read cell = b.read cell) :=
    Switchboard.settle_congr outcomes answer
      (funext fun clientId => agree (.channel clientId) (Or.inr ⟨clientId, rfl⟩))
      (agree (.ongoing answer.requestId) (Or.inl rfl))
  refine ⟨fun desk cell other => ?_, fun a b agree => ?_, fun a b agree cell written _ => ?_⟩
  · exact desk.read_settle_other answer outcomes other
  · obtain ⟨sent, selected, -⟩ := local_of agree
    exact Observed.ext sent selected rfl rfl
  · obtain ⟨-, -, ongoing⟩ := local_of agree
    obtain rfl := written
    exact ongoing

/-- What a departure leaves alone, and what it leaves of the client. -/
theorem disconnect_of (clientId : ClientId) (given : Circumstances R) :
    (ClientMessage.disconnectClient clientId).footprint.Of read
      (perform (.disconnectClient clientId, given)) := by
  refine ⟨fun desk cell other => ?_, fun _ _ _ => rfl, fun a b _ cell written _ => ?_⟩
  · cases cell with
    | channel client =>
      have differ : clientId ≠ client := fun same => other (Or.inl (same ▸ rfl))
      exact if_neg differ
    | listed query client =>
      have differ : client ≠ clientId := fun same => other (Or.inr ⟨query, same ▸ rfl⟩)
      exact List.count_filter (by simpa using differ)
    | ongoing | cursor | repository => rfl
  · have away (board : Switchboard) (query : QueryId) :
        ((board.listed query).filter (· ≠ clientId)).count clientId = 0 := by
      rw [List.count_eq_zero]
      intro mem
      simpa using List.of_mem_filter mem
    obtain rfl | ⟨query, rfl⟩ := written
    · exact (if_pos rfl).trans (if_pos rfl).symm
    · exact (away a.board query).trans (away b.board query).symm

/-- A source event leaves the switchboard alone, and what it shows is the repository's to say. -/
theorem publish_of (msg : RegisterSourceEventMessage) (given : Circumstances R) :
    (ClientMessage.registerSourceEvent msg).footprint.Of read
      (perform (.registerSourceEvent msg, given)) := by
  have board_eq (board : Switchboard) (outcomes : Outcomes) :
      (board.publish msg outcomes).board = board := by
    unfold Switchboard.publish
    split <;> rfl
  refine ⟨fun desk cell other => ?_, fun a b agree => ?_, fun a b agree cell written _ => ?_⟩
  · have same (outcomes : Outcomes) (repository : R) :
        Desk.read ⟨(desk.board.publish msg outcomes).board, repository⟩ cell = desk.read cell := by
      rw [board_eq]
      cases cell with
      | repository => exact absurd rfl other
      | _ => rfl
    exact same _ _
  · have channel : a.board.channels msg.source = b.board.channels msg.source :=
      agree (.channel msg.source) (Or.inl rfl)
    have repository : a.repository = b.repository := agree .repository (Or.inr rfl)
    have published (outcomes : Outcomes) :
        (a.board.publish msg outcomes).sent = (b.board.publish msg outcomes).sent ∧
          (a.board.publish msg outcomes).selected = (b.board.publish msg outcomes).selected := by
      unfold Switchboard.publish Switchboard.tell
      rw [channel]
      split <;> exact ⟨rfl, rfl⟩
    simp only [perform, ClientMessage.save, ClientMessage.handed, repository, channel]
    exact Observed.ext (published _).1 (published _).2 rfl rfl
  · obtain rfl := written
    have repository : a.repository = b.repository := agree .repository (Or.inr rfl)
    show (ClientMessage.save given.saving a.repository (.registerSourceEvent msg)).2 =
      (ClientMessage.save given.saving b.repository (.registerSourceEvent msg)).2
    rw [repository]

/-- **Every message keeps to its footprint.** -/
theorem perform_of (item : ClientMessage × Circumstances R) :
    item.1.footprint.Of read (perform item) := by
  obtain ⟨msg, given⟩ := item
  cases msg with
  | registerClient msg => exact register_of msg given
  | queryRequest msg => exact request_of msg given
  | queryResponse msg => exact settle_of (.response msg) (given.outcomes [])
  | queryHandlingFailed msg => exact settle_of (.failed msg) (given.outcomes [])
  | registerSourceEvent msg => exact publish_of msg given
  | heartbeat clientId =>
    exact ⟨fun _ _ _ => rfl, fun _ _ _ => rfl, fun _ _ _ _ written => written.elim⟩
  | disconnectClient clientId => exact disconnect_of clientId given

end Desk

/-! ## Batches of messages -/

variable {w w₁ w₂ : World R} {batch batch' : List (ClientMessage × Circumstances R)}
  {told told' : List ((ClientMessage × Circumstances R) × Observed)}

/-- Messages handled in turn come to what the desk makes of them in turn. -/
theorem run_of_inTurn (inTurn : InTurn w batch w₁ told) :
    Interleave.run Desk.perform batch w.desk = (w₁.desk, told) := by
  induction inTurn with
  | none => rfl
  | @next w w₁ w' msg given events batch told alone turned _ ih =>
    have saved := save_of_alone alone
    have outcomes : (given.outcomes (saveResults events)).Of events :=
      ⟨turned, fun k result at_k => by simp [Circumstances.outcomes, at_k]⟩
    have unaided : Alone exec (handleMessage msg) w [] () w₁ events :=
      alone.mono fun performed => ⟨_, performed⟩
    have routed := handle_of_alone unaided outcomes
    have performs : w.desk.perform (msg, given) = (w₁.desk,
        ⟨deliveries events, selections events, saveResults events, events.filterMap spawns⟩) := by
      simp only [Desk.perform, World.desk, saved, routed, handed_of_alone unaided]
    simp only [Interleave.run, performs, ih]

/-- **Independent messages may be handled in any order**, if their sends turn out and the database
decides alike: what becomes of the switchboard is the same up to the order of its lists, the
repository is the same, and so is for each message what is sent, who is selected, what is saved and
what is handed to a broadcast. -/
theorem commutes_of_inTurn (inTurn : InTurn w batch w₁ told) (inTurn' : InTurn w batch' w₂ told')
    (perm : batch.Perm batch') (apart : batch.Pairwise fun item item' =>
      item.1.footprint.Independent item'.1.footprint) :
    w₁.switchboard.Twins w₂.switchboard ∧ w₁.state.repository = w₂.state.repository ∧
      told.Perm told' := by
  have commutes := Interleave.run_perm Desk.perform_of perm apart w.desk
  rw [run_of_inTurn inTurn, run_of_inTurn inTurn'] at commutes
  obtain ⟨twins, repository⟩ := Desk.twins_of_alike commutes.1
  exact ⟨twins, repository, commutes.2⟩

/-! ## Independent messages -/

/-- Answers to different requests are independent. -/
theorem Answer.independent {answer answer' : Answer}
    (differ : answer.requestId ≠ answer'.requestId) :
    answer.footprint.Independent answer'.footprint := by
  have apart {answer answer' : Answer} (differ : answer.requestId ≠ answer'.requestId) :
      ∀ cell ∈ answer.footprint.writes,
        cell ∉ answer'.footprint.reads ∧ cell ∉ answer'.footprint.writes := by
    rintro cell rfl
    refine ⟨?_, fun same => differ (Cell.ongoing.inj same)⟩
    rintro (same | ⟨clientId, same⟩)
    · exact differ (Cell.ongoing.inj same)
    · cases same
  exact ⟨apart differ, apart differ.symm⟩

/-- The registration of a client and the departure of another one are independent. -/
theorem independent_of_ne {msg : RegisterClientMessage} {clientId : ClientId}
    (differ : msg.clientId ≠ clientId) : (ClientMessage.registerClient msg).footprint.Independent
      (ClientMessage.disconnectClient clientId).footprint := by
  have apart {one other : ClientId} (differ : one ≠ other) :
      ∀ cell ∈ ofClient one, cell ∉ ofClient other := by
    rintro cell (rfl | ⟨query, rfl⟩) (same | ⟨query', same⟩)
    · exact differ (Cell.channel.inj same)
    · cases same
    · cases same
    · exact differ (Cell.listed.inj same).2
  refine ⟨fun cell mem => ⟨id, apart differ cell mem⟩, fun cell mem => ⟨?_, ?_⟩⟩
  · rintro rfl
    exact apart differ.symm _ mem (Or.inl rfl)
  · exact apart differ.symm cell mem

/-- An answer and a source event are independent. -/
theorem Answer.independent_publish {answer : Answer} {msg : RegisterSourceEventMessage} :
    answer.footprint.Independent (ClientMessage.registerSourceEvent msg).footprint := by
  constructor
  · rintro cell rfl
    refine ⟨?_, nofun⟩
    rintro (same | same) <;> cases same
  · rintro cell rfl
    refine ⟨?_, nofun⟩
    rintro (same | ⟨clientId, same⟩) <;> cases same

/-- Two source events are not independent: each reads the repository that the other one writes. -/
theorem not_independent_publish (msg msg' : RegisterSourceEventMessage) :
    ¬ (ClientMessage.registerSourceEvent msg).footprint.Independent
      (ClientMessage.registerSourceEvent msg').footprint :=
  fun apart => (apart.left .repository rfl).1 (Or.inr rfl)

section Scenario

open Scenario

namespace Scenario

/-- Every send is accepted, and the database draws this id. -/
def accepting (id : Uuid) : Circumstances RustLiteSourceEventRepository :=
  ⟨fun _ => .ok (), (stored id).saving⟩

/-- The messages, handled in turn with every send accepted, and the ids that are drawn. -/
def playInTurn : List (ClientMessage × Uuid) → World RustLiteSourceEventRepository →
    Option (World RustLiteSourceEventRepository)
  | [], w => some w
  | (msg, id) :: batch, w =>
    ((handleMessage msg).play (execSaving (accepting id).saving) (List.replicate 10 (stored id)) w
      []).bind fun done =>
        if (sendResults done.2.2).all (·.isOk) then playInTurn batch done.2.1 else none

theorem inTurn_of_playInTurn {batch : List (ClientMessage × Uuid)}
    {w w' : World RustLiteSourceEventRepository} (played : playInTurn batch w = some w') :
    ∃ told, InTurn w (batch.map fun item => (item.1, accepting item.2)) w' told := by
  induction batch generalizing w with
  | nil =>
    cases played
    exact ⟨[], .none⟩
  | cons item batch ih =>
    obtain ⟨⟨u, w₁, events⟩, alone, played⟩ := Option.bind_eq_some_iff.mp played
    obtain ⟨accepted, played⟩ := Option.ite_none_right_eq_some.mp played
    obtain ⟨told, rest⟩ := ih played
    refine ⟨_, .next (Interleave.alone_of_play alone) (fun k sent at_k => ?_) rest⟩
    have isOk := List.all_eq_true.mp accepted sent (List.mem_of_getElem? at_k)
    cases sent with
    | ok => rfl
    | error => cases isOk

/-- Two clients are connected, and each of them waits for an answer. -/
def twoRequests : Option (World RustLiteSourceEventRepository) :=
  (Interleave.playCalls exec (Call.prog Scenario.timing)
    ([registering alice 0, registering bob 1, requesting alice,
      .message (.queryRequest ⟨secondRequest, bob, usersGetAll, ∅⟩)].map
        (·, List.replicate 10 (stored 0))) [] (.new .new)).map Prod.snd

/-- The two answers, and an event. -/
def answersAndEvent : List (ClientMessage × Uuid) :=
  [(.queryResponse ⟨request, alice, []⟩, 0), (.registerSourceEvent (publishing bob), 7),
    (.queryResponse ⟨secondRequest, bob, []⟩, 0)]

end Scenario

/-- Two requests are answered and an event is stored, in two orders. -/
theorem commutes_answersAndEvent : ∃ (w w₁ w₂ : World RustLiteSourceEventRepository)
    (told told' : List ((ClientMessage × Circumstances RustLiteSourceEventRepository) × Observed)),
    twoRequests = some w ∧ InTurn w (answersAndEvent.map fun item => (item.1, accepting item.2)) w₁
        told ∧
      InTurn w (answersAndEvent.reverse.map fun item => (item.1, accepting item.2)) w₂ told' ∧
      w₁.state.repository.table.rows.length = 1 ∧
      w₁.switchboard.Twins w₂.switchboard ∧ w₁.state.repository = w₂.state.repository ∧
      told.Perm told' := by
  have run : twoRequests.bind (fun w => (playInTurn answersAndEvent w).bind fun w₁ =>
      (playInTurn answersAndEvent.reverse w).map fun _ =>
        w₁.state.repository.table.rows.length) = some 1 := by
    decide +kernel
  obtain ⟨w, two, run⟩ := Option.bind_eq_some_iff.mp run
  obtain ⟨w₁, one, run⟩ := Option.bind_eq_some_iff.mp run
  obtain ⟨w₂, other, stored⟩ := Option.map_eq_some_iff.mp run
  obtain ⟨told, inTurn⟩ := inTurn_of_playInTurn one
  obtain ⟨told', inTurn'⟩ := inTurn_of_playInTurn other
  have differ : (Answer.response ⟨request, alice, []⟩).requestId ≠
      (Answer.response ⟨secondRequest, bob, []⟩).requestId := by
    decide
  have apart : (answersAndEvent.map fun item => (item.1, accepting item.2)).Pairwise
      fun item item' => item.1.footprint.Independent item'.1.footprint := by
    refine .cons ?_ (List.pairwise_pair.mpr Answer.independent_publish.symm)
    intro item mem
    rcases List.mem_cons.mp mem with rfl | mem
    · exact Answer.independent_publish
    · rw [List.mem_singleton.mp mem]
      exact Answer.independent differ
  have perm := (List.reverse_perm answersAndEvent).symm.map fun item =>
    (item.1, accepting item.2)
  exact ⟨w, w₁, w₂, told, told', two, inTurn, inTurn', stored,
    commutes_of_inTurn inTurn inTurn' perm apart⟩

end Scenario

end Revent
