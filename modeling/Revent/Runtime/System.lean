import Revent.Api.Transform
import Revent.Domain.State
import Revent.Interleave.Alone

/-!
# The server

`api/grpc/control.rs` and the tasks of `domain/state.rs` as one machine: a task for each gRPC
session, the timer, and a task for each broadcast, in any order of steps.

A loop of the source is a job: `open_session`'s carries `client_id_option`, the timer's three
loops carry what they still have to visit. The surroundings open sessions, let a spawned
broadcast start, and read from the channels. A send to a full channel waits for room.
-/

namespace Revent

open Interleave (Machine Config Label Task Turn Sequential OnlyActs)

/-- The states of the tasks' loops. -/
inductive Job where
  /-- `open_session`'s loop, for the session of channel `tx`. -/
  | session (tx : Tx) (clientIdOption : Option ClientId)
  /-- The timer before `interval.tick()`. -/
  | tick
  /-- The timer in its first `for` loop, with the clients still to visit. -/
  | heartbeats (txs : List (ClientId × Tx))
  /-- The timer in its second `for` loop, with the requests still to visit. -/
  | expiredRequests (requests : List OngoingQueryRequest)
  /-- The broadcast of an event. -/
  | broadcast (event : SourceEvent)

/-- The channel of a session's job. -/
def Job.channel : Job → Option Tx
  | .session tx _ => some tx
  | _ => none

/-- The end of `open_session`'s task. -/
def endSession (clientIdOption : Option ClientId) : Async (Option Job) :=
  match clientIdOption with
  | none => pure none
  | some clientId => do
    handleMessage (.disconnectClient clientId)
    return none

/-- `client_id_option` after a message was handled. -/
def nextClientId (clientIdOption : Option ClientId) : ClientMessage → Option ClientId
  | .registerClient rcm => some rcm.clientId
  | _ => clientIdOption

/-- The next message of the stream, or the reason to leave the loop. -/
def receive : Async Received := await .receive

/-- One pass of `open_session`'s loop. A panic in the decoder ends the task there. -/
def openSession (parse : String → Option Uuid) (tx : Tx) (clientIdOption : Option ClientId) :
    Async (Option Job) := do
  match ← receive with
  | .closed => endSession clientIdOption
  | .message none => return some (.session tx clientIdOption)
  | .message (some payload) =>
    match ClientMessage.ofProto parse payload clientIdOption tx with
    | .ok msg =>
      handleMessage msg
      return some (.session tx (nextClientId clientIdOption msg))
    | .error (.error _) => endSession clientIdOption
    | .error (.panic _) => return none

/-- One pass of each loop. -/
def boot (parse : String → Option Uuid) (timing : Timing) : Job → Async (Option Job)
  | .session tx clientIdOption => openSession parse tx clientIdOption
  | .tick => do
    let txs ← getOldClients timing.serverExpirationClient
    return some (.heartbeats txs)
  | .heartbeats [] => do
    let expired ← getExpiredRequests timing.queryResponseTimeout
    return some (.expiredRequests expired)
  | .heartbeats ((clientId, tx) :: txs) => do
    heartbeat clientId tx
    return some (.heartbeats txs)
  | .expiredRequests [] => return some .tick
  | .expiredRequests (request :: requests) => do
    expire request
    return some (.expiredRequests requests)
  | .broadcast event => do
    broadcast event
    return none

/-- What the surroundings do: a session is opened, the broadcast at a place of the spawn queue
starts, a client takes the next message from its channel. -/
inductive Ext where
  | openSession
  | startBroadcast (place : Nat)
  | read (tx : Tx)

variable {R : Type}

/-- The effect of a move of the surroundings, and the task it starts. -/
def move : Ext → World R → Option (World R × Option Job)
  | .openSession, w => some ({ w with nextTx := w.nextTx + 1 }, some (.session w.nextTx none))
  | .startBroadcast place, w =>
    w.spawned[place]?.map fun event =>
      ({ w with spawned := w.spawned.eraseIdx place }, some (.broadcast event))
  | .read tx, w => some ({ w with channels := Function.update w.channels tx (w.channels tx).tail },
      none)

/-- `mpsc::channel(128)`. -/
def channelCapacity : Nat := 128

variable [Repository R]

/-- An operation on the server: as in `exec`, and a send that the peer accepts waits for room. -/
def serverExec (op : Op) (env : Env R) (w : World R) : Option (Ret op × World R) :=
  match op with
  | .send client tx msg =>
    if env.delivered ∧ channelCapacity ≤ (w.channels tx).length then none
    else exec (.send client tx msg) env w
  | op => exec op env w

/-- What the server performs is the operation's body. -/
theorem serverExec_exec {op : Op} {env : Env R} {w : World R} {done : Ret op × World R}
    (h : serverExec op env w = some done) : exec op env w = some done := by
  cases op with
  | send client tx msg =>
    simp only [serverExec] at h
    split at h
    · cases h
    · exact h
  | _ => exact h

variable (R) in
/-- The server. -/
def server (parse : String → Option Uuid) (timing : Timing) :
    Machine Op Ret Job (World R) (Env R) Ext :=
  ⟨serverExec, boot parse timing, move⟩

/-- A configuration of the server. -/
abbrev ServerConfig (R : Type) := Config Op Ret Job (World R)

/-- A step of the server. -/
abbrev ServerLabel (R : Type) [Repository R] := Label (Env R) Ext

/-- The server as `main` starts it: an empty state, and the timer. -/
def initial (parse : String → Option Uuid) (timing : Timing) (repository : R) : ServerConfig R :=
  ⟨.new repository, [(server R parse timing).start .tick], []⟩

/-- The server starts with the timer alone. -/
theorem task_of_initial {parse : String → Option Uuid} {timing : Timing} {repository : R} {i : Nat}
    {task : Interleave.Task Op Ret Job}
    (started : (initial parse timing repository).tasks[i]? = some task) :
    i = 0 ∧ task = (server R parse timing).start .tick := by
  obtain ⟨at_i, is⟩ := List.getElem?_eq_some_iff.mp started
  have first : i = 0 := Nat.lt_one_iff.mp at_i
  subst first
  exact ⟨rfl, is.symm⟩

/-! ## One call after the other

The server as the tests drive it: a message, a tick of the timer or a broadcast is handled to its
end before the next one starts. -/

/-- What is handled next. -/
inductive Call where
  | message (msg : ClientMessage)
  | tick
  | broadcast (event : SourceEvent)

/-- The program of a call. -/
def Call.prog (timing : Timing) : Call → Async Unit
  | .message msg => handleMessage msg
  | .tick => timerTick timing
  | .broadcast event => Revent.broadcast event

/-- A handled call of the server. -/
abbrev ServerTurn (R : Type) := Turn Call Op Ret (World R)

/-- The sequential runs from the empty state. -/
abbrev SequentialRun (timing : Timing) (repository : R) : List (ServerTurn R) → World R → Prop :=
  Sequential exec (Call.prog timing) (.new repository)

/-- **A message that a task handles while nobody else acts is a turn** of a sequential run. -/
theorem sequentialRun_of_reach {parse : String → Option Uuid} {timing : Timing} {repository : R}
    {σ σ' : ServerConfig R} {turns : List (ServerTurn R)} {i : Nat} {job : Job}
    {msg : ClientMessage} {next next' : Option Job}
    (earlier : SequentialRun timing repository turns σ.world)
    (task : σ.tasks[i]? = some ⟨job, handleMessage msg >>= fun _ => .done next⟩)
    (reach : (server R parse timing).Reach (OnlyActs i) σ σ')
    (task' : σ'.tasks[i]? = some ⟨job, .done next'⟩) :
    ∃ events, σ'.trace.of i = events ++ σ.trace.of i ∧
      SequentialRun timing repository (⟨.message msg, σ.world, events⟩ :: turns) σ'.world := by
  have alone := (Interleave.alone_iff_reach task).mpr ⟨σ', reach, rfl, rfl, task'⟩
  obtain ⟨⟨⟩, w₁, h₁, handled, rest⟩ := alone.of_bind
  cases rest
  obtain ⟨events, split, on_top⟩ := handled.events
  refine ⟨events, split, .turn earlier ?_⟩
  have run := on_top []
  rw [List.append_nil] at run
  exact run.mono fun performed => ⟨_, serverExec_exec performed⟩

/-! ## The server of the tests

The repository of the tests of `state.rs`, two client ids, and the steps that scenarios are made
of. The clocks stand still unless a step sets them. -/

namespace Scenario

/-- `NoopSourceEventRepository`. -/
structure NoopSourceEventRepository where

/-- `save_source_event` of `NoopSourceEventRepository`, which draws the id and reads the clock. -/
instance : Repository NoopSourceEventRepository where
  Choice := EventId × SystemTime
  saveSourceEvent _ choice r :=
    (.ok ⟨choice.1, choice.2, 1, ⟨"test", by decide⟩, "TestAggregate", []⟩, r)

/-- A step in which sends are accepted, the clocks read zero and the stream is closed. -/
def quiet : Env NoopSourceEventRepository :=
  ⟨0, 0, true, .closed, [], [], ⟨⟨0⟩, 0⟩⟩

/-- Task `i` performs its next operation. -/
def turn (i : Nat) : ServerLabel NoopSourceEventRepository := .act i quiet

/-- Task `i` performs its next operation, and if it is a send the peer refuses it. -/
def refused (i : Nat) : ServerLabel NoopSourceEventRepository :=
  .act i { quiet with delivered := false }

/-- Session `i` receives a payload. -/
def hears (i : Nat) (payload : Proto.Payload) : ServerLabel NoopSourceEventRepository :=
  .act i { quiet with received := .message (some payload) }

/-- Task `i` performs its next operation at a reading of the clock and for these orders of
iteration. -/
def reads (i : Nat) (now : Instant) (clients : List ClientId) (requests : List RequestId) :
    ServerLabel NoopSourceEventRepository :=
  .act i { quiet with now, clientOrder := clients, requestOrder := requests }

/-- A session is opened. -/
def opened : ServerLabel NoopSourceEventRepository := .ext .openSession

/-- A client id. -/
def alice : ClientId := ⟨"alice", by decide⟩

/-- Another client id. -/
def bob : ClientId := ⟨"bob", by decide⟩

/-- A query id. -/
def usersGetAll : QueryId := ⟨"users.GetAll", by decide⟩

/-- The registration of a client that handles `users.GetAll`. -/
def register (clientId : ClientId) : Proto.Payload :=
  .registerClient ⟨clientId.val, [usersGetAll.val]⟩

/-- `Uuid::parse_str` on the two request ids of the scenarios. -/
def parse (s : String) : Option Uuid :=
  if s = "00000000-0000-0000-0000-000000000001" then some 1
  else if s = "00000000-0000-0000-0000-000000000002" then some 2
  else none

/-- A request id. -/
def request : RequestId := ⟨1⟩

/-- Another request id. -/
def secondRequest : RequestId := ⟨2⟩

/-- A request for `users.GetAll`. -/
def query : Proto.Payload :=
  .queryRequest ⟨"00000000-0000-0000-0000-000000000001", usersGetAll.val, ∅⟩

/-- Another request for `users.GetAll`. -/
def secondQuery : Proto.Payload :=
  .queryRequest ⟨"00000000-0000-0000-0000-000000000002", usersGetAll.val, ∅⟩

/-- A response to it. -/
def response : Proto.Payload := .queryResponse ⟨"00000000-0000-0000-0000-000000000001", []⟩

/-- The steps of a session that registers. -/
def registers (i : Nat) (clientId : ClientId) : List (ServerLabel NoopSourceEventRepository) :=
  [hears i (register clientId), turn i, turn i, turn i, turn i, turn i, .loop i]

/-- The steps of a session that forwards a request. -/
def forwardsPayload (i : Nat) (payload : Proto.Payload) :
    List (ServerLabel NoopSourceEventRepository) :=
  [hears i payload, turn i, turn i, turn i, turn i, turn i, turn i, turn i, turn i, .loop i]

/-- The steps of a session whose client asks for `users.GetAll`. -/
def sendsQuery (i : Nat) : List (ServerLabel NoopSourceEventRepository) := forwardsPayload i query

/-- The steps of a session whose response reaches the requester. -/
def sendsResponse (i : Nat) : List (ServerLabel NoopSourceEventRepository) :=
  [hears i response, turn i, turn i, turn i, turn i, turn i, .loop i]

/-- The durations of the scenarios. -/
def timing : Timing := ⟨10, 10⟩

/-- A schedule, run from the start with a check before each step. -/
def outcome (check : ServerConfig NoopSourceEventRepository →
      ServerLabel NoopSourceEventRepository → Bool)
    (schedule : List (ServerLabel NoopSourceEventRepository)) :
    Option (ServerConfig NoopSourceEventRepository) :=
  (server _ parse timing).runIf check schedule (initial parse timing ⟨⟩)

/-- A session alone: it registers, its query is forwarded to itself, it answers, and it ends. -/
def session : List (ServerLabel NoopSourceEventRepository) :=
  [opened] ++ registers 1 alice ++ sendsQuery 1 ++ sendsResponse 1 ++
    [turn 1, turn 1, turn 1, turn 1]

/-- Two sessions that register at the same time, and the second one's query is forwarded to the
first one. -/
def exchange : List (ServerLabel NoopSourceEventRepository) :=
  [opened, opened, hears 1 (register alice), hears 2 (register bob), turn 1, turn 1, turn 1, turn 1,
    turn 2, turn 2, turn 1, .loop 1, turn 2, turn 2, turn 2, .loop 2] ++ sendsQuery 2

/-- Calls handled one after the other, with at most ten operations each. -/
def handled (calls : List Call) :
    Option (List (ServerTurn NoopSourceEventRepository) × World NoopSourceEventRepository) :=
  Interleave.playCalls exec (Call.prog timing)
    (calls.map fun call => (call, List.replicate 10 quiet)) [] (.new ⟨⟩)

/-- A client registers on a channel and declares `users.GetAll`. -/
def registering (clientId : ClientId) (tx : Tx) : Call :=
  .message (.registerClient ⟨clientId, [usersGetAll], tx⟩)

/-- A client requests `users.GetAll`. -/
def requesting (clientId : ClientId) : Call :=
  .message (.queryRequest ⟨request, clientId, usersGetAll, ∅⟩)

/-- A client responds to the request. -/
def responding (clientId : ClientId) : Call := .message (.queryResponse ⟨request, clientId, []⟩)

end Scenario

end Revent
