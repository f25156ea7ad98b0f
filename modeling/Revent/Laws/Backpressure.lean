import Revent.Laws.Publication

/-!
# Back-pressure

A send to a full channel waits until the client reads. Every handler gives its locks back before
it sends, and `old_clients` copies the channels before the timer does; a broadcast sends under the
read guard of `connected_clients`. So a client that does not read can stop a broadcast that holds
the guard, and with it every section that writes the connected clients.

The law is that nobody who waits for room holds the guard. It holds in every run in which a
broadcast takes the guard only while every connected client has room, and nobody fills a channel
that a broadcast with the guard still has to send over.
-/

namespace Revent

open Interleave (Event Trace Prog Machine Config Task)

variable {R : Type}

/-- The task waits for room in a channel. -/
def Waiting (σ : ServerConfig R) (i : Nat) (tx : Tx) : Prop :=
  ∃ (job : Job) (client : ClientId) (msg : ServerMessage)
    (next : Except TxError Unit → Async (Option Job)),
    σ.tasks[i]? = some ⟨job, .act (.send client tx msg) next⟩ ∧
      channelCapacity ≤ (σ.world.channels tx).length

variable [Repository R]

/-- **Never frozen**: who waits for room in a channel does not hold the guard of the connected
clients; who holds it can go on, and where nobody holds it every message can be begun. -/
structure NeverFrozen (parse : String → Option Uuid) (timing : Timing) (σ : ServerConfig R) :
    Prop where
  free : ∀ i tx, Waiting σ i tx → ¬ Holding (σ.trace.of i)
  moves : ∀ i env, Holding (σ.trace.of i) →
    ∃ σ', (server R parse timing).step σ (.act i env) = some σ'
  begins : (∀ i, ¬ Holding (σ.trace.of i)) → ∀ (i : Nat) (job : Job) (msg : ClientMessage)
    (next : Unit → Async (Option Job)) (env : Env R),
    σ.tasks[i]? = some ⟨job, .act (.updateLastSeen msg) next⟩ →
    ∃ σ', (server R parse timing).step σ (.act i env) = some σ'

/-- The condition: a broadcast takes the guard only while every connected client has room, and an
accepted send fills a channel only while no broadcast with the guard has to send over it after
that. -/
def LeavesRoom (σ : ServerConfig R) (i : Nat) (env : Env R) : Op → Prop
  | .readClients _ => ∀ clientId tx, σ.world.state.txOf clientId = some tx →
      (σ.world.channels tx).length < channelCapacity
  | .send _ tx _ => env.delivered = true → (σ.world.channels tx).length + 1 = channelCapacity →
      ∀ j event rest, Visiting event rest (σ.trace.of j) →
        ∀ entry ∈ (if j = i then rest.tail else rest), entry.2.tx ≠ tx
  | _ => True

/-- The invariant: there is room for every send that a broadcast with the guard still has to
make. -/
def HasRoom (w : World R) (tr : Trace Op Ret) : Prop :=
  ∀ {i event rest}, Visiting event rest (tr.of i) →
    ∀ entry ∈ rest, (w.channels entry.2.tx).length < channelCapacity

variable {parse : String → Option Uuid} {timing : Timing} {σ : ServerConfig R} {i : Nat}
  {op : Op} {env : Env R} {r : Ret op} {w : World R}

/-- A channel with room that no broadcast has to send over has room after an operation. -/
theorem room_exec {tx : Tx} (hexec : exec op env σ.world = some (r, w))
    (room : (σ.world.channels tx).length < channelCapacity)
    (kept : ∀ client msg, op = .send client tx msg → env.delivered = true →
      (σ.world.channels tx).length + 1 ≠ channelCapacity) :
    (w.channels tx).length < channelCapacity := by
  rw [channels_exec hexec, List.length_append]
  cases hputs : puts tx ⟨op, r⟩ with
  | none => simpa using room
  | some msg =>
    obtain ⟨client, heq⟩ := puts_eq_some hputs
    cases heq
    have delivered : env.delivered = true := by
      simp only [exec] at hexec
      split at hexec
      · assumption
      · cases hexec
    have below := kept client msg rfl delivered
    simp only [Option.toList_some, List.length_singleton]
    omega

/-- Each operation, under the condition, keeps the invariant. -/
theorem HasRoom.act (inv : HasRoom σ.world σ.trace) (cond : LeavesRoom σ i env op)
    (hexec : exec op env σ.world = some (r, w)) : HasRoom w ((i, ⟨op, r⟩) :: σ.trace) := by
  intro k event rest now entry mem
  rcases Trace.of_cons_cases (Visiting event rest) now with ⟨rfl, mine⟩ | ⟨hk, before⟩
  · rcases mine.back with heq | ⟨visited, before, rfl⟩
    · cases heq
      obtain ⟨l, hiter, same⟩ := Option.map_eq_some_iff.mp hexec
      cases same
      exact cond entry.1 entry.2.tx
        (State.txOf_eq_some.mpr ⟨entry.2, (HashMap.mem_iter hiter).mp mem, rfl⟩)
    · refine room_exec hexec (inv before entry (List.mem_cons_of_mem _ mem)) ?_
      intro client msg same delivered fills
      obtain ⟨-, over_same, -⟩ := Op.send.inj same
      rw [← over_same] at fills
      refine cond delivered fills i event _ before entry ?_ over_same.symm
      rw [if_pos rfl]
      exact mem
  · refine room_exec hexec (inv before entry mem) ?_
    intro client msg same delivered fills
    subst same
    refine cond delivered fills k event rest before entry ?_ rfl
    rw [if_neg (Ne.symm hk)]
    exact mem

variable {repository : R}

/-- There is room for the sends under the guard, in every run under the condition. -/
theorem hasRoom (reach : ReachIf parse timing repository LeavesRoom σ) :
    HasRoom σ.world σ.trace := by
  refine Machine.Reach.invariant HasRoom reach ?_ ?_ ?_
  · intro i event rest visiting
    cases visiting
  · intro σ i env job op next r w _ task ok performed inv
    exact HasRoom.act inv (ok job op next task) (serverExec_exec performed)
  · intro x w w' job tr moved inv i event rest visiting entry mem
    obtain ⟨read, rest⟩ := channels_move moved entry.2.tx
    have room := inv visiting entry mem
    rw [← rest, List.length_append] at room
    omega

/-- A broadcast with the guard that has room for its next send, if there is one, can go on. -/
theorem step_of_holding {ok : ServerConfig R → ServerLabel R → Prop}
    (reach : (server R parse timing).Reach ok (initial parse timing repository) σ)
    (room : HasRoom σ.world σ.trace) (holding : Holding (σ.trace.of i)) (env : Env R) :
    ∃ σ', (server R parse timing).step σ (.act i env) = some σ' := by
  obtain ⟨event, op, next, task, site⟩ := holding.site reach
  have performs : ∃ done, serverExec op env σ.world = some done := by
    generalize hh : σ.trace.of i = h at site holding
    cases site with
    | read =>
      obtain ⟨event, rest, visiting⟩ := holding
      cases visiting
    | @send entry rest _ visiting =>
      have below := room (hh ▸ visiting) entry List.mem_cons_self
      simp only [serverExec, exec]
      split
      · omega
      · split
        · exact ⟨_, rfl⟩
        · exact ⟨_, rfl⟩
    | drop => exact ⟨_, rfl⟩
  obtain ⟨⟨r, w⟩, performs⟩ := performs
  exact ⟨_, Machine.step_of_exec task performs⟩

/-- Where nobody holds the guard, a message can be begun. -/
theorem step_of_unheld {ok : ServerConfig R → ServerLabel R → Prop} {job : Job}
    {msg : ClientMessage} {next : Unit → Async (Option Job)}
    (reach : (server R parse timing).Reach ok (initial parse timing repository) σ)
    (unheld : ∀ i, ¬ Holding (σ.trace.of i))
    (task : σ.tasks[i]? = some ⟨job, .act (.updateLastSeen msg) next⟩) (env : Env R) :
    ∃ σ', (server R parse timing).step σ (.act i env) = some σ' := by
  obtain ⟨holders, card, held⟩ := guards_held reach
  have none_holds : holders = ∅ :=
    Finset.eq_empty_of_forall_notMem fun i mem => unheld i ((held i).mp mem)
  have unguarded : σ.world.guards = 0 := by
    rw [← card, none_holds, Finset.card_empty]
  have performs : ∃ done, serverExec (.updateLastSeen msg) env σ.world = some done := by
    simp only [serverExec, exec, writeClients, unguarded, if_true]
    split
    · exact ⟨_, rfl⟩
    · exact ⟨_, rfl⟩
  obtain ⟨⟨r, w⟩, performs⟩ := performs
  exact ⟨_, Machine.step_of_exec task performs⟩

/-- **Never frozen**, in every run in which a broadcast takes the guard only while every connected
client has room, and an accepted send fills a channel only while no broadcast with the guard has
to send over it after that. -/
theorem neverFrozen_of_leavesRoom (reach : ReachIf parse timing repository LeavesRoom σ) :
    NeverFrozen parse timing σ := by
  have room : HasRoom σ.world σ.trace := hasRoom reach
  refine ⟨?_, fun i env holding => step_of_holding reach room holding env,
    fun unheld i job msg next env task => step_of_unheld reach unheld task env⟩
  rintro i tx ⟨job, client, msg, next, task, full⟩ holding
  obtain ⟨event, op, next', task', site⟩ := holding.site reach
  cases task.symm.trans task'
  generalize hh : σ.trace.of i = h at site
  cases site with
  | @send entry rest _ visiting =>
    have below := room (hh ▸ visiting) entry List.mem_cons_self
    omega

section Scenario

open Scenario

/-- The clients a broadcast with the guard still has to send its event to. -/
def Scenario.stillToSend : History → List (ClientId × ClientInfo)
  | ⟨.readClients _, clients⟩ :: _ => clients
  | ⟨.send _ _ (.sourceEvent _), _⟩ :: h => (stillToSend h).tail
  | _ => []

theorem Scenario.stillToSend_of_visiting {event : SourceEvent} {rest : List (ClientId × ClientInfo)}
    {h : History} (visiting : Visiting event rest h) : stillToSend h = rest := by
  induction visiting with
  | read => rfl
  | sent _ ih => exact congrArg List.tail ih

/-- A broadcast takes the guard where every connected client has room, and a send fills a channel
only where no broadcast has to send over it. -/
def Scenario.keepsRoom (σ : ServerConfig RustLiteSourceEventRepository) :
    ServerLabel RustLiteSourceEventRepository → Bool
  | .act i _ =>
    match σ.tasks[i]? with
    | some ⟨_, .act (.readClients _) _⟩ => σ.world.clients.toList.all fun entry =>
        (σ.world.channels entry.2.tx).length < channelCapacity
    | some ⟨_, .act (.send _ tx _) _⟩ => (σ.world.channels tx).length + 1 ≠ channelCapacity ||
        allAre (fun h => (stillToSend h).all (·.2.tx ≠ tx)) σ.trace
    | _ => true
  | _ => true

theorem Scenario.leavesRoom_of_keepsRoom {σ : ServerConfig RustLiteSourceEventRepository} {i : Nat}
    {env : Env RustLiteSourceEventRepository} {job : Job} {op : Op}
    {next : Ret op → Async (Option Job)} (checked : keepsRoom σ (.act i env) = true)
    (task : σ.tasks[i]? = some ⟨job, .act op next⟩) : LeavesRoom σ i env op := by
  simp only [keepsRoom, task] at checked
  cases op with
  | readClients event =>
    intro clientId tx connected
    obtain ⟨info, found, rfl⟩ := State.txOf_eq_some.mp connected
    have mem : (clientId, info) ∈ σ.world.clients.toList :=
      Std.ExtTreeMap.mem_toList_iff_getElem?_eq_some.mpr found
    exact of_decide_eq_true (List.all_eq_true.mp checked _ mem)
  | send client tx msg =>
    intro _ fills j event rest visiting entry mem
    have avoids := of_allAre (fun h => (stillToSend h).all (·.2.tx ≠ tx)) rfl
      (by simpa [fills] using checked) j
    have left : entry ∈ stillToSend (σ.trace.of j) := by
      rw [stillToSend_of_visiting visiting]
      split at mem
      · exact List.mem_of_mem_tail mem
      · exact mem
    exact of_decide_eq_true (List.all_eq_true.mp avoids entry left)
  | _ => trivial

/-- The steps of session `i` that register a client it has registered already, and is refused. -/
def Scenario.registersAgain (i : Nat) (clientId : ClientId) :
    List (ServerLabel RustLiteSourceEventRepository) :=
  [gets i (register clientId), takes i, takes i, takes i, .loop i]

/-- The channel a task is about to send over. -/
def Scenario.sendsOver : Task Op Ret Job → Option Tx
  | ⟨_, .act (.send _ tx _) _⟩ => some tx
  | _ => none

/-- A client does not read while another one's event is broadcast: it is sent the event, fills its
channel, and its session waits for room while the broadcast holds the guard. -/
def Scenario.crowdedChannel : List (ServerLabel RustLiteSourceEventRepository) :=
  [.ext .openSession, .ext .openSession] ++ enrols 1 alice ++ enrols 2 bob ++ publishes 1 7 ++
    (List.replicate 125 (registersAgain 2 bob)).flatten ++
    [.ext (.startBroadcast 0), visits 3 [bob, alice], takes 3] ++ registersAgain 2 bob ++
    [gets 2 (register bob), takes 2, takes 2]

/-- A session waits for room, and the broadcast that holds the guard can go on. -/
theorem neverFrozen_crowded : ∃ σ, published keepsRoom crowdedChannel = some σ ∧
    (σ.world.guards, (σ.world.channels 1).length, σ.tasks[2]?.bind sendsOver) =
      (1, 128, some 1) ∧ NeverFrozen Scenario.parse Scenario.timing σ := by
  have waits : (published keepsRoom crowdedChannel).map (fun σ =>
      (σ.world.guards, (σ.world.channels 1).length, σ.tasks[2]?.bind sendsOver)) =
        some (1, 128, some 1) := by
    decide +kernel
  obtain ⟨σ, run, waits⟩ := Option.map_eq_some_iff.mp waits
  refine ⟨σ, run, waits, neverFrozen_of_leavesRoom (reach_published ?_ run)⟩
  exact fun σ i env job op next => leavesRoom_of_keepsRoom

/-- A client that does not read: it registers, publishes an event, and goes on registering until
its channel is full; then its event is broadcast. -/
def Scenario.stalledReader : List (ServerLabel RustLiteSourceEventRepository) :=
  [.ext .openSession] ++ enrols 1 alice ++ publishes 1 7 ++
    (List.replicate 126 (registersAgain 1 alice)).flatten ++
    [.ext (.startBroadcast 0), visits 2 [alice]]

/-- The task took the guard and did nothing since. -/
def Scenario.tookGuard : History → Bool
  | [⟨.readClients _, _⟩] => true
  | _ => false

theorem Scenario.holding_of_tookGuard {h : History} (took : tookGuard h = true) : Holding h := by
  unfold tookGuard at took
  split at took
  · exact ⟨_, _, .read⟩
  · cases took

/-- The broadcast waits for room in the channel of the client that does not read, and holds the
guard. -/
theorem not_neverFrozen : ¬ ∀ σ : ServerConfig RustLiteSourceEventRepository,
    ReachIf Scenario.parse Scenario.timing .new anyOp σ →
      NeverFrozen Scenario.parse Scenario.timing σ := by
  intro never
  have frozen : (published (fun _ _ => true) stalledReader).map (fun σ =>
      ((σ.world.channels 0).length, σ.tasks[2]?.bind sendsOver, tookGuard (σ.trace.of 2))) =
        some (128, some 0, true) := by
    decide +kernel
  obtain ⟨σ, run, hσ⟩ := Option.map_eq_some_iff.mp frozen
  simp only [Prod.mk.injEq] at hσ
  obtain ⟨full, sends, took⟩ := hσ
  obtain ⟨task, at_2, sends⟩ := Option.bind_eq_some_iff.mp sends
  unfold sendsOver at sends
  split at sends
  · cases sends
    have law := never σ (reach_published (fun _ _ _ _ _ _ _ _ => trivial) run)
    exact law.free 2 0 ⟨_, _, _, _, at_2, Nat.le_of_eq full.symm⟩ (holding_of_tookGuard took)
  · cases sends

end Scenario

end Revent
