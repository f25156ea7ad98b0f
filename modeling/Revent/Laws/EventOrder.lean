import Revent.Laws.Publication

/-!
# The order of events

The clock of an event is assigned when it is saved, and each event is sent by a broadcast of its
own, whenever that is scheduled. So a channel may be put a later event before an earlier one
(`not_eventOrder`), and a client that wants them in order has the clock to order them by.

They arrive in order where the broadcasts take the guard one at a time and in the order of their
clocks: then each client is put every event it is sent in strictly increasing order, and so is
each channel, but for the clients that share it.
-/

namespace Revent

open Interleave (Event Trace Prog Machine Config Task)

/-- The clock of the event a message carries. -/
def ServerMessage.eventClock : ServerMessage → Option Nat
  | .sourceEvent event => some event.monotonicClock
  | _ => none

/-- The clocks of the events put in a channel, the first one first. -/
def clocksIn (tx : Tx) (tr : Trace Op Ret) : List Nat :=
  (putIn tx tr).filterMap ServerMessage.eventClock

/-- The clock of the event an event of the trace puts in a channel for a client. -/
def clockFor (clientId : ClientId) : Event Op Ret → Option Nat
  | ⟨.send client _ msg, .ok _⟩ => if client = clientId then msg.eventClock else none
  | _ => none

/-- The clocks of the events put in a channel for a client, the first one first. -/
def clocksFor (clientId : ClientId) (tr : Trace Op Ret) : List Nat :=
  Trace.shown (clockFor clientId) tr

/-- **Event order**: every channel is put events in strictly increasing order of their clocks. -/
def EventOrder {R : Type} (σ : ServerConfig R) : Prop :=
  ∀ tx, (clocksIn tx σ.trace).Pairwise (· < ·)

/-- **Event order, client by client**: every client is put events in strictly increasing order of
their clocks, and every channel in an order that does not decrease. -/
structure OrderedEvents {R : Type} (σ : ServerConfig R) : Prop where
  clients : ∀ clientId, (clocksFor clientId σ.trace).Pairwise (· < ·)
  channels : ∀ tx, (clocksIn tx σ.trace).Pairwise (· ≤ ·)

/-! ## Broadcasts in the order of their clocks -/

/-- The event an event of the trace takes the read guard for. -/
def readFor : Event Op Ret → Option SourceEvent
  | ⟨.readClients event, _⟩ => some event
  | _ => none

/-- The events whose broadcasts took the read guard. -/
abbrev readIn (tr : Trace Op Ret) : List SourceEvent := Trace.shown readFor tr

theorem readIn_cons {entry : Nat × Event Op Ret} {tr : Trace Op Ret} :
    readIn (entry :: tr) = readIn tr ++ (readFor entry.2).toList := Trace.shown_cons

/-- The condition: a broadcast takes the read guard only while no other one holds it, and only
after all events with a smaller clock, and none with a larger or the same. -/
def InClockOrder {R : Type} [Repository R] (σ : ServerConfig R) (_ : Nat) (_ : Env R) :
    Op → Prop
  | .readClients event => σ.world.guards = 0 ∧
      ∀ earlier ∈ readIn σ.trace, earlier.monotonicClock < event.monotonicClock
  | _ => True

/-- The invariant: one broadcast at a time holds the guard, of the largest clock read so far, and
whom it still has to visit has been sent smaller clocks only; every clock sent was read. -/
structure OneBroadcast {R : Type} (w : World R) (tr : Trace Op Ret) : Prop where
  guarded : ∀ {i event rest}, Visiting event rest (tr.of i) → 0 < w.guards
  alone : ∀ {i j event event' rest rest'}, Visiting event rest (tr.of i) →
    Visiting event' rest' (tr.of j) → i = j
  latest : ∀ {i event rest}, Visiting event rest (tr.of i) →
    ∀ earlier ∈ readIn tr, earlier.monotonicClock ≤ event.monotonicClock
  once : ∀ {i event rest}, Visiting event rest (tr.of i) → (rest.map Prod.fst).Nodup
  behind : ∀ {i event rest}, Visiting event rest (tr.of i) → ∀ clientId ∈ rest.map Prod.fst,
    ∀ clock ∈ clocksFor clientId tr, clock < event.monotonicClock
  read : ∀ {clientId clock}, clock ∈ clocksFor clientId tr →
    ∃ event ∈ readIn tr, event.monotonicClock = clock
  readOver : ∀ {tx clock}, clock ∈ clocksIn tx tr →
    ∃ event ∈ readIn tr, event.monotonicClock = clock
  clients : ∀ clientId, (clocksFor clientId tr).Pairwise (· < ·)
  channels : ∀ tx, (clocksIn tx tr).Pairwise (· ≤ ·)

theorem OneBroadcast.initial {R : Type} {w : World R} : OneBroadcast w [] where
  guarded := nofun
  alone := nofun
  latest := nofun
  once := nofun
  behind := nofun
  read := nofun
  readOver := nofun
  clients := fun _ => .nil
  channels := fun _ => .nil

theorem clocksIn_cons {tx : Tx} {entry : Nat × Event Op Ret} {tr : Trace Op Ret} :
    clocksIn tx (entry :: tr) =
      clocksIn tx tr ++ ((puts tx entry.2).bind ServerMessage.eventClock).toList := by
  unfold clocksIn
  rw [putIn_cons, List.filterMap_append]
  cases puts tx entry.2 with
  | none => rfl
  | some msg => cases h : msg.eventClock <;> simp [h]

theorem clocksFor_cons {clientId : ClientId} {entry : Nat × Event Op Ret} {tr : Trace Op Ret} :
    clocksFor clientId (entry :: tr) =
      clocksFor clientId tr ++ (clockFor clientId entry.2).toList := Trace.shown_cons

section Step

variable {R : Type} [Repository R] {σ : ServerConfig R} {i : Nat} {op : Op} {env : Env R}
  {r : Ret op} {w : World R} {event : SourceEvent}

/-- The operations of other tasks are silent here. -/
theorem silent_of_other (other : op.ofBroadcast = none) :
    (∀ tx, (puts tx ⟨op, r⟩).bind ServerMessage.eventClock = none) ∧
      (∀ clientId, clockFor clientId ⟨op, r⟩ = none) ∧ readFor ⟨op, r⟩ = none := by
  cases op with
  | readClients => cases other
  | send client dest msg =>
    have silent : msg.eventClock = none := by
      cases msg with
      | sourceEvent => cases other
      | _ => rfl
    cases r with
    | error err => exact ⟨fun _ => rfl, fun _ => rfl, rfl⟩
    | ok =>
      refine ⟨fun tx => ?_, fun clientId => ?_, rfl⟩
      · simp only [puts]
        split
        · exact silent
        · rfl
      · simp only [clockFor, silent, ite_self]
  | _ => exact ⟨fun _ => rfl, fun _ => rfl, rfl⟩

omit [Repository R] in
/-- A task that visits after an operation of another kind visited before. -/
theorem visiting_of_other {k : Nat} {rest : List (ClientId × ClientInfo)}
    (other : op.ofBroadcast = none)
    (now : Visiting event rest (Trace.of ((i, ⟨op, r⟩) :: σ.trace) k)) :
    Visiting event rest (σ.trace.of k) := by
  rcases Trace.of_cons_cases (Visiting event rest) now with ⟨-, mine⟩ | ⟨-, before⟩
  · exact (mine.of_other other).elim
  · exact before

/-- Taking the guard. -/
theorem OneBroadcast.read_act (inv : OneBroadcast σ.world σ.trace)
    {clients : List (ClientId × ClientInfo)} (unheld : σ.world.guards = 0)
    (later : ∀ earlier ∈ readIn σ.trace, earlier.monotonicClock < event.monotonicClock)
    (hexec : exec (.readClients event) env σ.world = some (clients, w)) :
    OneBroadcast w ((i, ⟨.readClients event, clients⟩) :: σ.trace) := by
  obtain ⟨l, hiter, heq⟩ := Option.map_eq_some_iff.mp hexec
  cases heq
  -- nobody else visits, since nobody holds the guard
  have only {k : Nat} {event' : SourceEvent} {rest : List (ClientId × ClientInfo)}
      (now : Visiting event' rest
        (Trace.of ((i, ⟨.readClients event, clients⟩) :: σ.trace) k)) :
      i = k ∧ event' = event ∧ rest = clients := by
    rcases Trace.of_cons_cases (Visiting event' rest) now with ⟨hk, mine⟩ | ⟨-, before⟩
    · rcases mine.back with heq | ⟨entry, -, nomatch_⟩
      · cases heq
        exact ⟨hk, rfl, rfl⟩
      · cases nomatch_
    · have held := inv.guarded before
      omega
  have same (clientId : ClientId) :
      clocksFor clientId ((i, ⟨.readClients event, clients⟩) :: σ.trace) =
        clocksFor clientId σ.trace := by
    rw [clocksFor_cons]
    exact List.append_nil _
  have sameIn (tx : Tx) : clocksIn tx ((i, ⟨.readClients event, clients⟩) :: σ.trace) =
      clocksIn tx σ.trace := by
    rw [clocksIn_cons]
    exact List.append_nil _
  have more {earlier : SourceEvent} (mem : earlier ∈ readIn σ.trace) :
      earlier ∈ readIn ((i, ⟨.readClients event, clients⟩) :: σ.trace) := by
    rw [readIn_cons]
    exact List.mem_append_left _ mem
  constructor
  case guarded => exact fun _ => Nat.succ_pos _
  case alone =>
    exact fun a b => (only a).1.symm.trans (only b).1
  case latest =>
    intro k event' rest now earlier mem
    obtain ⟨-, rfl, -⟩ := only now
    rw [readIn_cons] at mem
    rcases List.mem_append.mp mem with mem | mem
    · exact Nat.le_of_lt (later earlier mem)
    · cases List.mem_singleton.mp mem
      exact Nat.le_refl _
  case once =>
    intro k event' rest now
    obtain ⟨-, -, rfl⟩ := only now
    exact HashMap.iter_keys_nodup hiter
  case behind =>
    intro k event' rest now clientId _ clock sent
    obtain ⟨-, rfl, -⟩ := only now
    rw [same] at sent
    obtain ⟨earlier, mem, rfl⟩ := inv.read sent
    exact later earlier mem
  case read =>
    intro clientId clock sent
    rw [same] at sent
    obtain ⟨earlier, mem, is⟩ := inv.read sent
    exact ⟨earlier, more mem, is⟩
  case readOver =>
    intro tx clock sent
    rw [sameIn] at sent
    obtain ⟨earlier, mem, is⟩ := inv.readOver sent
    exact ⟨earlier, more mem, is⟩
  case clients =>
    intro clientId
    rw [same]
    exact inv.clients clientId
  case channels =>
    intro tx
    rw [sameIn]
    exact inv.channels tx

omit [Repository R] in
/-- The clock that a client is sent with an event is the event's. -/
theorem clock_of_clockFor {client clientId : ClientId} {tx : Tx} {sent : Except TxError Unit}
    {clock : Nat}
    (now : clockFor clientId ⟨.send client tx (.sourceEvent event), sent⟩ = some clock) :
    client = clientId ∧ event.monotonicClock = clock := by
  cases sent with
  | error err => cases now
  | ok =>
    simp only [clockFor, ServerMessage.eventClock] at now
    split at now
    · rename_i here
      exact ⟨here, Option.some.inj now⟩
    · cases now

omit [Repository R] in
/-- The clock that is put in a channel with an event is the event's. -/
theorem clock_of_puts {client : ClientId} {tx dest : Tx} {sent : Except TxError Unit} {clock : Nat}
    (now : (puts tx ⟨.send client dest (.sourceEvent event), sent⟩).bind
      ServerMessage.eventClock = some clock) : event.monotonicClock = clock := by
  obtain ⟨msg, hputs, clocks⟩ := Option.bind_eq_some_iff.mp now
  obtain ⟨client, heq⟩ := puts_eq_some hputs
  cases heq
  exact Option.some.inj clocks

omit [Repository R] in
/-- Who visits after a task's send is this task, with the rest, if nobody else visited before. -/
theorem OneBroadcast.visiting_of_send (inv : OneBroadcast σ.world σ.trace) {k : Nat}
    {event' : SourceEvent} {entry : ClientId × ClientInfo}
    {rest rest' : List (ClientId × ClientInfo)} {sent : Except TxError Unit}
    (visiting : Visiting event (entry :: rest) (σ.trace.of i))
    (now : Visiting event' rest' (Trace.of
      ((i, ⟨.send entry.1 entry.2.tx (.sourceEvent event), sent⟩) :: σ.trace) k)) :
    i = k ∧ event' = event ∧ ∃ entry', entry'.1 = entry.1 ∧
      Visiting event (entry' :: rest') (σ.trace.of i) := by
  rcases Trace.of_cons_cases (Visiting event' rest') now with ⟨hk, mine⟩ | ⟨other, before⟩
  · rcases mine.back with heq | ⟨entry', before, heq⟩
    · cases heq
    · injection heq with client dest msg
      cases msg
      exact ⟨hk, rfl, entry', client.symm, before⟩
  · exact absurd (inv.alone visiting before) other

/-- Sending the event to the next client. -/
theorem OneBroadcast.send_act (inv : OneBroadcast σ.world σ.trace)
    {entry : ClientId × ClientInfo} {rest : List (ClientId × ClientInfo)}
    {sent : Except TxError Unit} (visiting : Visiting event (entry :: rest) (σ.trace.of i))
    (hexec : exec (.send entry.1 entry.2.tx (.sourceEvent event)) env σ.world = some (sent, w)) :
    OneBroadcast w ((i, ⟨.send entry.1 entry.2.tx (.sourceEvent event), sent⟩) :: σ.trace) := by
  have reads : readIn ((i, ⟨.send entry.1 entry.2.tx (.sourceEvent event), sent⟩) :: σ.trace) =
      readIn σ.trace := by
    rw [readIn_cons]
    exact List.append_nil _
  have guards : w.guards = σ.world.guards := guards_exec hexec
  have visited : event ∈ readIn σ.trace := by
    obtain ⟨clients, mem⟩ := visiting.read_mem
    exact Trace.mem_shown.mpr ⟨_, Trace.mem_of mem, rfl⟩
  have only {k : Nat} {event' : SourceEvent} {rest' : List (ClientId × ClientInfo)}
      (now : Visiting event' rest' (Trace.of
        ((i, ⟨.send entry.1 entry.2.tx (.sourceEvent event), sent⟩) :: σ.trace) k)) :=
    inv.visiting_of_send visiting now
  constructor
  case guarded =>
    intro k event' rest' now
    obtain ⟨-, -, entry', -, before⟩ := only now
    rw [guards]
    exact inv.guarded before
  case alone => exact fun a b => (only a).1.symm.trans (only b).1
  case latest =>
    intro k event' rest' now
    obtain ⟨-, rfl, entry', -, before⟩ := only now
    rw [reads]
    exact inv.latest before
  case once =>
    intro k event' rest' now
    obtain ⟨-, -, entry', -, before⟩ := only now
    exact (List.nodup_cons.mp (inv.once before)).2
  case behind =>
    intro k event' rest' now clientId mem clock sent
    obtain ⟨-, rfl, entry', same, before⟩ := only now
    rw [clocksFor_cons] at sent
    rcases List.mem_append.mp sent with sent | sent
    · exact inv.behind before clientId (List.mem_cons_of_mem _ mem) clock sent
    · obtain ⟨here, -⟩ := clock_of_clockFor (Option.mem_toList.mp sent)
      have twice := (List.nodup_cons.mp (inv.once before)).1
      rw [same, here] at twice
      exact absurd mem twice
  case read =>
    intro clientId clock sent
    rw [reads]
    rw [clocksFor_cons] at sent
    rcases List.mem_append.mp sent with sent | sent
    · exact inv.read sent
    · exact ⟨event, visited, (clock_of_clockFor (Option.mem_toList.mp sent)).2⟩
  case readOver =>
    intro tx clock sent
    rw [reads]
    rw [clocksIn_cons] at sent
    rcases List.mem_append.mp sent with sent | sent
    · exact inv.readOver sent
    · exact ⟨event, visited, clock_of_puts (Option.mem_toList.mp sent)⟩
  case clients =>
    intro clientId
    rw [clocksFor_cons]
    refine List.pairwise_append.mpr ⟨inv.clients clientId, Option.pairwise_toList, ?_⟩
    intro old before clock now
    obtain ⟨here, rfl⟩ := clock_of_clockFor (Option.mem_toList.mp now)
    exact inv.behind visiting clientId (here ▸ List.mem_cons_self) old before
  case channels =>
    intro tx
    rw [clocksIn_cons]
    refine List.pairwise_append.mpr ⟨inv.channels tx, Option.pairwise_toList, ?_⟩
    intro old before clock now
    obtain rfl := clock_of_puts (Option.mem_toList.mp now)
    obtain ⟨earlier, mem, rfl⟩ := inv.readOver before
    exact inv.latest visiting earlier mem

omit [Repository R] in
/-- An operation that sends no event and takes no guard: who visits visited before, and the guards
are those of before. -/
theorem OneBroadcast.frame (inv : OneBroadcast σ.world σ.trace)
    (visits : ∀ {k event rest}, Visiting event rest (Trace.of ((i, ⟨op, r⟩) :: σ.trace) k) →
      Visiting event rest (σ.trace.of k) ∧ w.guards = σ.world.guards)
    (silent : (∀ tx, (puts tx ⟨op, r⟩).bind ServerMessage.eventClock = none) ∧
      (∀ clientId, clockFor clientId ⟨op, r⟩ = none) ∧ readFor ⟨op, r⟩ = none) :
    OneBroadcast w ((i, ⟨op, r⟩) :: σ.trace) := by
  obtain ⟨silentIn, silentFor, unread⟩ := silent
  have sameIn (tx : Tx) : clocksIn tx ((i, ⟨op, r⟩) :: σ.trace) = clocksIn tx σ.trace := by
    rw [clocksIn_cons, silentIn]
    exact List.append_nil _
  have sameFor (clientId : ClientId) :
      clocksFor clientId ((i, ⟨op, r⟩) :: σ.trace) = clocksFor clientId σ.trace := by
    rw [clocksFor_cons, silentFor]
    exact List.append_nil _
  have sameRead : readIn ((i, ⟨op, r⟩) :: σ.trace) = readIn σ.trace := by
    rw [readIn_cons, unread]
    exact List.append_nil _
  refine ⟨fun now => ?_, fun a b => inv.alone (visits a).1 (visits b).1, fun now => ?_,
    fun now => inv.once (visits now).1, fun now => ?_, ?_, ?_, ?_, ?_⟩
  · rw [(visits now).2]
    exact inv.guarded (visits now).1
  · rw [sameRead]
    exact inv.latest (visits now).1
  · intro clientId mem
    rw [sameFor]
    exact inv.behind (visits now).1 clientId mem
  all_goals simp only [sameIn, sameFor, sameRead]
  · exact inv.read
  · exact inv.readOver
  · exact inv.clients
  · exact inv.channels

omit [Repository R] in
/-- Dropping the guard ends the only visit. -/
theorem OneBroadcast.drop_act (inv : OneBroadcast σ.world σ.trace) {u : Unit}
    (visiting : Visiting event [] (σ.trace.of i)) :
    OneBroadcast w ((i, ⟨.dropClients event, u⟩) :: σ.trace) := by
  refine inv.frame (fun {k event' rest} now => ?_) ⟨fun _ => rfl, fun _ => rfl, rfl⟩
  rcases Trace.of_cons_cases (Visiting event' rest) now with ⟨-, mine⟩ | ⟨other, before⟩
  · cases mine
  · exact absurd (inv.alone visiting before) other

variable {parse : String → Option Uuid} {timing : Timing} {repository : R}

/-- **Event order, client by client**, in every run in which the broadcasts take the read guard
one at a time and in the order of their clocks. -/
theorem orderedEvents_of_inClockOrder (reach : ReachIf parse timing repository InClockOrder σ) :
    OrderedEvents σ := by
  have inv : OneBroadcast σ.world σ.trace := by
    refine Machine.Reach.invariant OneBroadcast reach ?_ ?_ ?_
    · exact .initial
    · intro σ i env job op next r w reach task ok performed inv
      have cond := ok job op next task
      have hexec := serverExec_exec performed
      cases is : op.ofBroadcast with
      | none =>
        have same : w.guards = σ.world.guards := by
          rw [guards_exec hexec]
          cases op with
          | readClients | dropClients => cases is
          | _ => rfl
        exact inv.frame (fun now => ⟨visiting_of_other is now, same⟩) (silent_of_other is)
      | some event =>
        have site := broadcastSite_of_broadcast reach task is
        generalize hh : σ.trace.of i = h at site
        cases site with
        | read => exact inv.read_act cond.1 cond.2 hexec
        | send visiting => exact inv.send_act (hh ▸ visiting) hexec
        | drop visiting => exact inv.drop_act (hh ▸ visiting)
    · intro x w w' job tr moved inv
      exact { inv with guarded := fun now => guards_move moved ▸ inv.guarded now }
  exact ⟨inv.clients, inv.channels⟩

end Step

section Scenario

open Scenario

/-- A broadcast takes the guard where no other one holds it, after smaller clocks only. -/
def Scenario.broadcastsInTurn (σ : ServerConfig RustLiteSourceEventRepository) :
    ServerLabel RustLiteSourceEventRepository → Bool
  | .act i _ =>
    match σ.tasks[i]? with
    | some ⟨_, .act (.readClients event) _⟩ => σ.world.guards = 0 &&
        (readIn σ.trace).all fun earlier => earlier.monotonicClock < event.monotonicClock
    | _ => true
  | _ => true

/-- Two clients publish an event each, and the events are broadcast one after the other. -/
def Scenario.twoPublications : List (ServerLabel RustLiteSourceEventRepository) :=
  [.ext .openSession, .ext .openSession] ++ enrols 1 alice ++ enrols 2 bob ++ publishes 1 7 ++
    publishes 2 8 ++ [.ext (.startBroadcast 0), .ext (.startBroadcast 0), visits 3 [alice, bob],
      takes 3, takes 3, takes 3, visits 4 [bob, alice], takes 4, takes 4, takes 4]

/-- Two events are put in the channels of two clients in the order of their clocks. -/
theorem orderedEvents_twoPublications :
    ∃ σ, published broadcastsInTurn twoPublications = some σ ∧ clocksIn 0 σ.trace = [1, 2] ∧
      clocksFor bob σ.trace = [1, 2] ∧ OrderedEvents σ := by
  have two : (published broadcastsInTurn twoPublications).map (fun σ =>
      (clocksIn 0 σ.trace, clocksFor bob σ.trace)) = some ([1, 2], [1, 2]) := by
    decide +kernel
  obtain ⟨σ, run, clocks⟩ := Option.map_eq_some_iff.mp two
  obtain ⟨channel, client⟩ := Prod.mk.inj clocks
  refine ⟨σ, run, channel, client, orderedEvents_of_inClockOrder (reach_published ?_ run)⟩
  intro σ i env job op next turn task
  simp only [broadcastsInTurn, task] at turn
  cases op with
  | readClients event =>
    obtain ⟨unheld, later⟩ := Bool.and_eq_true_iff.mp turn
    refine ⟨of_decide_eq_true unheld, fun earlier mem => ?_⟩
    exact of_decide_eq_true (List.all_eq_true.mp later earlier mem)
  | _ => trivial

/-- A client publishes two events, and the broadcast of the second is scheduled first. -/
theorem not_eventOrder : ¬ ∀ σ : ServerConfig RustLiteSourceEventRepository,
    ReachIf Scenario.parse Scenario.timing .new anyOp σ → EventOrder σ := by
  intro ordered
  have reversed : (published (fun _ _ => true) ([.ext .openSession] ++ enrols 1 alice ++
      publishes 1 7 ++ publishes 1 8 ++ [.ext (.startBroadcast 1), visits 2 [alice], takes 2,
        takes 2, .ext (.startBroadcast 0), visits 3 [alice], takes 3])).map
        (fun σ => clocksIn 0 σ.trace) = some [2, 1] := by
    decide +kernel
  obtain ⟨σ, run, clocks⟩ := Option.map_eq_some_iff.mp reversed
  have order := ordered σ (reach_published (fun _ _ _ _ _ _ _ _ => trivial) run) 0
  rw [clocks] at order
  simp at order

end Scenario

end Revent
