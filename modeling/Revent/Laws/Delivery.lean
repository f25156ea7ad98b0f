import Revent.Interleave.Amid
import Revent.Laws.Broadcasts

/-!
# Stored means broadcast

A handler that saves an event looks its source up to tell it, and returns if the source is gone:
the event is in the table and no broadcast is ever spawned. Otherwise the event is handed to one
broadcast, and the broadcast does its part whatever fails: each client it found connected is sent
the event once.

The handler and the broadcast are run amid others here, so any state, any other task and any
failing channels are covered: what the server's tasks do is such a run (`amid_of_pass`).
-/

namespace Revent

open Interleave (Event Prog Machine Step Amid StaysIn history)

variable {R : Type} [Repository R]

/-- An operation of the server between the worlds before and after it. -/
abbrev ServerStep (R : Type) [Repository R] := Step Op Ret (World R) (Env R)

/-- The events that were handed to a broadcast, in order. -/
def handedOver (steps : List (ServerStep R)) : List SourceEvent :=
  steps.filterMap fun step => spawns step.event

/-- The message an event delivers to a client over its channel. -/
def delivers (clientId : ClientId) (tx : Tx) : Event Op Ret → Option ServerMessage
  | ⟨.send client dest msg, .ok _⟩ => if client = clientId ∧ dest = tx then some msg else none
  | _ => none

/-- What the client received over the channel, in order. -/
def received (clientId : ClientId) (tx : Tx) (steps : List (ServerStep R)) : List ServerMessage :=
  steps.filterMap fun step => delivers clientId tx step.event

/-- The channel refused something that was sent to the client. -/
def Refused (clientId : ClientId) (tx : Tx) (steps : List (ServerStep R)) : Prop :=
  ∃ step ∈ steps, ∃ msg err, step.event = ⟨.send clientId tx msg, .error err⟩

/-- Each client that was connected when the clients were read, and whose channel refused nothing,
received the event, once and nothing else. -/
def Delivers (event : SourceEvent) (steps : List (ServerStep R)) : Prop :=
  ∃ first sends, steps = first :: sends ∧ first.event.op = .readClients event ∧
    ∀ clientId info, first.before.clients[clientId]? = some info →
      ¬ Refused clientId info.tx sends → received clientId info.tx sends = [.sourceEvent event]

variable {steps : List (ServerStep R)} {event : SourceEvent}
  {msg : RegisterSourceEventMessage}

/-- **Stored means broadcast**: the handler that performed these steps handed the event to one
broadcast, and however it goes the broadcast delivers it. -/
def StoredMeansBroadcast (event : SourceEvent) (steps : List (ServerStep R)) : Prop :=
  handedOver steps = [event] ∧
    ∀ sends : List (ServerStep R), Amid exec (broadcast event) sends () → Delivers event sends

/-! ## The broadcast -/

theorem Amid.of_doing {op : Op} (run : Amid exec (doing op) steps ()) :
    ∃ (env : Env R) (r : Ret op) (w w' : World R),
      exec op env w = some (r, w') ∧ steps = [⟨w, env, ⟨op, r⟩, w'⟩] := by
  cases run with
  | act performed rest =>
    cases rest
    exact ⟨_, _, _, _, performed, rfl⟩

section Rounds

variable {clients : List (ClientId × ClientInfo)} {rounds : List (List (ServerStep R))}
  {clientId : ClientId} {info : ClientInfo} {tx : Tx}

/-- The rounds of a broadcast's loop deliver nothing to a client that is not visited. -/
theorem received_eq_nil
    (visited : List.Forall₂ (fun entry round =>
      Amid exec (doing (.send entry.1 entry.2.tx (.sourceEvent event))) round ()) clients rounds)
    (absent : clientId ∉ clients.map Prod.fst) : received clientId tx rounds.flatten = [] := by
  induction visited with
  | nil => rfl
  | @cons entry round clients rounds sent _ ih =>
    obtain ⟨env, r, w, w', -, rfl⟩ := Amid.of_doing sent
    rw [List.map_cons, List.mem_cons, not_or] at absent
    have other : delivers clientId tx
        ⟨.send entry.1 entry.2.tx (.sourceEvent event), r⟩ = none := by
      cases r with
      | error err => rfl
      | ok => exact if_neg fun same => absent.1 same.1.symm
    simp only [received, List.flatten_cons, List.filterMap_append, List.filterMap_cons, other,
      List.filterMap_nil, List.nil_append]
    exact ih absent.2

/-- The rounds of a broadcast's loop deliver the event once to a client that is visited once and
whose channel refuses nothing. -/
theorem received_eq_singleton
    (visited : List.Forall₂ (fun entry round =>
      Amid exec (doing (.send entry.1 entry.2.tx (.sourceEvent event))) round ()) clients rounds)
    (once : (clients.map Prod.fst).Nodup) (mem : (clientId, info) ∈ clients)
    (accepted : ¬ Refused clientId info.tx rounds.flatten) :
    received clientId info.tx rounds.flatten = [.sourceEvent event] := by
  induction visited with
  | nil => cases mem
  | @cons entry round clients rounds sent later ih =>
    obtain ⟨env, r, w, w', -, rfl⟩ := Amid.of_doing sent
    obtain ⟨fresh, once⟩ := List.nodup_cons.mp once
    rcases List.mem_cons.mp mem with rfl | mem
    · -- its round delivers the event, and the later ones visit other clients
      have first : delivers clientId info.tx
          ⟨.send clientId info.tx (.sourceEvent event), r⟩ = some (.sourceEvent event) := by
        cases r with
        | error err => exact absurd ⟨_, List.mem_cons_self, _, err, rfl⟩ accepted
        | ok => exact if_pos ⟨rfl, rfl⟩
      have rest : received clientId info.tx rounds.flatten = [] := received_eq_nil later fresh
      simp only [received] at rest
      simp only [received, List.flatten_cons, List.filterMap_append, List.filterMap_cons, first,
        List.filterMap_nil, rest, List.append_nil]
    · have differs : clientId ≠ entry.1 := fun same =>
        fresh (same ▸ List.mem_map_of_mem (f := Prod.fst) mem)
      have other : delivers clientId info.tx
          ⟨.send entry.1 entry.2.tx (.sourceEvent event), r⟩ = none := by
        cases r with
        | error err => rfl
        | ok => exact if_neg fun same => differs same.1.symm
      simp only [received, List.flatten_cons, List.filterMap_append, List.filterMap_cons, other,
        List.filterMap_nil, List.nil_append]
      refine ih once mem fun ⟨step, hstep, refused⟩ => accepted ⟨step, ?_, refused⟩
      exact List.mem_cons_of_mem _ hstep

end Rounds

/-- **A broadcast delivers its event**, whatever the others do and whatever sends fail. -/
theorem broadcast_delivers (run : Amid exec (broadcast event) steps ()) : Delivers event steps := by
  cases run with
  | @act _ _ _ clients _ _ _ rest performed run =>
    have run : Amid exec ((clients.forM fun entry =>
        doing (.send entry.1 entry.2.tx (.sourceEvent event))) >>= fun _ =>
          doing (.dropClients event)) rest () := run
    obtain ⟨⟨⟩, visits, last, rfl, visited, dropped⟩ := Amid.of_bind run
    obtain ⟨rounds, rfl, rounds_run⟩ := Amid.of_forM visited
    obtain ⟨env', u, w₁, w₂, -, rfl⟩ := Amid.of_doing dropped
    obtain ⟨entries, iterated, heq⟩ := Option.map_eq_some_iff.mp performed
    cases heq
    refine ⟨_, _, rfl, rfl, fun clientId info connected accepted => ?_⟩
    have sent : received clientId info.tx rounds.flatten = [.sourceEvent event] :=
      received_eq_singleton rounds_run (HashMap.iter_keys_nodup iterated)
        ((HashMap.mem_iter iterated).mpr connected) fun ⟨step, mem, refused⟩ =>
          accepted ⟨step, List.mem_append_left _ mem, refused⟩
    have nothing : received clientId info.tx [⟨w₁, env', ⟨.dropClients event, u⟩, w₂⟩] = [] := rfl
    unfold received at sent nothing ⊢
    rw [List.filterMap_append, sent, nothing, List.append_nil]

/-! ## The handler -/

/-- The steps of a handler that saved the event: the source is gone, or it is told and the event
is handed over. -/
inductive Stored (msg : RegisterSourceEventMessage) (event : SourceEvent) :
    List (ServerStep R) → Prop
  | gone {touched stored looked : ServerStep R}
      (touches : touched.event = ⟨.updateLastSeen (.registerSourceEvent msg), ()⟩)
      (saves : stored.event = ⟨.saveSourceEvent msg, .ok event⟩)
      (looks : looked.event = ⟨.getClientById (.source event msg), none⟩) :
      Stored msg event [touched, stored, looked]
  | told {touched stored looked tells spawned : ServerStep R} {info : ClientInfo}
      {sent : Except TxError Unit}
      (touches : touched.event = ⟨.updateLastSeen (.registerSourceEvent msg), ()⟩)
      (saves : stored.event = ⟨.saveSourceEvent msg, .ok event⟩)
      (looks : looked.event = ⟨.getClientById (.source event msg), some info⟩)
      (acknowledges : tells.event = ⟨.send msg.source info.tx
        (.sourceEventRegistered event.id event.monotonicClock), sent⟩)
      (hands : spawned.event = ⟨.spawnBroadcast event, ()⟩) :
      Stored msg event [touched, stored, looked, tells, spawned]

/-- The event was not saved, and that is all, or the handler went on with it. -/
theorem handled_cases (run : Amid exec (handleMessage (.registerSourceEvent msg)) steps ()) :
    (∃ touched failed : ServerStep R, ∃ err, steps = [touched, failed] ∧
      touched.event = ⟨.updateLastSeen (.registerSourceEvent msg), ()⟩ ∧
      failed.event = ⟨.saveSourceEvent msg, .error err⟩) ∨ ∃ event, Stored msg event steps := by
  cases run with
  | act _ run =>
    cases run with
    | @act _ _ _ saved _ _ _ _ _ run =>
      cases saved with
      | error err =>
        cases run
        exact .inl ⟨_, _, err, rfl, rfl, rfl⟩
      | ok event =>
        refine .inr ⟨event, ?_⟩
        cases run with
        | @act _ _ _ found _ _ _ _ _ run =>
          cases found with
          | none =>
            cases run
            exact .gone rfl rfl rfl
          | some info =>
            cases run with
            | act _ run =>
              cases run with
              | act _ run =>
                cases run
                exact .told rfl rfl rfl rfl rfl

namespace Stored

/-- The handler saves the event once. -/
theorem saving (stored : Stored msg event steps) :
    ∃ step ∈ steps, step.event = ⟨.saveSourceEvent msg, .ok event⟩ ∧
      ∀ other ∈ steps, other.event.op = .saveSourceEvent msg → other = step := by
  cases stored with
  | @gone touched saved looked touches saves looks =>
    refine ⟨saved, by simp, saves, fun other mem is => ?_⟩
    simp only [List.mem_cons, List.not_mem_nil, or_false] at mem
    rcases mem with rfl | rfl | rfl
    · simp only [touches] at is
      cases is
    · rfl
    · simp only [looks] at is
      cases is
  | @told touched saved looked tells spawned info sent touches saves looks acknowledges hands =>
    refine ⟨saved, by simp, saves, fun other mem is => ?_⟩
    simp only [List.mem_cons, List.not_mem_nil, or_false] at mem
    rcases mem with rfl | rfl | rfl | rfl | rfl
    · simp only [touches] at is
      cases is
    · rfl
    · simp only [looks] at is
      cases is
    · simp only [acknowledges] at is
      cases is
    · simp only [hands] at is
      cases is

/-- The steps of a handler that saved an event are about this event. -/
theorem unique {event' : SourceEvent} (stored : Stored msg event steps)
    (saved : ∃ step ∈ steps, step.event = ⟨.saveSourceEvent msg, .ok event'⟩) : event' = event := by
  obtain ⟨step, mem, saves'⟩ := saved
  obtain ⟨step', -, saves, only⟩ := stored.saving
  cases only step mem (by rw [saves'])
  cases saves.symm.trans saves'
  rfl

/-- The handler sends nothing but the acknowledgement. -/
theorem acknowledgement_of_send (stored : Stored msg event steps) {step : ServerStep R}
    (mem : step ∈ steps) {client : ClientId} {tx : Tx} {serverMessage : ServerMessage}
    (is : step.event.op = .send client tx serverMessage) :
    serverMessage = .sourceEventRegistered event.id event.monotonicClock := by
  cases stored with
  | gone touches saves looks =>
    simp only [List.mem_cons, List.not_mem_nil, or_false] at mem
    rcases mem with rfl | rfl | rfl
    · simp only [touches] at is
      cases is
    · simp only [saves] at is
      cases is
    · simp only [looks] at is
      cases is
  | told touches saves looks acknowledges hands =>
    simp only [List.mem_cons, List.not_mem_nil, or_false] at mem
    rcases mem with rfl | rfl | rfl | rfl | rfl
    · simp only [touches] at is
      cases is
    · simp only [saves] at is
      cases is
    · simp only [looks] at is
      cases is
    · simp only [acknowledges] at is
      cases is
      rfl
    · simp only [hands] at is
      cases is

/-- The event is the only one handed over, if it is. -/
theorem eq_of_handedOver (stored : Stored msg event steps) {event' : SourceEvent}
    (mem : event' ∈ handedOver steps) : event' = event := by
  cases stored with
  | gone touches saves looks =>
    simp only [handedOver, List.filterMap_cons, List.filterMap_nil, touches, saves, looks, spawns,
      List.not_mem_nil] at mem
  | told touches saves looks acknowledges hands =>
    simp only [handedOver, List.filterMap_cons, List.filterMap_nil, touches, saves, looks,
      acknowledges, hands, spawns, List.mem_singleton] at mem
    exact mem

end Stored

/-- What a handler does once it has saved the event. -/
theorem stored_of_amid (run : Amid exec (handleMessage (.registerSourceEvent msg)) steps ())
    (saved : ∃ step ∈ steps, step.event = ⟨.saveSourceEvent msg, .ok event⟩) :
    Stored msg event steps := by
  rcases handled_cases run with ⟨touched, failed, err, rfl, touches, fails⟩ | ⟨event', stored⟩
  · obtain ⟨step, mem, saves⟩ := saved
    simp only [List.mem_cons, List.not_mem_nil, or_false] at mem
    rcases mem with rfl | rfl
    · cases touches.symm.trans saves
    · cases fails.symm.trans saves
  · exact stored.unique saved ▸ stored

/-- **Stored means broadcast**: a handler that saved its event had it broadcast exactly when the
source was connected as the handler looked it up to tell it. -/
theorem storedMeansBroadcast_iff
    (run : Amid exec (handleMessage (.registerSourceEvent msg)) steps ())
    (saved : ∃ step ∈ steps, step.event = ⟨.saveSourceEvent msg, .ok event⟩) :
    StoredMeansBroadcast event steps ↔
      ∀ step ∈ steps, step.event.op = .getClientById (.source event msg) →
        step.before.clients[msg.source]? ≠ none := by
  cases stored_of_amid run saved with
  | @gone touched stored looked touches saves looks =>
    have silent : handedOver [touched, stored, looked] = [] := by
      simp only [handedOver, List.filterMap_cons, List.filterMap_nil, touches, saves, looks, spawns]
    have absent : looked.before.clients[msg.source]? = none := by
      have mem : looked ∈ [touched, stored, looked] := by simp
      have performed := run.performed mem
      rw [looks] at performed
      exact (exec_getClientById performed).1.symm
    constructor
    · rintro ⟨hands, -⟩
      rw [silent] at hands
      cases hands
    · intro connected
      exact absurd absent (connected looked (by simp) (by rw [looks]))
  | @told touched stored looked tells spawned info sent touches saves looks acknowledges hands =>
    refine iff_of_true ⟨?_, fun sends => broadcast_delivers⟩ ?_
    · simp only [handedOver, List.filterMap_cons, List.filterMap_nil, touches, saves, looks,
        acknowledges, hands, spawns]
    · intro step mem lookup
      have found : step = looked := by
        simp only [List.mem_cons, List.not_mem_nil, or_false] at mem
        rcases mem with rfl | rfl | rfl | rfl | rfl
        · rw [touches] at lookup
          cases lookup
        · rw [saves] at lookup
          cases lookup
        · rfl
        · rw [acknowledges] at lookup
          cases lookup
        · rw [hands] at lookup
          cases lookup
      have performed := run.performed mem
      rw [found, looks] at performed
      have present := (exec_getClientById performed).1
      rw [found]
      exact fun absent => by cases present.trans absent

/-! ## In the server -/

section Reach

variable {parse : String → Option Uuid} {timing : Timing} {σ σ' : ServerConfig R} {i : Nat}
  {job job' : Job} {next : Option Job}

/-- **What a task of the server does in a pass, it does amid the others.** -/
theorem amid_of_pass {α : Type} {p : Async α} {k : α → Async (Option Job)}
    (reach : (server R parse timing).Reach (StaysIn i) σ σ')
    (task : σ.tasks[i]? = some ⟨job, p >>= k⟩) (task' : σ'.tasks[i]? = some ⟨job', .done next⟩) :
    ∃ a steps later, Amid (exec (R := R)) p steps a ∧
      σ'.trace.of i = later ++ (history steps ++ σ.trace.of i) := by
  obtain ⟨-, steps, own, run⟩ := Interleave.amid_of_reach reach task task' .done
  obtain ⟨a, first, second, split, run, -⟩ := Amid.of_bind run
  rw [List.append_nil] at split
  refine ⟨a, first, history second, run.mono serverExec_exec, ?_⟩
  rw [own, split, history, List.map_append, List.reverse_append, List.append_assoc]
  rfl

end Reach

section Scenario

open Scenario

/-- Two clients are connected. -/
def Scenario.twoConnected (repository : R) : World R :=
  (World.new repository).setClients
    (((∅ : HashMap ClientId ClientInfo).insert alice ⟨0, 0, 0⟩).insert bob ⟨1, 0, 0⟩)

/-- The first section of a disconnect of a client. -/
def Scenario.disconnects (clientId : ClientId) (w : World R) : World R :=
  w.setClients (w.clients.erase clientId)

/-- An event of a client. -/
def Scenario.publishing (clientId : ClientId) : RegisterSourceEventMessage :=
  ⟨clientId, ⟨1⟩, ⟨"user-1", by decide⟩, "User", []⟩

/-- A client publishes, and nobody interferes: the event is broadcast. -/
theorem storedMeansBroadcast_publishing : ∃ (steps : List (ServerStep NoopSourceEventRepository))
    (event : SourceEvent), Amid exec (handleMessage (.registerSourceEvent (publishing alice))) steps
      () ∧ StoredMeansBroadcast event steps := by
  have played : ((handleMessage (.registerSourceEvent (publishing alice))).playAmid exec
      (List.replicate 5 (id, quiet)) (twoConnected ⟨⟩)).map (fun ended => (ended.2.length,
        ended.2.all fun step => (step.before.clients[alice]?).isSome)) = some (5, true) := by
    decide +kernel
  obtain ⟨⟨⟨⟩, steps⟩, played, hsteps⟩ := Option.map_eq_some_iff.mp played
  obtain ⟨five, connected⟩ := Prod.mk.inj hsteps
  have run := Interleave.amid_of_playAmid played
  rcases handled_cases run with ⟨touched, failed, err, rfl, -, -⟩ | ⟨event, stored⟩
  · cases five
  · have saved : ∃ step ∈ steps, step.event = ⟨.saveSourceEvent (publishing alice), .ok event⟩ := by
      cases stored with
      | gone _ saves _ => exact ⟨_, by simp, saves⟩
      | told _ saves _ _ _ => exact ⟨_, by simp, saves⟩
    refine ⟨steps, event, run, (storedMeansBroadcast_iff run saved).mpr fun step mem _ absent => ?_⟩
    have present := List.all_eq_true.mp connected step mem
    have absent : step.before.clients[alice]? = none := absent
    rw [absent] at present
    cases present

/-- The publisher is disconnected between the save and the lookup: the event is stored, and no
broadcast of it is spawned for the other client. -/
theorem not_storedMeansBroadcast : ¬ ∀ (msg : RegisterSourceEventMessage) (event : SourceEvent)
    (steps : List (ServerStep NoopSourceEventRepository)),
    Amid exec (handleMessage (.registerSourceEvent msg)) steps () →
    (∃ step ∈ steps, step.event = ⟨.saveSourceEvent msg, .ok event⟩) →
    StoredMeansBroadcast event steps := by
  intro broadcast
  have played : ((handleMessage (.registerSourceEvent (publishing alice))).playAmid exec
      [(id, quiet), (id, quiet), (disconnects alice, quiet)] (twoConnected ⟨⟩)).map
        (fun ended => ended.2.length) = some 3 := by
    decide +kernel
  obtain ⟨⟨⟨⟩, steps⟩, played, three⟩ := Option.map_eq_some_iff.mp played
  have run := Interleave.amid_of_playAmid played
  rcases handled_cases run with ⟨touched, failed, err, rfl, -, -⟩ | ⟨event, stored⟩
  · cases three
  · cases stored with
    | told => cases three
    | @gone touched stored looked touches saves looks =>
      have hands := (broadcast _ event _ run ⟨stored, by simp, saves⟩).1
      simp [handedOver, touches, saves, looks, spawns] at hands

end Scenario

end Revent
