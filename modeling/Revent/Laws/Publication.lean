import Revent.Laws.Broadcasts
import Revent.Laws.Channels
import Revent.Laws.Clock

/-!
# From the save to the broadcast

An event is saved, its source is sent the acknowledgement, and only then is it handed to a
broadcast, which runs by itself. `Announcing` is where a task has saved an event and not handed
it over yet.

So no channel is put an event in before the acknowledgement of that event, however the broadcasts
and the handlers interleave: the ids of the saved events differ (`savedIn_ids`), so one task
announces an id, once, and an event is released when that is over.
-/

namespace Revent

open Interleave (Event Trace Prog Machine Config Task)

/-! ## From one point to the next -/

/-- The task saved the event with the id and has not handed it to its broadcast yet. -/
inductive Announcing (eventId : EventId) : History → Prop
  | saved {msg : RegisterSourceEventMessage} {event : SourceEvent} {h : History}
      (id : event.id = eventId) : Announcing eventId (⟨.saveSourceEvent msg, .ok event⟩ :: h)
  | found {msg : RegisterSourceEventMessage} {event : SourceEvent} {info : ClientInfo}
      {h : History} (id : event.id = eventId) :
      Announcing eventId (⟨.getClientById (.source event msg), some info⟩ :: h)
  | told {client : ClientId} {tx : Tx} {clock : Nat} {sent : Except TxError Unit} {h : History} :
      Announcing eventId (⟨.send client tx (.sourceEventRegistered eventId clock), sent⟩ :: h)

section Moves

variable {parse : String → Option Uuid} {timing : Timing} {job : Job} {op : Op} {r : Ret op}
  {h : History} {eventId : EventId} {event : SourceEvent}

/-- A task announces an id from the save on. -/
theorem Announcing.back (site : Site parse timing job h op)
    (now : Announcing eventId (⟨op, r⟩ :: h)) :
    (∃ event, savedEvent ⟨op, r⟩ = some event ∧ event.id = eventId) ∨ Announcing eventId h := by
  cases now with
  | saved id => exact .inl ⟨_, rfl, id⟩
  | found id =>
    cases site with
    | source => exact .inr (.saved id)
  | told =>
    cases site with
    | saved => exact .inr (.found rfl)
    | @answer _ _ answer _ _ _ _ _ reply => cases answer <;> cases reply

/-- The acknowledgement is sent by a task that announces the id. -/
theorem Site.announcing_of_register {client : ClientId} {tx : Tx} {clock : Nat}
    (site : Site parse timing job h (.send client tx (.sourceEventRegistered eventId clock))) :
    Announcing eventId h := by
  cases site with
  | saved => exact .found rfl
  | @answer _ _ answer _ _ _ _ _ reply => cases answer <;> cases reply

/-- An event is handed to a broadcast by the task that announces it. -/
theorem Site.announcing_of_spawn (site : Site parse timing job h (.spawnBroadcast event)) :
    Announcing event.id h := by
  cases site with
  | spawning => exact .told

/-- Once it is handed over, the task does not announce an id. -/
theorem not_announcing_spawn {u : Unit} : ¬ Announcing eventId (⟨.spawnBroadcast event, u⟩ :: h) :=
  nofun

end Moves

namespace RustLiteSourceEventRepository

/-- The invariant: the ids announced and the ids handed over are saved; who announces an id does
so alone, and before the event is handed over; and an acknowledgement comes before that too. -/
structure ReleasedAfter (tr : Trace Op Ret) : Prop where
  announced : ∀ {i eventId}, Announcing eventId (tr.of i) → eventId ∈ (savedIn tr).map (·.id)
  released : ∀ {event}, Spawned event tr → event.id ∈ (savedIn tr).map (·.id)
  alone : ∀ {i j eventId}, Announcing eventId (tr.of i) → Announcing eventId (tr.of j) → i = j
  before : ∀ {i event}, Announcing event.id (tr.of i) → ¬ Spawned event tr
  first : ∀ {later i client tx event clock sent earlier}, tr = later ++
      (i, ⟨.send client tx (.sourceEventRegistered event.id clock), sent⟩) :: earlier →
    ¬ Spawned event earlier

section Released

variable {parse : String → Option Uuid} {timing : Timing}
  {σ : ServerConfig RustLiteSourceEventRepository} {i : Nat} {job : Job} {op : Op}
  {r : Ret op}

/-- Who announces an id after an operation just saved it, with a new id, or announced it before. -/
theorem ReleasedAfter.enter {eventId : EventId} {k : Nat}
    (site : Site parse timing job (σ.trace.of i) op)
    (now : Announcing eventId (Trace.of ((i, ⟨op, r⟩) :: σ.trace) k)) :
    (i = k ∧ ∃ event, savedEvent ⟨op, r⟩ = some event ∧ event.id = eventId) ∨
      Announcing eventId (σ.trace.of k) := by
  rcases Trace.of_cons_cases (Announcing eventId) now with ⟨rfl, mine⟩ | ⟨-, other⟩
  · rcases mine.back site with saves | before
    · exact .inl ⟨rfl, saves⟩
    · exact .inr before
  · exact .inr other

/-- What is handed over after an operation was handed over before, or just now. -/
theorem spawned_cons {event : SourceEvent} {tr : Trace Op Ret}
    (spawned : Spawned event ((i, ⟨op, r⟩) :: tr)) :
    op = .spawnBroadcast event ∨ Spawned event tr := by
  obtain ⟨k, mem⟩ := spawned
  rcases List.mem_cons.mp mem with heq | mem
  · cases heq
    exact .inl rfl
  · exact .inr ⟨k, mem⟩

/-- Each operation that saves new ids only keeps the invariant. -/
theorem ReleasedAfter.act (inv : ReleasedAfter σ.trace)
    (site : Site parse timing job (σ.trace.of i) op)
    (fresh : ∀ event, savedEvent ⟨op, r⟩ = some event → event.id ∉ (savedIn σ.trace).map (·.id)) :
    ReleasedAfter ((i, ⟨op, r⟩) :: σ.trace) where
  announced := by
    intro k eventId now
    rw [savedIn_cons, List.map_append, List.mem_append]
    rcases enter site now with ⟨-, event, saves, rfl⟩ | before
    · exact .inr (by simp [saves])
    · exact .inl (inv.announced before)
  released := by
    intro event spawned
    rw [savedIn_cons, List.map_append, List.mem_append]
    rcases spawned_cons spawned with rfl | before
    · exact .inl (inv.announced site.announcing_of_spawn)
    · exact .inl (inv.released before)
  alone := by
    intro a b eventId ha hb
    rcases enter site ha with ⟨rfl, event, saves, rfl⟩ | ha
    · rcases enter site hb with ⟨hb, -⟩ | hb
      · exact hb
      · exact absurd (inv.announced hb) (fresh event saves)
    · rcases enter site hb with ⟨-, event, saves, rfl⟩ | hb
      · exact absurd (inv.announced ha) (fresh event saves)
      · exact inv.alone ha hb
  before := by
    intro k event now spawned
    rcases spawned_cons spawned with rfl | spawned
    · rcases Trace.of_cons_cases (Announcing event.id) now with ⟨-, mine⟩ | ⟨other, now⟩
      · exact not_announcing_spawn mine
      · exact other (inv.alone site.announcing_of_spawn now)
    · rcases enter site now with ⟨-, saved, saves, id⟩ | now
      · exact fresh saved saves (id ▸ inv.released spawned)
      · exact inv.before now spawned
  first := by
    intro later k client tx event clock sent earlier htr
    rcases Trace.cons_eq_append htr with ⟨-, heq, rfl⟩ | ⟨later', -, htail⟩
    · cases heq
      exact inv.before site.announcing_of_register
    · exact inv.first htail

variable {cond : ServerConfig RustLiteSourceEventRepository → Nat →
    Env RustLiteSourceEventRepository → Op → Prop}

/-- What is handed over in any run is saved, announced alone, and acknowledged before. -/
theorem releasedAfter (reach : ReachIf parse timing new cond σ) : ReleasedAfter σ.trace := by
  refine Machine.Reach.invariant (fun _ tr => ReleasedAfter tr) reach ?_ ?_ fun _ inv => inv
  · refine ⟨?_, ?_, ?_, ?_, by simp [initial]⟩
    · intro i eventId now
      cases now
    · rintro event ⟨i, mem⟩
      cases mem
    · intro i j eventId now
      cases now
    · intro i event now
      cases now
  · intro σ i env job op next r w reach task _ performed inv
    refine inv.act (site_of_act (flowing reach) task) fun event saves => ?_
    cases op with
    | saveSourceEvent msg =>
      cases r with
      | error err => cases saves
      | ok saved =>
        cases saves
        exact fresh_of_save reach (serverExec_exec performed)
    | _ => cases saves

/-- An event is put in a channel by a broadcast it was handed to. -/
theorem spawned_of_sourceEvent (reach : ReachIf parse timing new cond σ) {later : Trace Op Ret}
    {i : Nat} {client : ClientId} {tx : Tx} {event : SourceEvent} {sent : Except TxError Unit}
    {earlier : Trace Op Ret}
    (htr : σ.trace = later ++ (i, ⟨.send client tx (.sourceEvent event), sent⟩) :: earlier) :
    Spawned event earlier := by
  refine Machine.Reach.invariant (fun _ tr => ∀ {later i client tx event sent earlier},
    tr = later ++ (i, ⟨.send client tx (.sourceEvent event), sent⟩) :: earlier →
    Spawned event earlier) reach (by simp [initial]) ?_ (fun _ inv => inv) htr
  intro σ i env job op next r w reach task _ _ inv later k client tx event sent earlier htr
  rcases Trace.cons_eq_append htr with ⟨-, heq, rfl⟩ | ⟨later', -, htail⟩
  · cases heq
    have site := site_of_act (flowing reach) task
    generalize σ.trace.of i = h at site
    cases site with
    | broadcasting => exact (broadcastsSpawned reach).running i event _ task
    | @answer _ _ answer _ _ _ _ _ reply => cases answer <;> cases reply
  · exact inv htail

end Released

end RustLiteSourceEventRepository

/-! ## Causal order -/

/-- **Causal order on every channel**: a message that does not answer a registration comes after a
`ClientRegistered`, and no acknowledgement of an event comes after the event. -/
structure CausalOrder {R : Type} (σ : ServerConfig R) : Prop where
  registered : ∀ tx before msg after, putIn tx σ.trace = before ++ msg :: after →
    ¬ msg.AnswersRegistration → ∃ clientId, .clientRegistered clientId ∈ before
  acknowledged : ∀ tx before event clock after,
    putIn tx σ.trace = before ++ .sourceEvent event :: after →
    .sourceEventRegistered event.id clock ∉ after

open RustLiteSourceEventRepository in
/-- **Causal order on every channel**, in every run. -/
theorem causalOrder_of_reach {parse : String → Option Uuid} {timing : Timing}
    {σ : ServerConfig RustLiteSourceEventRepository} (reach : ReachIf parse timing .new anyOp σ) :
    CausalOrder σ := by
  refine ⟨fun tx before msg after split other => ?_, fun tx before event clock after split => ?_⟩
  · obtain ⟨later, i, ev, earlier, htr, hputs, rfl, -⟩ := Trace.shown_eq_append split
    obtain ⟨client, rfl⟩ := puts_eq_some hputs
    obtain ⟨k, client', clientId, mem⟩ := (acknowledgedFirst reach).first htr other
    exact ⟨clientId, Trace.mem_shown.mpr ⟨_, mem, if_pos rfl⟩⟩
  · obtain ⟨later, i, ev, earlier, htr, hputs, -, rfl⟩ := Trace.shown_eq_append split
    obtain ⟨client, rfl⟩ := puts_eq_some hputs
    intro acknowledged
    obtain ⟨⟨k, ev'⟩, mem, hputs'⟩ := Trace.mem_shown.mp acknowledged
    obtain ⟨client', rfl⟩ := puts_eq_some hputs'
    -- the event was handed over before it was put in the channel, so before its acknowledgement
    obtain ⟨first, last, rfl⟩ := List.append_of_mem mem
    obtain ⟨j, spawned⟩ := spawned_of_sourceEvent reach htr
    rw [List.append_assoc, List.cons_append] at htr
    refine (releasedAfter reach).first htr ⟨j, ?_⟩
    exact List.mem_append_right _ (List.mem_cons_of_mem _ spawned)

namespace Scenario

/-- A step over the stored table in which sends are accepted, the database does not fail, and the
id is drawn. -/
def stored (id : Uuid) : Env RustLiteSourceEventRepository :=
  ⟨0, 0, true, .closed, [], [], ⟨.ok (), id, 0, .ok (), "", .ok ()⟩⟩

/-- Task `i` performs its next operation. -/
def takes (i : Nat) : ServerLabel RustLiteSourceEventRepository := .act i (stored 0)

/-- Session `i` receives a payload. -/
def gets (i : Nat) (payload : Proto.Payload) : ServerLabel RustLiteSourceEventRepository :=
  .act i { stored 0 with received := .message (some payload) }

/-- Task `i` saves an event, with the id drawn. -/
def draws (i : Nat) (id : Uuid) : ServerLabel RustLiteSourceEventRepository := .act i (stored id)

/-- Task `i` visits the clients. -/
def visits (i : Nat) (clients : List ClientId) : ServerLabel RustLiteSourceEventRepository :=
  .act i { stored 0 with clientOrder := clients }

/-- A source event. -/
def userCreated : Proto.Payload :=
  .registerSourceEvent ⟨"00000000-0000-0000-0000-000000000001", "user-1", "User", [], ∅⟩

/-- The steps of session `i` that register a client. -/
def enrols (i : Nat) (clientId : ClientId) : List (ServerLabel RustLiteSourceEventRepository) :=
  [gets i (register clientId), takes i, takes i, takes i, takes i, takes i, .loop i]

/-- The steps of session `i` that save an event and hand it to a broadcast. -/
def publishes (i : Nat) (id : Uuid) : List (ServerLabel RustLiteSourceEventRepository) :=
  [gets i userCreated, takes i, draws i id, takes i, takes i, takes i, .loop i]

/-- A schedule of the server with its table, run from the start with a check before each step. -/
def published (check : ServerConfig RustLiteSourceEventRepository →
      ServerLabel RustLiteSourceEventRepository → Bool)
    (schedule : List (ServerLabel RustLiteSourceEventRepository)) :
    Option (ServerConfig RustLiteSourceEventRepository) :=
  (server _ parse timing).runIf check schedule (initial parse timing .new)

/-- A client registers, publishes an event, and is sent it. -/
def publication : List (ServerLabel RustLiteSourceEventRepository) :=
  [.ext .openSession] ++ enrols 1 alice ++ publishes 1 7 ++
    [.ext (.startBroadcast 0), visits 2 [alice], takes 2, takes 2]

end Scenario

section Scenario

open Scenario

/-- A schedule over the table reaches where it ends, under any condition its check stands for. -/
theorem Scenario.reach_published
    {check : ServerConfig RustLiteSourceEventRepository →
      ServerLabel RustLiteSourceEventRepository → Bool}
    {cond : ServerConfig RustLiteSourceEventRepository → Nat → Env RustLiteSourceEventRepository →
      Op → Prop}
    {schedule : List (ServerLabel RustLiteSourceEventRepository)}
    {σ : ServerConfig RustLiteSourceEventRepository}
    (hcheck : ∀ σ i env job op next, check σ (.act i env) = true →
      σ.tasks[i]? = some ⟨job, .act op next⟩ → cond σ i env op)
    (run : published check schedule = some σ) :
    ReachIf Scenario.parse Scenario.timing .new cond σ := by
  refine Machine.reach_of_runIf (fun σ ℓ checked => ?_) run
  cases ℓ with
  | act i env => exact fun job op next => hcheck σ i env job op next checked
  | loop | ext => trivial

/-- A publication puts three messages in the client's channel. -/
theorem causalOrder_publication : ∃ σ, published (fun _ _ => true) publication = some σ ∧
    (putIn 0 σ.trace).length = 3 ∧ CausalOrder σ := by
  have three : (published (fun _ _ => true) publication).map
      (fun σ => (putIn 0 σ.trace).length) = some 3 := by
    decide +kernel
  obtain ⟨σ, run, length⟩ := Option.map_eq_some_iff.mp three
  refine ⟨σ, run, length, causalOrder_of_reach (reach_published ?_ run)⟩
  exact fun _ _ _ _ _ _ _ _ => trivial

end Scenario

end Revent
