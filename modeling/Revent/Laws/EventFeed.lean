import Revent.Feed.Spec
import Revent.Laws.Snapshots

/-!
# The events as a feed

What the server is for, as far as events go: a feed (`Feed.Spec`) whose entries are the rows of the
table, whose writers are told what they stored, and whose readers are the clients. What is seen of
the feed in a run of the server is the saves that succeeded, the acknowledgements sent and the
events sent, in the order they happen, whatever tasks they belong to and whether or not a channel
accepts them.

Whatever is seen is a run of the feed (`feed_of_reach`). The steps that need an argument are the
last two: an acknowledgement is made once, since its task alone knows the id (`ReleasedAfter`); and
an event is sent to a client once, since the event is handed over once, its broadcast starts once
(`broadcasts_perm`), and the broadcast visits each client once.
-/

namespace Revent

open Interleave (Event Trace Prog Machine Config Task SpecRun)

/-! ## What is seen -/

/-- What is seen of the feed in an event of the trace. -/
def feedSeen : Event Op Ret → Option (Feed.Seen SourceEvent EventId ClientId)
  | ⟨.saveSourceEvent _, .ok event⟩ => some (.stored event)
  | ⟨.send client _ (.sourceEventRegistered eventId clock), _⟩ =>
    some (.acknowledged client eventId clock)
  | ⟨.send client _ (.sourceEvent event), _⟩ => some (.announced client event)
  | _ => none

/-- The id an event of the trace acknowledges. -/
def acknowledges : Event Op Ret → Option EventId
  | ⟨.send _ _ (.sourceEventRegistered eventId _), _⟩ => some eventId
  | _ => none

/-- The client an event of the trace sends a source event to, with the id. -/
def announces : Event Op Ret → Option (ClientId × EventId)
  | ⟨.send client _ (.sourceEvent event), _⟩ => some (client, event.id)
  | _ => none

/-- The ids that were acknowledged, the first one first. -/
abbrev acknowledgedIn (tr : Trace Op Ret) : List EventId := Trace.shown acknowledges tr

/-- The clients that a source event was sent to, with its id, the first one first. -/
abbrev announcedIn (tr : Trace Op Ret) : List (ClientId × EventId) := Trace.shown announces tr

/-- The feed a trace leaves. -/
def feedOf (tr : Trace Op Ret) : Feed.State SourceEvent EventId ClientId :=
  ⟨savedIn tr, acknowledgedIn tr, announcedIn tr⟩

/-- A save that is seen is one. -/
theorem savedEvent_of_feedSeen {ev : Event Op Ret} {event : SourceEvent}
    (shows : feedSeen ev = some (.stored event)) : savedEvent ev = some event := by
  unfold feedSeen at shows
  split at shows
  · cases shows
    rfl
  · cases shows
  · cases shows
  · cases shows

/-- An acknowledgement that is seen is one. -/
theorem acknowledges_of_feedSeen {ev : Event Op Ret} {client : ClientId} {eventId : EventId}
    {clock : Nat} (shows : feedSeen ev = some (.acknowledged client eventId clock)) :
    acknowledges ev = some eventId := by
  unfold feedSeen at shows
  split at shows
  · cases shows
  · cases shows
    rfl
  · cases shows
  · cases shows

/-- An event of which nothing is seen leaves the feed as it was. -/
theorem feedOf_cons_of_unseen {i : Nat} {ev : Event Op Ret} {tr : Trace Op Ret}
    (unseen : feedSeen ev = none) : feedOf ((i, ev) :: tr) = feedOf tr := by
  have silent : savedEvent ev = none ∧ acknowledges ev = none ∧ announces ev = none := by
    obtain ⟨op, r⟩ := ev
    cases op with
    | saveSourceEvent msg =>
      cases r with
      | error err => exact ⟨rfl, rfl, rfl⟩
      | ok event => cases unseen
    | send client tx msg =>
      cases msg with
      | sourceEventRegistered | sourceEvent => cases unseen
      | _ => exact ⟨rfl, rfl, rfl⟩
    | _ => exact ⟨rfl, rfl, rfl⟩
  simp only [feedOf, Trace.shown_cons, silent, Option.toList_none, List.append_nil]

/-! ## Broadcasts start once -/

/-- The event a job broadcasts. -/
def Job.event : Job → Option SourceEvent
  | .broadcast event => some event
  | _ => none

theorem Job.event_eq_some {job : Job} {event : SourceEvent} :
    job.event = some event ↔ job = .broadcast event := by
  cases job <;> simp [Job.event]

/-- The events of the broadcasts, waiting to start or started. -/
def broadcasts {R : Type} (σ : ServerConfig R) : List SourceEvent :=
  σ.world.spawned ++ σ.tasks.filterMap fun task => task.job.event

/-- The events handed to broadcasts, the first one first. -/
abbrev spawnedIn (tr : Trace Op Ret) : List SourceEvent := Trace.shown spawns tr

theorem spawnedIn_cons {entry : Nat × Event Op Ret} {tr : Trace Op Ret} :
    spawnedIn (entry :: tr) = spawnedIn tr ++ (spawns entry.2).toList := Trace.shown_cons

/-- A task that broadcasts nothing it did not broadcast before. -/
theorem events_set {tasks : List (Task Op Ret Job)} {i : Nat} {task task' : Task Op Ret Job}
    (at_i : tasks[i]? = some task) (same : task'.job.event = task.job.event) :
    (tasks.set i task').filterMap (fun task => task.job.event) =
      tasks.filterMap fun task => task.job.event := by
  obtain ⟨here, rfl⟩ := List.getElem?_eq_some_iff.mp at_i
  have events : (tasks.set i task').map (fun task => task.job.event) =
      tasks.map fun task => task.job.event := by
    rw [List.map_set, same, ← List.getElem_map (fun task : Task Op Ret Job => task.job.event)
      (h := by simpa using here), List.set_getElem_self]
  have split (ts : List (Task Op Ret Job)) : ts.filterMap (fun task => task.job.event) =
      (ts.map fun task => task.job.event).filterMap id := by
    rw [List.filterMap_map]
    rfl
  rw [split, split, events]

section Broadcasts

variable {parse : String → Option Uuid} {timing : Timing} {R : Type} [Repository R]
  {ok : ServerConfig R → ServerLabel R → Prop} {repository : R} {σ : ServerConfig R}

/-- **What is handed over is broadcast once**: the broadcasts, waiting or started, are for the
events handed over, one for each time. -/
theorem broadcasts_perm
    (reach : (server R parse timing).Reach ok (initial parse timing repository) σ) :
    (broadcasts σ).Perm (spawnedIn σ.trace) := by
  induction reach with
  | init => exact .nil
  | @step σ σ' ℓ reach _ stepped ih =>
    cases Machine.step_cases stepped with
    | @act i env job op next r w task performed =>
      have tasks : (σ.tasks.set i ⟨job, next r⟩).filterMap (fun task => task.job.event) =
          σ.tasks.filterMap fun task => task.job.event := events_set task rfl
      show (w.spawned ++ (σ.tasks.set i ⟨job, next r⟩).filterMap _).Perm
        (spawnedIn ((i, ⟨op, r⟩) :: σ.trace))
      rw [spawnedIn_cons, spawned_exec (serverExec_exec performed), tasks, List.append_assoc]
      refine List.Perm.trans (.append_left _ List.perm_append_comm) ?_
      rw [← List.append_assoc]
      exact ih.append_right _
    | @loop i job job' task =>
      -- a pass that goes on is not a broadcast's, and goes on as none
      have goesOn := ((broadcasting reach).flows i _ task).1 job' rfl
      have isNone {job : Job} (loop : ∀ event, job ≠ .broadcast event) : job.event = none := by
        cases events : job.event with
        | none => rfl
        | some event => exact absurd (Job.event_eq_some.mp events) (loop event)
      have before : job.event = none := isNone fun event same =>
        absurd (((broadcasting reach).flows i _ task).2 event same).1 (Option.some_ne_none job')
      have same : ((server R parse timing).start job').job.event = job.event :=
        (isNone goesOn.2).trans before.symm
      have tasks := events_set task same
      unfold broadcasts at ih ⊢
      rw [tasks]
      exact ih
    | @ext x w job moved =>
      unfold broadcasts at ih ⊢
      cases x with
      | openSession =>
        cases moved
        simpa [Machine.start, Job.event] using ih
      | read tx =>
        cases moved
        simpa using ih
      | startBroadcast place =>
        obtain ⟨event, found, heq⟩ := Option.map_eq_some_iff.mp moved
        cases heq
        obtain ⟨here, rfl⟩ := List.getElem?_eq_some_iff.mp found
        refine List.Perm.trans ?_ ih
        simp only [Option.map_some, Option.toList_some, List.filterMap_append, Machine.start,
          List.filterMap_cons, Job.event, List.filterMap_nil]
        have moved := (List.getElem_cons_eraseIdx_perm here).append_right
          (σ.tasks.filterMap fun task => task.job.event)
        refine List.Perm.trans ?_ moved
        rw [← List.append_assoc]
        exact List.perm_append_comm

end Broadcasts

/-! ## Acknowledgements -/

/-- The task saved the event and has not acknowledged it yet. -/
inductive Unacknowledged (event : SourceEvent) : History → Prop
  | saved {msg : RegisterSourceEventMessage} {h : History} :
      Unacknowledged event (⟨.saveSourceEvent msg, .ok event⟩ :: h)
  | found {msg : RegisterSourceEventMessage} {info : ClientInfo} {h : History} :
      Unacknowledged event (⟨.getClientById (.source event msg), some info⟩ :: h)

section Moves

variable {parse : String → Option Uuid} {timing : Timing} {job : Job} {op : Op} {r : Ret op}
  {h : History} {event : SourceEvent}

theorem Unacknowledged.announcing (now : Unacknowledged event h) : Announcing event.id h := by
  cases now with
  | saved => exact .saved rfl
  | found => exact .found rfl

/-- A task has an event to acknowledge from the save on. -/
theorem Unacknowledged.back (site : Site parse timing job h op)
    (now : Unacknowledged event (⟨op, r⟩ :: h)) :
    savedEvent ⟨op, r⟩ = some event ∨ Unacknowledged event h := by
  cases now with
  | saved => exact .inl rfl
  | found =>
    cases site with
    | source => exact .inr .saved

/-- An acknowledgement is of the event that its task has to acknowledge. -/
theorem Site.unacknowledged_of_register {client : ClientId} {tx : Tx} {eventId : EventId}
    {clock : Nat}
    (site : Site parse timing job h (.send client tx (.sourceEventRegistered eventId clock))) :
    ∃ event : SourceEvent, event.id = eventId ∧ event.monotonicClock = clock ∧
      Unacknowledged event h := by
  cases site with
  | saved => exact ⟨_, rfl, rfl, .found⟩
  | @answer _ _ answer _ _ _ _ _ reply => cases answer <;> cases reply

/-- An event that is handed over was saved and acknowledged by its task. -/
theorem Site.done_of_spawn (site : Site parse timing job h (.spawnBroadcast event)) :
    ∃ saves told, saves ∈ h ∧ savedEvent saves = some event ∧ told ∈ h ∧
      acknowledges told = some event.id := by
  cases site with
  | spawning =>
    refine ⟨_, _, List.mem_cons_of_mem _ (List.mem_cons_of_mem _ List.mem_cons_self), rfl,
      List.mem_cons_self, rfl⟩

end Moves

namespace RustLiteSourceEventRepository

/-- The invariant: what is acknowledged is saved, and what a task has to acknowledge is saved and
not acknowledged. -/
structure Acknowledgements (tr : Trace Op Ret) : Prop where
  known : ∀ {eventId}, eventId ∈ acknowledgedIn tr → eventId ∈ (savedIn tr).map (·.id)
  left : ∀ {i event}, Unacknowledged event (tr.of i) →
    event ∈ savedIn tr ∧ event.id ∉ acknowledgedIn tr

section Reach

variable {parse : String → Option Uuid} {timing : Timing}
  {cond : ServerConfig RustLiteSourceEventRepository → Nat → Env RustLiteSourceEventRepository →
    Op → Prop} {σ : ServerConfig RustLiteSourceEventRepository} {i j : Nat} {job : Job} {op : Op}
  {r : Ret op} {event event' : SourceEvent}

/-- An id that an operation acknowledges, its task announces. -/
theorem announcing_of_acknowledges {eventId : EventId} {h : History}
    (site : Site parse timing job h op) (told : acknowledges ⟨op, r⟩ = some eventId) :
    Announcing eventId h := by
  cases op with
  | send client tx msg =>
    cases msg with
    | sourceEventRegistered =>
      cases told
      exact site.announcing_of_register
    | _ => cases told
  | _ => cases told

/-- Each operation that saves new ids only keeps the invariant. -/
theorem Acknowledgements.act (inv : Acknowledgements σ.trace) (released : ReleasedAfter σ.trace)
    (site : Site parse timing job (σ.trace.of i) op)
    (fresh : ∀ event, savedEvent ⟨op, r⟩ = some event → event.id ∉ (savedIn σ.trace).map (·.id)) :
    Acknowledgements ((i, ⟨op, r⟩) :: σ.trace) where
  known := by
    intro eventId told
    rw [savedIn_cons, List.map_append, List.mem_append]
    rw [acknowledgedIn, Trace.shown_cons, List.mem_append] at told
    rcases told with told | told
    · exact .inl (inv.known told)
    · exact .inl (released.announced
        (announcing_of_acknowledges site (Option.mem_toList.mp told)))
  left := by
    intro k event now
    rw [savedIn_cons, List.mem_append, acknowledgedIn, Trace.shown_cons, List.mem_append]
    rcases Trace.of_cons_cases (Unacknowledged event) now with ⟨rfl, mine⟩ | ⟨other, before⟩
    · rcases mine.back site with saves | before
      · refine ⟨.inr (by simp [saves]), ?_⟩
        rintro (told | told)
        · exact fresh event saves (inv.known told)
        · have announcing := announcing_of_acknowledges site (Option.mem_toList.mp told)
          exact fresh event saves (released.announced announcing)
      · obtain ⟨saved, untold⟩ := inv.left before
        refine ⟨.inl saved, ?_⟩
        rintro (told | told)
        · exact untold told
        · -- the acknowledgement of the event ends this task's turn
          cases mine with
          | saved => cases told
          | found => cases told
    · obtain ⟨saved, untold⟩ := inv.left before
      refine ⟨.inl saved, ?_⟩
      rintro (told | told)
      · exact untold told
      · have announcing := announcing_of_acknowledges site (Option.mem_toList.mp told)
        exact other (released.alone announcing before.announcing)

/-- A save adds an event with a new id to the events saved. -/
theorem fresh_of_saved (reach : ReachIf parse timing new cond σ)
    {env : Env RustLiteSourceEventRepository} {w : World RustLiteSourceEventRepository}
    (hexec : exec op env σ.world = some (r, w)) (saves : savedEvent ⟨op, r⟩ = some event) :
    event.id ∉ (savedIn σ.trace).map (·.id) := by
  cases op with
  | saveSourceEvent msg =>
    cases r with
    | error err => cases saves
    | ok saved =>
      cases saves
      exact fresh_of_save reach hexec
  | _ => cases saves

/-- What is acknowledged is saved, in every run. -/
theorem acknowledgements (reach : ReachIf parse timing new cond σ) : Acknowledgements σ.trace := by
  refine Machine.Reach.invariant (fun _ tr => Acknowledgements tr) reach ⟨nofun, ?_⟩ ?_
    fun _ inv => inv
  · intro i event now
    cases now
  · intro σ i env job op next r w reach task _ performed inv
    exact inv.act (releasedAfter reach) (site_of_act (flowing reach) task) fun event saves =>
      fresh_of_saved reach (serverExec_exec performed) saves

/-- **What is handed over was saved and acknowledged before.** -/
theorem done_of_spawned (reach : ReachIf parse timing new cond σ)
    (spawned : Spawned event σ.trace) :
    event ∈ savedIn σ.trace ∧ event.id ∈ acknowledgedIn σ.trace := by
  refine Machine.Reach.invariant (fun _ tr => ∀ event, Spawned event tr →
    event ∈ savedIn tr ∧ event.id ∈ acknowledgedIn tr) reach ?_ ?_ (fun _ inv => inv) event spawned
  · rintro event ⟨i, mem⟩
    cases mem
  · intro σ i env job op next r w reach task _ _ inv event spawned
    rw [savedIn_cons, acknowledgedIn, Trace.shown_cons]
    rcases spawned_cons spawned with rfl | before
    · obtain ⟨saves, told, hsaves, saved, htold, acknowledged⟩ :=
        (site_of_act (flowing reach) task).done_of_spawn
      exact ⟨List.mem_append_left _ (Trace.mem_shown.mpr ⟨_, Trace.mem_of hsaves, saved⟩),
        List.mem_append_left _ (Trace.mem_shown.mpr ⟨_, Trace.mem_of htold, acknowledged⟩)⟩
    · obtain ⟨saved, told⟩ := inv event before
      exact ⟨List.mem_append_left _ saved, List.mem_append_left _ told⟩

theorem mem_spawnedIn {tr : Trace Op Ret} (mem : event ∈ spawnedIn tr) : Spawned event tr := by
  obtain ⟨⟨k, op, r⟩, hev, spawns⟩ := Trace.mem_shown.mp mem
  cases op with
  | spawnBroadcast =>
    cases spawns
    exact ⟨k, hev⟩
  | _ => cases spawns

/-- No id is handed over twice. -/
theorem spawnedIn_ids (reach : ReachIf parse timing new cond σ) :
    ((spawnedIn σ.trace).map (·.id)).Nodup := by
  refine Machine.Reach.invariant
    (fun _ (tr : Trace Op Ret) => ((spawnedIn tr).map SourceEvent.id).Nodup)
    reach List.nodup_nil ?_ fun _ inv => inv
  intro σ i env job op next r w reach task _ _ inv
  rw [spawnedIn_cons, List.map_append]
  cases op with
  | spawnBroadcast event =>
    refine Feed.nodup_concat inv fun mem => ?_
    obtain ⟨other, hother, same⟩ := List.mem_map.mp mem
    have same : other.id = event.id := same
    have announcing := (site_of_act (flowing reach) task).announcing_of_spawn
    exact (releasedAfter reach).before (same ▸ announcing) (mem_spawnedIn hother)
  | _ => simpa [spawns] using inv

/-- **No event is broadcast by two tasks.** -/
theorem broadcast_unique (reach : ReachIf parse timing new cond σ) {p p' : Async (Option Job)}
    (task : σ.tasks[i]? = some ⟨.broadcast event, p⟩)
    (task' : σ.tasks[j]? = some ⟨.broadcast event', p'⟩) (same : event.id = event'.id) :
    i = j := by
  have once : ((broadcasts σ).map (·.id)).Nodup :=
    ((broadcasts_perm reach).map _).nodup_iff.mpr (spawnedIn_ids reach)
  have apart : σ.tasks.Pairwise fun a b => ∀ event, a.job.event = some event →
      ∀ event', b.job.event = some event' → event.id ≠ event'.id := by
    rw [broadcasts, List.map_append] at once
    exact List.pairwise_filterMap.mp (List.pairwise_map.mp (List.nodup_append.mp once).2.1)
  obtain ⟨hi, at_i⟩ := List.getElem?_eq_some_iff.mp task
  obtain ⟨hj, at_j⟩ := List.getElem?_eq_some_iff.mp task'
  have ordered := List.pairwise_iff_getElem.mp apart
  rcases Nat.lt_trichotomy i j with lt | eq | gt
  · exact absurd same (ordered i j hi hj lt event (by rw [at_i]; rfl) event' (by rw [at_j]; rfl))
  · exact eq
  · exact absurd same.symm
      (ordered j i hj hi gt event' (by rw [at_j]; rfl) event (by rw [at_i]; rfl))

/-! ## The feed -/

/-- The clock of an event that is saved is the next one. -/
theorem clock_of_save (reach : ReachIf parse timing new cond σ)
    {msg : RegisterSourceEventMessage} {env : Env RustLiteSourceEventRepository}
    {w : World RustLiteSourceEventRepository}
    (hexec : exec (.saveSourceEvent msg) env σ.world = some (.ok event, w)) :
    event.monotonicClock = (savedIn σ.trace).length + 1 := by
  obtain ⟨saves, table, events⟩ := stored_of_reach reach
  obtain ⟨rows, numbered⟩ := rows_after saves
  obtain ⟨ok, -⟩ := Prod.mk.inj (Option.some.inj hexec)
  have ok : (saveSourceEvent msg.toNewSourceEvent env.saving (after saves)).1 = .ok event :=
    table ▸ ok
  rcases saveSourceEvent_cases (msg.toNewSourceEvent, env.saving) (after saves) with
    ⟨err, failed⟩ | ⟨event', row, table', saved, -, -, -, -, clock⟩
  · rw [failed] at ok
    cases ok
  · rw [saved] at ok
    cases ok
    rw [clock, numbered.maxClock, events, rows.length_eq]

/-- **No event is sent to a client twice.** -/
theorem unannounced_of_send (reach : ReachIf parse timing new cond σ) {client : ClientId} {tx : Tx}
    {next : Except TxError Unit → Async (Option Job)}
    (task : σ.tasks[i]? = some ⟨job, .act (.send client tx (.sourceEvent event)) next⟩) :
    (client, event.id) ∉ announcedIn σ.trace := by
  have site := broadcastSite_of_broadcast reach task rfl
  have isBroadcast := (site_of_act (flowing reach) task).of_broadcast rfl
  subst isBroadcast
  generalize hh : σ.trace.of i = h at site
  cases site with
  | @send entry rest _ visiting =>
    intro mem
    obtain ⟨⟨k, op, r⟩, hev, announced⟩ := Trace.mem_shown.mp mem
    cases op with
    | send client' tx' msg =>
      cases msg with
      | sourceEvent other =>
        have announced : (client', other.id) = (entry.1, event.id) := Option.some.inj announced
        obtain ⟨client_same, id_same⟩ := Prod.mk.inj announced
        -- the other send is this broadcast's own, so it visited the client before
        obtain ⟨prog, task'⟩ := job_of_broadcast reach hev rfl
        have own := broadcast_unique reach task' task id_same
        subst own
        have visited := visited_reach reach (hh ▸ visiting)
        have before : (client', tx') ∈ sentTo (σ.trace.of k) :=
          List.mem_reverse.mpr (List.mem_filterMap.mpr ⟨_, Trace.of_mem hev, rfl⟩)
        have once := (List.nodup_append.mp visited.once).2.2
        exact once _ (List.mem_map_of_mem before) _ List.mem_cons_self client_same
      | _ => cases announced
    | _ => cases announced

/-- **What is seen of the events in a run of the server is a run of a feed**, which ends in the
events saved. -/
theorem feed_of_reach (reach : ReachIf parse timing new cond σ) :
    Feed.Run SourceEvent.id SourceEvent.monotonicClock (Trace.shown feedSeen σ.trace)
      (feedOf σ.trace) := by
  suffices refined : ∃ s, SpecRun (Feed.Step SourceEvent.id SourceEvent.monotonicClock) .empty
      (Trace.shown feedSeen σ.trace) s ∧ s = feedOf σ.trace by
    obtain ⟨s, run, rfl⟩ := refined
    exact run
  refine Machine.Reach.refines _ feedSeen (fun s _ tr => s = feedOf tr) reach rfl rfl ?_
    fun _ same => same
  · rintro σ i env job op next r w s reach task - performed rfl
    have performed := serverExec_exec performed
    have site := site_of_act (flowing reach) task
    cases op with
    | saveSourceEvent msg =>
      cases r with
      | error err => exact (feedOf_cons_of_unseen rfl).symm
      | ok event =>
        refine ⟨_, .store (clock_of_save reach performed) (fresh_of_save reach performed), ?_⟩
        simp [feedOf, savedEvent, acknowledges, announces]
    | send client tx msg =>
      cases msg with
      | sourceEventRegistered eventId clock =>
        obtain ⟨event, rfl, rfl, unacknowledged⟩ := site.unacknowledged_of_register
        obtain ⟨saved, untold⟩ := (acknowledgements reach).left unacknowledged
        refine ⟨_, .acknowledge saved untold, ?_⟩
        simp [feedOf, savedEvent, acknowledges, announces]
      | sourceEvent event =>
        have isBroadcast := site.of_broadcast rfl
        subst isBroadcast
        have spawned := (broadcastsSpawned reach).running i event _ task
        obtain ⟨saved, told⟩ := done_of_spawned reach spawned
        refine ⟨_, .announce saved told (unannounced_of_send reach task), ?_⟩
        simp [feedOf, savedEvent, acknowledges, announces]
      | _ => exact (feedOf_cons_of_unseen rfl).symm
    | _ => exact (feedOf_cons_of_unseen rfl).symm

/-- **The server follows the feed**: what is seen of the events in the run is a run of a feed, and
the entries of the feed are the rows of the table, in order. -/
structure FollowsFeed (σ : ServerConfig RustLiteSourceEventRepository) : Prop where
  run : Feed.Run SourceEvent.id SourceEvent.monotonicClock (Trace.shown feedSeen σ.trace)
    (feedOf σ.trace)
  table : List.Forall₂ SourceEvent.IsRow (feedOf σ.trace).log
    σ.world.state.repository.table.rows

/-- The events saved are the rows of the table. -/
theorem rows_of_reach (reach : ReachIf parse timing new cond σ) :
    List.Forall₂ SourceEvent.IsRow (savedIn σ.trace) σ.world.state.repository.table.rows := by
  obtain ⟨saves, table, events⟩ := stored_of_reach reach
  rw [table, events]
  exact (rows_after saves).1

/-- **The server follows the feed**, in every run. -/
theorem followsFeed_of_reach (reach : ReachIf parse timing new anyOp σ) : FollowsFeed σ :=
  ⟨feed_of_reach reach, rows_of_reach reach⟩

/-! ## The table and what is sent -/

/-- No operation changes or removes a row. -/
theorem rows_exec {op : Op} {r : Ret op} {env : Env RustLiteSourceEventRepository}
    {w w' : World RustLiteSourceEventRepository} (h : exec op env w = some (r, w')) :
    w.state.repository.table.rows <+: w'.state.repository.table.rows := by
  cases op with
  | saveSourceEvent msg =>
    cases h
    show _ <+: (saveSourceEvent msg.toNewSourceEvent env.saving w.state.repository).2.table.rows
    rcases saveSourceEvent_cases (msg.toNewSourceEvent, env.saving) w.state.repository with
      ⟨err, failed⟩ | ⟨event, row, table, saved, rows, -⟩
    · rw [failed]
    · rw [saved]
      exact rows ▸ List.prefix_append _ _
  | _ => rw [repository_exec h nofun]

/-- **An event is sent after it was saved and acknowledged.** -/
theorem saved_before_sent (reach : ReachIf parse timing new cond σ) {later earlier : Trace Op Ret}
    {client : ClientId} {tx : Tx} {sent : Except TxError Unit}
    (htr : σ.trace = later ++ (i, ⟨.send client tx (.sourceEvent event), sent⟩) :: earlier) :
    event ∈ savedIn earlier ∧ event.id ∈ acknowledgedIn earlier := by
  have run := feed_of_reach reach
  have split : Trace.shown feedSeen σ.trace = Trace.shown feedSeen earlier ++
      .announced client event :: (later.filterMap fun entry => feedSeen entry.2).reverse := by
    simp [htr, Trace.shown, feedSeen]
  rw [split] at run
  obtain ⟨stored, writer, clock, acknowledged⟩ := Feed.stored_before run
  refine ⟨?_, ?_⟩
  · obtain ⟨entry, mem, shows⟩ := Trace.mem_shown.mp stored
    exact Trace.mem_shown.mpr ⟨entry, mem, savedEvent_of_feedSeen shows⟩
  · obtain ⟨entry, mem, shows⟩ := Trace.mem_shown.mp acknowledged
    exact Trace.mem_shown.mpr ⟨entry, mem, acknowledges_of_feedSeen shows⟩

/-- **Faithful events**: rows are only appended; whatever was sent or acknowledged until `σ` is
still a row in `σ'`; what was sent was saved and acknowledged before; and no client was sent an
event twice, whichever channels it had meanwhile. -/
structure FaithfulEvents (σ σ' : ServerConfig RustLiteSourceEventRepository) : Prop where
  grows : σ.world.state.repository.table.rows <+: σ'.world.state.repository.table.rows
  sent : ∀ {i client tx event sent}, (i, ⟨.send client tx (.sourceEvent event), sent⟩) ∈ σ.trace →
    ∃ row ∈ σ'.world.state.repository.table.rows, event.IsRow row
  acknowledged : ∀ {i client tx eventId clock sent},
    (i, ⟨.send client tx (.sourceEventRegistered eventId clock), sent⟩) ∈ σ.trace →
    ∃ row ∈ σ'.world.state.repository.table.rows, row.id = eventId.val.toString ∧
      row.monotonicClock = clock
  before : ∀ {later i client tx event sent earlier},
    σ.trace = later ++ (i, ⟨.send client tx (.sourceEvent event), sent⟩) :: earlier →
    event ∈ savedIn earlier ∧ event.id ∈ acknowledgedIn earlier
  once : (announcedIn σ.trace).Nodup

/-- An event saved has its row. -/
theorem row_of_saved (reach : ReachIf parse timing new cond σ) (saved : event ∈ savedIn σ.trace) :
    ∃ row ∈ σ.world.state.repository.table.rows, event.IsRow row := by
  have rows := rows_of_reach reach
  obtain ⟨n, here, rfl⟩ := List.mem_iff_getElem.mp saved
  have there := rows.length_eq ▸ here
  exact ⟨_, List.getElem_mem there, rows.get here there⟩

/-- **Faithful events**, between any two configurations of a run. -/
theorem faithfulEvents_of_reach {σ' : ServerConfig RustLiteSourceEventRepository}
    (reach : ReachIf parse timing new anyOp σ)
    (later : (server _ parse timing).Reach (Machine.Acting anyOp) σ σ') : FaithfulEvents σ σ' := by
  have grows : σ.world.state.repository.table.rows <+:
      σ'.world.state.repository.table.rows := by
    refine later.invariant (fun w _ => σ.world.state.repository.table.rows <+:
      w.state.repository.table.rows) List.prefix_rfl ?_ ?_
    · exact fun _ _ _ performed before => before.trans (rows_exec (serverExec_exec performed))
    · intro x w w' job tr moved before
      rw [move_state moved]
      exact before
  obtain ⟨announced, acknowledged⟩ := Feed.mem_log (feed_of_reach reach)
  refine ⟨grows, ?_, ?_, saved_before_sent reach, (Feed.wellFormed (feed_of_reach reach)).once⟩
  · intro i client tx event sent mem
    have saved := announced client event (Trace.mem_shown.mpr ⟨_, mem, rfl⟩)
    obtain ⟨row, hrow, isRow⟩ := row_of_saved reach saved
    exact ⟨row, grows.subset hrow, isRow⟩
  · intro i client tx eventId clock sent mem
    obtain ⟨event, saved, rfl, rfl⟩ :=
      acknowledged client eventId clock (Trace.mem_shown.mpr ⟨_, mem, rfl⟩)
    obtain ⟨row, hrow, isRow⟩ := row_of_saved reach saved
    exact ⟨row, grows.subset hrow, isRow.id, isRow.monotonicClock⟩

end Reach

section Scenario

open Scenario

/-- A publication that ends after the broadcast, seen as a feed. -/
theorem followsFeed_publication : ∃ σ, published (fun _ _ => true) publication = some σ ∧
    (feedOf σ.trace).announced = [(alice, ⟨7⟩)] ∧ FollowsFeed σ := by
  have one : (published (fun _ _ => true) publication).map
      (fun σ => (feedOf σ.trace).announced) = some [(alice, ⟨7⟩)] := by
    decide +kernel
  obtain ⟨σ, run, announced⟩ := Option.map_eq_some_iff.mp one
  refine ⟨σ, run, announced, followsFeed_of_reach (reach_published ?_ run)⟩
  exact fun _ _ _ _ _ _ _ _ => trivial

/-- A broadcast before its last step and after it. -/
theorem faithfulEvents_publication : ∃ σ σ',
    published (fun _ _ => true) publication.dropLast = some σ ∧
      (server _ Scenario.parse Scenario.timing).runIf (fun _ _ => true) [takes 2] σ = some σ' ∧
      announcedIn σ.trace = [(alice, ⟨7⟩)] ∧ FaithfulEvents σ σ' := by
  have one : (published (fun _ _ => true) publication.dropLast).map (fun σ =>
      (announcedIn σ.trace, ((server _ Scenario.parse Scenario.timing).runIf
        (fun _ _ => true) [takes 2] σ).isSome)) = some ([(alice, ⟨7⟩)], true) := by
    decide +kernel
  obtain ⟨σ, run, both⟩ := Option.map_eq_some_iff.mp one
  obtain ⟨announced, goesOn⟩ := Prod.mk.inj both
  obtain ⟨σ', last⟩ := Option.isSome_iff_exists.mp goesOn
  refine ⟨σ, σ', run, last, announced, faithfulEvents_of_reach (reach_published ?_ run) ?_⟩
  · exact fun _ _ _ _ _ _ _ _ => trivial
  · refine Machine.reach_of_runIf (fun σ ℓ _ => ?_) last
    cases ℓ with
    | act i env => exact fun _ _ _ _ => trivial
    | loop | ext => trivial

end Scenario

end RustLiteSourceEventRepository

end Revent
