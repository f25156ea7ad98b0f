import Revent.Laws.Effects

/-!
# The broadcasts

A broadcast is a task of its own: it takes the read guard with a copy of the clients, sends the
event to each of them, and drops the guard. `Visiting` is where it holds the guard, with the
clients it still has to send to. No pass of another loop goes on as a broadcast, so a broadcast
starts with no history, and its call sites are exactly these (`broadcastSite_of_act`).

Every broadcast, waiting to start or running, is for an event that a handler handed over.
-/

namespace Revent

open Interleave (Event Trace Prog Machine Config Task)

/-! ## The course of a broadcast -/

/-- The task holds the read guard for the event and still has to send it to these clients. -/
inductive Visiting (event : SourceEvent) : List (ClientId × ClientInfo) → History → Prop
  | read {clients : List (ClientId × ClientInfo)} :
      Visiting event clients [⟨.readClients event, clients⟩]
  | sent {entry : ClientId × ClientInfo} {rest : List (ClientId × ClientInfo)}
      {sent : Except TxError Unit} {h : History} (before : Visiting event (entry :: rest) h) :
      Visiting event rest (⟨.send entry.1 entry.2.tx (.sourceEvent event), sent⟩ :: h)

/-- The task holds a read guard of the connected clients. -/
def Holding (h : History) : Prop := ∃ event rest, Visiting event rest h

/-- The call sites of the broadcast of an event. -/
inductive BroadcastSite (event : SourceEvent) : History → Op → Prop
  | read : BroadcastSite event [] (.readClients event)
  | send {entry : ClientId × ClientInfo} {rest : List (ClientId × ClientInfo)} {h : History}
      (visiting : Visiting event (entry :: rest) h) :
      BroadcastSite event h (.send entry.1 entry.2.tx (.sourceEvent event))
  | drop {h : History} (visiting : Visiting event [] h) : BroadcastSite event h (.dropClients event)

/-- What a broadcast may do: the tasks of other loops are free. -/
def Job.BroadcastSite (job : Job) (h : History) (op : Op) : Prop :=
  ∀ event, job = .broadcast event → Revent.BroadcastSite event h op

/-- The loop goes on over the channel it has, if it has one, and not as a broadcast. -/
def Job.GoesOn (job : Job) (next : Option Job) : Prop :=
  ∀ job', next = some job' → job'.channel = job.channel ∧ ∀ event, job' ≠ .broadcast event

/-- A pass goes on as the same kind of loop, and a broadcast has one pass, which ends without the
guard. -/
def Job.BroadcastEnds (job : Job) (h : History) (next : Option Job) : Prop :=
  job.GoesOn next ∧ ∀ event, job = .broadcast event → next = none ∧ ¬ Holding h

theorem Job.GoesOn.stop {job : Job} : job.GoesOn none := nofun

theorem Job.GoesOn.of_channel {job job' : Job} (same : job'.channel = job.channel)
    (loop : ∀ event, job' ≠ .broadcast event) : job.GoesOn (some job') := by
  intro next heq
  cases heq
  exact ⟨same, loop⟩

section Course

variable {parse : String → Option Uuid} {timing : Timing}

theorem visits_flows {event : SourceEvent} {clients : List (ClientId × ClientInfo)} {h : History}
    (visiting : Visiting event clients h) :
    (clients.forM fun entry => doing (.send entry.1 entry.2.tx (.sourceEvent event))).Flows
      (BroadcastSite event) (fun h' _ => Visiting event [] h') h := by
  induction clients generalizing h with
  | nil => exact visiting
  | cons entry clients ih => exact Prog.flows_act.mpr ⟨.send visiting, fun _ => ih (.sent visiting)⟩

theorem broadcast_flows_visits (event : SourceEvent) :
    (broadcast event).Flows (BroadcastSite event) (fun h _ => ¬ Holding h) [] := by
  refine Prog.flows_act.mpr ⟨.read, fun clients => (visits_flows .read).bind fun h' _ visited => ?_⟩
  refine ⟨.drop visited, fun _ => ?_⟩
  rintro ⟨event, rest, visiting⟩
  cases visiting

/-- A pass of any loop goes on over the channel it has, and not as a broadcast. -/
theorem boot_flows_goesOn (job : Job) (h : History) :
    (boot parse timing job).Flows (fun _ _ => True) (fun _ => job.GoesOn) h := by
  have endSession (opt : Option ClientId) (h : History) :
      (endSession opt).Flows (fun _ _ => True) (fun _ => job.GoesOn) h := by
    cases opt with
    | none => exact .stop
    | some clientId => exact (Prog.flows_true _ h).bind fun _ _ _ => .stop
  cases job with
  | session tx opt =>
    refine Prog.flows_act.mpr ⟨trivial, fun received => ?_⟩
    cases received with
    | closed => exact endSession opt _
    | message payload =>
      cases payload with
      | none => exact .of_channel rfl nofun
      | some payload =>
        dsimp only [Prog.bind]
        split
        · exact (Prog.flows_true _ _).bind fun _ _ _ => .of_channel rfl nofun
        · exact endSession opt _
        · exact .stop
  | tick => exact ⟨trivial, fun _ => .of_channel rfl nofun⟩
  | heartbeats txs =>
    cases txs with
    | nil => exact ⟨trivial, fun _ => .of_channel rfl nofun⟩
    | cons entry txs => exact (Prog.flows_true _ h).bind fun _ _ _ => .of_channel rfl nofun
  | expiredRequests requests =>
    cases requests with
    | nil => exact .of_channel rfl nofun
    | cons request requests =>
      exact (Prog.flows_true _ h).bind fun _ _ _ => .of_channel rfl nofun
  | broadcast event => exact (Prog.flows_true _ h).bind fun _ _ _ => .stop

/-- A broadcast that starts with no history keeps to its call sites, and no pass goes on as a
broadcast. -/
theorem boot_flows_broadcast (job : Job) (h : History)
    (fresh : ∀ event, job = .broadcast event → h = []) :
    (boot parse timing job).Flows job.BroadcastSite job.BroadcastEnds h := by
  by_cases loop : ∀ event, job ≠ .broadcast event
  · refine ((boot_flows_goesOn job h).mono_site fun _ _ _ event same => ?_).mono ?_
    · exact absurd same (loop event)
    · exact fun _ _ goesOn => ⟨goesOn, fun event same => absurd same (loop event)⟩
  · obtain ⟨event, broadcasts⟩ := not_forall_not.mp loop
    cases broadcasts
    rw [fresh event rfl]
    have course : (broadcast event).Flows (Job.broadcast event).BroadcastSite
        (fun h _ => ¬ Holding h) [] := by
      refine (broadcast_flows_visits event).mono_site fun _ _ site event' same => ?_
      cases same
      exact site
    exact course.bind fun _ _ dropped => ⟨.stop, fun _ _ => ⟨rfl, dropped⟩⟩

variable {R : Type} [Repository R] {ok : ServerConfig R → ServerLabel R → Prop} {repository : R}
  {σ : ServerConfig R}

/-- The broadcasts of every reachable configuration keep to their call sites. -/
theorem broadcasting
    (reach : (server R parse timing).Reach ok (initial parse timing repository) σ) :
    Machine.Flowing Job.BroadcastSite Job.BroadcastEnds σ := by
  refine Machine.flows_reach boot_flows_broadcast
    (fun _ _ _ ends event same => absurd same ((ends.1 _ rfl).2 event))
    (fun _ _ _ _ _ _ _ => rfl) ⟨?_, by simp [initial]⟩ reach
  intro i t ht
  obtain ⟨rfl, rfl⟩ := task_of_initial ht
  show (boot parse timing .tick).Flows _ _ _
  refine boot_flows_broadcast .tick _ fun event same => ?_
  cases same

/-- **What a broadcast does next.** -/
theorem broadcastSite_of_act {i : Nat} {event : SourceEvent} {op : Op}
    {next : Ret op → Async (Option Job)}
    (reach : (server R parse timing).Reach ok (initial parse timing repository) σ)
    (task : σ.tasks[i]? = some ⟨.broadcast event, .act op next⟩) :
    BroadcastSite event (σ.trace.of i) op :=
  ((broadcasting reach).flows i _ task).1 event rfl

end Course

/-- The event whose broadcast the operation belongs to. -/
def Op.ofBroadcast : Op → Option SourceEvent
  | .readClients event | .dropClients event | .send _ _ (.sourceEvent event) => some event
  | _ => none

/-- The operations of a broadcast are performed by it. -/
theorem Site.of_broadcast {parse : String → Option Uuid} {timing : Timing} {job : Job}
    {h : History} {op : Op} {event : SourceEvent} (site : Site parse timing job h op)
    (is : op.ofBroadcast = some event) : job = .broadcast event := by
  cases site with
  | readClients | dropClients | broadcasting =>
    cases is
    rfl
  | @answer _ _ answer _ _ _ _ _ reply => cases answer <;> cases reply <;> cases is
  | _ => cases is

/-- **Where an operation of a broadcast is performed.** -/
theorem broadcastSite_of_broadcast {parse : String → Option Uuid} {timing : Timing} {R : Type}
    [Repository R] {ok : ServerConfig R → ServerLabel R → Prop} {repository : R}
    {σ : ServerConfig R} {i : Nat} {job : Job} {op : Op} {next : Ret op → Async (Option Job)}
    {event : SourceEvent}
    (reach : (server R parse timing).Reach ok (initial parse timing repository) σ)
    (task : σ.tasks[i]? = some ⟨job, .act op next⟩) (is : op.ofBroadcast = some event) :
    BroadcastSite event (σ.trace.of i) op := by
  cases (site_of_act (flowing reach) task).of_broadcast is
  exact broadcastSite_of_act reach task

/-- A task that visits came to the guard just now, or sent to the next client. -/
theorem Visiting.back {event : SourceEvent} {rest : List (ClientId × ClientInfo)} {op : Op}
    {r : Ret op} {h : History} (now : Visiting event rest (⟨op, r⟩ :: h)) :
    (⟨op, r⟩ : Event Op Ret) = ⟨.readClients event, rest⟩ ∨
      ∃ entry, Visiting event (entry :: rest) h ∧
        op = .send entry.1 entry.2.tx (.sourceEvent event) := by
  cases now with
  | read => exact .inl rfl
  | sent before => exact .inr ⟨_, before, rfl⟩

/-- A task that visits took the guard for its event. -/
theorem Visiting.read_mem {event : SourceEvent} {rest : List (ClientId × ClientInfo)}
    {h : History} (visiting : Visiting event rest h) :
    ∃ clients, ⟨.readClients event, clients⟩ ∈ h := by
  induction visiting with
  | read => exact ⟨_, List.mem_cons_self⟩
  | sent _ ih =>
    obtain ⟨clients, mem⟩ := ih
    exact ⟨clients, List.mem_cons_of_mem _ mem⟩

/-! ## Where a broadcast comes from -/

/-- The event was handed to a broadcast. -/
def Spawned (event : SourceEvent) (tr : Trace Op Ret) : Prop :=
  ∃ i, (i, ⟨.spawnBroadcast event, ()⟩) ∈ tr

theorem Spawned.cons {event : SourceEvent} {tr : Trace Op Ret} {entry : Nat × Event Op Ret}
    (spawned : Spawned event tr) : Spawned event (entry :: tr) := by
  obtain ⟨i, mem⟩ := spawned
  exact ⟨i, List.mem_cons_of_mem _ mem⟩

section Spawned

variable {parse : String → Option Uuid} {timing : Timing} {R : Type} [Repository R]
  {ok : ServerConfig R → ServerLabel R → Prop} {repository : R} {σ : ServerConfig R}

/-- The event an event hands to a broadcast. -/
def spawns : Event Op Ret → Option SourceEvent
  | ⟨.spawnBroadcast event, _⟩ => some event
  | _ => none

/-- The spawn queue after an operation. -/
theorem spawned_exec {op : Op} {env : Env R} {r : Ret op} {w w' : World R}
    (h : exec op env w = some (r, w')) :
    w'.spawned = w.spawned ++ (spawns ⟨op, r⟩).toList := by
  cases op with
  | spawnBroadcast event =>
    cases h
    rfl
  | send client tx msg =>
    simp only [exec] at h
    split at h
    · cases h
      exact (List.append_nil _).symm
    · cases h
      exact (List.append_nil _).symm
  | readClients event =>
    obtain ⟨l, -, heq⟩ := Option.map_eq_some_iff.mp h
    cases heq
    exact (List.append_nil _).symm
  | dropClients =>
    cases h
    exact (List.append_nil _).symm
  | _ =>
    obtain ⟨s, rfl⟩ := exec_onState h trivial
    exact (List.append_nil _).symm

/-- The broadcasts, waiting to start or running, are for events that were handed to them. -/
structure BroadcastsSpawned (σ : ServerConfig R) : Prop where
  waiting : ∀ event ∈ σ.world.spawned, Spawned event σ.trace
  running : ∀ (i : Nat) (event : SourceEvent) (prog : Async (Option Job)),
    σ.tasks[i]? = some ⟨.broadcast event, prog⟩ → Spawned event σ.trace

/-- **A broadcast is for an event that was handed to it.** -/
theorem broadcastsSpawned
    (reach : (server R parse timing).Reach ok (initial parse timing repository) σ) :
    BroadcastsSpawned σ := by
  induction reach with
  | init =>
    refine ⟨nofun, fun i event prog task => ?_⟩
    cases (task_of_initial task).2
  | @step σ σ' ℓ reach _ step ih =>
    obtain ⟨queued, running⟩ := ih
    cases Machine.step_cases step with
    | @act i env job op next r w task performed =>
      refine ⟨fun event mem => ?_, fun k event prog at_k => ?_⟩
      · rw [spawned_exec (serverExec_exec performed)] at mem
        rcases List.mem_append.mp mem with old | new
        · exact (queued event old).cons
        · cases op with
          | spawnBroadcast event' =>
            cases List.mem_singleton.mp new
            exact ⟨i, List.mem_cons_self⟩
          | _ => cases new
      · rcases Machine.getElem?_set_cases at_k with ⟨rfl, same⟩ | ⟨-, old⟩
        · cases same
          exact (running _ _ _ task).cons
        · exact (running _ _ _ old).cons
    | @loop i job job' task =>
      refine ⟨queued, fun k event prog at_k => ?_⟩
      rcases Machine.getElem?_set_cases at_k with ⟨-, same⟩ | ⟨-, old⟩
      · have loop : job' ≠ .broadcast event :=
          (((broadcasting reach).flows i _ task).1 job' rfl).2 event
        exact absurd (congrArg Task.job same).symm loop
      · exact running _ _ _ old
    | @ext x w job moved =>
      cases x with
      | openSession =>
        cases moved
        refine ⟨queued, fun k event prog at_k => ?_⟩
        rcases Machine.getElem?_start_cases at_k with old | ⟨-, j, hj, started⟩
        · exact running _ _ _ old
        · cases hj
          cases congrArg Task.job started
      | read tx =>
        cases moved
        refine ⟨queued, fun k event prog at_k => ?_⟩
        rcases Machine.getElem?_start_cases at_k with old | ⟨-, j, hj, -⟩
        · exact running _ _ _ old
        · cases hj
      | startBroadcast place =>
        obtain ⟨started, found, heq⟩ := Option.map_eq_some_iff.mp moved
        cases heq
        refine ⟨fun event mem => queued event (List.mem_of_mem_eraseIdx mem), ?_⟩
        intro k event prog at_k
        rcases Machine.getElem?_start_cases at_k with old | ⟨-, j, hj, at_start⟩
        · exact running _ _ _ old
        · cases hj
          cases congrArg Task.job at_start
          exact queued _ (List.mem_of_getElem? found)

end Spawned

/-! ## The guard -/

section Guard

variable {parse : String → Option Uuid} {timing : Timing} {R : Type} [Repository R]
  {ok : ServerConfig R → ServerLabel R → Prop} {repository : R} {σ : ServerConfig R} {i : Nat}
  {op : Op} {env : Env R} {r : Ret op} {w w' : World R}

/-- An operation of a broadcast was performed by one, and that is all the task ever does. -/
theorem job_of_broadcast {ev : Event Op Ret} {event : SourceEvent}
    (reach : (server R parse timing).Reach ok (initial parse timing repository) σ)
    (mem : (i, ev) ∈ σ.trace) (is : ev.op.ofBroadcast = some event) :
    ∃ prog, σ.tasks[i]? = some ⟨.broadcast event, prog⟩ := by
  induction reach with
  | init => cases mem
  | @step σ σ' ℓ reach _ step ih =>
    cases Machine.step_cases step with
    | @act k env job op next r w task performed =>
      have index : k < σ.tasks.length := (List.getElem?_eq_some_iff.mp task).1
      rcases List.mem_cons.mp mem with heq | mem
      · cases heq
        cases (site_of_act (flowing reach) task).of_broadcast is
        exact ⟨next r, List.getElem?_set_self index⟩
      · obtain ⟨prog, at_i⟩ := ih mem
        by_cases hk : k = i
        · subst hk
          cases task.symm.trans at_i
          exact ⟨next r, List.getElem?_set_self index⟩
        · exact ⟨prog, (List.getElem?_set_ne hk).trans at_i⟩
    | @loop k job job' task =>
      obtain ⟨prog, at_i⟩ := ih mem
      by_cases hk : k = i
      · subst hk
        cases task.symm.trans at_i
        have ended : some job' = none := (((broadcasting reach).flows k _ task).2 event rfl).1
        cases ended
      · exact ⟨prog, (List.getElem?_set_ne hk).trans at_i⟩
    | ext =>
      obtain ⟨prog, at_i⟩ := ih mem
      refine ⟨prog, ?_⟩
      rw [List.getElem?_append_left (List.getElem?_eq_some_iff.mp at_i).1]
      exact at_i

/-- The guards after an operation. -/
theorem guards_exec (h : exec op env w = some (r, w')) :
    w'.guards = match op with
      | .readClients _ => w.guards + 1
      | .dropClients _ => w.guards - 1
      | _ => w.guards := by
  cases op with
  | send client tx msg =>
    simp only [exec] at h
    split at h
    · cases h
      rfl
    · cases h
      rfl
  | readClients event =>
    obtain ⟨l, -, heq⟩ := Option.map_eq_some_iff.mp h
    cases heq
    rfl
  | spawnBroadcast | dropClients =>
    cases h
    rfl
  | _ =>
    obtain ⟨s, rfl⟩ := exec_onState h trivial
    rfl

omit [Repository R] in
/-- The surroundings leave the guards as they were. -/
theorem guards_move {x : Ext} {job : Option Job} (h : move x w = some (w', job)) :
    w'.guards = w.guards := by
  cases x with
  | openSession | read =>
    cases h
    rfl
  | startBroadcast place =>
    obtain ⟨event, -, heq⟩ := Option.map_eq_some_iff.mp h
    cases heq
    rfl

/-- A task that holds the guard after an operation of another kind held it before. -/
theorem Visiting.of_other {event : SourceEvent} {rest : List (ClientId × ClientInfo)}
    {h : History} (now : Visiting event rest (⟨op, r⟩ :: h)) (other : op.ofBroadcast = none) :
    False := by
  rcases now.back with heq | ⟨entry, -, rfl⟩
  · cases heq
    cases other
  · cases other

/-- A task that holds the guard is a broadcast, at its next send or at the end. -/
theorem Holding.site
    (reach : (server R parse timing).Reach ok (initial parse timing repository) σ)
    (holding : Holding (σ.trace.of i)) :
    ∃ event op next, σ.tasks[i]? = some ⟨.broadcast event, .act op next⟩ ∧
      BroadcastSite event (σ.trace.of i) op := by
  obtain ⟨event, rest, visiting⟩ := holding
  obtain ⟨clients, mem⟩ := visiting.read_mem
  obtain ⟨prog, task⟩ := job_of_broadcast reach (Trace.mem_of mem) rfl
  cases prog with
  | act op next => exact ⟨event, op, next, task, broadcastSite_of_act reach task⟩
  | done next =>
    have dropped := (((broadcasting reach).flows i _ task).2 event rfl).2
    exact absurd ⟨event, rest, visiting⟩ dropped

theorem BroadcastSite.ofBroadcast {event : SourceEvent} {h : History}
    (site : BroadcastSite event h op) : op.ofBroadcast = some event := by
  cases site <;> rfl

/-- A step of task `i` leaves the holders what they are, if it leaves what task `i` is. -/
theorem holders_kept {holders : Finset Nat} {tr : Trace Op Ret} {ev : Event Op Ret}
    (held : ∀ k, k ∈ holders ↔ Holding (tr.of k)) (mine : i ∈ holders ↔ Holding (ev :: tr.of i))
    (k : Nat) : k ∈ holders ↔ Holding (Trace.of ((i, ev) :: tr) k) := by
  by_cases hk : i = k
  · subst hk
    rw [Trace.of_cons_self]
    exact mine
  · rw [Trace.of_cons_ne _ hk]
    exact held k

/-- Task `i` joins the holders. -/
theorem holders_insert {holders : Finset Nat} {tr : Trace Op Ret} {ev : Event Op Ret}
    (held : ∀ k, k ∈ holders ↔ Holding (tr.of k)) (mine : Holding (ev :: tr.of i)) (k : Nat) :
    k ∈ insert i holders ↔ Holding (Trace.of ((i, ev) :: tr) k) := by
  rw [Finset.mem_insert]
  by_cases hk : i = k
  · subst hk
    rw [Trace.of_cons_self]
    exact iff_of_true (.inl rfl) mine
  · rw [Trace.of_cons_ne _ hk, ← held k]
    exact ⟨fun mem => mem.resolve_left (Ne.symm hk), .inr⟩

/-- Task `i` leaves the holders. -/
theorem holders_erase {holders : Finset Nat} {tr : Trace Op Ret} {ev : Event Op Ret}
    (held : ∀ k, k ∈ holders ↔ Holding (tr.of k)) (mine : ¬ Holding (ev :: tr.of i)) (k : Nat) :
    k ∈ holders.erase i ↔ Holding (Trace.of ((i, ev) :: tr) k) := by
  rw [Finset.mem_erase]
  by_cases hk : i = k
  · subst hk
    rw [Trace.of_cons_self]
    exact iff_of_false (fun away => away.1 rfl) mine
  · rw [Trace.of_cons_ne _ hk, ← held k]
    exact ⟨And.right, fun mem => ⟨Ne.symm hk, mem⟩⟩

/-- **The guards are those of the tasks that hold one.** -/
theorem guards_held (reach : (server R parse timing).Reach ok (initial parse timing repository) σ) :
    ∃ holders : Finset Nat, holders.card = σ.world.guards ∧
      ∀ i, i ∈ holders ↔ Holding (σ.trace.of i) := by
  refine Machine.Reach.invariant (fun w tr => ∃ holders : Finset Nat, holders.card = w.guards ∧
    ∀ i, i ∈ holders ↔ Holding (tr.of i)) reach ⟨∅, rfl, fun i => ?_⟩ ?_ ?_
  · refine iff_of_false (Finset.notMem_empty i) ?_
    rintro ⟨event, rest, visiting⟩
    cases visiting
  · rintro σ i env job op next r w reach task - performed ⟨holders, card, held⟩
    have guards := guards_exec (serverExec_exec performed)
    cases is : op.ofBroadcast with
    | none =>
      refine ⟨holders, ?_, holders_kept held (iff_of_false (fun mem => ?_) ?_)⟩
      · rw [guards, card]
        cases op with
        | readClients | dropClients => cases is
        | _ => rfl
      · obtain ⟨event, op', next', task', site⟩ := ((held i).mp mem).site reach
        cases task.symm.trans task'
        cases is.symm.trans site.ofBroadcast
      · rintro ⟨event, rest, visiting⟩
        exact visiting.of_other is
    | some event =>
      have site := broadcastSite_of_broadcast reach task is
      have before := held i
      generalize hh : σ.trace.of i = h at site before
      cases site with
      | read =>
        have unheld : i ∉ holders := by
          rw [before]
          rintro ⟨event, rest, visiting⟩
          cases visiting
        refine ⟨insert i holders, ?_, holders_insert held ?_⟩
        · rw [Finset.card_insert_of_notMem unheld, card, guards]
        · rw [hh]
          exact ⟨_, _, .read⟩
      | send visiting =>
        have mem : i ∈ holders := before.mpr ⟨_, _, visiting⟩
        refine ⟨holders, by rw [guards, card], holders_kept held (iff_of_true mem ?_)⟩
        rw [hh]
        exact ⟨_, _, .sent visiting⟩
      | drop visiting =>
        have mem : i ∈ holders := before.mpr ⟨_, _, visiting⟩
        refine ⟨holders.erase i, ?_, holders_erase held ?_⟩
        · rw [Finset.card_erase_of_mem mem, card, guards]
        · rintro ⟨event, rest, visiting⟩
          cases visiting
  · rintro x w w' job tr moved ⟨holders, card, held⟩
    exact ⟨holders, by rw [guards_move moved, card], held⟩

end Guard

end Revent
