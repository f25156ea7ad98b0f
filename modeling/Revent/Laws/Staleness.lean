import Revent.Interleave.Ghost
import Revent.Laws.Rounds

/-!
# Staleness

What a round of the timer achieves when the clock never goes back, whatever the other tasks do
meanwhile. A client that was silent for too long when the timer looked is visited, and whether it
accepts its heartbeat or not, handling that refreshes it: nobody is left who was silent at that
moment and has not been seen since. A request that was late when the timer looked is removed, unless
a handler recorded it after the timer had looked.

The clock is a history variable: `reading` is the last reading, and `forward` asks that no operation
reads an earlier one.
-/

namespace Revent

open Interleave (Event Trace Prog Machine Config Task)

/-! ## The clock -/

/-- The last reading of the clock. -/
def reading {R : Type} [Repository R] (_ : ServerConfig R) : ServerLabel R → Instant → Instant
  | .act _ env, _ => env.now
  | _, now => now

/-- The clock does not go back. -/
def forward {R : Type} [Repository R] (now : Instant) (_ : ServerConfig R) : ServerLabel R → Prop
  | .act _ env => now ≤ env.now
  | _ => True

/-- From a configuration and a reading of the clock to a later configuration and reading. -/
abbrev ReachBy {R : Type} [Repository R] (parse : String → Option Uuid) (timing : Timing)
    (σ : ServerConfig R) (now : Instant) : ServerConfig R → Instant → Prop :=
  (server R parse timing).ReachWith reading forward σ now

/-! ## After a heartbeat -/

/-- The operation sends a heartbeat. -/
def IsBeat : Op → Prop
  | .send _ _ .heartbeat => True
  | _ => False

/-- What the timer handles after a heartbeat. -/
def afterBeat (client : ClientId) : Except TxError Unit → ClientMessage
  | .ok _ => .heartbeat client
  | .error _ => .disconnectClient client

/-- After a heartbeat, the timer handles its outcome. -/
def BeatSite (h : History) (op : Op) : Prop :=
  ∀ client tx sent h', h = ⟨.send client tx .heartbeat, sent⟩ :: h' →
    op = .updateLastSeen (afterBeat client sent)

/-- The last operation was no heartbeat. -/
def Unbeaten (h : History) : Prop := ∀ ev ∈ h.head?, ¬ IsBeat ev.op

variable {R : Type} [Repository R] {parse : String → Option Uuid} {timing : Timing}
  {repository : R} {job : Job} {h : History} {op : Op} {r : Ret op} {env : Env R} {w w' : World R}

theorem Unbeaten.beatSite (last : Unbeaten h) : BeatSite h op := by
  rintro client tx sent h' rfl
  exact absurd trivial (last _ rfl)

theorem unbeaten_nil : Unbeaten [] := by
  simp [Unbeaten]

theorem Site.beat (site : Site parse timing job h op) (beat : IsBeat op) :
    ∃ client tx txs, job = .heartbeats ((client, tx) :: txs) := by
  cases site with
  | heartbeat => exact ⟨_, _, _, rfl⟩
  | @answer _ _ answer _ _ _ _ _ reply => cases answer <;> cases reply <;> cases beat
  | _ => cases beat

/-- An operation that is no heartbeat is followed by any. -/
theorem unbeaten_cons (other : ¬ IsBeat op) : Unbeaten (⟨op, r⟩ :: h) := by
  intro ev mem
  cases Option.mem_some.mp mem
  exact other

theorem heartbeat_flows_beat (client : ClientId) (tx : Tx) (last : Unbeaten h) :
    (heartbeat client tx).Flows BeatSite (fun h _ => Unbeaten h) h := by
  have told (sent : Except TxError Unit) :
      BeatSite (⟨.send client tx .heartbeat, sent⟩ :: h)
        (.updateLastSeen (afterBeat client sent)) := by
    rintro client' tx' sent' h' same
    cases same
    rfl
  refine Prog.flows_act.mpr ⟨last.beatSite, fun sent => ?_⟩
  cases sent with
  | ok => exact Prog.flows_act.mpr ⟨told _, fun _ => unbeaten_cons id⟩
  | error =>
    refine Prog.flows_act.mpr ⟨told _, fun _ => ?_⟩
    refine Prog.flows_act.mpr ⟨(unbeaten_cons id).beatSite, fun _ => ?_⟩
    exact Prog.flows_act.mpr ⟨(unbeaten_cons id).beatSite, fun _ => unbeaten_cons id⟩

/-- A pass of any loop handles the outcome of each heartbeat at once. -/
theorem boot_flows_beat (job : Job) (h : History) (ready : Ready job h ∧ Unbeaten h) :
    (boot parse timing job).Flows (fun h op => Site parse timing job h op ∧ BeatSite h op)
      (fun h next => Ends job h next ∧ Unbeaten h) h := by
  obtain ⟨ready, last⟩ := ready
  refine (boot_flows ready).and ?_
  by_cases visiting : ∃ client tx txs, job = .heartbeats ((client, tx) :: txs)
  · obtain ⟨client, tx, txs, rfl⟩ := visiting
    exact (heartbeat_flows_beat client tx last).bind fun _ _ => id
  · have avoids : (boot parse timing job).Flows (fun _ op => ¬ IsBeat op) (fun _ _ => True) h :=
      ((boot_flows ready).mono_site fun _ _ site beat => visiting (site.beat beat)).mono
        fun _ _ _ => trivial
    exact (avoids.avoids last).mono_site fun _ _ last => Unbeaten.beatSite last

/-- **The timer handles the outcome of each heartbeat at once**, in every run. -/
theorem beatSite_of_act {ok : ServerConfig R → ServerLabel R → Prop} {σ : ServerConfig R} {i : Nat}
    {next : Ret op → Async (Option Job)}
    (reach : (server R parse timing).Reach ok (initial parse timing repository) σ)
    (task : σ.tasks[i]? = some ⟨job, .act op next⟩) : BeatSite (σ.trace.of i) op := by
  have flowing : Machine.Flowing (fun job h op => Site parse timing job h op ∧ BeatSite h op)
      (fun job h next => Ends job h next ∧ Unbeaten h) σ := by
    refine Machine.flows_reach boot_flows_beat ?_ ?_ ⟨?_, by simp [initial]⟩ reach
    · rintro job h job' ⟨⟨ready⟩, last⟩
      exact ⟨ready, last⟩
    · intro x w w' job moved
      cases x with
      | openSession => cases moved; exact ⟨⟨rfl, rfl⟩, unbeaten_nil⟩
      | startBroadcast place =>
        obtain ⟨event, -, same⟩ := Option.map_eq_some_iff.mp moved
        cases same
        exact ⟨⟨rfl, rfl⟩, unbeaten_nil⟩
      | read tx => cases moved
    · intro i task started
      obtain ⟨rfl, rfl⟩ := task_of_initial started
      exact boot_flows_beat .tick [] ⟨⟨rfl, rfl⟩, unbeaten_nil⟩
  exact (flowing.flows i _ task).1.2

/-! ## Clients -/

/-- The client was not seen within the expiration before `t`. -/
def Unseen (timing : Timing) (t : Instant) (info : ClientInfo) : Prop :=
  info.lastSeen + timing.serverExpirationClient < t

/-- The timer will visit the client, or sent it a heartbeat and has not handled the outcome. -/
def Due (client : ClientId) (h : History) : Prop :=
  (∃ tx, (client, tx) ∈ toVisit h) ∨
    ∃ tx sent h', h = ⟨.send client tx .heartbeat, sent⟩ :: h'

/-- **Who is unseen after an operation was unseen before it**, and the operation neither handled a
message of the client nor removed it. -/
theorem unseen_exec (performed : exec op env w = some (r, w')) {t : Instant} (now : t ≤ env.now)
    {client : ClientId} {info : ClientInfo} (found : w'.clients[client]? = some info)
    (unseen : Unseen timing t info) :
    w.clients[client]? = some info ∧ ∀ msg, op = .updateLastSeen msg →
      msg.getSource ≠ some client := by
  have seen {info' : ClientInfo} (fresh : info'.lastSeen = env.now) (same : info' = info) :
      False := by
    subst same
    have late : info'.lastSeen < t := Nat.lt_of_le_of_lt (Nat.le_add_right _ _) unseen
    rw [fresh] at late
    exact Nat.not_le_of_lt late now
  rw [clients_exec performed] at found
  cases op with
  | updateLastSeen msg =>
    simp only [clientsAfter] at found
    cases source : msg.getSource with
    | none =>
      rw [source] at found
      refine ⟨found, ?_⟩
      rintro msg' same
      cases same
      rw [source]
      exact Option.some_ne_none client |>.symm
    | some source' =>
      rw [source, Option.elim_some, touch, HashMap.getElem?_modify] at found
      split at found
      · obtain ⟨info', -, same⟩ := Option.map_eq_some_iff.mp found
        exact (seen rfl same).elim
      · rename_i other
        refine ⟨found, ?_⟩
        rintro msg' same
        cases same
        rw [source]
        exact fun same => other (Option.some.inj same)
  | insertClient msg =>
    simp only [clientsAfter, HashMap.getElem?_insert] at found
    split at found
    · exact (seen rfl (Option.some.inj found)).elim
    · exact ⟨found, fun msg same => by cases same⟩
  | removeClient removed =>
    simp only [clientsAfter, HashMap.getElem?_erase] at found
    split at found
    · cases found
    · exact ⟨found, fun msg same => by cases same⟩
  | _ => exact ⟨found, fun msg same => by cases same⟩

/-- A visit that is due remains due until the client is refreshed. -/
theorem Due.next {client : ClientId} (due : Due client h) (site : Site parse timing job h op)
    (beat : BeatSite h op)
    (untouched : ∀ msg, op = .updateLastSeen msg → msg.getSource ≠ some client) :
    Due client (⟨op, r⟩ :: h) := by
  rcases due with ⟨tx, mem⟩ | ⟨tx, sent, h', last⟩
  · cases op with
    | oldClients expiration =>
      rw [site.toVisit_of_oldClients] at mem
      cases mem
    | send client' tx' msg =>
      cases msg with
      | heartbeat =>
        obtain ⟨txs, first⟩ := site.toVisit_of_heartbeat
        rw [first] at mem
        rcases List.mem_cons.mp mem with same | mem
        · cases same
          exact .inr ⟨_, _, _, rfl⟩
        · refine .inl ⟨tx, ?_⟩
          show (client, tx) ∈ (toVisit h).tail
          rw [first]
          exact mem
      | _ => exact .inl ⟨tx, mem⟩
    | _ => exact .inl ⟨tx, mem⟩
  · have outcome := beat client tx sent h' last
    exact absurd (by cases sent <;> rfl) (untouched _ outcome)

/-- Nobody is due when the timer goes on to the requests. -/
theorem not_due_of_getExpiredRequests {timeout : Duration} {client : ClientId}
    (site : Site parse timing job h (.getExpiredRequests timeout))
    (beat : BeatSite h (.getExpiredRequests timeout)) : ¬ Due client h := by
  rintro (⟨tx, mem⟩ | ⟨tx, sent, h', last⟩)
  · rw [site.toVisit_of_getExpiredRequests] at mem
    cases mem
  · cases beat client tx sent h' last

/-- Who is unseen when the timer looks is among those it will visit. -/
theorem toVisit_of_unseen {txs : List (ClientId × Tx)}
    (performed : exec (.oldClients timing.serverExpirationClient) env w = some (txs, w'))
    {client : ClientId} {info : ClientInfo} (found : w.clients[client]? = some info)
    (unseen : Unseen timing env.now info) : (client, info.tx) ∈ txs := by
  obtain ⟨l, visits, same⟩ := Option.map_eq_some_iff.mp performed
  cases same
  obtain ⟨entries, iterated, rfl⟩ := Option.map_eq_some_iff.mp visits
  refine List.mem_map.mpr ⟨(client, info), List.mem_filter.mpr ⟨?_, ?_⟩, rfl⟩
  · exact (HashMap.mem_iter iterated).mpr found
  · exact decide_eq_true (Nat.lt_sub_of_add_lt (Nat.add_comm _ _ ▸ unseen))

/-! ## Requests -/

/-- The request was created more than the timeout before `t`. -/
def Lapsed (timing : Timing) (t : Instant) (request : OngoingQueryRequest) : Prop :=
  request.createdAt + timing.queryResponseTimeout < t

/-- The timer will time the request out, or is at it. -/
def Doomed (requestId : RequestId) (h : History) : Prop :=
  (∃ request ∈ toExpire h, request.requestId = requestId) ∨ givingUp h = [requestId]

/-- A handler recorded the request, after the events of `earlier`. -/
def RecordedSince (request : OngoingQueryRequest) (earlier tr : Trace Op Ret) : Prop :=
  ∃ k since, tr = since ++ earlier ∧ (k, ⟨.handleQueryRequestedEvent request, ()⟩) ∈ since

theorem RecordedSince.cons {request : OngoingQueryRequest} {earlier tr : Trace Op Ret}
    {entry : Nat × Event Op Ret} (recorded : RecordedSince request earlier tr) :
    RecordedSince request earlier (entry :: tr) := by
  obtain ⟨k, since, rfl, mem⟩ := recorded
  exact ⟨k, entry :: since, rfl, List.mem_cons_of_mem _ mem⟩

/-- What is ongoing after an operation was ongoing before it and is not removed, or is recorded. -/
theorem ongoing_before (performed : exec op env w = some (r, w')) {request : OngoingQueryRequest}
    {requestId : RequestId} (found : w'.state.ongoing requestId = some request) :
    op = .handleQueryRequestedEvent request ∨
      w.state.ongoing requestId = some request ∧ op ≠ .removeOngoingRequest requestId := by
  rw [ongoing_exec performed] at found
  cases op with
  | handleQueryRequestedEvent recorded =>
    simp only [ongoingAfter] at found
    split at found
    · exact .inl (by rw [Option.some.inj found])
    · exact .inr ⟨found, fun same => by cases same⟩
  | removeOngoingRequest removed =>
    simp only [ongoingAfter] at found
    split at found
    · cases found
    · rename_i other
      refine .inr ⟨found, ?_⟩
      rintro same
      cases same
      exact other rfl
  | _ => exact .inr ⟨found, fun same => by cases same⟩

/-- A request the timer will time out remains so until it is removed. -/
theorem Doomed.next {requestId : RequestId} (doomed : Doomed requestId h)
    (site : Site parse timing job h op) (kept : op ≠ .removeOngoingRequest requestId) :
    Doomed requestId (⟨op, r⟩ :: h) := by
  rcases doomed with ⟨request, mem, id⟩ | up
  · cases op with
    | getExpiredRequests timeout =>
      rw [site.toExpire_of_getExpiredRequests] at mem
      cases mem
    | getClientById why =>
      cases why with
      | timingOut first =>
        obtain ⟨requests, all⟩ := site.toExpire_of_timingOut
        rw [all] at mem
        rcases List.mem_cons.mp mem with same | mem
        · subst same
          exact .inr (congrArg (fun id => [id]) id)
        · refine .inl ⟨request, ?_, id⟩
          show request ∈ (toExpire h).tail
          rw [all]
          exact mem
      | _ => exact .inl ⟨request, mem, id⟩
    | _ => exact .inl ⟨request, mem, id⟩
  · cases site.givesUp with
    | removes up' =>
      rw [up] at up'
      exact absurd (congrArg _ (List.singleton_inj.mp up').symm) kept
    | tells up' => exact .inr (up'.symm.trans up)
    | other none =>
      rw [up] at none
      cases none

/-- No request is left to time out when the timer goes back to the clients. -/
theorem not_doomed_of_oldClients {expiration : Duration} {requestId : RequestId}
    (site : Site parse timing job h (.oldClients expiration)) : ¬ Doomed requestId h := by
  obtain ⟨none, rest⟩ := site.toExpire_of_oldClients
  rintro (⟨request, mem, -⟩ | up)
  · rw [none] at mem
    cases mem
  · rw [givingUp_of_rest rest] at up
    cases up

/-- What is lapsed when the timer looks is among what it will time out. -/
theorem toExpire_of_lapsed {requests : List OngoingQueryRequest}
    (performed : exec (.getExpiredRequests timing.queryResponseTimeout) env w = some (requests, w'))
    {requestId : RequestId} {request : OngoingQueryRequest}
    (found : w.state.ongoing requestId = some request) (lapsed : Lapsed timing env.now request) :
    request ∈ requests := by
  obtain ⟨entries, iterated, rfl⟩ := Option.map_eq_some_iff.mp (exec_getExpiredRequests performed)
  refine List.mem_map.mpr ⟨(requestId, request), List.mem_filter.mpr ⟨?_, ?_⟩, rfl⟩
  · exact (HashMap.mem_iter iterated).mpr found
  · exact decide_eq_true (Nat.lt_sub_of_add_lt (Nat.add_comm _ _ ▸ lapsed))

/-! ## A round -/

/-- Every connected client has been seen within the expiration before `t`, or since. -/
def NoneUnseen (timing : Timing) (t : Instant) (w : World R) : Prop :=
  ∀ (client : ClientId) (info : ClientInfo), w.clients[client]? = some info →
    t ≤ info.lastSeen + timing.serverExpirationClient

/-- Every request that waits for an answer was created within the timeout before `t`, or later, or
was recorded after the events of `earlier`. -/
def NoneLapsed (timing : Timing) (t : Instant) (earlier : Trace Op Ret) (σ : ServerConfig R) :
    Prop :=
  ∀ (requestId : RequestId) (request : OngoingQueryRequest),
    σ.world.state.ongoing requestId = some request →
    t ≤ request.createdAt + timing.queryResponseTimeout ∨ RecordedSince request earlier σ.trace

/-- What a task is about to do, its step does. -/
theorem step_of_aboutTo {σ σ' : ServerConfig R} {i : Nat} (about : AboutTo σ i op)
    (stepped : (server R parse timing).step σ (.act i env) = some σ') :
    ∃ r, exec op env σ.world = some (r, σ'.world) ∧ σ'.trace = (i, ⟨op, r⟩) :: σ.trace := by
  obtain ⟨job, next, task⟩ := about
  cases Machine.step_cases stepped with
  | act task' performed =>
    cases task.symm.trans task'
    exact ⟨_, serverExec_exec performed, rfl⟩

section Round

variable {σ₀ σ₁ σ₂ σ : ServerConfig R} {t₀ t₁ t₂ t : Instant} {i : Nat}

/-- Any step is one that performs any operation. -/
theorem free (σ : ServerConfig R) (ℓ : ServerLabel R) : Machine.Acting anyOp σ ℓ := by
  cases ℓ with
  | act i env => exact fun _ _ _ _ => trivial
  | loop | ext => trivial

/-- A run with a clock is a run. -/
theorem reach_of_reachBy (run : ReachBy parse timing (initial parse timing repository) t₀ σ t) :
    ReachIf parse timing repository anyOp σ :=
  Machine.ReachWith.reach run fun _ σ ℓ _ => free σ ℓ

/-- The clock has not gone back. -/
theorem le_of_reachBy (run : ReachBy parse timing σ₁ t₁ σ t) : t₁ ≤ t := by
  refine Machine.ReachWith.invariant (fun _ _ now => t₁ ≤ now) run (Nat.le_refl _) ?_ id ?_
  · exact fun _ _ onward _ later => Nat.le_trans later onward
  · exact fun _ later => later

/-- **Who is unseen since `t`** was unseen at every moment before, while the clock was past `t`. -/
theorem unseen_reachBy (P : ClientId → Trace Op Ret → Prop)
    (start : ReachBy parse timing (initial parse timing repository) t₀ σ₁ t₁)
    {since : Instant} (past : since ≤ t₁)
    (entry : ∀ client info, σ₁.world.clients[client]? = some info → Unseen timing since info →
      P client σ₁.trace)
    (kept : ∀ {σ : ServerConfig R} {k : Nat} {job : Job} {op : Op} {r : Ret op}
      {next : Ret op → Async (Option Job)} {client : ClientId},
      ReachIf parse timing repository anyOp σ → σ.tasks[k]? = some ⟨job, .act op next⟩ →
      (∀ msg, op = .updateLastSeen msg → msg.getSource ≠ some client) → P client σ.trace →
      P client ((k, ⟨op, r⟩) :: σ.trace))
    (run : ReachBy parse timing σ₁ t₁ σ t) (client : ClientId) (info : ClientInfo)
    (found : σ.world.clients[client]? = some info) (unseen : Unseen timing since info) :
    P client σ.trace := by
  refine (Machine.ReachWith.invariant (fun w tr now => since ≤ now ∧ ∀ client info,
    w.clients[client]? = some info → Unseen timing since info → P client tr) run ⟨past, entry⟩
    ?_ (fun ih => ih) ?_).2 client info found unseen
  · rintro σ now k env job op next r w before task onward performed ⟨past, ih⟩
    have now : since ≤ env.now := Nat.le_trans past onward
    refine ⟨now, fun client info found unseen => ?_⟩
    obtain ⟨found, untouched⟩ := unseen_exec (serverExec_exec performed) now found unseen
    exact kept (reach_of_reachBy (start.trans before)) task untouched (ih client info found unseen)
  · rintro σ now x w job moved ⟨past, ih⟩
    have same : w.clients = σ.world.clients := congrArg State.connectedClients (move_state moved)
    rw [same]
    exact ⟨past, ih⟩

/-- **What is ongoing after a run** was ongoing at every moment before, or was recorded. -/
theorem ongoing_reach (P : RequestId → OngoingQueryRequest → Trace Op Ret → Prop)
    (start : ReachIf parse timing repository anyOp σ₁)
    (entry : ∀ requestId request, σ₁.world.state.ongoing requestId = some request →
      Lapsed timing t request → P requestId request σ₁.trace)
    (kept : ∀ {σ : ServerConfig R} {k : Nat} {job : Job} {op : Op} {r : Ret op}
      {next : Ret op → Async (Option Job)} {requestId : RequestId} {request : OngoingQueryRequest},
      ReachIf parse timing repository anyOp σ → σ.tasks[k]? = some ⟨job, .act op next⟩ →
      op ≠ .removeOngoingRequest requestId → P requestId request σ.trace →
      P requestId request ((k, ⟨op, r⟩) :: σ.trace))
    (run : (server R parse timing).Reach (Machine.Acting anyOp) σ₁ σ) (requestId : RequestId)
    (request : OngoingQueryRequest) (found : σ.world.state.ongoing requestId = some request)
    (lapsed : Lapsed timing t request) :
    P requestId request σ.trace ∨ RecordedSince request σ₁.trace σ.trace := by
  refine run.invariant (fun w tr => ∀ requestId request,
    w.state.ongoing requestId = some request → Lapsed timing t request →
    P requestId request tr ∨ RecordedSince request σ₁.trace tr)
    (fun requestId request found lapsed => .inl (entry requestId request found lapsed))
    ?_ ?_ requestId request found lapsed
  · rintro σ k env job op next r w before task - performed ih requestId request found lapsed
    rcases ongoing_before (serverExec_exec performed) found with rfl | ⟨found, stays⟩
    · obtain ⟨since, grown⟩ := Machine.Reach.trace_grows before
      exact .inr ⟨k, _ :: since, by rw [grown, List.cons_append], List.mem_cons_self⟩
    · rcases ih requestId request found lapsed with holds | recorded
      · exact .inl (kept (Machine.Reach.trans start before) task stays holds)
      · exact .inr recorded.cons
  · rintro x w w' job tr moved ih
    rw [move_state moved]
    exact ih

/-- **Nobody silent is left**, once the timer has gone through the clients that it found silent at a
reading of the clock, and from then on. -/
theorem seen_of_round {timeout expiration : Duration}
    (start : ReachBy parse timing (initial parse timing repository) 0 σ₀ t₀)
    (looks : AboutTo σ₀ i (.oldClients expiration)) (onward : t₀ ≤ env.now)
    (look : (server R parse timing).step σ₀ (.act i env) = some σ₁)
    (round : ReachBy parse timing σ₁ env.now σ₂ t₂)
    (visited : AboutTo σ₂ i (.getExpiredRequests timeout))
    (rest : ReachBy parse timing σ₂ t₂ σ t) : NoneUnseen timing env.now σ.world := by
  have moves : forward t₀ σ₀ (.act i env) := onward
  have start₁ : ReachBy parse timing (initial parse timing repository) 0 σ₁ env.now :=
    .step start moves look
  have before := reach_of_reachBy start
  -- until the timer goes on to the requests, whoever is unseen is due
  have due : ∀ client info, σ₂.world.clients[client]? = some info →
      Unseen timing env.now info → Due client (σ₂.trace.of i) := by
    refine unseen_reachBy (fun client tr => Due client (Trace.of tr i)) start₁ (Nat.le_refl _)
      ?_ ?_ round
    · intro client info found unseen
      obtain ⟨txs, performed, trace⟩ := step_of_aboutTo looks look
      obtain ⟨job, next, task⟩ := looks
      obtain rfl := (site_of_act (flowing before) task).of_oldClients
      have same : σ₁.world.clients = σ₀.world.clients := clients_exec performed
      rw [same] at found
      rw [trace, Trace.of_cons_self]
      exact .inl ⟨info.tx, toVisit_of_unseen performed found unseen⟩
    · intro σ k job op r next client reach task untouched due
      by_cases here : k = i
      · subst here
        rw [Trace.of_cons_self]
        have site := site_of_act (flowing reach) task
        exact due.next site (beatSite_of_act reach task) untouched
      · rw [Trace.of_cons_ne _ here]
        exact due
  -- nobody is due then, and nobody becomes unseen later
  have none (client : ClientId) (info : ClientInfo) (found : σ₂.world.clients[client]? = some info)
      (unseen : Unseen timing env.now info) : False := by
    obtain ⟨job, next, task⟩ := visited
    have reach := reach_of_reachBy (start₁.trans round)
    exact not_due_of_getExpiredRequests (site_of_act (flowing reach) task)
      (beatSite_of_act reach task) (due client info found unseen)
  have late := le_of_reachBy round
  intro client info found
  by_contra stale
  exact unseen_reachBy (fun _ _ => False) (start₁.trans round) late none
    (fun _ _ _ => id) rest client info found (Nat.lt_of_not_le stale)

/-- **No lapsed request is left**, once the timer has gone through the requests that it found late
at a reading of the clock, and from then on: only what is recorded later can be that old. -/
theorem current_of_round {timeout expiration : Duration}
    (start : ReachIf parse timing repository anyOp σ₀)
    (looks : AboutTo σ₀ i (.getExpiredRequests timeout))
    (look : (server R parse timing).step σ₀ (.act i env) = some σ₁)
    (round : (server R parse timing).Reach (Machine.Acting anyOp) σ₁ σ₂)
    (done : AboutTo σ₂ i (.oldClients expiration))
    (rest : (server R parse timing).Reach (Machine.Acting anyOp) σ₂ σ) :
    NoneLapsed timing env.now σ₁.trace σ := by
  have start₁ : ReachIf parse timing repository anyOp σ₁ := .step start (free _ _) look
  -- until the timer goes back to the clients, it will time out whatever has lapsed
  have doomed : ∀ requestId request, σ₂.world.state.ongoing requestId = some request →
      Lapsed timing env.now request →
      Doomed requestId (σ₂.trace.of i) ∨ RecordedSince request σ₁.trace σ₂.trace := by
    refine ongoing_reach (fun requestId _ tr => Doomed requestId (Trace.of tr i)) start₁ ?_ ?_ round
    · intro requestId request found lapsed
      obtain ⟨requests, performed, trace⟩ := step_of_aboutTo looks look
      obtain ⟨job, next, task⟩ := looks
      obtain rfl := (site_of_act (flowing start) task).of_getExpiredRequests
      rw [exec_reading performed trivial] at found
      have keyed := keyed_of_reach start requestId request found
      rw [trace, Trace.of_cons_self]
      exact .inl ⟨request, toExpire_of_lapsed performed found lapsed, keyed⟩
    · intro σ k job op r next requestId request reach task kept doomed
      by_cases here : k = i
      · subst here
        rw [Trace.of_cons_self]
        exact doomed.next (site_of_act (flowing reach) task) kept
      · rw [Trace.of_cons_ne _ here]
        exact doomed
  have start₂ := Machine.Reach.trans start₁ round
  -- nothing is left to time out then
  have recorded (requestId : RequestId) (request : OngoingQueryRequest)
      (found : σ₂.world.state.ongoing requestId = some request)
      (lapsed : Lapsed timing env.now request) : RecordedSince request σ₁.trace σ₂.trace := by
    obtain ⟨job, next, task⟩ := done
    have none : ¬ Doomed requestId (σ₂.trace.of i) :=
      not_doomed_of_oldClients (site_of_act (flowing start₂) task)
    exact (doomed requestId request found lapsed).resolve_left none
  intro requestId request found
  by_contra stale
  obtain ⟨stale, unrecorded⟩ := not_or.mp stale
  rcases ongoing_reach (fun _ request tr => RecordedSince request σ₁.trace tr) start₂ recorded
    (fun _ _ _ => RecordedSince.cons) rest requestId request found (Nat.lt_of_not_le stale) with
    since | ⟨k, since, grown, mem⟩
  · exact unrecorded since
  · obtain ⟨between, before⟩ := Machine.Reach.trace_grows round
    refine unrecorded ⟨k, since ++ between, ?_, List.mem_append_left _ mem⟩
    rw [grown, before, List.append_assoc]

end Round

section Scenario

open Scenario

/-- No operation reads an earlier time than the one before. -/
def Scenario.clockGoesOn (now : Instant) (_ : ServerConfig NoopSourceEventRepository) :
    ServerLabel NoopSourceEventRepository → Bool
  | .act _ env => decide (now ≤ env.now)
  | _ => true

theorem Scenario.forward_of_clockGoesOn (now : Instant) (σ : ServerConfig NoopSourceEventRepository)
    (ℓ : ServerLabel NoopSourceEventRepository) (checked : clockGoesOn now σ ℓ = true) :
    forward now σ ℓ := by
  cases ℓ with
  | act i env =>
    have later : now ≤ env.now := of_decide_eq_true checked
    exact later
  | loop | ext => trivial

/-- The timer is about to look at the clients, or at the requests. -/
def Scenario.timerNext (σ : ServerConfig NoopSourceEventRepository) : Option Bool :=
  match (σ.tasks[0]? : Option (Task Op Ret Job)) with
  | some ⟨_, .act (.oldClients _) _⟩ => some true
  | some ⟨_, .act (.getExpiredRequests _) _⟩ => some false
  | _ => none

theorem Scenario.aboutTo_oldClients {σ : ServerConfig NoopSourceEventRepository}
    (next : timerNext σ = some true) : ∃ expiration, AboutTo σ 0 (.oldClients expiration) := by
  unfold timerNext at next
  split at next
  · rename_i task
    exact ⟨_, _, _, task⟩
  · cases next
  · cases next

theorem Scenario.aboutTo_getExpiredRequests {σ : ServerConfig NoopSourceEventRepository}
    (next : timerNext σ = some false) : ∃ timeout, AboutTo σ 0 (.getExpiredRequests timeout) := by
  unfold timerNext at next
  split at next
  · cases next
  · rename_i task
    exact ⟨_, _, _, task⟩
  · cases next

/-- A schedule from a configuration, in which the clock does not go back. -/
def Scenario.runByTime (schedule : List (ServerLabel NoopSourceEventRepository)) :
    ServerConfig NoopSourceEventRepository → Instant →
      Option (ServerConfig NoopSourceEventRepository × Instant) :=
  (server _ Scenario.parse Scenario.timing).runWith reading clockGoesOn schedule

theorem Scenario.reachBy_of_runByTime {schedule : List (ServerLabel NoopSourceEventRepository)}
    {σ σ' : ServerConfig NoopSourceEventRepository} {now now' : Instant}
    (run : runByTime schedule σ now = some (σ', now')) :
    ReachBy Scenario.parse Scenario.timing σ now σ' now' :=
  Machine.reachWith_of_runWith forward_of_clockGoesOn run

/-- A step of the timer at the reading 100. -/
def Scenario.atHundred (clients : List ClientId) (requests : List RequestId) :
    Env NoopSourceEventRepository :=
  { quiet with now := 100, clientOrder := clients, requestOrder := requests }

/-- A client registers; the timer finds it silent, and visits it. -/
theorem noneUnseen_scenario : ∃ σ : ServerConfig NoopSourceEventRepository,
    (∃ info, σ.world.clients[alice]? = some info) ∧
      NoneUnseen Scenario.timing 100 σ.world := by
  have run : ((runByTime ([opened] ++ registers 1 alice)
      (initial Scenario.parse Scenario.timing ⟨⟩) 0).bind fun p₀ =>
      ((server _ Scenario.parse Scenario.timing).step p₀.1 (.act 0 (atHundred [alice] []))).bind
        fun σ₁ => (runByTime [.loop 0, .act 0 (atHundred [] []), .act 0 (atHundred [] []), .loop 0]
          σ₁ 100).map fun p₂ =>
          (timerNext p₀.1, p₀.2, timerNext p₂.1, (p₂.1.world.clients[alice]?).isSome)) =
      some (some true, 0, some false, true) := by
    decide +kernel
  obtain ⟨⟨σ₀, t₀⟩, before, run⟩ := Option.bind_eq_some_iff.mp run
  obtain ⟨σ₁, look, run⟩ := Option.bind_eq_some_iff.mp run
  obtain ⟨⟨σ₂, t₂⟩, round, facts⟩ := Option.map_eq_some_iff.mp run
  obtain ⟨looks, facts⟩ := Prod.mk.inj facts
  obtain ⟨start, facts⟩ := Prod.mk.inj facts
  obtain ⟨goes, connected⟩ := Prod.mk.inj facts
  obtain ⟨expiration, looks⟩ := aboutTo_oldClients looks
  obtain ⟨timeout, goes⟩ := aboutTo_getExpiredRequests goes
  have onward : t₀ ≤ 100 := Nat.le_trans (Nat.le_of_eq start) (Nat.zero_le _)
  exact ⟨σ₂, Option.isSome_iff_exists.mp connected, seen_of_round (reachBy_of_runByTime before)
    looks onward look (reachBy_of_runByTime round) goes .init⟩

/-- A request waits for too long and is timed out; the same request is made again, later. -/
theorem noneLapsed_scenario : ∃ σ₁ σ : ServerConfig NoopSourceEventRepository,
    (∃ again, σ.world.state.ongoing request = some again) ∧
      NoneLapsed Scenario.timing 100 σ₁.trace σ := by
  have run : ((outcome (fun _ _ => true) ([opened] ++ registers 1 alice ++
      [hears 1 query, turn 1, turn 1, turn 1, turn 1, turn 1, turn 1, turn 1, turn 1, .loop 1,
        Scenario.reads 0 0 [alice] [], .loop 0])).bind fun σ₀ =>
      ((server _ Scenario.parse Scenario.timing).step σ₀ (.act 0 (atHundred [] [request]))).bind
        fun σ₁ => ((server _ Scenario.parse Scenario.timing).runIf (fun _ _ => true)
            [.loop 0, turn 0, turn 0, turn 0, .loop 0, .loop 0] σ₁).bind fun σ₂ =>
          ((server _ Scenario.parse Scenario.timing).runIf (fun _ _ => true)
            [hears 1 query, turn 1, turn 1, turn 1, turn 1, turn 1, turn 1, turn 1, turn 1]
            σ₂).map fun σ =>
            (timerNext σ₀, timerNext σ₂, (σ.world.state.ongoing request).isSome)) =
      some (some false, some true, true) := by
    decide +kernel
  obtain ⟨σ₀, before, run⟩ := Option.bind_eq_some_iff.mp run
  obtain ⟨σ₁, look, run⟩ := Option.bind_eq_some_iff.mp run
  obtain ⟨σ₂, round, run⟩ := Option.bind_eq_some_iff.mp run
  obtain ⟨σ, rest, facts⟩ := Option.map_eq_some_iff.mp run
  obtain ⟨looks, facts⟩ := Prod.mk.inj facts
  obtain ⟨goes, ongoing⟩ := Prod.mk.inj facts
  obtain ⟨timeout, looks⟩ := aboutTo_getExpiredRequests looks
  obtain ⟨expiration, goes⟩ := aboutTo_oldClients goes
  have anyway (σ : ServerConfig NoopSourceEventRepository)
      (ℓ : ServerLabel NoopSourceEventRepository) (_ : true = true) := free σ ℓ
  exact ⟨σ₁, σ, Option.isSome_iff_exists.mp ongoing, current_of_round (reach_anyOp before) looks
    look (Machine.reach_of_runIf anyway round) goes (Machine.reach_of_runIf anyway rest)⟩

end Scenario

end Revent
