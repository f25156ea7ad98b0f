import Revent.Interleave.Walk
import Revent.Laws.Requests
import Revent.Laws.Snapshots
import Revent.Laws.Tick

/-!
# The rounds of the timer

A tick of the timer is two walks over copies that it takes under a lock and then visits without
one: the clients that were silent for too long, and the requests that wait for too long. Every
other task goes on meanwhile, so what a visit meets may be long gone. What remains true is where
the visits come from: each heartbeat, each eviction and each time-out goes back to the moment at
which the timer looked, found its client or request in the state, and found it late by the clock.
Nothing of a copy is left out, repeated or visited out of its order.

The two walks are instances of `Interleave.Walk`. The control flow they rest on is in `Site`.
-/

namespace Revent

open Interleave (Event Trace Prog Machine Config Task Walk)

/-! ## The two walks -/

/-- The first `for` loop of `start`: a heartbeat to each client of `old_clients`. -/
def beats : Walk Op Ret (ClientId × Tx) where
  takes
    | ⟨.oldClients _, txs⟩ => some txs
    | _ => none
  visits
    | ⟨.send client tx .heartbeat, _⟩ => some (client, tx)
    | _ => none

/-- The second `for` loop of `start`: each request of `get_expired_requests` is looked up. -/
def expiries : Walk Op Ret OngoingQueryRequest where
  takes
    | ⟨.getExpiredRequests _, requests⟩ => some requests
    | _ => none
  visits
    | ⟨.getClientById (.timingOut request), _⟩ => some request
    | _ => none

theorem left_beats (h : History) : beats.left h = toVisit h := by
  induction h with
  | nil => rfl
  | cons ev h ih =>
    obtain ⟨op, r⟩ := ev
    cases op with
    | oldClients => rfl
    | send client tx msg =>
      cases msg with
      | heartbeat =>
        show (beats.left h).drop 1 = (toVisit h).tail
        rw [ih, List.drop_one]
      | _ => exact ih
    | _ => exact ih

theorem takes_beats {ev : Event Op Ret} {txs : List (ClientId × Tx)}
    (takes : beats.takes ev = some txs) : ∃ expiration, ev = ⟨.oldClients expiration, txs⟩ := by
  obtain ⟨op, r⟩ := ev
  cases op with
  | oldClients expiration =>
    cases takes
    exact ⟨expiration, rfl⟩
  | _ => cases takes

theorem visits_beats {ev : Event Op Ret} {client : ClientId} {tx : Tx}
    (visit : beats.visits ev = some (client, tx)) :
    ∃ sent, ev = ⟨.send client tx .heartbeat, sent⟩ := by
  obtain ⟨op, r⟩ := ev
  cases op with
  | send client' tx' msg =>
    cases msg with
    | heartbeat =>
      cases visit
      exact ⟨r, rfl⟩
    | _ => cases visit
  | _ => cases visit

/-- The requests the timer removed since it last looked for expired ones, the first one first. -/
def givenUp : History → List RequestId
  | [] => []
  | ⟨.getExpiredRequests _, _⟩ :: _ => []
  | ⟨.removeOngoingRequest requestId, _⟩ :: h =>
    if atTimeOut h then givenUp h ++ [requestId] else givenUp h
  | _ :: h => givenUp h

/-- The request that is looked up, and perhaps told of, and not removed yet. -/
def givingUp : History → List RequestId
  | ⟨.getClientById (.timingOut request), _⟩ :: _ => [request.requestId]
  | ⟨.send _ _ (.queryRequestedFailed requestId _ .queryTimedOut), _⟩ :: _ => [requestId]
  | _ => []

/-- A task at rest is giving up nothing. -/
theorem givingUp_of_rest {h : History} (rest : AtRest h) : givingUp h = [] := by
  unfold givingUp
  split
  · cases rest
  · cases rest
  · rfl

theorem givingUp_eq_nil {h : History} : givingUp h = [] ↔ atTimeOut h = false := by
  unfold givingUp atTimeOut
  split <;> simp

/-- The operation tells a requester that its request timed out. -/
def tellsTimeOut : Op → Bool
  | .send _ _ (.queryRequestedFailed _ _ .queryTimedOut) => true
  | _ => false

/-- What an operation does to the request that is being given up. -/
inductive GivesUp (h : History) : Op → Prop
  | removes {requestId : RequestId} (up : givingUp h = [requestId]) :
      GivesUp h (.removeOngoingRequest requestId)
  | tells {client : ClientId} {tx : Tx} {requestId : RequestId} {queryId : QueryId}
      (up : givingUp h = [requestId]) :
      GivesUp h (.send client tx (.queryTimedOut requestId queryId))
  | other {op : Op} (none : givingUp h = [])
      (untold : tellsTimeOut op = false) : GivesUp h op

/-- Between the lookup of a request and its removal nothing else happens. -/
theorem Site.givesUp {parse : String → Option Uuid} {timing : Timing} {job : Job} {op : Op}
    {h : History} (site : Site parse timing job h op) : GivesUp h op := by
  cases site with
  | timeOut => exact .tells rfl
  | timedOut | timedOutGone => exact .removes rfl
  | @answer _ _ answer _ _ _ _ _ reply =>
    cases answer <;> cases reply <;> exact .other rfl rfl
  | @answered _ _ answer _ _ _ _ _ reply =>
    cases answer <;> cases reply <;> exact .other rfl rfl
  | handle hand =>
    cases hand with
    | decoded | closed | alive | dead => exact .other rfl rfl
  | receive ready | oldClients ready | heartbeat ready | getExpiredRequests ready
  | timingOut ready | readClients ready | broadcasting ready | dropClients ready =>
    exact .other (givingUp_of_rest ready.rest) rfl
  | _ => exact .other rfl rfl

/-- One event of a task moves a lookup to the requests given up, or adds a lookup. -/
theorem GivesUp.step {op : Op} {r : Ret op} {h : History} (gives : GivesUp h op)
    (before : givenUp h ++ givingUp h = (expiries.visited h).map OngoingQueryRequest.requestId) :
    givenUp (⟨op, r⟩ :: h) ++ givingUp (⟨op, r⟩ :: h) =
      (expiries.visited (⟨op, r⟩ :: h)).map OngoingQueryRequest.requestId := by
  cases gives with
  | @removes requestId up =>
    have timing : atTimeOut h = true := by
      by_contra not
      rw [givingUp_eq_nil.mpr (Bool.not_eq_true _ ▸ not)] at up
      cases up
    rw [up] at before
    show (if atTimeOut h then givenUp h ++ [requestId] else givenUp h) ++ [] =
      (expiries.visited h ++ []).map _
    rw [if_pos timing, List.append_nil, List.append_nil, before]
  | @tells client tx requestId queryId up =>
    rw [up] at before
    show givenUp h ++ [requestId] = (expiries.visited h ++ []).map _
    rw [List.append_nil, before]
  | other none untold =>
    rw [none, List.append_nil] at before
    have same : givenUp h ++ [] = (expiries.visited h ++ []).map OngoingQueryRequest.requestId := by
      rw [List.append_nil, List.append_nil, before]
    cases op with
    | getExpiredRequests => rfl
    | removeOngoingRequest requestId =>
      show (if atTimeOut h then givenUp h ++ [requestId] else givenUp h) ++ [] = _
      rw [givingUp_eq_nil.mp none, if_neg Bool.false_ne_true]
      exact same
    | getClientById why =>
      cases why with
      | timingOut request =>
        show givenUp h ++ [request.requestId] = (expiries.visited h ++ [request]).map _
        rw [List.map_append, before, List.map_singleton]
      | _ => exact same
    | send client tx msg =>
      cases msg with
      | queryRequestedFailed requestId queryId error =>
        cases error with
        | queryTimedOut => cases untold
        | _ => exact same
      | _ => exact same
    | _ => exact same

/-! ## Where the visits come from -/

/-- Before `earlier` ended, task `i` performed the operation in `σ₀`, not again since, and the run
went on to `σ`. -/
structure Looked {R : Type} [Repository R] (parse : String → Option Uuid) (timing : Timing)
    (repository : R) (σ : ServerConfig R) (i : Nat) (op : Op) (earlier : Trace Op Ret)
    (σ₀ : ServerConfig R) (env : Env R) : Prop where
  before : ReachIf parse timing repository anyOp σ₀
  here : ∃ r σ₁ between, (server R parse timing).step σ₀ (.act i env) = some σ₁ ∧
    σ₁.trace = (i, ⟨op, r⟩) :: σ₀.trace ∧
    (server R parse timing).Reach (Machine.Acting anyOp) σ₁ σ ∧
    earlier = between ++ σ₁.trace ∧ ∀ ev ∈ Trace.of between i, ev.op ≠ op

/-- The client is connected over the channel, and was silent for longer than the expiration. -/
def Silent {R : Type} (timing : Timing) (w : World R) (now : Instant) (client : ClientId)
    (tx : Tx) : Prop :=
  ∃ info, w.clients[client]? = some info ∧ info.tx = tx ∧
    now - info.lastSeen > timing.serverExpirationClient

/-- **Heartbeats**: each goes to a client that was silent when the timer looked; the timer evicts
only whom it just failed to reach; and when it goes on to the requests, it has sent one heartbeat to
each client that it found silent, in the order it found them. -/
structure Heartbeats {R : Type} [Repository R] (parse : String → Option Uuid) (timing : Timing)
    (repository : R) (σ : ServerConfig R) : Prop where
  silent : ∀ {i later earlier client tx sent},
    σ.trace = later ++ (i, ⟨.send client tx .heartbeat, sent⟩) :: earlier →
    ∃ σ₀ env, Looked parse timing repository σ i (.oldClients timing.serverExpirationClient)
      earlier σ₀ env ∧ Silent timing σ₀.world env.now client tx
  evicted : ∀ {i txs client next},
    σ.tasks[i]? = some ⟨.heartbeats txs, .act (.removeClient client) next⟩ →
    ∃ tx err h, σ.trace.of i =
      begun (.disconnectClient client) (⟨.send client tx .heartbeat, .error err⟩ :: h)
  round : ∀ {i timeout}, AboutTo σ i (.getExpiredRequests timeout) →
    beats.visited (σ.trace.of i) = beats.snapshot (σ.trace.of i) ∧
      ((beats.snapshot (σ.trace.of i)).map Prod.fst).Nodup

section Reach

variable {R : Type} [Repository R] {parse : String → Option Uuid} {timing : Timing}
  {repository : R} {cond : ServerConfig R → Nat → Env R → Op → Prop} {σ : ServerConfig R}
  {i : Nat} {job : Job} {op : Op} {r : Ret op} {h : History}

theorem Site.toVisit_of_heartbeat {client : ClientId} {tx : Tx}
    (site : Site parse timing job h (.send client tx .heartbeat)) :
    ∃ txs, toVisit h = (client, tx) :: txs := by
  cases site with
  | heartbeat ready => exact ⟨_, congrArg Memory.toVisit ready.memory⟩
  | @answer _ _ answer _ _ _ _ _ reply => cases answer <;> cases reply

theorem Site.toExpire_of_timingOut {request : OngoingQueryRequest}
    (site : Site parse timing job h (.getClientById (.timingOut request))) :
    ∃ requests, toExpire h = request :: requests := by
  cases site with
  | timingOut ready => exact ⟨_, congrArg Memory.toExpire ready.memory⟩

theorem Site.of_oldClients {expiration : Duration}
    (site : Site parse timing job h (.oldClients expiration)) :
    expiration = timing.serverExpirationClient := by
  cases site with
  | oldClients => rfl

theorem Site.of_getExpiredRequests {timeout : Duration}
    (site : Site parse timing job h (.getExpiredRequests timeout)) :
    timeout = timing.queryResponseTimeout := by
  cases site with
  | getExpiredRequests => rfl

theorem Site.toVisit_of_getExpiredRequests {timeout : Duration}
    (site : Site parse timing job h (.getExpiredRequests timeout)) : toVisit h = [] := by
  cases site with
  | getExpiredRequests ready => exact congrArg Memory.toVisit ready.memory

theorem Site.toExpire_of_oldClients {expiration : Duration}
    (site : Site parse timing job h (.oldClients expiration)) :
    toExpire h = [] ∧ AtRest h := by
  cases site with
  | oldClients ready => exact ⟨congrArg Memory.toExpire ready.memory, ready.rest⟩

theorem Site.toVisit_of_oldClients {expiration : Duration}
    (site : Site parse timing job h (.oldClients expiration)) : toVisit h = [] := by
  cases site with
  | oldClients ready => exact congrArg Memory.toVisit ready.memory

theorem Site.toExpire_of_getExpiredRequests {timeout : Duration}
    (site : Site parse timing job h (.getExpiredRequests timeout)) : toExpire h = [] := by
  cases site with
  | getExpiredRequests ready => exact congrArg Memory.toExpire ready.memory

theorem beats_inOrder (reach : ReachIf parse timing repository cond σ) (i : Nat) :
    beats.InOrder (σ.trace.of i) := by
  refine reach.inOrder rfl ?_ i
  rintro σ i job op next r ⟨client, tx⟩ before task - visit
  obtain ⟨sent, same⟩ := visits_beats visit
  cases same
  obtain ⟨txs, first⟩ := (site_of_act (flowing before) task).toVisit_of_heartbeat
  rw [left_beats, first, List.head?_cons]

/-- Whom the timer finds old was silent. -/
theorem silent_of_oldClients {env : Env R} {w w' : World R} {txs : List (ClientId × Tx)}
    (h : exec (.oldClients timing.serverExpirationClient) env w = some (txs, w'))
    {client : ClientId} {tx : Tx} (mem : (client, tx) ∈ txs) :
    Silent timing w env.now client tx := by
  obtain ⟨l, found, same⟩ := Option.map_eq_some_iff.mp h
  cases same
  obtain ⟨entries, iterated, rfl⟩ := Option.map_eq_some_iff.mp found
  obtain ⟨⟨clientId, info⟩, among, same⟩ := List.mem_map.mp mem
  cases same
  obtain ⟨entry, old⟩ := List.mem_filter.mp among
  exact ⟨info, (HashMap.mem_iter iterated).mp entry, rfl, of_decide_eq_true old⟩

/-- The timer finds each client once. -/
theorem nodup_oldClients {env : Env R} {w w' : World R} {expiration : Duration}
    {txs : List (ClientId × Tx)} (h : exec (.oldClients expiration) env w = some (txs, w')) :
    (txs.map Prod.fst).Nodup := by
  obtain ⟨l, found, same⟩ := Option.map_eq_some_iff.mp h
  cases same
  obtain ⟨entries, iterated, rfl⟩ := Option.map_eq_some_iff.mp found
  rw [List.map_map]
  exact (List.filter_sublist.map Prod.fst).nodup (HashMap.iter_keys_nodup iterated)

/-- The step that took a copy is the last one of its kind. -/
theorem looked_of_took {α : Type} {W : Walk Op Ret α} {a : α} {ev : Event Op Ret}
    {σ₀ : ServerConfig R} {between : Trace Op Ret}
    (took : Machine.Took (server R parse timing) (Machine.Acting anyOp)
      (initial parse timing repository) σ W i a ev σ₀)
    (kind : ∀ ev', W.takes ev' = none → ev'.op ≠ ev.op)
    (untaken : ∀ ev' ∈ Trace.of between i, W.takes ev' = none) :
    ∃ env w job, Looked parse timing repository σ i ev.op (between ++ (i, ev) :: σ₀.trace) σ₀ env ∧
      exec ev.op env σ₀.world = some (ev.ret, w) ∧ Site parse timing job (σ₀.trace.of i) ev.op := by
  obtain ⟨before, env, w, performed, σ₁, first, world, trace, rest⟩ := took.performed
  have site : ∃ job, Site parse timing job (σ₀.trace.of i) ev.op := by
    cases Machine.step_cases first with
    | act task =>
      cases trace
      exact ⟨_, site_of_act (flowing before) task⟩
  obtain ⟨job, site⟩ := site
  refine ⟨env, w, job, ⟨before, ev.ret, σ₁, between, first, trace, rest, ?_, ?_⟩,
    serverExec_exec performed, site⟩
  · rw [trace]
  · exact fun ev' mem => kind ev' (untaken ev' mem)

/-- **Whom the timer visits** was silent when the timer looked. -/
theorem silent_of_heartbeat (reach : ReachIf parse timing repository anyOp σ)
    {later earlier : Trace Op Ret} {client : ClientId} {tx : Tx} {sent : Except TxError Unit}
    (split : σ.trace = later ++ (i, ⟨.send client tx .heartbeat, sent⟩) :: earlier) :
    ∃ σ₀ env, Looked parse timing repository σ i (.oldClients timing.serverExpirationClient)
      earlier σ₀ env ∧ Silent timing σ₀.world env.now client tx := by
  obtain ⟨between, ev, σ₀, took, rfl, untaken⟩ :=
    reach.taken_of_visit rfl (beats_inOrder reach i) split rfl rfl
  obtain ⟨txs, takes, mem⟩ := took.takes
  obtain ⟨expiration, rfl⟩ := takes_beats takes
  have kind (ev' : Event Op Ret) (other : beats.takes ev' = none) :
      ev'.op ≠ .oldClients expiration := by
    obtain ⟨op, r⟩ := ev'
    rintro rfl
    cases other
  obtain ⟨env, w, job, looked, performed, site⟩ := looked_of_took took kind untaken
  obtain rfl := site.of_oldClients
  exact ⟨σ₀, env, looked, silent_of_oldClients performed mem⟩

/-- **Heartbeats**, in every run. -/
theorem heartbeats_of_reach (reach : ReachIf parse timing repository anyOp σ) :
    Heartbeats parse timing repository σ := by
  refine ⟨silent_of_heartbeat reach, ?_, ?_⟩
  · intro i txs client next task
    have site := site_of_act (flowing reach) task
    generalize σ.trace.of i = h at site ⊢
    cases site with
    | removing hand =>
      cases hand with
      | dead ready => exact ⟨_, _, _, rfl⟩
  · rintro i timeout ⟨job, next, task⟩
    have split := (beats_inOrder reach i).visited_append_left
    have finished : beats.left (σ.trace.of i) = [] := by
      rw [left_beats]
      exact (site_of_act (flowing reach) task).toVisit_of_getExpiredRequests
    rw [finished, List.append_nil] at split
    refine ⟨split, reach.snapshot (fun txs => (txs.map Prod.fst).Nodup) rfl List.nodup_nil ?_ i⟩
    intro σ env op r w txs _ performed takes
    obtain ⟨expiration, same⟩ := takes_beats takes
    cases same
    exact nodup_oldClients (serverExec_exec performed)

end Reach

section Scenario

open Scenario

/-- Two clients register and one sends two queries. Late, the timer sends both a heartbeat, times
both requests out, and turns back to the clients. -/
def Scenario.lateRound : List (ServerLabel NoopSourceEventRepository) :=
  [opened, opened] ++ registers 1 alice ++ registers 2 bob ++ sendsQuery 2 ++
    forwardsPayload 2 secondQuery ++ [Scenario.reads 0 100 [bob, alice] [], .loop 0, turn 0, turn 0,
      .loop 0, turn 0, turn 0, .loop 0, Scenario.reads 0 100 [] [request, secondRequest], .loop 0,
      turn 0, turn 0, turn 0, .loop 0, turn 0, turn 0, turn 0, .loop 0, .loop 0]

theorem Scenario.exists_lateRound : ∃ σ, outcome (fun _ _ => true) lateRound = some σ ∧
    beats.visited (σ.trace.of 0) = [(bob, 1), (alice, 0)] ∧
      givenUp (σ.trace.of 0) = [request, secondRequest] := by
  have round : (outcome (fun _ _ => true) lateRound).map (fun σ =>
      (beats.visited (σ.trace.of 0), givenUp (σ.trace.of 0))) =
        some ([(bob, 1), (alice, 0)], [request, secondRequest]) := by
    decide +kernel
  obtain ⟨σ, run, both⟩ := Option.map_eq_some_iff.mp round
  obtain ⟨beaten, up⟩ := Prod.mk.inj both
  exact ⟨σ, run, beaten, up⟩

/-- A round with two heartbeats. -/
theorem heartbeats_lateRound : ∃ σ, outcome (fun _ _ => true) lateRound = some σ ∧
    beats.visited (σ.trace.of 0) = [(bob, 1), (alice, 0)] ∧
      Heartbeats Scenario.parse Scenario.timing ⟨⟩ σ := by
  obtain ⟨σ, run, beaten, -⟩ := exists_lateRound
  exact ⟨σ, run, beaten, heartbeats_of_reach (reach_anyOp run)⟩

end Scenario

end Revent
