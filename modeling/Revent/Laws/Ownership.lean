import Revent.Laws.Registry

/-!
# Ownership of removals

A disconnect carries a client id and nothing else. The session whose registration was refused, the
old session of a client that is connected anew, and the timer with its snapshot all disconnect
whoever has the id by then.

A task **refers** to a client over a channel when it may disconnect it: a session over its own
channel once its registration is over, the timer over the channel of its snapshot. The law is that
the entry of a client and its place in the lists are taken away only by the end of the session
whose channel the entry holds, or after a heartbeat failed on that channel. It holds in every run
in which a task comes to refer to a client only while no entry of the client is over another
channel, and an entry is inserted only while no task refers to the client over another one.
-/

namespace Revent

open Interleave (Event Trace Prog Machine Config Task)

variable {R : Type}

/-- The disconnect of a client known over a channel: at the end of the channel's session, or after
the timer's heartbeat on the channel failed. -/
inductive Disconnects (clientId : ClientId) (tx : Tx) : Job → History → Prop
  | closed {received : Received} {h : History} :
      Disconnects clientId tx (.session tx (some clientId))
        (begun (.disconnectClient clientId) (⟨.receive, received⟩ :: h))
  | dead {txs : List (ClientId × Tx)} {err : TxError} {h : History} :
      Disconnects clientId tx (.heartbeats ((clientId, tx) :: txs))
        (begun (.disconnectClient clientId) (⟨.send clientId tx .heartbeat, .error err⟩ :: h))

/-- The step is one of the two updates of such a disconnect. -/
inductive ByOwner (σ : ServerConfig R) (clientId : ClientId) (tx : Tx) : Nat → Prop
  | remove {i : Nat} {job : Job} {next : Unit → Async (Option Job)}
      (disconnects : Disconnects clientId tx job (σ.trace.of i))
      (task : σ.tasks[i]? = some ⟨job, .act (.removeClient clientId) next⟩) :
      ByOwner σ clientId tx i
  | unlist {i : Nat} {job : Job} {next : Unit → Async (Option Job)} {h : History}
      (disconnects : Disconnects clientId tx job h)
      (removed : σ.trace.of i = ⟨.removeClient clientId, ()⟩ :: h)
      (task : σ.tasks[i]? = some ⟨job, .act (.disconnectClient clientId) next⟩) :
      ByOwner σ clientId tx i

/-- The client's entry, or a place of the client in the lists, is taken away. -/
def TakenAway (clientId : ClientId) (tx : Tx) (s s' : State R) : Prop :=
  s'.txOf clientId ≠ some tx ∨
    ∃ query, (s'.listed query).count clientId < (s.listed query).count clientId

variable [Repository R]

/-- **Ownership of removals**: a step takes a connected client's entry or its place in the lists
away only as part of a disconnect over the channel the entry holds. -/
def OwnRemoval (σ : ServerConfig R) (ℓ : ServerLabel R) (σ' : ServerConfig R) : Prop :=
  ∀ clientId tx, σ.world.state.txOf clientId = some tx →
    TakenAway clientId tx σ.world.state σ'.world.state →
    ∃ i env, ℓ = .act i env ∧ ByOwner σ clientId tx i

/-! ## References -/

/-- The task may disconnect the client, which it knows over the channel. -/
def Refers (clientId : ClientId) (tx : Tx) (h : History) : Prop :=
  clientIdOption h = some (clientId, tx) ∨ unreachable h = some (clientId, tx) ∨
    (clientId, tx) ∈ toVisit h

/-- No entry of the client is over another channel. -/
def NoOther (s : State R) (clientId : ClientId) (tx : Tx) : Prop :=
  ∀ tx', s.txOf clientId = some tx' → tx' = tx

/-- The condition: a task comes to refer to a client over a channel only while no entry of it is
over another one, and an entry is inserted only while neither an entry nor a task that is not over
has the client over another channel. -/
def OverOneChannel (σ : ServerConfig R) (_ : Nat) (env : Env R) : Op → Prop
  | .insertClient msg => NoOther σ.world.state msg.clientId msg.tx ∧
      ∀ j tx, Machine.Live σ j → Refers msg.clientId tx (σ.trace.of j) → tx = msg.tx
  | .addClientQueryHandler msg => NoOther σ.world.state msg.clientId msg.tx
  | .send _ tx (.clientRegistrationFailed clientId _) => NoOther σ.world.state clientId tx
  | .send _ tx (.clientRegistered clientId) =>
      env.delivered = false → NoOther σ.world.state clientId tx
  | _ => True

/-- The invariant: who refers to a connected client does so over its entry's channel. -/
def OneChannel (σ : ServerConfig R) : Prop :=
  ∀ i clientId tx, Machine.Live σ i → Refers clientId tx (σ.trace.of i) →
    NoOther σ.world.state clientId tx

variable {parse : String → Option Uuid} {timing : Timing} {σ σ' : ServerConfig R} {i : Nat}
  {job : Job} {op : Op} {env : Env R} {r : Ret op} {w : World R} {clientId : ClientId} {tx : Tx}

/-- A task refers to a client that it referred to before, or that has no entry over another
channel; an insertion makes no task refer to anyone. -/
theorem Refers.back (site : Site parse timing job (σ.trace.of i) op)
    (cond : OverOneChannel σ i env op) (hexec : exec op env σ.world = some (r, w))
    (now : Refers clientId tx (⟨op, r⟩ :: σ.trace.of i)) :
    Refers clientId tx (σ.trace.of i) ∨
      NoOther σ.world.state clientId tx ∧ ∀ msg, op ≠ .insertClient msg := by
  rcases now with now | now | now
  · unfold clientIdOption at now
    split at now
    · cases now
    · rename_i heq
      cases heq
      cases now
      exact .inr ⟨cond, nofun⟩
    · rename_i heq
      cases heq
      cases now
      exact .inr ⟨cond (exec_send_error hexec), nofun⟩
    · rename_i heq
      cases heq
      cases now
      exact .inr ⟨cond, nofun⟩
    · cases now
    · rename_i heq
      cases heq
      exact .inl (.inl now)
  · unfold unreachable at now
    split at now
    · cases now
    · rename_i heq
      cases heq
      cases now
      generalize σ.trace.of i = h at site
      cases site with
      | heartbeat ready =>
        have visits : toVisit h = _ :: _ := congrArg Memory.toVisit ready.memory
        exact .inl (.inr (.inr (visits ▸ List.mem_cons_self)))
      | @answer _ _ answer _ _ _ _ _ reply => cases answer <;> cases reply
    · cases now
    · rename_i heq
      cases heq
      exact .inl (.inr (.inl now))
  · unfold toVisit at now
    split at now
    · cases now
    · rename_i heq
      cases heq
      refine .inr ⟨fun tx' connected => ?_, nofun⟩
      exact Option.some.inj (connected.symm.trans (exec_oldClients hexec now))
    · rename_i heq
      cases heq
      exact .inl (.inr (.inr (List.mem_of_mem_tail now)))
    · rename_i heq
      cases heq
      exact .inl (.inr (.inr now))

/-- An operation that does not insert the client over another channel leaves it without an entry
over another channel. -/
theorem NoOther.exec (other : NoOther σ.world.state clientId tx)
    (hexec : exec op env σ.world = some (r, w))
    (inserted : ∀ msg, op = .insertClient msg → msg.clientId = clientId → tx = msg.tx) :
    NoOther w.state clientId tx := by
  intro tx' connected
  rw [txOf_exec hexec] at connected
  unfold txAfter at connected
  split at connected
  · rename_i msg
    split at connected
    · rename_i id
      cases connected
      exact (inserted msg rfl id).symm
    · exact other tx' connected
  · split at connected
    · cases connected
    · exact other tx' connected
  · exact other tx' connected

/-- Each step, under the condition, keeps the invariant. -/
theorem OneChannel.step {ℓ : ServerLabel R} (inv : OneChannel σ)
    (flowing : Machine.Flowing (Site parse timing) Ends σ)
    (ok : Machine.Acting OverOneChannel σ ℓ)
    (step : (server R parse timing).step σ ℓ = some σ') : OneChannel σ' := by
  intro k clientId tx live refers
  have before : Machine.Live σ k := Machine.live_of_step step live
  cases Machine.step_cases step with
  | @act i env job op next r w task performed =>
    have site := site_of_act flowing task
    have cond := ok job op next task
    have hexec := serverExec_exec performed
    have referred : Refers clientId tx (σ.trace.of k) ∨
        NoOther σ.world.state clientId tx ∧ ∀ msg, op ≠ .insertClient msg := by
      rcases Trace.of_cons_cases (Refers clientId tx) refers with ⟨rfl, mine⟩ | ⟨-, other⟩
      · exact Refers.back site cond hexec mine
      · exact .inl other
    rcases referred with referred | ⟨other, reading⟩
    · refine (inv k clientId tx before referred).exec hexec ?_
      rintro msg rfl rfl
      exact cond.2 k tx before referred
    · exact other.exec hexec fun msg inserts => absurd inserts (reading msg)
  | loop => exact inv k clientId tx before refers
  | @ext x w job move =>
    have same : w.state = σ.world.state := move_state move
    show NoOther w.state clientId tx
    rw [same]
    exact inv k clientId tx before refers

/-! ## The law -/

/-- The disconnect a task hands over is one of a client it refers to. -/
theorem Disconnects.of_handed {h : History}
    (hand : Handed parse job h (.disconnectClient clientId)) :
    ∃ tx, Disconnects clientId tx job (begun (.disconnectClient clientId) h) ∧
      Refers clientId tx (begun (.disconnectClient clientId) h) := by
  generalize hmsg : ClientMessage.disconnectClient clientId = msg at hand
  cases hand with
  | decoded ready decode =>
    rcases ClientMessage.ofProto_cases decode with ⟨m, rfl, -⟩ | ⟨owner, -, -, live⟩
    · cases hmsg
    · exact absurd hmsg.symm (live clientId)
  | @closed tx clientId' received h ready =>
    cases hmsg
    exact ⟨tx, .closed, .inl (congrArg Memory.clientIdOption ready.memory)⟩
  | alive => cases hmsg
  | @dead clientId' tx txs err h ready =>
    cases hmsg
    exact ⟨tx, .dead, .inr (.inl rfl)⟩

variable {repository : R}

/-- Who refers to a connected client does so over its entry's channel, in every run under the
condition. -/
theorem oneChannel (reach : ReachIf parse timing repository OverOneChannel σ) : OneChannel σ := by
  induction reach with
  | init =>
    intro i clientId tx _ _ tx' connected
    cases connected
  | step reach ok step ih => exact ih.step (flowing reach) ok step

/-- Taking the client away from a list takes a disconnect of it. -/
theorem count_listedAfter {query : QueryId} {clients : List ClientId}
    (fewer : (listedAfter query clients op).count clientId < clients.count clientId) :
    op = .disconnectClient clientId := by
  unfold listedAfter at fewer
  split at fewer
  · rw [List.count_append] at fewer
    omega
  · rename_i removed
    by_cases same : removed = clientId
    · rw [same]
    · rw [List.count_filter (by simpa using Ne.symm same)] at fewer
      omega
  · omega

/-- **Ownership of removals**, at every step of every run in which no task comes to refer to a
client that has an entry over another channel, and no entry is inserted over another channel than
the one its client is referred to over. -/
theorem ownRemoval_of_overOneChannel {ℓ : ServerLabel R}
    (reach : ReachIf parse timing repository OverOneChannel σ)
    (ok : Machine.Acting OverOneChannel σ ℓ)
    (step : (server R parse timing).step σ ℓ = some σ') : OwnRemoval σ ℓ σ' := by
  intro clientId tx connected taken
  have inv := oneChannel reach
  cases Machine.step_cases step with
  | @act i env job op next r w task performed =>
    have site := site_of_act (flowing reach) task
    have cond := ok job op next task
    have hexec := serverExec_exec performed
    have live : Machine.Live σ i := Machine.live_of_act task
    refine ⟨i, env, rfl, ?_⟩
    rcases taken with gone | ⟨query, fewer⟩
    · rw [txOf_exec hexec] at gone
      unfold txAfter at gone
      split at gone
      · split at gone
        · rename_i msg id
          exact absurd (congrArg some (cond.1 tx (id ▸ connected)).symm) gone
        · exact absurd connected gone
      · split at gone
        · rename_i removed same
          subst same
          generalize htrace : σ.trace.of i = h at site
          cases site with
          | removing hand =>
            obtain ⟨tx', disconnects, refers⟩ := Disconnects.of_handed hand
            rw [← htrace] at disconnects refers
            cases inv i removed tx' live refers tx connected
            exact .remove disconnects task
        · exact absurd connected gone
      · exact absurd connected gone
    · rw [listed_exec hexec] at fewer
      cases count_listedAfter fewer
      generalize htrace : σ.trace.of i = h at site
      cases site with
      | disconnecting hand =>
        obtain ⟨tx', disconnects, refers⟩ := Disconnects.of_handed hand
        have refers : Refers clientId tx' (σ.trace.of i) := htrace ▸ refers
        cases inv i clientId tx' live refers tx connected
        exact .unlist disconnects htrace task
  | loop =>
    rcases taken with gone | ⟨query, fewer⟩
    · exact absurd connected gone
    · exact absurd fewer (Nat.lt_irrefl _)
  | @ext x w job move =>
    have same : w.state = σ.world.state := move_state move
    rcases taken with gone | ⟨query, fewer⟩
    · exact absurd (same ▸ connected) gone
    · rw [same] at fewer
      exact absurd fewer (Nat.lt_irrefl _)

section Scenario

open Scenario

/-- The client has no entry over another channel than this one. -/
def Scenario.noOtherEntry (σ : ServerConfig NoopSourceEventRepository) (clientId : ClientId)
    (tx : Tx) : Bool :=
  (σ.world.state.txOf clientId).all (· = tx)

theorem Scenario.noOtherEntry_iff {σ : ServerConfig NoopSourceEventRepository} :
    noOtherEntry σ clientId tx = true ↔ NoOther σ.world.state clientId tx := by
  simp only [noOtherEntry, Option.all_eq_true_iff_get, NoOther, decide_eq_true_eq]
  constructor
  · intro same tx' connected
    simpa [connected] using same
  · intro other connected
    exact other _ (Option.some_get connected).symm

/-- The clients a task may disconnect, with the channels it knows them over. -/
def Scenario.references (h : History) : List (ClientId × Tx) :=
  (clientIdOption h).toList ++ (unreachable h).toList ++ toVisit h

theorem Scenario.mem_references {clientId : ClientId} {tx : Tx} {h : History}
    (refers : Refers clientId tx h) : (clientId, tx) ∈ references h := by
  unfold references
  rcases refers with known | known | known
  · exact List.mem_append_left _ (List.mem_append_left _ (Option.mem_toList.mpr known))
  · exact List.mem_append_left _ (List.mem_append_right _ (Option.mem_toList.mpr known))
  · exact List.mem_append_right _ known

/-- The task knows the client over this channel only. -/
def Scenario.knowsOnlyOver (clientId : ClientId) (tx : Tx) (h : History) : Bool :=
  (references h).all fun known => known.1 ≠ clientId || known.2 = tx

/-- An entry is inserted only where no task knows the client over another channel, and a session is
told of a registration only where there is no other entry. -/
def Scenario.unrivalled (σ : ServerConfig NoopSourceEventRepository) :
    ServerLabel NoopSourceEventRepository → Bool
  | .act i env =>
    match σ.tasks[i]? with
    | some ⟨_, .act (.insertClient msg) _⟩ =>
      noOtherEntry σ msg.clientId msg.tx && allAre (knowsOnlyOver msg.clientId msg.tx) σ.trace
    | some ⟨_, .act (.addClientQueryHandler msg) _⟩ => noOtherEntry σ msg.clientId msg.tx
    | some ⟨_, .act (.send _ tx (.clientRegistrationFailed clientId _)) _⟩ =>
      noOtherEntry σ clientId tx
    | _ => env.delivered
  | _ => true

theorem Scenario.overOneChannel_of_unrivalled {σ : ServerConfig NoopSourceEventRepository} {i : Nat}
    {env : Env NoopSourceEventRepository} {job : Job} {op : Op}
    {next : Ret op → Async (Option Job)} (checked : unrivalled σ (.act i env) = true)
    (task : σ.tasks[i]? = some ⟨job, .act op next⟩) : OverOneChannel σ i env op := by
  simp only [unrivalled, task] at checked
  cases op with
  | insertClient msg =>
    obtain ⟨other, all⟩ := Bool.and_eq_true_iff.mp checked
    refine ⟨noOtherEntry_iff.mp other, fun j tx _ refers => ?_⟩
    have knows := of_allAre (knowsOnlyOver msg.clientId msg.tx) rfl all j
    simpa using List.all_eq_true.mp knows _ (mem_references refers)
  | addClientQueryHandler msg => exact noOtherEntry_iff.mp checked
  | send client tx msg =>
    cases msg with
    | clientRegistrationFailed clientId reason => exact noOtherEntry_iff.mp checked
    | clientRegistered clientId =>
      intro refused
      cases checked.symm.trans refused
    | _ => trivial
  | _ => trivial

/-- Two clients register, the timer is about to visit both, and the first one's session ends: the
step that removes its client is a step of the law. -/
theorem ownRemoval_departure : ∃ σ σ', outcome unrivalled ([opened, opened] ++
    registers 1 alice ++ registers 2 bob ++ [Scenario.reads 0 20 [alice, bob] [], turn 1, turn 1]) =
      some σ ∧
    (server _ Scenario.parse Scenario.timing).step σ (turn 1) = some σ' ∧
    (σ.world.state.txOf alice, σ'.world.state.txOf alice) = (some 0, none) ∧
    OwnRemoval σ (turn 1) σ' := by
  have last : ((outcome unrivalled ([opened, opened] ++ registers 1 alice ++ registers 2 bob ++
      [Scenario.reads 0 20 [alice, bob] [], turn 1, turn 1])).bind fun σ =>
        if unrivalled σ (turn 1) then
          ((server _ Scenario.parse Scenario.timing).step σ (turn 1)).map fun σ' =>
            (σ.world.state.txOf alice, σ'.world.state.txOf alice)
        else none) = some (some 0, none) := by
    decide +kernel
  obtain ⟨σ, run, hstep⟩ := Option.bind_eq_some_iff.mp last
  split at hstep
  · rename_i checked
    obtain ⟨σ', step, gone⟩ := Option.map_eq_some_iff.mp hstep
    refine ⟨σ, σ', run, step, gone, ownRemoval_of_overOneChannel (reach_outcome ?_ run) ?_ step⟩
    · exact fun σ i env job op next => overOneChannel_of_unrivalled
    · exact fun job op next task => overOneChannel_of_unrivalled checked task
  · cases hstep

/-- A session that was refused a taken id ends, and takes the client that has the id away. -/
theorem not_ownRemoval : ¬ ∀ (σ σ' : ServerConfig NoopSourceEventRepository)
    (ℓ : ServerLabel NoopSourceEventRepository),
    ReachIf Scenario.parse Scenario.timing ⟨⟩ anyOp σ →
    (server _ Scenario.parse Scenario.timing).step σ ℓ = some σ' → OwnRemoval σ ℓ σ' := by
  intro own
  have removed : ((outcome (fun _ _ => true) ([opened, opened] ++ registers 1 alice ++
      [hears 2 (register alice), turn 2, turn 2, turn 2, .loop 2, turn 2, turn 2])).bind fun σ =>
        ((server _ Scenario.parse Scenario.timing).step σ (turn 2)).map fun σ' =>
          (σ.world.state.txOf alice, σ'.world.state.txOf alice,
            σ.tasks[2]?.map fun task => task.job.channel)) =
      some (some 0, none, some (some 1)) := by
    decide +kernel
  obtain ⟨σ, run, hσ⟩ := Option.bind_eq_some_iff.mp removed
  obtain ⟨σ', step, hσ⟩ := Option.map_eq_some_iff.mp hσ
  simp only [Prod.mk.injEq] at hσ
  obtain ⟨connected, gone, session⟩ := hσ
  obtain ⟨i, env, label, owner⟩ := own σ σ' (turn 2) (reach_anyOp run) step alice 0 connected
    (.inl (by rw [gone]; nofun))
  cases label
  have stranger {job : Job} {h : History} {prog : Async (Option Job)}
      (disconnects : Disconnects alice 0 job h) (task : σ.tasks[2]? = some ⟨job, prog⟩) :
      False := by
    rw [task] at session
    cases disconnects with
    | closed | dead => cases session
  cases owner with
  | remove disconnects task => exact stranger disconnects task
  | unlist disconnects _ task => exact stranger disconnects task

end Scenario

end Revent
