import Revent.Laws.Registration

/-!
# Authentic attribution

`open_session` takes up the id of every registration it handled: `handle_message` returns nothing
that could tell it whether the registration succeeded. A session that was refused an id goes on
to speak for it.

The law is that a session speaks for a client id only once it was answered `ClientRegistered` for
it. It holds in every run in which no session that is still to be answered finds its id taken or
its acknowledgement refused, and fails in a run where a session is refused and goes on.
-/

namespace Revent

open Interleave (Event Trace Prog Machine Config Task)

variable {R : Type}

/-- The session of a channel was answered `ClientRegistered` for the id. -/
def Answered (clientId : ClientId) (tx : Tx) (h : History) : Prop :=
  ⟨.send clientId tx (.clientRegistered clientId), .ok ()⟩ ∈ h

/-- **Authentic attribution**: a session that hands a message of a client to `handle_message`, its
own end apart, was answered `ClientRegistered` for that client. -/
def Authentic (σ : ServerConfig R) : Prop :=
  ∀ (i : Nat) (tx : Tx) (opt : Option ClientId) (msg : ClientMessage)
    (next : Unit → Async (Option Job)) (clientId : ClientId),
    σ.tasks[i]? = some ⟨.session tx opt, .act (.updateLastSeen msg) next⟩ →
    msg.getSource = some clientId → (∀ disconnected, msg ≠ .disconnectClient disconnected) →
    Answered clientId tx (σ.trace.of i)

variable [Repository R]

/-- The condition: a session finds the id it registers taken, or its acknowledgement refused, only
if it was answered for the id before. -/
def RegistersAnswered (σ : ServerConfig R) (i : Nat) (env : Env R) : Op → Prop
  | .getClientById (.registering msg) => σ.world.clients[msg.clientId]? = none ∨
      Answered msg.clientId msg.tx (σ.trace.of i)
  | .send _ tx (.clientRegistered clientId) => env.delivered = true ∨
      Answered clientId tx (σ.trace.of i)
  | _ => True

/-- The invariant: who has an id was answered for it, and so was who finds its id taken. -/
structure AnsweredFirst (tr : Trace Op Ret) : Prop where
  known : ∀ {i clientId tx}, clientIdOption (tr.of i) = some (clientId, tx) →
    Answered clientId tx (tr.of i)
  taken : ∀ {i msg info h}, tr.of i = ⟨.getClientById (.registering msg), some info⟩ :: h →
    Answered msg.clientId msg.tx (tr.of i)

variable {parse : String → Option Uuid} {timing : Timing} {σ : ServerConfig R} {i : Nat}
  {job : Job} {op : Op} {env : Env R} {r : Ret op} {w : World R}

/-- The event that gives a task an id comes from a session answered for it. -/
theorem AnsweredFirst.known_act (inv : AnsweredFirst σ.trace)
    (site : Site parse timing job (σ.trace.of i) op) (cond : RegistersAnswered σ i env op)
    (hexec : exec op env σ.world = some (r, w)) {clientId : ClientId} {tx : Tx}
    (known : clientIdOption (⟨op, r⟩ :: σ.trace.of i) = some (clientId, tx)) :
    Answered clientId tx (⟨op, r⟩ :: σ.trace.of i) := by
  refine List.mem_cons_of_mem _ ?_
  unfold clientIdOption at known
  split at known
  · cases known
  · rename_i heq
    cases heq
    cases known
    have taken := @inv.taken i
    generalize σ.trace.of i = h at site taken
    cases site with
    | rejecting => exact taken rfl
    | @answer _ _ answer _ _ _ _ _ reply => cases answer <;> cases reply
  · rename_i heq
    cases heq
    cases known
    rcases cond with delivered | answered
    · cases delivered.symm.trans (exec_send_error hexec)
    · exact answered
  · rename_i heq
    cases heq
    cases known
    generalize σ.trace.of i = h at site
    cases site with
    | adding => exact List.mem_cons_of_mem _ List.mem_cons_self
  · cases known
  · rename_i heq
    cases heq
    exact inv.known known

/-- Each operation, under the condition, keeps the invariant. -/
theorem AnsweredFirst.act (inv : AnsweredFirst σ.trace)
    (site : Site parse timing job (σ.trace.of i) op) (cond : RegistersAnswered σ i env op)
    (hexec : exec op env σ.world = some (r, w)) :
    AnsweredFirst ((i, ⟨op, r⟩) :: σ.trace) where
  known := by
    intro k clientId tx known
    by_cases hk : i = k
    · subst hk
      rw [Trace.of_cons_self] at known ⊢
      exact inv.known_act site cond hexec known
    · rw [Trace.of_cons_ne _ hk] at known ⊢
      exact inv.known known
  taken := by
    intro k msg info h hh
    by_cases hk : i = k
    · subst hk
      rw [Trace.of_cons_self] at hh ⊢
      cases hh
      rcases cond with nobody | answered
      · cases nobody.symm.trans (exec_getClientById hexec).1.symm
      · exact List.mem_cons_of_mem _ answered
    · rw [Trace.of_cons_ne _ hk] at hh ⊢
      exact inv.taken hh

variable {repository : R}

/-- **Authentic attribution**, in every run in which no session still to be answered for an id
finds it taken or its acknowledgement refused. -/
theorem authentic_of_registersAnswered
    (reach : ReachIf parse timing repository RegistersAnswered σ) : Authentic σ := by
  have inv : AnsweredFirst σ.trace :=
    state_invariant (fun _ tr => AnsweredFirst tr) reach ⟨nofun, nofun⟩
      fun site cond hexec inv => inv.act site cond hexec
  intro i tx opt msg next clientId htask source live
  have site := site_of_act (flowing reach) htask
  have known := @inv.known i clientId tx
  generalize σ.trace.of i = h at site known
  cases site with
  | handle hand =>
    cases hand with
    | decoded ready decode =>
      rcases ClientMessage.ofProto_cases decode with ⟨m, rfl, -⟩ | ⟨owner, rfl, speaks, -⟩
      · cases source
      · cases source.symm.trans speaks
        exact known (congrArg Memory.clientIdOption ready.memory)
    | closed => exact absurd rfl (live _)

section Scenario

open Scenario

/-- Sends are accepted, and lookups of registrations find nobody. -/
def Scenario.acceptsNewcomers (σ : ServerConfig NoopSourceEventRepository) :
    ServerLabel NoopSourceEventRepository → Bool
  | .act i env =>
    match σ.tasks[i]? with
    | some ⟨_, .act (.getClientById (.registering msg)) _⟩ => σ.world.clients[msg.clientId]?.isNone
    | _ => env.delivered
  | _ => true

/-- The channel and the client id of a session about to hand over a message. -/
def Scenario.speaksFor : Task Op Ret Job → Option (Tx × ClientId)
  | ⟨.session tx _, .act (.updateLastSeen (.heartbeat clientId)) _⟩ => some (tx, clientId)
  | _ => none

/-- Two clients register, and the second one's session is about to hand over its heartbeat. -/
theorem authentic_heartbeat : ∃ σ, outcome acceptsNewcomers ([opened, opened] ++
    registers 1 alice ++ registers 2 bob ++ [hears 2 .heartbeat]) = some σ ∧
      σ.tasks[2]?.bind speaksFor = some (1, bob) ∧ Authentic σ := by
  have run : (outcome acceptsNewcomers ([opened, opened] ++ registers 1 alice ++ registers 2 bob ++
      [hears 2 .heartbeat])).map (fun σ => σ.tasks[2]?.bind speaksFor) = some (some (1, bob)) := by
    decide +kernel
  obtain ⟨σ, hrun, speaks⟩ := Option.map_eq_some_iff.mp run
  refine ⟨σ, hrun, speaks, authentic_of_registersAnswered (reach_outcome ?_ hrun)⟩
  intro σ i env job op next welcomed htask
  simp only [acceptsNewcomers, htask] at welcomed
  cases op with
  | getClientById why =>
    cases why with
    | registering msg => exact .inl (Option.isNone_iff_eq_none.mp welcomed)
    | _ => trivial
  | send client tx msg =>
    cases msg with
    | clientRegistered => exact .inl welcomed
    | _ => trivial
  | _ => trivial

/-- A session is refused a taken id, and its heartbeat counts for the client that has it. -/
theorem not_authentic : ¬ ∀ σ : ServerConfig NoopSourceEventRepository,
    ReachIf Scenario.parse Scenario.timing ⟨⟩ anyOp σ → Authentic σ := by
  intro authentic
  have speaks : (outcome (fun _ _ => true) ([opened, opened] ++ registers 1 alice ++
      [hears 2 (register alice), turn 2, turn 2, turn 2, .loop 2, hears 2 .heartbeat])).map
        (fun σ => (σ.tasks[2]?.bind speaksFor, (σ.trace.of 2).map acknowledgedId)) =
          some (some (1, alice), [none, none, none, none, none]) := by
    decide
  obtain ⟨σ, hrun, hσ⟩ := Option.map_eq_some_iff.mp speaks
  obtain ⟨hspeaks, htold⟩ := Prod.mk.inj hσ
  obtain ⟨task, htask, hspeaks⟩ := Option.bind_eq_some_iff.mp hspeaks
  unfold speaksFor at hspeaks
  split at hspeaks
  · cases hspeaks
    have answered := authentic σ (reach_anyOp hrun) 2 _ _ _ _ alice htask rfl nofun
    have mem := List.mem_map_of_mem (f := acknowledgedId) answered
    rw [htold] at mem
    simp [acknowledgedId] at mem
  · cases hspeaks

end Scenario

end Revent
