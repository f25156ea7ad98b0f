import Revent.Laws.Attribution

/-!
# The registry under interleaving

A registration inserts the client and then lists its handlers; a disconnect removes the client
and then takes it off the lists. The two maps have different locks, so another task may come in
between. `InStep` says what the lists hold in each of the three situations of a client id: no
handler is between its two updates, a registration is, or disconnects are.

It is kept by every run in which an insertion finds the id unconnected and no handler of the id
between its updates, and a removal finds no registration of the id between its updates.
-/

namespace Revent

open Interleave (Event Trace Prog Machine Config Task)

variable {R : Type}

/-- A registration inserted the client and has not listed its handlers yet. -/
inductive HalfRegistered (clientId : ClientId) : History → Prop
  | mk {msg : RegisterClientMessage} {h : History} (id : msg.clientId = clientId) :
      HalfRegistered clientId (⟨.insertClient msg, ()⟩ :: h)

/-- A disconnect removed the client and has not taken it off the lists yet. -/
inductive HalfDisconnected (clientId : ClientId) : History → Prop
  | mk {h : History} : HalfDisconnected clientId (⟨.removeClient clientId, ()⟩ :: h)

/-- No handler of the client is between its two updates. -/
structure Settled (clientId : ClientId) (tr : Trace Op Ret) : Prop where
  registered : ∀ i, ¬ HalfRegistered clientId (tr.of i)
  disconnected : ∀ i, ¬ HalfDisconnected clientId (tr.of i)

/-- The registration that created the client's entry: the last one inserted. -/
def lastInserted (clientId : ClientId) : Trace Op Ret → Option RegisterClientMessage
  | [] => none
  | (_, ⟨.insertClient msg, _⟩) :: tr =>
    if msg.clientId = clientId then some msg else lastInserted clientId tr
  | _ :: tr => lastInserted clientId tr

/-- **Registry consistency**: while no handler of a client is between its two updates, the client
is listed for the queries its current entry's registration declared if it is connected, and for
none otherwise. -/
def Consistent (σ : ServerConfig R) : Prop :=
  ∀ clientId, Settled clientId σ.trace →
    match σ.world.clients[clientId]? with
    | some info => ∃ msg, lastInserted clientId σ.trace = some msg ∧ msg.tx = info.tx ∧
        ∀ query, clientId ∈ σ.world.state.listed query ↔ query ∈ msg.queryHandlers
    | none => ∀ query, clientId ∉ σ.world.state.listed query

/-! ## The two maps in step -/

/-- The lists of a settled client: as many copies as its registration declared, or none. -/
structure Declared (clientId : ClientId) (s : State R) (tr : Trace Op Ret) : Prop where
  connected : ∀ {tx}, s.txOf clientId = some tx → ∃ msg, lastInserted clientId tr = some msg ∧
    msg.tx = tx ∧ ∀ query, (s.listed query).count clientId = msg.queryHandlers.count query
  gone : s.txOf clientId = none → ∀ query, (s.listed query).count clientId = 0

/-- The invariant of a client id: a registration between its updates is the only handler of the id
there, and the client is connected and not listed; a client being disconnected is not connected;
and a settled client is listed as declared. -/
structure InStep (clientId : ClientId) (s : State R) (tr : Trace Op Ret) : Prop where
  connected : ∀ {i msg h}, tr.of i = ⟨.insertClient msg, ()⟩ :: h → msg.clientId = clientId →
    s.txOf clientId = some msg.tx ∧ lastInserted clientId tr = some msg ∧
      ∀ query, (s.listed query).count clientId = 0
  alone : ∀ {i j}, HalfRegistered clientId (tr.of i) → HalfRegistered clientId (tr.of j) → i = j
  apart : ∀ {i j}, HalfRegistered clientId (tr.of i) → ¬ HalfDisconnected clientId (tr.of j)
  removed : ∀ {i}, HalfDisconnected clientId (tr.of i) → s.txOf clientId = none
  settled : Settled clientId tr → Declared clientId s tr

theorem InStep.initial {clientId : ClientId} {repository : R} :
    InStep clientId (.new repository) [] where
  connected := nofun
  alone := nofun
  apart := nofun
  removed := nofun
  settled := fun _ => ⟨nofun, fun _ _ => rfl⟩

/-- The operations that update one of the two maps for the client. -/
def Updates (clientId : ClientId) : Op → Prop
  | .insertClient msg | .addClientQueryHandler msg => msg.clientId = clientId
  | .removeClient removed | .disconnectClient removed => removed = clientId
  | _ => False

theorem txAfter_of_not_updates {clientId : ClientId} {op : Op} (other : ¬ Updates clientId op)
    (tx : Option Tx) : txAfter clientId tx op = tx := by
  unfold txAfter
  split
  · exact if_neg other
  · exact if_neg other
  · rfl

theorem count_listedAfter_of_not_updates {clientId : ClientId} {op : Op}
    (other : ¬ Updates clientId op) (query : QueryId) (clients : List ClientId) :
    (listedAfter query clients op).count clientId = clients.count clientId := by
  unfold listedAfter
  split
  · rw [List.count_append, List.count_replicate, if_neg fun e => other (beq_iff_eq.mp e),
      Nat.add_zero]
  · exact List.count_filter (by simpa using Ne.symm other)
  · rfl

theorem lastInserted_of_not_updates {clientId : ClientId} {op : Op} {r : Ret op}
    (other : ¬ Updates clientId op) (i : Nat) (tr : Trace Op Ret) :
    lastInserted clientId ((i, ⟨op, r⟩) :: tr) = lastInserted clientId tr := by
  cases op with
  | insertClient msg => exact if_neg other
  | _ => rfl

variable [Repository R]

/-- The condition: an insertion finds the id unconnected and settled, a removal finds no
registration of the id between its updates. -/
def UpdatesApart (σ : ServerConfig R) (_ : Nat) (_ : Env R) : Op → Prop
  | .insertClient msg => σ.world.clients[msg.clientId]? = none ∧ Settled msg.clientId σ.trace
  | .removeClient clientId => ∀ j, ¬ HalfRegistered clientId (σ.trace.of j)
  | _ => True

variable {parse : String → Option Uuid} {timing : Timing} {σ : ServerConfig R} {i : Nat}
  {job : Job} {op : Op} {env : Env R} {r : Ret op} {w : World R} {clientId : ClientId}

omit [Repository R] in
/-- After an insertion the handlers are listed. -/
theorem Site.add_of_insertClient {msg : RegisterClientMessage} {h : History}
    (site : Site parse timing job (⟨.insertClient msg, ()⟩ :: h) op) :
    op = .addClientQueryHandler msg := by
  cases site with
  | adding => rfl
  | handle hand => cases hand
  | receive ready | oldClients ready | heartbeat ready | getExpiredRequests ready
  | timingOut ready | readClients ready | broadcasting ready | dropClients ready =>
    exact ready.elim rfl

omit [Repository R] in
/-- After a removal the client is taken off the lists. -/
theorem Site.disconnect_of_removeClient {h : History}
    (site : Site parse timing job (⟨.removeClient clientId, ()⟩ :: h) op) :
    op = .disconnectClient clientId := by
  cases site with
  | disconnecting => rfl
  | handle hand => cases hand
  | receive ready | oldClients ready | heartbeat ready | getExpiredRequests ready
  | timingOut ready | readClients ready | broadcasting ready | dropClients ready =>
    exact ready.elim rfl

omit [Repository R] in
theorem Site.insertClient_of_add {msg : RegisterClientMessage} {h : History}
    (site : Site parse timing job h (.addClientQueryHandler msg)) :
    ∃ h', h = ⟨.insertClient msg, ()⟩ :: h' := by
  cases site with
  | adding => exact ⟨_, rfl⟩

omit [Repository R] in
theorem Site.halfDisconnected_of_disconnect {h : History}
    (site : Site parse timing job h (.disconnectClient clientId)) :
    HalfDisconnected clientId h := by
  cases site with
  | disconnecting => exact .mk

omit [Repository R] in
/-- An operation that does not update a client leaves it between its updates, or not. -/
theorem half_iff_of_not_updates (site : Site parse timing job (σ.trace.of i) op)
    (other : ¬ Updates clientId op) (k : Nat) :
    (HalfRegistered clientId (Trace.of ((i, ⟨op, r⟩) :: σ.trace) k) ↔
        HalfRegistered clientId (σ.trace.of k)) ∧
      (HalfDisconnected clientId (Trace.of ((i, ⟨op, r⟩) :: σ.trace) k) ↔
        HalfDisconnected clientId (σ.trace.of k)) := by
  by_cases hk : i = k
  · subst hk
    rw [Trace.of_cons_self]
    generalize σ.trace.of i = h at site
    refine ⟨⟨fun half => ?_, fun half => ?_⟩, fun half => ?_, fun half => ?_⟩
    · cases half with
      | mk id => exact absurd id other
    · cases half with
      | mk id => exact absurd (site.add_of_insertClient ▸ id) other
    · cases half
      exact absurd rfl other
    · cases half
      exact absurd (site.disconnect_of_removeClient ▸ rfl) other
  · rw [Trace.of_cons_ne _ hk]
    exact ⟨Iff.rfl, Iff.rfl⟩

/-- **Frame**: an operation that does not update a client keeps its invariant. -/
theorem InStep.frame (inv : InStep clientId σ.world.state σ.trace)
    (site : Site parse timing job (σ.trace.of i) op) (other : ¬ Updates clientId op)
    (hexec : exec op env σ.world = some (r, w)) :
    InStep clientId w.state ((i, ⟨op, r⟩) :: σ.trace) := by
  have half := half_iff_of_not_updates (r := r) site other
  have tx : w.state.txOf clientId = σ.world.state.txOf clientId :=
    (txOf_exec hexec clientId).trans (txAfter_of_not_updates other _)
  have count (query : QueryId) :
      (w.state.listed query).count clientId = (σ.world.state.listed query).count clientId := by
    rw [listed_exec hexec]
    exact count_listedAfter_of_not_updates other query _
  have last := lastInserted_of_not_updates (r := r) other i σ.trace
  constructor
  case connected =>
    intro k msg h hh id
    simp only [tx, count, last]
    by_cases hk : i = k
    · subst hk
      rw [Trace.of_cons_self] at hh
      cases hh
      exact absurd id other
    · rw [Trace.of_cons_ne _ hk] at hh
      exact inv.connected hh id
  case alone => exact fun a b => inv.alone ((half _).1.mp a) ((half _).1.mp b)
  case apart =>
    exact fun a b => inv.apart ((half _).1.mp a) ((half _).2.mp b)
  case removed => exact fun a => tx.trans (inv.removed ((half _).2.mp a))
  case settled =>
    intro settled
    have before : Settled clientId σ.trace :=
      ⟨fun k a => settled.registered k ((half k).1.mpr a),
        fun k a => settled.disconnected k ((half k).2.mpr a)⟩
    obtain ⟨connected, gone⟩ := inv.settled before
    refine ⟨fun htx => ?_, fun htx => ?_⟩
    · simp only [last, count]
      exact connected (tx.symm.trans htx)
    · simp only [count]
      exact gone (tx.symm.trans htx)

/-! ## The four updates -/

omit [Repository R] in
/-- Only an insertion opens the window of a registration. -/
theorem HalfRegistered.older {k : Nat}
    (half : HalfRegistered clientId (Trace.of ((i, ⟨op, r⟩) :: σ.trace) k))
    (other : ∀ msg, op ≠ .insertClient msg) : i ≠ k ∧ HalfRegistered clientId (σ.trace.of k) := by
  rcases Trace.of_cons_cases (HalfRegistered clientId) half with ⟨-, half⟩ | before
  · cases half
    exact absurd rfl (other _)
  · exact before

omit [Repository R] in
/-- Only a removal opens the window of a disconnect. -/
theorem HalfDisconnected.older {k : Nat}
    (half : HalfDisconnected clientId (Trace.of ((i, ⟨op, r⟩) :: σ.trace) k))
    (other : op ≠ .removeClient clientId) : i ≠ k ∧ HalfDisconnected clientId (σ.trace.of k) := by
  rcases Trace.of_cons_cases (HalfDisconnected clientId) half with ⟨-, half⟩ | before
  · cases half
    exact absurd rfl other
  · exact before

/-- An insertion opens the window of its registration. -/
theorem InStep.insertClient {msg : RegisterClientMessage} {u : Unit}
    (inv : InStep msg.clientId σ.world.state σ.trace)
    (absent : σ.world.clients[msg.clientId]? = none) (settled : Settled msg.clientId σ.trace)
    (hexec : exec (.insertClient msg) env σ.world = some (u, w)) :
    InStep msg.clientId w.state ((i, ⟨.insertClient msg, u⟩) :: σ.trace) := by
  have only {k : Nat}
      (half : HalfRegistered msg.clientId (Trace.of ((i, ⟨.insertClient msg, u⟩) :: σ.trace) k)) :
      i = k := by
    rcases Trace.of_cons_cases (HalfRegistered msg.clientId) half with ⟨hk, -⟩ | ⟨-, half⟩
    · exact hk
    · exact absurd half (settled.registered k)
  have none_removed (k : Nat) : ¬ HalfDisconnected msg.clientId
      (Trace.of ((i, ⟨.insertClient msg, u⟩) :: σ.trace) k) :=
    fun half => settled.disconnected k (half.older nofun).2
  refine ⟨?_, fun a b => (only a).symm.trans (only b), fun _ => none_removed _,
    fun a => absurd a (none_removed _), fun now => ?_⟩
  · intro k msg' h hh id
    have hk : i = k := only (hh ▸ HalfRegistered.mk id)
    subst hk
    rw [Trace.of_cons_self] at hh
    cases hh
    refine ⟨?_, if_pos rfl, fun query => ?_⟩
    · rw [txOf_exec hexec]
      exact if_pos rfl
    · rw [listed_exec hexec]
      exact (inv.settled settled).gone (State.txOf_eq_none.mpr absent) query
  · apply absurd _ (now.registered i)
    rw [Trace.of_cons_self]
    exact .mk rfl

/-- Listing the handlers closes the window of the registration, with what it declared. -/
theorem InStep.addClientQueryHandler {msg : RegisterClientMessage} {u : Unit}
    (inv : InStep msg.clientId σ.world.state σ.trace)
    (site : Site parse timing job (σ.trace.of i) (.addClientQueryHandler msg))
    (hexec : exec (.addClientQueryHandler msg) env σ.world = some (u, w)) :
    InStep msg.clientId w.state ((i, ⟨.addClientQueryHandler msg, u⟩) :: σ.trace) := by
  obtain ⟨h, hh⟩ := site.insertClient_of_add
  have mine : HalfRegistered msg.clientId (σ.trace.of i) := hh ▸ HalfRegistered.mk rfl
  obtain ⟨tx, last, count⟩ := inv.connected hh rfl
  have none_registered (k : Nat) : ¬ HalfRegistered msg.clientId
      (Trace.of ((i, ⟨.addClientQueryHandler msg, u⟩) :: σ.trace) k) := by
    intro half
    obtain ⟨hk, before⟩ := half.older nofun
    exact hk (inv.alone mine before)
  have none_removed (k : Nat) : ¬ HalfDisconnected msg.clientId
      (Trace.of ((i, ⟨.addClientQueryHandler msg, u⟩) :: σ.trace) k) :=
    fun half => inv.apart mine (half.older nofun).2
  have htx : w.state.txOf msg.clientId = some msg.tx := (txOf_exec hexec _).trans tx
  refine ⟨fun hh' id => absurd (hh' ▸ HalfRegistered.mk id) (none_registered _),
    fun a => absurd a (none_registered _), fun a => absurd a (none_registered _),
    fun a => absurd a (none_removed _), fun _ => ⟨fun hsome => ?_, fun hnone => ?_⟩⟩
  · refine ⟨msg, last, Option.some.inj (htx.symm.trans hsome), fun query => ?_⟩
    rw [listed_exec hexec, listedAfter, List.count_append, count query, List.count_replicate_self,
      Nat.zero_add]
  · cases hnone.symm.trans htx

/-- A removal opens the window of its disconnect. -/
theorem InStep.removeClient {u : Unit} (apart : ∀ j, ¬ HalfRegistered clientId (σ.trace.of j))
    (hexec : exec (.removeClient clientId) env σ.world = some (u, w)) :
    InStep clientId w.state ((i, ⟨.removeClient clientId, u⟩) :: σ.trace) := by
  have none_registered (k : Nat) : ¬ HalfRegistered clientId
      (Trace.of ((i, ⟨.removeClient clientId, u⟩) :: σ.trace) k) :=
    fun half => apart k (half.older nofun).2
  have htx : w.state.txOf clientId = none := (txOf_exec hexec _).trans (if_pos rfl)
  refine ⟨fun hh id => absurd (hh ▸ HalfRegistered.mk id) (none_registered _),
    fun a => absurd a (none_registered _), fun a => absurd a (none_registered _),
    fun _ => htx, fun now => ?_⟩
  apply absurd _ (now.disconnected i)
  rw [Trace.of_cons_self]
  exact .mk

/-- Taking a client off the lists leaves it neither connected nor listed. -/
theorem InStep.disconnectClient {u : Unit} (inv : InStep clientId σ.world.state σ.trace)
    (site : Site parse timing job (σ.trace.of i) (.disconnectClient clientId))
    (hexec : exec (.disconnectClient clientId) env σ.world = some (u, w)) :
    InStep clientId w.state ((i, ⟨.disconnectClient clientId, u⟩) :: σ.trace) := by
  have mine := site.halfDisconnected_of_disconnect
  have none_registered (k : Nat) : ¬ HalfRegistered clientId
      (Trace.of ((i, ⟨.disconnectClient clientId, u⟩) :: σ.trace) k) :=
    fun half => inv.apart (half.older nofun).2 mine
  have htx : w.state.txOf clientId = none := (txOf_exec hexec _).trans (inv.removed mine)
  refine ⟨fun hh id => absurd (hh ▸ HalfRegistered.mk id) (none_registered _),
    fun a => absurd a (none_registered _), fun a => absurd a (none_registered _),
    fun _ => htx, fun _ => ⟨fun hsome => ?_, fun _ query => ?_⟩⟩
  · cases hsome.symm.trans htx
  · rw [listed_exec hexec, listedAfter, List.count_eq_zero]
    simp

/-- Each operation, under the condition, keeps the invariant of every client. -/
theorem InStep.act (inv : ∀ clientId, InStep clientId σ.world.state σ.trace)
    (site : Site parse timing job (σ.trace.of i) op) (cond : UpdatesApart σ i env op)
    (hexec : exec op env σ.world = some (r, w)) (clientId : ClientId) :
    InStep clientId w.state ((i, ⟨op, r⟩) :: σ.trace) := by
  by_cases mine : Updates clientId op
  · cases op with
    | insertClient msg =>
      cases mine
      exact (inv _).insertClient cond.1 cond.2 hexec
    | addClientQueryHandler msg =>
      cases mine
      exact (inv _).addClientQueryHandler site hexec
    | removeClient removed =>
      cases mine
      exact .removeClient cond hexec
    | disconnectClient removed =>
      cases mine
      exact (inv _).disconnectClient site hexec
    | _ => exact mine.elim
  · exact (inv clientId).frame site mine hexec

variable {repository : R}

/-- **Registry consistency**, in every run in which an insertion finds the id unconnected and
settled, and a removal finds no registration of the id between its updates. -/
theorem consistent_of_updatesApart (reach : ReachIf parse timing repository UpdatesApart σ) :
    Consistent σ := by
  have inv : ∀ clientId, InStep clientId σ.world.state σ.trace :=
    state_invariant (fun s tr => ∀ clientId, InStep clientId s tr) reach (fun _ => .initial)
      fun site cond hexec inv => InStep.act inv site cond hexec
  intro clientId settled
  obtain ⟨connected, gone⟩ := (inv clientId).settled settled
  split
  · rename_i info found
    obtain ⟨msg, last, tx, count⟩ := connected (State.txOf_eq_some.mpr ⟨info, found, rfl⟩)
    refine ⟨msg, last, tx, fun query => ?_⟩
    rw [← List.count_pos_iff, count query, List.count_pos_iff]
  · rename_i absent
    exact fun query => List.count_eq_zero.mp (gone (State.txOf_eq_none.mpr absent) query)

section Scenario

open Scenario

/-- A handler is between its two updates. -/
def Scenario.betweenUpdates : History → Bool
  | ⟨.insertClient _, _⟩ :: _ | ⟨.removeClient _, _⟩ :: _ => true
  | _ => false

/-- No task is between its two updates. -/
def Scenario.nobodyBetweenUpdates (tr : Trace Op Ret) : Bool :=
  allAre (fun h => !betweenUpdates h) tr

theorem Scenario.settled_of_nobodyBetweenUpdates {tr : Trace Op Ret}
    (nobody : nobodyBetweenUpdates tr = true) (clientId : ClientId) : Settled clientId tr := by
  have all (i : Nat) : betweenUpdates (tr.of i) = false :=
    Bool.eq_false_of_not_eq_true' (of_allAre (fun h => !betweenUpdates h) rfl nobody i)
  refine ⟨fun i half => ?_, fun i half => ?_⟩
  · have := all i
    generalize tr.of i = h at this half
    cases half
    cases this
  · have := all i
    generalize tr.of i = h at this half
    cases half
    cases this

/-- Insertions find nobody, and a handler starts its two updates while no other one is between
its own. -/
def Scenario.updatesUndisturbed (σ : ServerConfig NoopSourceEventRepository) :
    ServerLabel NoopSourceEventRepository → Bool
  | .act i _ =>
    match σ.tasks[i]? with
    | some ⟨_, .act (.insertClient msg) _⟩ =>
      σ.world.clients[msg.clientId]?.isNone && nobodyBetweenUpdates σ.trace
    | some ⟨_, .act (.removeClient _) _⟩ => nobodyBetweenUpdates σ.trace
    | _ => true
  | _ => true

/-- Two clients register, and one of them leaves and comes back in a third session. -/
def Scenario.leavesAndReturns : List (ServerLabel NoopSourceEventRepository) :=
  [opened, opened, opened] ++ registers 1 alice ++ registers 2 bob ++
    [turn 1, turn 1, turn 1, turn 1] ++ registers 3 alice

/-- Of two clients one leaves and comes back: at the end both are connected and listed. -/
theorem consistent_return : ∃ σ, outcome updatesUndisturbed leavesAndReturns = some σ ∧
    (σ.world.state.txOf alice, σ.world.state.txOf bob) = (some 2, some 1) ∧
    σ.world.state.listed usersGetAll = [bob, alice] ∧ Consistent σ := by
  have run : (outcome updatesUndisturbed leavesAndReturns).map (fun σ =>
      ((σ.world.state.txOf alice, σ.world.state.txOf bob), σ.world.state.listed usersGetAll)) =
        some ((some 2, some 1), [bob, alice]) := by
    decide +kernel
  obtain ⟨σ, hrun, hσ⟩ := Option.map_eq_some_iff.mp run
  obtain ⟨connected, listed⟩ := Prod.mk.inj hσ
  refine ⟨σ, hrun, connected, listed, consistent_of_updatesApart (reach_outcome ?_ hrun)⟩
  intro σ i env job op next checked htask
  simp only [updatesUndisturbed, htask] at checked
  cases op with
  | insertClient msg =>
    obtain ⟨nobody, rest⟩ := Bool.and_eq_true_iff.mp checked
    exact ⟨Option.isNone_iff_eq_none.mp nobody, settled_of_nobodyBetweenUpdates rest _⟩
  | removeClient => exact (settled_of_nobodyBetweenUpdates checked _).registered
  | _ => trivial

/-- A client reconnects while its old session is torn down, and loses the handlers it declared. -/
theorem not_consistent : ¬ ∀ σ : ServerConfig NoopSourceEventRepository,
    ReachIf Scenario.parse Scenario.timing ⟨⟩ anyOp σ → Consistent σ := by
  intro consistent
  have lost : (outcome (fun _ _ => true) ([opened, opened] ++ registers 1 alice ++
      [turn 1, turn 1, turn 1] ++ registers 2 alice ++ [turn 1])).map (fun σ =>
        (nobodyBetweenUpdates σ.trace, σ.world.clients[alice]?.isSome,
          (lastInserted alice σ.trace).map (·.queryHandlers),
          σ.world.state.listed usersGetAll)) = some (true, true, some [usersGetAll], []) := by
    decide +kernel
  obtain ⟨σ, hrun, hσ⟩ := Option.map_eq_some_iff.mp lost
  simp only [Prod.mk.injEq] at hσ
  obtain ⟨nobody, connected, declared, listed⟩ := hσ
  have law := consistent σ (reach_anyOp hrun) alice (settled_of_nobodyBetweenUpdates nobody alice)
  obtain ⟨info, found⟩ := Option.isSome_iff_exists.mp connected
  rw [found] at law
  obtain ⟨msg, last, -, iff⟩ := law
  rw [last] at declared
  have queries : msg.queryHandlers = [usersGetAll] := Option.some.inj declared
  have mem := (iff usersGetAll).mpr (queries ▸ List.mem_singleton_self _)
  rw [listed] at mem
  cases mem

end Scenario

end Revent
