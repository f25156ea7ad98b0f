import Revent.Laws.Publication

/-!
# What a broadcast visits

A broadcast copies the clients once and sends to them one after the other, while the other tasks go
on. It keeps the read guard of `connected_clients` meanwhile, so every section that would write the
map waits: the copy stays the map (`visited_reach`).

So a broadcast never sends over a channel that its client has given up, and misses nobody: when it
drops the guard, it has addressed exactly the clients that are connected then.
-/

namespace Revent

open Interleave (Event Trace Prog Machine Config Task)

/-- The next operation of a task. -/
def AboutTo {R : Type} (σ : ServerConfig R) (i : Nat) (op : Op) : Prop :=
  ∃ (job : Job) (next : Ret op → Async (Option Job)), σ.tasks[i]? = some ⟨job, .act op next⟩

/-- A client with the channel of its entry. -/
def channelOf (entry : ClientId × ClientInfo) : ClientId × Tx := (entry.1, entry.2.tx)

/-- The client an event sends a source event to, with the channel. -/
def addressee : Event Op Ret → Option (ClientId × Tx)
  | ⟨.send client tx (.sourceEvent _), _⟩ => some (client, tx)
  | _ => none

/-- The clients a task sent a source event to, the first one first. -/
def sentTo (h : History) : List (ClientId × Tx) := (h.filterMap addressee).reverse

theorem sentTo_cons {ev : Event Op Ret} {h : History} :
    sentTo (ev :: h) = sentTo h ++ (addressee ev).toList := by
  unfold sentTo
  cases addressed : addressee ev <;> simp [addressed]

/-- The clients a task has visited and still has to visit are the entries of the map. -/
def Visited {R : Type} (w : World R) (h : History) (rest : List (ClientId × ClientInfo)) : Prop :=
  ∃ order visited, w.clients.iter order = some (visited ++ rest) ∧
    visited.map channelOf = sentTo h

section Visited

variable {R : Type} {w w' : World R} {h : History} {rest : List (ClientId × ClientInfo)}

/-- Whom a task still has to visit is connected, with this entry. -/
theorem Visited.connected (visited : Visited w h rest) {entry : ClientId × ClientInfo}
    (mem : entry ∈ rest) : w.clients[entry.1]? = some entry.2 := by
  obtain ⟨order, before, iterated, -⟩ := visited
  exact (HashMap.mem_iter iterated).mp (List.mem_append_right _ mem)

/-- Whom a task has visited, and whom it will, are all different. -/
theorem Visited.once (visited : Visited w h rest) :
    ((sentTo h).map Prod.fst ++ rest.map Prod.fst).Nodup := by
  obtain ⟨order, before, iterated, sent⟩ := visited
  have keys := HashMap.iter_keys_nodup iterated
  have same : (sentTo h).map Prod.fst = before.map Prod.fst := by
    rw [← sent, List.map_map]
    rfl
  rw [same, ← List.map_append]
  exact keys

/-- A task with nobody left to visit has visited exactly the connected clients. -/
theorem Visited.complete (visited : Visited w h []) (client : ClientId) (tx : Tx) :
    (client, tx) ∈ sentTo h ↔ w.state.txOf client = some tx := by
  obtain ⟨order, before, iterated, sent⟩ := visited
  rw [List.append_nil] at iterated
  rw [← sent, List.mem_map, State.txOf_eq_some]
  constructor
  · rintro ⟨⟨clientId, info⟩, mem, same⟩
    cases same
    exact ⟨info, (HashMap.mem_iter iterated).mp mem, rfl⟩
  · rintro ⟨info, connected, rfl⟩
    exact ⟨(client, info), (HashMap.mem_iter iterated).mpr connected, rfl⟩

end Visited

section Reach

variable {R : Type} [Repository R] {parse : String → Option Uuid} {timing : Timing}
  {ok : ServerConfig R → ServerLabel R → Prop} {repository : R} {σ σ' : ServerConfig R} {i : Nat}
  {op : Op} {env : Env R} {r : Ret op} {w w' : World R}

/-- **While a guard is alive, nothing writes the connected clients.** -/
theorem clients_of_guarded (h : exec op env w = some (r, w')) (guarded : 0 < w.guards) :
    w'.clients = w.clients := by
  have waits {clients : HashMap ClientId ClientInfo} {u : Unit}
      (writes : writeClients w clients = some (u, w')) : False := by
    unfold writeClients at writes
    rw [if_neg (Nat.ne_of_gt guarded)] at writes
    cases writes
  cases op with
  | updateLastSeen msg =>
    simp only [exec] at h
    split at h
    · cases h
      rfl
    · exact (waits h).elim
  | insertClient | removeClient => exact (waits h).elim
  | _ => exact clients_exec h

/-- Who holds a guard keeps the count of the guards from being zero. -/
theorem guarded_of_holding
    (reach : (server R parse timing).Reach ok (initial parse timing repository) σ)
    (holding : Holding (σ.trace.of i)) : 0 < σ.world.guards := by
  obtain ⟨holders, card, held⟩ := guards_held reach
  rw [← card]
  exact Finset.card_pos.mpr ⟨i, (held i).mpr holding⟩

/-- **The copy of a broadcast is the map**, for as long as the broadcast holds the guard. -/
theorem visited_reach
    (reach : (server R parse timing).Reach ok (initial parse timing repository) σ)
    {event : SourceEvent} {rest : List (ClientId × ClientInfo)}
    (visiting : Visiting event rest (σ.trace.of i)) :
    Visited σ.world (σ.trace.of i) rest := by
  refine Machine.Reach.invariant (fun w tr => ∀ {i event rest},
    Visiting event rest (tr.of i) → Visited w (tr.of i) rest) reach ?_ ?_ ?_ visiting
  · intro i event rest visiting
    cases visiting
  · intro σ i env job op next r w reach task _ performed inv k event rest now
    have performed := serverExec_exec performed
    by_cases hk : i = k
    · subst hk
      rw [Trace.of_cons_self] at now ⊢
      rcases now.back with heq | ⟨entry, before, rfl⟩
      · -- the copy was made just now
        cases heq
        obtain ⟨clients, iterated, heq⟩ := Option.map_eq_some_iff.mp performed
        cases heq
        generalize σ.trace.of i = h at now ⊢
        cases now
        exact ⟨env.clientOrder, [], iterated, rfl⟩
      · obtain ⟨order, visited, iterated, sent⟩ := inv before
        have still := clients_of_guarded performed
          (guarded_of_holding reach ⟨event, _, before⟩)
        refine ⟨order, visited ++ [entry], ?_, ?_⟩
        · rw [still, iterated, List.append_assoc, List.singleton_append]
        · rw [List.map_append, sent, sentTo_cons]
          rfl
    · rw [Trace.of_cons_ne _ hk] at now ⊢
      obtain ⟨order, visited, iterated, sent⟩ := inv now
      have still := clients_of_guarded performed (guarded_of_holding reach ⟨event, rest, now⟩)
      exact ⟨order, visited, still ▸ iterated, sent⟩
  · intro x w w' job tr moved inv i event rest now
    obtain ⟨order, visited, iterated, sent⟩ := inv now
    have same : w'.clients = w.clients := congrArg State.connectedClients (move_state moved)
    exact ⟨order, visited, same ▸ iterated, sent⟩

/-- **Exact broadcasts**: an event is sent to a client that is connected, over the channel it is
connected by; a broadcast that drops its guard has addressed each connected client once, and
nobody else; and while a broadcast holds the guard, no step changes the connected clients. -/
structure ExactBroadcasts (parse : String → Option Uuid) (timing : Timing) (σ : ServerConfig R) :
    Prop where
  current : ∀ {i client tx event}, AboutTo σ i (.send client tx (.sourceEvent event)) →
    σ.world.state.txOf client = some tx
  complete : ∀ {i event}, AboutTo σ i (.dropClients event) →
    (∀ client tx, (client, tx) ∈ sentTo (σ.trace.of i) ↔ σ.world.state.txOf client = some tx) ∧
      ((sentTo (σ.trace.of i)).map Prod.fst).Nodup
  still : ∀ {i}, Holding (σ.trace.of i) → ∀ {ℓ : ServerLabel R} {σ' : ServerConfig R},
    (server R parse timing).step σ ℓ = some σ' → σ'.world.clients = σ.world.clients

/-- **Exact broadcasts**, in every run. -/
theorem exactBroadcasts_of_reach (reach : ReachIf parse timing repository anyOp σ) :
    ExactBroadcasts parse timing σ := by
  refine ⟨?_, ?_, ?_⟩
  · rintro i client tx event ⟨job, next, task⟩
    have site := broadcastSite_of_broadcast reach task rfl
    generalize hh : σ.trace.of i = h at site
    cases site with
    | send visiting =>
      have connected := (visited_reach reach (hh ▸ visiting)).connected List.mem_cons_self
      exact State.txOf_eq_some.mpr ⟨_, connected, rfl⟩
  · rintro i event ⟨job, next, task⟩
    have site := broadcastSite_of_broadcast reach task rfl
    generalize hh : σ.trace.of i = h at site
    cases site with
    | drop visiting =>
      have visited := visited_reach reach (hh ▸ visiting)
      rw [hh] at visited
      refine ⟨visited.complete, ?_⟩
      simpa using visited.once
  · intro i holding ℓ σ' stepped
    cases Machine.step_cases stepped with
    | act _ performed =>
      exact clients_of_guarded (serverExec_exec performed) (guarded_of_holding reach holding)
    | loop => rfl
    | ext moved => exact congrArg State.connectedClients (move_state moved)

end Reach

section Scenario

open Scenario

/-- A broadcast that has sent its event to the one client, and is about to drop the guard. -/
theorem exactBroadcasts_publication : ∃ σ,
    published (fun _ _ => true) publication.dropLast = some σ ∧
      sentTo (σ.trace.of 2) = [(alice, 0)] ∧
      ExactBroadcasts Scenario.parse Scenario.timing σ := by
  have one : (published (fun _ _ => true) publication.dropLast).map
      (fun σ => sentTo (σ.trace.of 2)) = some [(alice, 0)] := by
    decide +kernel
  obtain ⟨σ, run, sent⟩ := Option.map_eq_some_iff.mp one
  refine ⟨σ, run, sent, exactBroadcasts_of_reach (reach_published ?_ run)⟩
  exact fun _ _ _ _ _ _ _ _ => trivial

end Scenario

end Revent
