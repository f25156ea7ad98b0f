import Revent.Laws.Browsing
import Revent.Laws.ClientLinks

/-!
# What the REST API shows of a run

`get_clients_page` reads the clients at one moment, and `get_client_by_id` reads a client at one
moment and its queries at a later one, with any operations of the tasks in between. Each answer is
what the trace says at its moment (`showsRun_of_reach`): the two reads of one answer may be out of
step with each other, but neither shows anything that was not so.
-/

namespace Revent

open Interleave (Machine Standing)

variable {R : Type}

/-- What a read of the handler table may find for each client. -/
def ReadsHandlers (w : World R) (queryHandlers : ClientId → List QueryId) : Prop :=
  ∀ clientId, ∃ order,
    w.state.queryHandlers.getQueryHandlersForClientId order clientId = some (queryHandlers clientId)

/-- **The REST API shows the run**, with the clients read at one moment and the handlers at another.
A client is found exactly where its entry was inserted and not removed since, with the queries that
it declared without being dropped since, each once; the pages hold the clients that are found, in
the order of their ids. -/
structure ShowsRun (σ₁ σ₂ : ServerConfig R) : Prop where
  found : ∀ url clientId queryHandlers now, clientIdOf url = some clientId.val →
    ReadsHandlers σ₂.world queryHandlers → Standing (Enters clientId) (Leaves clientId) σ₁.trace →
    ∃ dto, getClient url σ₁.world.clients queryHandlers now = some (.ok dto) ∧
      dto.id = clientId.val ∧ dto.queryHandlers.Nodup ∧
      ∀ query : QueryId, query.val ∈ dto.queryHandlers ↔
        Standing (Declares clientId query) (Drops clientId) σ₂.trace
  missing : ∀ url clientId queryHandlers now, clientIdOf url = some clientId.val →
    ¬ Standing (Enters clientId) (Leaves clientId) σ₁.trace →
    getClient url σ₁.world.clients queryHandlers now =
      some (.error (.error (.notFound ("Client with id " ++ clientId.val ++ " not found")
        [⟨"notFound", "Client with id " ++ clientId.val ++ " not found", "path"⟩])))
  page : ∀ entries offset limit page, Iterates σ₁.world.clients entries →
    getClientsPage (.ok ⟨offset, limit⟩) entries = .ok page →
    ∃ ids : List ClientId, ids.Pairwise (· < ·) ∧
      (∀ clientId, clientId ∈ ids ↔ Standing (Enters clientId) (Leaves clientId) σ₁.trace) ∧
      page.content.map (·.id) = (Lists.window ids offset limit).map (·.val) ∧
      page.totalElements = ids.length

/-! ## The two reads -/

/-- The answer for a URL that hands over a valid id. -/
theorem getClient_of_clientIdOf {url : String} {clientId : ClientId}
    (taken : clientIdOf url = some clientId.val) (clients : HashMap ClientId ClientInfo)
    (queryHandlers : ClientId → List QueryId) (now : Instant) :
    getClient url clients queryHandlers now =
      some ((ClientsHandler.getClientById clientId.val clients queryHandlers now).mapError
        .error) := by
  obtain ⟨segment, segments, decoded⟩ := Option.bind_eq_some_iff.mp taken
  simp only [getClient, segments, Option.map_some, decoded]

/-- The queries of an answer, as ids. -/
theorem mem_map_val_iff {queries : List QueryId} {query : QueryId} :
    query.val ∈ queries.map (·.val) ↔ query ∈ queries := by
  rw [List.mem_map]
  constructor
  · rintro ⟨query', mem, same⟩
    rwa [← QueryId.val_injective same]
  · exact fun mem => ⟨query, mem, rfl⟩

variable [Repository R] {parse : String → Option Uuid} {timing : Timing} {repository : R}
  {ok : ServerConfig R → ServerLabel R → Prop} {σ σ₁ σ₂ : ServerConfig R} {clientId : ClientId}

/-- Who is connected, by the trace. -/
theorem connected_iff_standing
    (reach : (server R parse timing).Reach ok (initial parse timing repository) σ) :
    clientId ∈ σ.world.clients ↔ Standing (Enters clientId) (Leaves clientId) σ.trace := by
  refine (connectedLatch clientId).on_iff_standing reach rfl fun connected => ?_
  exact mem_clients_iff.mp connected rfl

/-- Who is listed, by the trace. -/
theorem listed_iff_standing {query : QueryId}
    (reach : (server R parse timing).Reach ok (initial parse timing repository) σ) :
    clientId ∈ σ.world.state.listed query ↔
      Standing (Declares clientId query) (Drops clientId) σ.trace :=
  (listedLatch clientId query).on_iff_standing reach rfl List.not_mem_nil

/-- **What the REST API shows**, at every two moments of every run. -/
theorem showsRun_of_reach
    (before : (server R parse timing).Reach ok (initial parse timing repository) σ₁)
    (between : (server R parse timing).Reach ok σ₁ σ₂) : ShowsRun σ₁ σ₂ := by
  have valid (clientId : ClientId) : ClientId.new clientId.val = .ok clientId :=
    ClientId.new_ok.mpr rfl
  refine ⟨?_, ?_, ?_⟩
  · intro url clientId queryHandlers now taken reads entered
    have connected := (connected_iff_standing before).mpr entered
    obtain ⟨info, found⟩ := Option.isSome_iff_exists.mp
      (Std.ExtTreeMap.mem_iff_isSome_getElem?.mp connected)
    obtain ⟨order, queries⟩ := reads clientId
    refine ⟨.of clientId info (queryHandlers clientId) now, ?_, rfl, ?_, fun query => ?_⟩
    · rw [getClient_of_clientIdOf taken]
      simp only [ClientsHandler.getClientById, valid, found]
      rfl
    · exact (QueryHandler.nodup_getQueryHandlersForClientId queries).map QueryId.val_injective
    · rw [← listed_iff_standing (before.trans between)]
      exact mem_map_val_iff.trans (QueryHandler.mem_getQueryHandlersForClientId queries query)
  · intro url clientId queryHandlers now taken absent
    rw [← connected_iff_standing before, Std.ExtTreeMap.mem_iff_isSome_getElem?,
      Option.not_isSome_iff_eq_none] at absent
    rw [getClient_of_clientIdOf taken]
    simp only [ClientsHandler.getClientById, valid, absent]
    rfl
  · intro entries offset limit page iterates got
    refine ⟨σ₁.world.clients.keys, ascending_keys _, fun clientId => ?_, ?_, ?_⟩
    · rw [Std.ExtTreeMap.mem_keys]
      exact connected_iff_standing before
    · rw [eq_pageAt_of_getClientsPage got, sortClients_of_iterates iterates,
        ← Std.ExtTreeMap.map_fst_toList_eq_keys]
      simp only [pageAt, Lists.window, List.map_take, List.map_drop, List.map_map]
      rfl
    · rw [eq_pageAt_of_getClientsPage got, sortClients_of_iterates iterates,
        ← Std.ExtTreeMap.map_fst_toList_eq_keys, List.length_map]
      rfl

section Scenario

open Scenario

/-- A client is connected at the first read, and leaves before the second one. -/
theorem showsRun_departure : ∃ σ₁ σ₂ : ServerConfig NoopSourceEventRepository,
    alice ∈ σ₁.world.clients ∧ alice ∉ σ₂.world.clients ∧ ShowsRun σ₁ σ₂ := by
  have run : (outcome (fun _ _ => true) ([opened] ++ registers 1 alice)).bind (fun σ₁ =>
      ((server _ Scenario.parse Scenario.timing).runIf (fun _ _ => true)
        [turn 1, turn 1, turn 1, turn 1] σ₁).map fun σ₂ =>
          (decide (alice ∈ σ₁.world.clients), decide (alice ∈ σ₂.world.clients))) =
      some (true, false) := by
    decide +kernel
  obtain ⟨σ₁, before, run⟩ := Option.bind_eq_some_iff.mp run
  obtain ⟨σ₂, between, facts⟩ := Option.map_eq_some_iff.mp run
  obtain ⟨connected, left⟩ := Prod.mk.inj facts
  have anyway (σ : ServerConfig NoopSourceEventRepository)
      (ℓ : ServerLabel NoopSourceEventRepository) (_ : true = true) : True := trivial
  exact ⟨σ₁, σ₂, of_decide_eq_true connected, of_decide_eq_false left,
    showsRun_of_reach (Machine.reach_of_runIf anyway before)
      (Machine.reach_of_runIf anyway between)⟩

end Scenario

end Revent
