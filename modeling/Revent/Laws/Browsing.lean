import Revent.Laws.Latches
import Revent.Laws.Partition
import Revent.Lists.Ranks

/-!
# Browsing the clients while they come and go

Each page of `get_clients_page` is cut out of the clients that are connected when it is asked for,
at an offset that the page before was linked with. Between two pages of a walk clients register and
are removed, so the windows are windows of different lists. Where a client is in the list is how
many of the connected ids are below its own: removals below it move it towards pages that were
already read, registrations below it towards pages that come later (`browses_of_walk`).
-/

namespace Revent

open Interleave (Trace Machine Latch Since)

/-- A page lists a client. -/
def Page.Lists (page : Page ClientInPageDto) (clientId : ClientId) : Prop :=
  ∃ dto ∈ page.content, dto.id = clientId.val

/-- The client is connected. -/
def Connected {R : Type} (σ : ServerConfig R) (clientId : ClientId) : Prop :=
  clientId ∈ σ.world.clients

/-- **A walk in the course of a run**, with a page for each of the configurations. Nobody is listed
who was not connected when the page was asked for. A client that is connected from the first page
on is missed only if a client up to it was removed meanwhile, and one is listed twice only if a
client before it was registered meanwhile. -/
structure Browses {R : Type} (σs : Nat → ServerConfig R) (pages : List (Page ClientInPageDto)) :
    Prop where
  listed : ∀ clientId since, Connected (σs 0) clientId →
    (σs (pages.length - 1)).trace = since ++ (σs 0).trace →
    (∀ other ≤ clientId, ∀ entry ∈ since, ¬ Leaves other entry.2) →
    ∃ page ∈ pages, page.Lists clientId
  once : ∀ clientId since, (σs (pages.length - 1)).trace = since ++ (σs 0).trace →
    (∀ other < clientId, ∀ entry ∈ since, ¬ Enters other entry.2) →
    pages.Pairwise fun page later => ¬ (page.Lists clientId ∧ later.Lists clientId)
  connected : ∀ (k : Nat) page, pages[k]? = some page → ∀ dto ∈ page.content,
    ∃ clientId info, (σs k).world.clients[clientId]? = some info ∧ dto = .of (clientId, info)

/-! ## One page of the walk -/

variable {clients : HashMap ClientId ClientInfo} {entries : List (ClientId × ClientInfo)}
  {offset limit k : Nat} {clientId : ClientId}

theorem ascending_keys (clients : HashMap ClientId ClientInfo) :
    clients.keys.Pairwise (· < ·) := by
  rw [← Std.ExtTreeMap.map_fst_toList_eq_keys]
  exact List.pairwise_map.mpr (ascending_toList clients)

/-- A page lists the clients of a window. -/
theorem lists_pageAt_iff : (pageAt clients.toList offset limit).Lists clientId ↔
    clientId ∈ Lists.window clients.keys offset limit := by
  have window : Lists.window clients.keys offset limit =
      ((clients.toList.drop offset).take limit).map (·.1) := by
    rw [← Std.ExtTreeMap.map_fst_toList_eq_keys, Lists.window, List.map_take, List.map_drop]
  rw [window]
  constructor
  · rintro ⟨dto, mem, id⟩
    obtain ⟨entry, among, rfl⟩ := List.mem_map.mp mem
    exact List.mem_map.mpr ⟨entry, among, ClientId.val_injective id⟩
  · intro mem
    obtain ⟨entry, among, rfl⟩ := List.mem_map.mp mem
    exact ⟨_, List.mem_map_of_mem among, rfl⟩

/-- **What a page lists**, by the rank of the client among the connected ones. -/
theorem lists_iff_met {clients : Nat → HashMap ClientId ClientInfo} :
    (pageAt (clients k).toList (k * limit) limit).Lists clientId ↔ clientId ∈ clients k ∧
      Lists.Met limit (fun k => Lists.rank (clients k).keys clientId) k := by
  rw [lists_pageAt_iff, Lists.mem_window_iff_rank (ascending_keys _), Std.ExtTreeMap.mem_keys]
  rfl

variable {read : ReadQuery} {visit : Nat → List (ClientId × ClientInfo)}

/-- A link of a walk that is answered leads to the page of the clients connected then. -/
theorem eq_pageAt_of_getClients {page : Page ClientInPageDto} (reads : ReadsLinks read)
    (limits : 1 ≤ limit ∧ limit ≤ maxLimit) (near : offset ≤ maxOffset + limit)
    (iterates : Iterates clients entries)
    (got : getClients read (pageLink clientsPath offset limit) entries = some (.ok page)) :
    offset ≤ maxOffset ∧ page = pageAt clients.toList offset limit := by
  have fits : offset < 2 ^ 64 ∧ limit < 2 ^ 64 := by
    unfold maxOffset maxLimit at *
    omega
  rw [getClients_pageLink reads fits.1 fits.2] at got
  have page := eq_pageAt_of_getClientsPage (Option.some.inj got)
  rw [sortClients_of_iterates iterates] at page
  exact ⟨(bounds_of_getClientsPage (Option.some.inj got)).1, page⟩

/-- **The pages of a walk** are windows one after the other, each of the clients at its own visit,
and the last one ends behind the clients that are connected then. -/
theorem pages_of_walk {clients : Nat → HashMap ClientId ClientInfo} {url : String}
    {pages : List (Page ClientInPageDto)} (reads : ReadsLinks read)
    (limits : 1 ≤ limit ∧ limit ≤ maxLimit) (iterates : ∀ k, Iterates (clients k) (visit k))
    (walk : Walk read visit k url pages) (link : url = pageLink clientsPath (k * limit) limit)
    (near : k * limit ≤ maxOffset + limit) :
    (∀ i page, pages[i]? = some page →
      page = pageAt (clients (k + i)).toList ((k + i) * limit) limit) ∧
    ∃ last, pages.length = last + 1 ∧
      (clients (k + last)).toList.length ≤ (k + last) * limit + limit := by
  induction walk with
  | @last k url page got ends =>
    subst link
    obtain ⟨-, rfl⟩ := eq_pageAt_of_getClients reads limits near (iterates k) got
    refine ⟨fun i page found => ?_, 0, rfl, ?_⟩
    · rcases List.getElem?_eq_some_iff.mp found with ⟨inside, rfl⟩
      have first : i = 0 := by simpa using inside
      subst first
      rfl
    · by_contra past
      cases ends.symm.trans (if_pos (Nat.lt_of_not_le past))
  | @next k url link' page pages got follows rest ih =>
    subst link
    obtain ⟨within, rfl⟩ := eq_pageAt_of_getClients reads limits near (iterates k) got
    have more : k * limit + limit < (clients k).toList.length := by
      by_contra past
      cases follows.symm.trans (if_neg past)
    have link := Option.some.inj (follows.symm.trans (if_pos more))
    rw [← Nat.succ_mul] at link
    obtain ⟨windows, last, length, ends⟩ := ih link (by rw [Nat.succ_mul]; omega)
    refine ⟨fun i page found => ?_, last + 1, by rw [List.length_cons, length], ?_⟩
    · cases i with
      | zero => exact (Option.some.inj found).symm
      | succ i =>
        have later := windows i page found
        rwa [Nat.add_assoc, Nat.add_comm 1 i] at later
    · rwa [Nat.add_assoc, Nat.add_comm 1 last] at ends

/-! ## The walk -/

variable {R : Type} [Repository R] {parse : String → Option Uuid} {timing : Timing}
  {ok : ServerConfig R → ServerLabel R → Prop} {σs : Nat → ServerConfig R}
  {pages : List (Page ClientInPageDto)}

/-- Between two visits there is a run, and what it performed is among what all of them did. -/
theorem visits_between (run : ∀ k, (server R parse timing).Reach ok (σs k) (σs (k + 1)))
    {last : Nat} {since : Trace Op Ret} (grown : (σs last).trace = since ++ (σs 0).trace)
    {k : Nat} (before : k < last) :
    ∃ between, (σs (k + 1)).trace = between ++ (σs k).trace ∧ ∀ entry ∈ between, entry ∈ since := by
  have grows (i j : Nat) : ∃ between, (σs (i + j)).trace = between ++ (σs i).trace := by
    induction j with
    | zero => exact ⟨[], rfl⟩
    | succ j ih =>
      obtain ⟨between, grown⟩ := ih
      obtain ⟨newer, step⟩ := (run (i + j)).trace_grows
      exact ⟨newer ++ between, by rw [← Nat.add_assoc, step, grown, List.append_assoc]⟩
  obtain ⟨older, first⟩ := grows 0 k
  obtain ⟨between, here⟩ := grows k 1
  obtain ⟨newer, rest⟩ := grows (k + 1) (last - (k + 1))
  rw [Nat.zero_add] at first
  rw [Nat.add_sub_cancel' before, here, first] at rest
  have whole : since = newer ++ (between ++ older) := by
    apply List.append_cancel_right
    rw [← grown, rest]
    simp only [List.append_assoc]
  refine ⟨between, here, fun entry among => ?_⟩
  rw [whole]
  exact List.mem_append_right _ (List.mem_append_left _ among)

/-- **Following the next links in the course of a run.** -/
theorem browses_of_walk (reads : ReadsLinks read) (limits : 1 ≤ limit ∧ limit ≤ maxLimit)
    (run : ∀ k, (server R parse timing).Reach ok (σs k) (σs (k + 1)))
    (iterates : ∀ k, Iterates (σs k).world.clients (visit k))
    (walk : Walk read visit 0 (pageLink clientsPath 0 limit) pages) : Browses σs pages := by
  obtain ⟨windows, last, length, ends⟩ := pages_of_walk reads limits iterates walk
    (by rw [Nat.zero_mul]) (by rw [Nat.zero_mul]; exact Nat.zero_le _)
  simp only [Nat.zero_add] at windows ends
  have final : pages.length - 1 = last := by omega
  -- the rank of a client, at each visit
  let ranks (clientId : ClientId) (k : Nat) := Lists.rank (σs k).world.clients.keys clientId
  refine ⟨?_, ?_, ?_⟩
  · intro clientId since first grown kept
    rw [final] at grown
    have step {other : ClientId} (le : other ≤ clientId) {k : Nat} (before : k < last)
        (there : Connected (σs k) other) : Connected (σs (k + 1)) other := by
      obtain ⟨between, here, among⟩ := visits_between run grown before
      apply ((connectedLatch other).on_iff_since (run k) here).mpr
      exact Since.of_kept there fun entry mem => kept other le entry (among entry mem)
    have stays (k : Nat) (le : k ≤ last) : Connected (σs k) clientId := by
      induction k with
      | zero => exact first
      | succ k ih => exact step (le_refl clientId) le (ih (Nat.le_of_succ_le le))
    have grows : ∀ k < last, ranks clientId k ≤ ranks clientId (k + 1) := by
      intro k before
      apply Lists.rank_le_rank (ascending_keys _)
      intro other less mem
      rw [Std.ExtTreeMap.mem_keys] at mem ⊢
      exact step (le_of_lt less) before mem
    have past : ranks clientId last < last * limit + limit := by
      refine Nat.lt_of_lt_of_le (Lists.rank_lt_length (ascending_keys _) ?_) ?_
      · exact Std.ExtTreeMap.mem_keys.mpr (stays last (Nat.le_refl last))
      · rw [Std.ExtTreeMap.length_keys, ← Std.ExtTreeMap.length_toList]
        exact ends
    obtain ⟨k, le, met⟩ := Lists.exists_met grows past
    have inside : k < pages.length := by omega
    refine ⟨pages[k], List.getElem_mem inside, ?_⟩
    rw [windows k _ (List.getElem?_eq_getElem inside)]
    exact lists_iff_met.mpr ⟨stays k le, met⟩
  · intro clientId since grown apart
    rw [final] at grown
    have falls : ∀ k < last, ranks clientId (k + 1) ≤ ranks clientId k := by
      intro k before
      obtain ⟨between, here, among⟩ := visits_between run grown before
      apply Lists.rank_le_rank (ascending_keys _)
      intro other less mem
      rw [Std.ExtTreeMap.mem_keys] at mem ⊢
      refine Since.before_of (((connectedLatch other).on_iff_since (run k) here).mp mem) ?_
      exact fun entry mem => apart other less entry (among entry mem)
    rw [List.pairwise_iff_getElem]
    rintro i j hi hj less ⟨listed, again⟩
    rw [windows i _ (List.getElem?_eq_getElem hi)] at listed
    rw [windows j _ (List.getElem?_eq_getElem hj)] at again
    exact Lists.met_once falls less (by omega) (lists_iff_met.mp listed).2
      (lists_iff_met.mp again).2
  · intro k page found dto mem
    rw [windows k page found] at mem
    obtain ⟨entry, among, rfl⟩ := List.mem_map.mp mem
    refine ⟨entry.1, entry.2, ?_, rfl⟩
    exact Std.ExtTreeMap.mem_toList_iff_getElem?_eq_some.mp
      (List.mem_of_mem_drop (List.mem_of_mem_take among))

section Scenario

open Scenario

/-- A third client id. -/
def Scenario.carol : ClientId := ⟨"carol", by decide⟩

/-- Some order in which a map may be iterated. -/
theorem Scenario.exists_iterates (clients : HashMap ClientId ClientInfo) :
    ∃ entries, Iterates clients entries :=
  ⟨_, clients.keys, if_pos (List.Perm.refl _)⟩

/-- Two clients are connected at the first page, and a third one registers before the second. -/
theorem browses_arrival : ∃ (σs : Nat → ServerConfig NoopSourceEventRepository)
    (pages : List (Page ClientInPageDto)), pages.length = 3 ∧ Browses σs pages := by
  have run : (outcome (fun _ _ => true) ([opened, opened, opened] ++ registers 1 alice ++
      registers 2 bob)).bind (fun σ =>
        ((server _ Scenario.parse Scenario.timing).runIf (fun _ _ => true) (registers 3 carol)
          σ).map fun σ' => (σ.world.clients.toList.length, σ'.world.clients.toList.length)) =
      some (2, 3) := by
    decide +kernel
  obtain ⟨σ, -, run⟩ := Option.bind_eq_some_iff.mp run
  obtain ⟨σ', later, counts⟩ := Option.map_eq_some_iff.mp run
  obtain ⟨two, three⟩ := Prod.mk.inj counts
  let σs (k : Nat) := if k = 0 then σ else σ'
  choose visit iterates using fun k => exists_iterates (σs k).world.clients
  have got (k : Nat) (few : k ≤ maxOffset) : getClients readLinkQuery (pageLink clientsPath k 1)
      (visit k) = some (.ok (pageAt (σs k).world.clients.toList k 1)) := by
    rw [← sortClients_of_iterates (iterates k)]
    exact getClients_of_bounds readsLinks_readLinkQuery ⟨few, by decide⟩ (visit k)
  have anyway (σ : ServerConfig NoopSourceEventRepository)
      (ℓ : ServerLabel NoopSourceEventRepository) (_ : true = true) : True := trivial
  have between (k : Nat) : (server _ Scenario.parse Scenario.timing).Reach (fun _ _ => True)
      (σs k) (σs (k + 1)) := by
    cases k with
    | zero => exact Machine.reach_of_runIf anyway later
    | succ k => exact .init
  have follows (k : Nat) (more : k + 1 < (σs k).world.clients.toList.length) :
      (pageAt (σs k).world.clients.toList k 1).next = some (pageLink clientsPath (k + 1) 1) :=
    if_pos more
  have ends : (pageAt (σs 2).world.clients.toList 2 1).next = none :=
    if_neg (three.symm ▸ Nat.lt_irrefl 3)
  refine ⟨σs, _, ?_, browses_of_walk readsLinks_readLinkQuery (by decide) between iterates
    (.next (got 0 (by decide)) (follows 0 (two.symm ▸ by decide))
      (.next (got 1 (by decide)) (follows 1 (three.symm ▸ by decide))
        (.last (got 2 (by decide)) ends)))⟩
  rfl

end Scenario

end Revent
