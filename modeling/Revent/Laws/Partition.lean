import Revent.Laws.Pages
import Revent.Lists.Windows

/-!
# The pages of the clients

`get_connected_clients` sorts the clients by their ids, and a page is a window of that list. The
ids are unique, so the order in which the map is iterated leaves no trace, and pages one limit
apart partition the clients.
-/

namespace Revent

/-- `isize::MAX`: a `Vec` has no more elements than that. -/
def isizeMax : Nat := 2 ^ 63 - 1

/-- The clients of a page. -/
def entriesOf (page : PageResponse (HashMap ClientId ClientInfo)) : List (ClientId × ClientInfo) :=
  page.items.flatMap (·.toList)

/-- **A page of the sorted clients**: those from the offset on, as many as the limit, each in a map
of its own, and the number of all. -/
structure IsPageOf (sorted : List (ClientId × ClientInfo)) (offset limit : Nat)
    (page : PageResponse (HashMap ClientId ClientInfo)) : Prop where
  items : page.items.map (·.toList) = (Lists.window sorted offset limit).map ([·])
  totalCount : page.totalCount = sorted.length

/-- **The pages of a limit** partition the clients, whatever the orders in which they are iterated.
An offset above what the endpoint accepts is answered too, if the clients are no more than a `Vec`
holds. -/
structure Paginates (clients : HashMap ClientId ClientInfo) (limit : Nat)
    (sorted : List (ClientId × ClientInfo)) : Prop where
  ascending : sorted.Pairwise fun a b => a.1 < b.1
  mem : ∀ clientId info, (clientId, info) ∈ sorted ↔ clients[clientId]? = some info
  count : sorted.length = clients.size
  page : ∀ entries offset, Iterates clients entries →
    offset ≤ maxOffset ∨ clients.size ≤ isizeMax →
    ∃ page, getConnectedClients entries ⟨offset, limit⟩ = .ok page ∧
      IsPageOf sorted offset limit page
  alike : ∀ entries entries' pageRequest, Iterates clients entries → Iterates clients entries' →
    getConnectedClients entries pageRequest = getConnectedClients entries' pageRequest
  whole : ∀ (visit : Nat → List (ClientId × ClientInfo))
    (pages : Nat → PageResponse (HashMap ClientId ClientInfo)) (count : Nat),
    (∀ k, Iterates clients (visit k)) →
    (∀ k < count, getConnectedClients (visit k) ⟨k * limit, limit⟩ = .ok (pages k)) →
    clients.size ≤ count * limit →
    (List.range count).flatMap (fun k => entriesOf (pages k)) = sorted
  disjoint : ∀ i j entries entries' page page', i ≠ j → Iterates clients entries →
    Iterates clients entries' → getConnectedClients entries ⟨i * limit, limit⟩ = .ok page →
    getConnectedClients entries' ⟨j * limit, limit⟩ = .ok page' →
    (entriesOf page).Disjoint (entriesOf page')

variable {clients : HashMap ClientId ClientInfo} {entries entries' : List (ClientId × ClientInfo)}
  {sorted : List (ClientId × ClientInfo)} {offset limit : Nat}
  {page : PageResponse (HashMap ClientId ClientInfo)}

/-- The clients of a page of the sorted ones. -/
theorem IsPageOf.entriesOf (isPage : IsPageOf sorted offset limit page) :
    entriesOf page = Lists.window sorted offset limit := by
  rw [Revent.entriesOf, List.flatMap_def, isPage.items, ← List.flatMap_def]
  exact List.flatMap_singleton' _

/-- A page within the range of a `usize`. -/
theorem getConnectedClients_isPageOf (iterates : Iterates clients entries)
    (fits : offset < clients.size → offset + limit < 2 ^ 64) :
    ∃ page, getConnectedClients entries ⟨offset, limit⟩ = .ok page ∧
      IsPageOf clients.toList offset limit page := by
  have sorted := sortClients_of_iterates iterates
  have length : entries.length = clients.size := by
    rw [← length_sortClients, sorted, Std.ExtTreeMap.length_toList]
  refine ⟨_, getConnectedClients_eq (by rwa [length]), ?_, ?_⟩
  · rw [sorted, List.map_map, Lists.window]
    exact List.map_congr_left fun entry _ => toList_singletonMap entry
  · rw [length, Std.ExtTreeMap.length_toList]

/-- Every page that is answered is a page of the sorted clients. -/
theorem isPageOf_of_getConnectedClients (iterates : Iterates clients entries) (pos : 1 ≤ limit)
    (got : getConnectedClients entries ⟨offset, limit⟩ = .ok page) :
    IsPageOf clients.toList offset limit page := by
  have length : entries.length = clients.size := by
    rw [← length_sortClients, sortClients_of_iterates iterates, Std.ExtTreeMap.length_toList]
  have fits := fits_of_getConnectedClients pos got
  rw [length] at fits
  obtain ⟨page', got', isPage⟩ := getConnectedClients_isPageOf iterates fits
  cases got.symm.trans got'
  exact isPage

theorem getConnectedClients_alike (iterates : Iterates clients entries)
    (iterates' : Iterates clients entries') (pageRequest : PageRequest) :
    getConnectedClients entries pageRequest = getConnectedClients entries' pageRequest := by
  have sorted : sortClients entries = sortClients entries' :=
    (sortClients_of_iterates iterates).trans (sortClients_of_iterates iterates').symm
  have length : entries.length = entries'.length := by
    rw [← length_sortClients entries, sorted, length_sortClients]
  unfold getConnectedClients
  rw [sorted, length]

/-- **The pages of every accepted limit** partition the clients. -/
theorem paginates (limits : 1 ≤ limit ∧ limit ≤ maxLimit) :
    Paginates clients limit clients.toList where
  ascending := ascending_toList clients
  mem _ _ := Std.ExtTreeMap.mem_toList_iff_getElem?_eq_some
  count := Std.ExtTreeMap.length_toList
  page entries offset iterates bound := by
    refine getConnectedClients_isPageOf iterates fun inside => ?_
    unfold maxOffset maxLimit isizeMax at *
    omega
  alike _ _ pageRequest iterates iterates' :=
    getConnectedClients_alike iterates iterates' pageRequest
  whole visit pages count iterates answered enough := by
    have windows (k : Nat) (mem : k ∈ List.range count) :
        entriesOf (pages k) = Lists.window clients.toList (k * limit) limit := by
      have got := answered k (List.mem_range.mp mem)
      exact (isPageOf_of_getConnectedClients (iterates k) limits.1 got).entriesOf
    rw [List.flatMap_congr windows, Lists.flatMap_window]
    apply List.take_of_length_le
    rw [Std.ExtTreeMap.length_toList]
    exact enough
  disjoint i j entries entries' page page' differ iterates iterates' got got' := by
    rw [(isPageOf_of_getConnectedClients iterates limits.1 got).entriesOf,
      (isPageOf_of_getConnectedClients iterates' limits.1 got').entriesOf]
    have once : clients.toList.Nodup := by
      refine (ascending_toList clients).imp fun lt same => ?_
      rw [same] at lt
      exact lt_irrefl _ lt
    rcases Nat.lt_or_gt_of_ne differ with less | more
    · apply Lists.disjoint_window once
      rw [← Nat.succ_mul]
      exact Nat.mul_le_mul_right limit less
    · apply List.Disjoint.symm
      apply Lists.disjoint_window once
      rw [← Nat.succ_mul]
      exact Nat.mul_le_mul_right limit more

section Scenario

open Scenario

/-- Two clients, and pages of one. -/
theorem paginates_two :
    Paginates (((∅ : HashMap ClientId ClientInfo).insert alice someInfo).insert bob someInfo) 1
      [(alice, someInfo), (bob, someInfo)] := by
  have sorted : (((∅ : HashMap ClientId ClientInfo).insert alice someInfo).insert bob
      someInfo).toList = [(alice, someInfo), (bob, someInfo)] := by
    decide +kernel
  rw [← sorted]
  exact paginates (by decide)

end Scenario

end Revent
