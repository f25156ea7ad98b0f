import Revent.Domain.Messages
import Revent.Runtime.World

/-!
# Pages of connected clients

`PageRequest` and `PageResponse` of `domain/mod.rs`, and `get_connected_clients` of
`domain/state.rs`. The map of the clients enters as the entries it iterates over, in whatever
order; its length is theirs. A `usize` is a `Nat` below 2^64 here, and what would leave that range,
or a slice of positions that do not exist, panics.
-/

namespace Revent

/-- Why a request's task panics. -/
inductive Panic where
  | addWithOverflow
  | rangeOutOfBounds
  deriving DecidableEq

/-- `a + b` of two `usize`s. -/
def usizeAdd (a b : Nat) : Except Panic Nat :=
  if a + b < 2 ^ 64 then .ok (a + b) else .error .addWithOverflow

/-- `&items[start..end]`. -/
def slice {α : Type} (items : List α) (start stop : Nat) : Except Panic (List α) :=
  if start ≤ stop ∧ stop ≤ items.length then .ok ((items.take stop).drop start)
  else .error .rangeOutOfBounds

/-- `PageRequest`. -/
structure PageRequest where
  offset : Nat
  limit : Nat
  deriving DecidableEq

/-- `PageResponse<T>`. -/
structure PageResponse (T : Type) where
  items : List T
  totalCount : Nat

/-- `sorted_clients.sort_by(|(a, _), (b, _)| a.cmp(b))`. -/
def sortClients (clients : List (ClientId × ClientInfo)) : List (ClientId × ClientInfo) :=
  clients.insertionSort fun a b => a.1 ≤ b.1

/-- `HashMap::from([(client_id, client_info)])`. -/
def singletonMap (entry : ClientId × ClientInfo) : HashMap ClientId ClientInfo :=
  (∅ : HashMap ClientId ClientInfo).insert entry.1 entry.2

/-- `get_connected_clients`, of the clients in the order they are iterated in. -/
def getConnectedClients (connectedClients : List (ClientId × ClientInfo))
    (pageRequest : PageRequest) :
    Except Panic (PageResponse (HashMap ClientId ClientInfo)) :=
  let totalCount := connectedClients.length
  if pageRequest.limit = 0 ∨ totalCount = 0 then .ok ⟨[], totalCount⟩
  else
    let start := pageRequest.offset
    if start ≥ totalCount then .ok ⟨[], totalCount⟩
    else do
      let sortedClients := sortClients connectedClients
      let stop := min (← usizeAdd start pageRequest.limit) totalCount
      let items ← slice sortedClients start stop
      return ⟨items.map singletonMap, totalCount⟩

/-! ## What a page holds -/

/-- The entries of a map, as some iteration visits them. -/
def Iterates (clients : HashMap ClientId ClientInfo) (entries : List (ClientId × ClientInfo)) :
    Prop :=
  ∃ order, clients.iter order = some entries

variable {connectedClients : List (ClientId × ClientInfo)}

theorem slice_of_le {α : Type} {items : List α} {start stop : Nat}
    (bounds : start ≤ stop ∧ stop ≤ items.length) :
    slice items start stop = .ok ((items.take stop).drop start) := if_pos bounds

theorem sortClients_perm (connectedClients : List (ClientId × ClientInfo)) :
    (sortClients connectedClients).Perm connectedClients :=
  List.perm_insertionSort _ connectedClients

theorem length_sortClients (connectedClients : List (ClientId × ClientInfo)) :
    (sortClients connectedClients).length = connectedClients.length :=
  (sortClients_perm connectedClients).length_eq

/-- Whatever the order of the iteration, the sorted clients are the entries of the map in the
order of their ids. -/
theorem sortClients_of_iterates {clients : HashMap ClientId ClientInfo}
    (iterates : Iterates clients connectedClients) :
    sortClients connectedClients = clients.toList := by
  obtain ⟨order, hiter⟩ := iterates
  have perm := sortClients_perm connectedClients
  have once : ((sortClients connectedClients).map (·.1)).Nodup :=
    (perm.map _).nodup_iff.mpr (HashMap.iter_keys_nodup hiter)
  have le : (sortClients connectedClients).Pairwise fun a b => a.1 ≤ b.1 :=
    List.pairwise_insertionSort (fun a b => a.1 ≤ b.1) connectedClients
  have ascending : (sortClients connectedClients).Pairwise fun a b => compare a.1 b.1 = .lt := by
    refine (le.and (List.pairwise_map.mp once)).imp ?_
    rintro a b ⟨le, ne⟩
    exact compare_lt_iff_lt.mpr (lt_of_le_of_ne le ne)
  symm
  refine HashMap.toList_eq_of_ascending ascending fun clientId info => ?_
  rw [perm.mem_iff]
  exact HashMap.mem_iter hiter

/-- **A page**: the sorted clients from the offset on, as many as the limit, each in a map of its
own, with the number of all clients. -/
theorem getConnectedClients_eq {offset limit : Nat}
    (fits : offset < connectedClients.length → offset + limit < 2 ^ 64) :
    getConnectedClients connectedClients ⟨offset, limit⟩ =
      .ok ⟨(((sortClients connectedClients).drop offset).take limit).map singletonMap,
        connectedClients.length⟩ := by
  have length := length_sortClients connectedClients
  dsimp only [getConnectedClients]
  split
  · rename_i nothing
    rcases nothing with none_asked | nobody
    · rw [none_asked, List.take_zero]
      rfl
    · have sorted : sortClients connectedClients = [] := by
        rw [← List.length_eq_zero_iff, length]
        exact nobody
      rw [sorted, List.drop_nil, List.take_nil]
      rfl
  · split
    · rename_i past
      rw [List.drop_of_length_le (by omega), List.take_nil]
      rfl
    · rename_i inside
      have bounds : offset ≤ min (offset + limit) connectedClients.length ∧
          min (offset + limit) connectedClients.length ≤
            (sortClients connectedClients).length := by
        omega
      have window : ((sortClients connectedClients).take
          (min (offset + limit) connectedClients.length)).drop offset =
            ((sortClients connectedClients).drop offset).take limit := by
        rw [← length, ← List.take_eq_take_min, List.drop_take, Nat.add_sub_cancel_left]
      have stop : usizeAdd offset limit = .ok (offset + limit) := if_pos (fits (by omega))
      simp only [stop, bind, Except.bind, slice_of_le bounds, window, pure, Except.pure]

/-- A page that is answered did not overflow. -/
theorem fits_of_getConnectedClients {offset limit : Nat} (pos : 1 ≤ limit)
    {page : PageResponse (HashMap ClientId ClientInfo)}
    (got : getConnectedClients connectedClients ⟨offset, limit⟩ = .ok page)
    (inside : offset < connectedClients.length) : offset + limit < 2 ^ 64 := by
  by_contra past
  have overflows : usizeAdd offset limit = .error .addWithOverflow := if_neg past
  have clients : ¬ (limit = 0 ∨ connectedClients.length = 0) := by omega
  dsimp only [getConnectedClients] at got
  rw [if_neg clients, if_neg (Nat.not_le_of_lt inside), overflows] at got
  cases got

end Revent
