import Revent.Interleave.Latch
import Revent.Laws.Effects

/-!
# What the trace says of the registry

A client is connected from the insertion of its entry to its removal, and listed for a query from
the update of the handler table that declares it to the one that drops the client. Both are latches,
so in every run they are what the trace says, however the tasks were interleaved.
-/

namespace Revent

open Interleave (Event Latch)

variable {R : Type} [Repository R] {parse : String → Option Uuid} {timing : Timing}

/-- The entry of a client is inserted. -/
def Enters (clientId : ClientId) (ev : Event Op Ret) : Prop :=
  ∃ msg, ev.op = .insertClient msg ∧ msg.clientId = clientId

/-- The entry of a client is removed. -/
def Leaves (clientId : ClientId) (ev : Event Op Ret) : Prop := ev.op = .removeClient clientId

/-- The handler table is told that a client handles a query. -/
def Declares (clientId : ClientId) (query : QueryId) (ev : Event Op Ret) : Prop :=
  ∃ msg, ev.op = .addClientQueryHandler msg ∧ msg.clientId = clientId ∧ query ∈ msg.queryHandlers

/-- The handler table drops a client. -/
def Drops (clientId : ClientId) (ev : Event Op Ret) : Prop := ev.op = .disconnectClient clientId

omit [Repository R] in
theorem mem_clients_iff {w : World R} {clientId : ClientId} :
    clientId ∈ w.clients ↔ w.state.txOf clientId ≠ none := by
  rw [ne_eq, State.txOf_eq_none]
  exact Std.ExtTreeMap.mem_iff_isSome_getElem?.trans Option.isSome_iff_ne_none

/-- Who is connected after an operation. -/
theorem mem_clients_exec {op : Op} {env : Env R} {w w' : World R} {r : Ret op}
    (performed : exec op env w = some (r, w')) (clientId : ClientId) : clientId ∈ w'.clients ↔
      Enters clientId ⟨op, r⟩ ∨ ¬ Leaves clientId ⟨op, r⟩ ∧ clientId ∈ w.clients := by
  rw [mem_clients_iff, mem_clients_iff, txOf_exec performed]
  cases op with
  | insertClient msg =>
    by_cases same : msg.clientId = clientId
    · simp [txAfter, Enters, same]
    · simp [txAfter, Enters, Leaves, same]
  | removeClient removed =>
    by_cases same : removed = clientId
    · simp [txAfter, Enters, Leaves, same]
    · simp [txAfter, Enters, Leaves, same]
  | _ => simp [txAfter, Enters, Leaves]

/-- Who is listed for a query after an operation. -/
theorem mem_listed_exec {op : Op} {env : Env R} {w w' : World R} {r : Ret op}
    (performed : exec op env w = some (r, w')) (clientId : ClientId) (query : QueryId) :
    clientId ∈ w'.state.listed query ↔ Declares clientId query ⟨op, r⟩ ∨
      ¬ Drops clientId ⟨op, r⟩ ∧ clientId ∈ w.state.listed query := by
  rw [listed_exec performed]
  cases op with
  | addClientQueryHandler msg =>
    by_cases same : msg.clientId = clientId
    · simp [listedAfter, Declares, Drops, same, or_comm, List.count_eq_zero]
    · have other : clientId ≠ msg.clientId := fun here => same here.symm
      simp [listedAfter, Declares, Drops, same, other]
  | disconnectClient removed =>
    by_cases same : removed = clientId
    · simp [listedAfter, Declares, Drops, same]
    · have other : clientId ≠ removed := fun here => same here.symm
      simp [listedAfter, Declares, Drops, same, other]
  | _ => simp [listedAfter, Declares, Drops]

/-- **Being connected** is a latch. -/
def connectedLatch (clientId : ClientId) : Latch (server R parse timing) where
  on w := clientId ∈ w.clients
  sets := Enters clientId
  clears := Leaves clientId
  act performed := mem_clients_exec (serverExec_exec performed) clientId
  move moved := by
    rw [mem_clients_iff, mem_clients_iff, move_state moved]

/-- **Being listed for a query** is a latch. -/
def listedLatch (clientId : ClientId) (query : QueryId) : Latch (server R parse timing) where
  on w := clientId ∈ w.state.listed query
  sets := Declares clientId query
  clears := Drops clientId
  act performed := mem_listed_exec (serverExec_exec performed) clientId query
  move moved := by
    rw [move_state moved]

end Revent
