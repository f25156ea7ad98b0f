import Revent.Domain.Ids
import Revent.Runtime.World

/-!
# The table of source events

`db/mod.rs` over `resources/migrations/01_create_source_event_table.sql`: the one statement of
`save_source_event`, in a transaction of its own. SQLite executes the transactions one after the
other, so a save is a function on the table; what it meets besides the table, the UUID it draws
and where the database fails by itself, is its `Saving`.

The constraints of the table are the fields of `SourceEventTable`. `BIGINT` ends at 2^63, which is
more rows than a database file holds, and a clock is a `Nat` here.
-/

namespace Revent

/-! ## Rows -/

/-- `length(..)` of a text: the characters before the first NUL. -/
def sqlLength (text : String) : Nat := (text.toList.takeWhile (· ≠ '\x00')).length

/-- `CHECK (length(aggregate) >= 3 AND length(aggregate) < 255)`. -/
def Storable (aggregate : String) : Prop := 3 ≤ sqlLength aggregate ∧ sqlLength aggregate < 255

instance (aggregate : String) : Decidable (Storable aggregate) := by
  unfold Storable
  infer_instance

/-- A row of `source_event`. -/
structure SourceEventRow where
  id : String
  createdAt : SystemTime
  monotonicClock : Nat
  aggregate : String
  aggregateId : String
  payload : EventPayload
  check : Storable aggregate
  deriving DecidableEq

/-- The table `source_event`: its rows in the order they were committed. -/
structure SourceEventTable where
  rows : List SourceEventRow
  /-- `id UUID PRIMARY KEY`. -/
  primaryKey : (rows.map (·.id)).Nodup
  /-- `monotonic_clock BIGINT UNIQUE NOT NULL`. -/
  unique : (rows.map (·.monotonicClock)).Nodup
  deriving DecidableEq

namespace SourceEventTable

/-- The table `migrate` creates. -/
def empty : SourceEventTable := ⟨[], List.nodup_nil, List.nodup_nil⟩

/-- `COALESCE(MAX(monotonic_clock), 0)`. -/
def maxClock (table : SourceEventTable) : Nat := (table.rows.map (·.monotonicClock)).foldr max 0

theorem le_maxClock {table : SourceEventTable} {row : SourceEventRow} (mem : row ∈ table.rows) :
    row.monotonicClock ≤ table.maxClock :=
  List.le_max_of_le (List.mem_map_of_mem mem) (Nat.le_refl _)

/-- A table with one more row, of a new id and a larger clock. -/
def push (table : SourceEventTable) (row : SourceEventRow)
    (fresh : row.id ∉ table.rows.map (·.id)) (later : table.maxClock < row.monotonicClock) :
    SourceEventTable where
  rows := table.rows ++ [row]
  primaryKey := by
    rw [List.map_append]
    refine List.nodup_append.mpr ⟨table.primaryKey, List.nodup_singleton _, ?_⟩
    intro a ha b hb same
    rw [same, List.mem_singleton.mp hb] at ha
    exact fresh ha
  unique := by
    rw [List.map_append]
    refine List.nodup_append.mpr ⟨table.unique, List.nodup_singleton _, fun a ha b hb same => ?_⟩
    obtain ⟨old, mem, rfl⟩ := List.mem_map.mp ha
    have smaller := le_maxClock mem
    rw [same, List.mem_singleton.mp hb] at smaller
    exact Nat.not_le_of_lt later smaller

/-- The `INSERT` of `save_source_event`: the new row and the table with it, or a constraint is
violated. The clock of the row is larger than all others, so it violates none. -/
def insert (table : SourceEventTable) (id : String) (aggregate aggregateId : String)
    (payload : EventPayload) (now : SystemTime) : Option (SourceEventRow × SourceEventTable) :=
  if check : Storable aggregate then
    if fresh : id ∉ table.rows.map (·.id) then
      let row := ⟨id, now, table.maxClock + 1, aggregate, aggregateId, payload, check⟩
      some (row, table.push row fresh (Nat.lt_succ_self _))
    else none
  else none

end SourceEventTable

/-! ## Saving an event -/

/-- What a call of `save_source_event` meets besides the table. An error is the text of the
`sqlx::Error`; the insert may fail without a constraint. -/
structure Saving where
  begins : Except String Unit
  /-- `Uuid::new_v4()`. -/
  id : Uuid
  /-- `CURRENT_TIMESTAMP`. -/
  now : SystemTime
  inserts : Except String Unit
  /-- The text of a constraint's violation. -/
  violation : String
  commits : Except String Unit

/-- `RustLiteSourceEventRepository`: its pool is connections to one database, of one table. -/
structure RustLiteSourceEventRepository where
  table : SourceEventTable
  deriving DecidableEq

namespace RustLiteSourceEventRepository

/-- `new` and `migrate`. -/
def new : RustLiteSourceEventRepository := ⟨.empty⟩

/-- The `INSERT`, or the text of its error. -/
def insert (repository : RustLiteSourceEventRepository) (newEvent : NewSourceEvent)
    (saving : Saving) : Except String (SourceEventRow × SourceEventTable) :=
  match saving.inserts with
  | .error err => .error err
  | .ok () =>
    match repository.table.insert saving.id.toString newEvent.aggregateType
        newEvent.aggregateId.val newEvent.payload saving.now with
    | none => .error saving.violation
    | some inserted => .ok inserted

/-- `save_source_event`. A transaction that is not committed leaves the table as it was. -/
def saveSourceEvent (newEvent : NewSourceEvent) (saving : Saving)
    (repository : RustLiteSourceEventRepository) :
    Except SourceEventRepositoryError SourceEvent × RustLiteSourceEventRepository :=
  match saving.begins with
  | .error err => (.error ⟨"Failed to begin transaction: " ++ err⟩, repository)
  | .ok () =>
    match repository.insert newEvent saving with
    | .error err => (.error ⟨"Failed to insert event: " ++ err⟩, repository)
    | .ok (row, table) =>
      match saving.commits with
      | .ok () =>
        (.ok ⟨⟨saving.id⟩, row.createdAt, row.monotonicClock, newEvent.aggregateId,
          newEvent.aggregateType, newEvent.payload⟩, ⟨table⟩)
      | .error err => (.error ⟨"Failed to commit transaction: " ++ err⟩, repository)

instance : Repository RustLiteSourceEventRepository where
  Choice := Saving
  saveSourceEvent := saveSourceEvent

end RustLiteSourceEventRepository

end Revent
