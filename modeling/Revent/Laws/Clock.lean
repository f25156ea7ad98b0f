import Revent.Db.SourceEventTable
import Revent.Laws.Effects

/-!
# The monotonic clock

`save_source_event` numbers its row in the statement that inserts it, and may fail before that
statement, in it, and after it. The law is that the rows are numbered from one without a gap
whatever failed in between, that each success returns its own row, and that a failure leaves no
trace in the table.

The server saves in no other way, so the law holds of the table in every run of it
(`stored_of_reach`).
-/

namespace Revent

open Interleave (Event Trace)

/-- An event says what its row says. -/
structure SourceEvent.IsRow (event : SourceEvent) (row : SourceEventRow) : Prop where
  id : row.id = event.id.val.toString
  createdAt : row.createdAt = event.createdAt
  monotonicClock : row.monotonicClock = event.monotonicClock
  aggregate : row.aggregate = event.aggregateType
  aggregateId : row.aggregateId = event.aggregateId.val
  payload : row.payload = event.payload

/-- What a row and its event agree on, the rows and their events agree on. -/
theorem SourceEvent.map_eq_of_isRow {α : Type} {f : SourceEventRow → α} {g : SourceEvent → α}
    {events : List SourceEvent} {rows : List SourceEventRow}
    (agree : ∀ event row, IsRow event row → f row = g event)
    (same : List.Forall₂ IsRow events rows) : rows.map f = events.map g := by
  induction same with
  | nil => rfl
  | cons isRow _ ih => simp only [List.map_cons, agree _ _ isRow, ih]

/-- An event has the aggregate and the payload that were to be saved. -/
structure SourceEvent.Saves (event : SourceEvent) (newEvent : NewSourceEvent) : Prop where
  aggregateId : event.aggregateId = newEvent.aggregateId
  aggregateType : event.aggregateType = newEvent.aggregateType
  payload : event.payload = newEvent.payload

/-- The event an event of the trace saved. -/
def savedEvent : Event Op Ret → Option SourceEvent
  | ⟨.saveSourceEvent _, .ok event⟩ => some event
  | _ => none

/-- The events that were saved, the first one first. -/
abbrev savedIn (tr : Trace Op Ret) : List SourceEvent := Trace.shown savedEvent tr

theorem savedIn_cons {entry : Nat × Event Op Ret} {tr : Trace Op Ret} :
    savedIn (entry :: tr) = savedIn tr ++ (savedEvent entry.2).toList := Trace.shown_cons

namespace SourceEventTable

/-- The rows are numbered from one, in the order they were committed. -/
def Numbered (table : SourceEventTable) : Prop :=
  table.rows.map (·.monotonicClock) = List.range' 1 table.rows.length

theorem foldr_max_range' (n : Nat) : (List.range' 1 n).foldr max 0 = n := by
  induction n with
  | zero => rfl
  | succ n ih =>
    have last (init : Nat) (xs : List Nat) : xs.foldr max init = max (xs.foldr max 0) init := by
      have assoc : xs.foldr max (max 0 init) = max (xs.foldr max 0) init := List.foldr_assoc
      rwa [Nat.zero_max] at assoc
    rw [List.range'_1_concat, List.foldr_append, last, ih]
    simp only [List.foldr_cons, List.foldr_nil]
    omega

/-- The largest clock of a numbered table is the number of its rows. -/
theorem Numbered.maxClock {table : SourceEventTable} (numbered : table.Numbered) :
    table.maxClock = table.rows.length := by
  unfold SourceEventTable.maxClock
  rw [numbered]
  exact foldr_max_range' _

end SourceEventTable

namespace RustLiteSourceEventRepository

/-! ## One call -/

/-- A call: the event to save, and what the call meets. -/
abbrev Save := NewSourceEvent × Saving

theorem insert_eq_ok {repository : RustLiteSourceEventRepository} {newEvent : NewSourceEvent}
    {saving : Saving} {row : SourceEventRow} {table : SourceEventTable}
    (h : repository.insert newEvent saving = .ok (row, table)) :
    table.rows = repository.table.rows ++ [row] ∧ row.id = saving.id.toString ∧
      row.createdAt = saving.now ∧ row.monotonicClock = repository.table.maxClock + 1 ∧
      row.aggregate = newEvent.aggregateType ∧ row.aggregateId = newEvent.aggregateId.val ∧
      row.payload = newEvent.payload := by
  unfold insert at h
  split at h
  · cases h
  · split at h
    · cases h
    · rename_i inserted found
      cases h
      unfold SourceEventTable.insert at found
      split at found
      · split at found
        · obtain ⟨rfl, rfl⟩ := Prod.mk.inj (Option.some.inj found)
          exact ⟨rfl, rfl, rfl, rfl, rfl, rfl, rfl⟩
        · cases found
      · cases found

/-- **What a call does**: it fails and leaves the table as it was, or it appends a row with the
next clock and returns it. -/
theorem saveSourceEvent_cases (save : Save) (repository : RustLiteSourceEventRepository) :
    (∃ err, saveSourceEvent save.1 save.2 repository = (.error err, repository)) ∨
      ∃ event row table, saveSourceEvent save.1 save.2 repository = (.ok event, ⟨table⟩) ∧
        table.rows = repository.table.rows ++ [row] ∧ event.IsRow row ∧ event.Saves save.1 ∧
        event.id = ⟨save.2.id⟩ ∧ event.monotonicClock = repository.table.maxClock + 1 := by
  obtain ⟨newEvent, saving⟩ := save
  unfold saveSourceEvent
  cases saving.begins with
  | error err => exact .inl ⟨_, rfl⟩
  | ok =>
    cases inserted : repository.insert newEvent saving with
    | error err => exact .inl ⟨_, rfl⟩
    | ok entry =>
      obtain ⟨row, table⟩ := entry
      cases saving.commits with
      | error err => exact .inl ⟨_, rfl⟩
      | ok =>
        obtain ⟨rows, id, createdAt, clock, aggregate, aggregateId, payload⟩ :=
          insert_eq_ok inserted
        refine .inr ⟨_, row, table, rfl, rows, ?_, ⟨rfl, rfl, rfl⟩, rfl, clock⟩
        exact ⟨id, rfl, rfl, aggregate, aggregateId, payload⟩

/-! ## A sequence of calls -/

/-- The repository after the calls, the last one first, on the migrated empty table. -/
def after : List Save → RustLiteSourceEventRepository
  | [] => new
  | save :: earlier => (saveSourceEvent save.1 save.2 (after earlier)).2

/-- What a call returns after the calls before it. -/
def result (earlier : List Save) (save : Save) : Except SourceEventRepositoryError SourceEvent :=
  (saveSourceEvent save.1 save.2 (after earlier)).1

/-- The events of the calls that succeeded, the first one first. -/
def succeeded : List Save → List SourceEvent
  | [] => []
  | save :: earlier => succeeded earlier ++ (result earlier save).toOption.toList

/-- **A gap-free clock**: the rows are the events of the successes in order, with the clocks from
one on; each success appends its row, with the next clock; each failure leaves the table as it
was. -/
structure GapFree (saves : List Save) : Prop where
  rows : List.Forall₂ SourceEvent.IsRow (succeeded saves) (after saves).table.rows
  clocks : (after saves).table.rows.map (·.monotonicClock) =
    List.range' 1 (succeeded saves).length
  success : ∀ later save earlier event, saves = later ++ save :: earlier →
    result earlier save = .ok event →
    event.Saves save.1 ∧ event.monotonicClock = (succeeded earlier).length + 1 ∧
      ∃ row, event.IsRow row ∧
        (after (save :: earlier)).table.rows = (after earlier).table.rows ++ [row]
  failure : ∀ later save earlier err, saves = later ++ save :: earlier →
    result earlier save = .error err → after (save :: earlier) = after earlier

/-- The invariant of the calls: one row for each success, and the rows are numbered. -/
theorem rows_after (saves : List Save) :
    List.Forall₂ SourceEvent.IsRow (succeeded saves) (after saves).table.rows ∧
      (after saves).table.Numbered := by
  induction saves with
  | nil => exact ⟨.nil, rfl⟩
  | cons save earlier ih =>
    obtain ⟨rows, numbered⟩ := ih
    simp only [succeeded, result, after]
    rcases saveSourceEvent_cases save (after earlier) with
      ⟨err, failed⟩ | ⟨event, row, table, saved, appended, isRow, -, -, clock⟩
    · rw [failed]
      simp only [Except.toOption, Option.toList_none, List.append_nil]
      exact ⟨rows, numbered⟩
    · rw [saved]
      simp only [Except.toOption, Option.toList_some, appended, SourceEventTable.Numbered]
      refine ⟨List.rel_append rows (.cons isRow .nil), ?_⟩
      rw [List.map_append, numbered, List.length_append, List.length_singleton,
        List.range'_1_concat, List.map_singleton, isRow.monotonicClock, clock, numbered.maxClock,
        Nat.add_comm 1]

/-- **A gap-free clock**, for every sequence of calls. -/
theorem gapFree_saves (saves : List Save) : GapFree saves := by
  obtain ⟨rows, numbered⟩ := rows_after saves
  refine ⟨rows, ?_, ?_, ?_⟩
  · rw [numbered, rows.length_eq]
  · rintro later save earlier event rfl succeeds
    obtain ⟨rows, numbered⟩ := rows_after earlier
    unfold result at succeeds
    rcases saveSourceEvent_cases save (after earlier) with
      ⟨err, failed⟩ | ⟨event', row, table, saved, appended, isRow, saves, -, clock⟩
    · rw [failed] at succeeds
      cases succeeds
    · rw [saved] at succeeds
      cases succeeds
      refine ⟨saves, ?_, row, isRow, ?_⟩
      · rw [clock, numbered.maxClock, rows.length_eq]
      · simp only [after, saved, appended]
  · rintro later save earlier err rfl fails
    unfold result at fails
    rcases saveSourceEvent_cases save (after earlier) with
      ⟨err, failed⟩ | ⟨event', row, table, saved, -⟩
    · simp only [after, failed]
    · rw [saved] at fails
      cases fails

/-! ## The table of the server -/

variable {parse : String → Option Uuid} {timing : Timing}
  {cond : ServerConfig RustLiteSourceEventRepository → Nat → Env RustLiteSourceEventRepository →
    Op → Prop} {σ : ServerConfig RustLiteSourceEventRepository}

/-- **The server's table** is what a sequence of calls leaves, whose successes are the events
saved. -/
theorem stored_of_reach (reach : ReachIf parse timing new cond σ) :
    ∃ saves, σ.world.state.repository = after saves ∧ savedIn σ.trace = succeeded saves := by
  refine state_invariant
    (fun s tr => ∃ saves, s.repository = after saves ∧ savedIn tr = succeeded saves) reach
    ⟨[], rfl, rfl⟩ ?_
  rintro σ i env job op r w - - hexec ⟨saves, table, events⟩
  rw [savedIn_cons]
  cases op with
  | saveSourceEvent msg =>
    cases hexec
    refine ⟨(msg.toNewSourceEvent, env.saving) :: saves, ?_, ?_⟩
    · simp only [after, ← table]
      rfl
    · simp only [succeeded, result, ← table, events]
      refine congrArg (succeeded saves ++ ·) ?_
      show (savedEvent ⟨.saveSourceEvent msg, (saveSourceEvent _ _ _).1⟩).toList = _
      cases (saveSourceEvent msg.toNewSourceEvent env.saving σ.world.state.repository).1 <;> rfl
  | _ =>
    refine ⟨saves, (repository_exec hexec nofun).trans table, ?_⟩
    simpa only [savedEvent, Option.toList_none, List.append_nil] using events

/-- No two events of the successes have the same id. -/
theorem succeeded_ids (saves : List Save) : ((succeeded saves).map (·.id)).Nodup := by
  have ids : (after saves).table.rows.map (·.id) =
      ((succeeded saves).map (·.id)).map fun id => id.val.toString := by
    rw [List.map_map]
    exact SourceEvent.map_eq_of_isRow (fun _ _ isRow => isRow.id) (rows_after saves).1
  have unique := (after saves).table.primaryKey
  rw [ids] at unique
  exact unique.of_map _

/-- A save of the server adds the event of one more success. -/
theorem succeeded_of_save (reach : ReachIf parse timing new cond σ)
    {msg : RegisterSourceEventMessage} {env : Env RustLiteSourceEventRepository}
    {event : SourceEvent} {w : World RustLiteSourceEventRepository}
    (hexec : exec (.saveSourceEvent msg) env σ.world = some (.ok event, w)) :
    ∃ saves, savedIn σ.trace ++ [event] = succeeded saves := by
  obtain ⟨saves, table, events⟩ := stored_of_reach reach
  refine ⟨(msg.toNewSourceEvent, env.saving) :: saves, ?_⟩
  obtain ⟨ok, -⟩ := Prod.mk.inj (Option.some.inj hexec)
  have ok : (saveSourceEvent msg.toNewSourceEvent env.saving (after saves)).1 = .ok event :=
    table ▸ ok
  simp only [succeeded, result, ok, events, Except.toOption, Option.toList_some]

/-- An event that is saved has a new id. -/
theorem fresh_of_save (reach : ReachIf parse timing new cond σ)
    {msg : RegisterSourceEventMessage} {env : Env RustLiteSourceEventRepository}
    {event : SourceEvent} {w : World RustLiteSourceEventRepository}
    (hexec : exec (.saveSourceEvent msg) env σ.world = some (.ok event, w)) :
    event.id ∉ (savedIn σ.trace).map (·.id) := by
  obtain ⟨saves, events⟩ := succeeded_of_save reach hexec
  have unique := succeeded_ids saves
  rw [← events, List.map_append, List.nodup_append] at unique
  intro mem
  exact unique.2.2 _ mem _ List.mem_cons_self rfl

end RustLiteSourceEventRepository

end Revent
