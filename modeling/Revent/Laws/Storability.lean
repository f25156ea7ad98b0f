import Revent.Laws.Identity

/-!
# Storability

Two validators stand before a row: the decoder of the payload and the constraints of the table.
The decoder looks at the aggregate id and never at the aggregate type, whose length the table
checks; a save that the table refuses is logged, and the publisher is told nothing
(`silent_of_unstorable`).

So what is accepted is stored exactly where the aggregate type passes the table's check by
itself.
-/

namespace Revent

open Interleave (Amid)

namespace SourceEventTable

/-- The values of the row that is inserted, none of which is `NULL`. -/
structure Values where
  id : String
  createdAt : SystemTime
  monotonicClock : Nat
  aggregate : String
  aggregateId : String
  payload : EventPayload

/-- The values the statement of `save_source_event` inserts. -/
def valuesOf (table : SourceEventTable) (newEvent : NewSourceEvent) (saving : Saving) : Values :=
  ⟨saving.id.toString, saving.now, table.maxClock + 1, newEvent.aggregateType,
    newEvent.aggregateId.val, newEvent.payload⟩

/-- The values satisfy every constraint of the columns. -/
structure Values.Satisfy (values : Values) (table : SourceEventTable) : Prop where
  primaryKey : values.id ∉ table.rows.map (·.id)
  unique : values.monotonicClock ∉ table.rows.map (·.monotonicClock)
  check : Storable values.aggregate

/-- The next clock is new. -/
theorem succ_maxClock_notMem (table : SourceEventTable) :
    table.maxClock + 1 ∉ table.rows.map (·.monotonicClock) := by
  intro mem
  obtain ⟨row, stored, same⟩ := List.mem_map.mp mem
  have le := le_maxClock stored
  omega

/-- Of a new id, the values satisfy the constraints if the aggregate passes its check. -/
theorem satisfy_iff {table : SourceEventTable} {newEvent : NewSourceEvent} {saving : Saving}
    (fresh : saving.id.toString ∉ table.rows.map (·.id)) :
    (table.valuesOf newEvent saving).Satisfy table ↔ Storable newEvent.aggregateType := by
  constructor
  · exact fun satisfy => satisfy.check
  · exact fun storable => ⟨fresh, table.succ_maxClock_notMem, storable⟩

/-- A row is inserted exactly if its values satisfy the constraints. -/
theorem insert_isSome_iff {table : SourceEventTable} {newEvent : NewSourceEvent} {saving : Saving} :
    (table.insert saving.id.toString newEvent.aggregateType newEvent.aggregateId.val
      newEvent.payload saving.now).isSome ↔ (table.valuesOf newEvent saving).Satisfy table := by
  unfold insert
  split
  · rename_i storable
    split
    · rename_i fresh
      exact ⟨fun _ => (satisfy_iff fresh).mpr storable, fun _ => rfl⟩
    · rename_i taken
      exact ⟨nofun, fun satisfy => absurd satisfy.primaryKey taken⟩
  · rename_i unstorable
    exact ⟨nofun, fun satisfy => absurd satisfy.check unstorable⟩

end SourceEventTable

/-- The save draws an id that is not in the table, of a database that does not fail by itself. -/
structure Saving.Clean (saving : Saving) (table : SourceEventTable) : Prop where
  fresh : saving.id.toString ∉ table.rows.map (·.id)
  begins : saving.begins = .ok ()
  inserts : saving.inserts = .ok ()
  commits : saving.commits = .ok ()

namespace RustLiteSourceEventRepository

/-- **What is accepted is stored**: the row of the event satisfies every constraint of the table,
and every handler of the event that meets a clean save appends it. -/
structure StoresAccepted (msg : RegisterSourceEventMessage) : Prop where
  satisfies : ∀ (table : SourceEventTable) (saving : Saving),
    saving.id.toString ∉ table.rows.map (·.id) →
    (table.valuesOf msg.toNewSourceEvent saving).Satisfy table
  stores : ∀ steps : List Stepped, Amid exec (handleMessage (.registerSourceEvent msg)) steps () →
    ∀ step ∈ steps, step.event.op = .saveSourceEvent msg →
    Saving.Clean step.env.saving step.before.state.repository.table →
    ∃ (event : SourceEvent) (row : SourceEventRow), Appends step row ∧ event.IsRow row ∧
      event.Saves msg.toNewSourceEvent

variable {parse : String → Option Uuid} {val : Proto.RegisterSourceEvent} {opt : Option ClientId}
  {tx : Tx} {msg : RegisterSourceEventMessage} {newEvent : NewSourceEvent} {saving : Saving}
  {repository : RustLiteSourceEventRepository}

/-- A clean save of an event that passes the check succeeds. -/
theorem saveSourceEvent_of_storable (clean : saving.Clean repository.table)
    (storable : Storable newEvent.aggregateType) :
    ∃ event, (saveSourceEvent newEvent saving repository).1 = .ok event := by
  have satisfy := (SourceEventTable.satisfy_iff clean.fresh).mpr storable
  have inserts := SourceEventTable.insert_isSome_iff.mpr satisfy
  obtain ⟨⟨row, table⟩, inserted⟩ := Option.isSome_iff_exists.mp inserts
  simp only [saveSourceEvent, insert, clean.begins, clean.inserts, inserted, clean.commits]
  exact ⟨_, rfl⟩

/-- Any save of an event that does not pass it fails. -/
theorem saveSourceEvent_of_unstorable (unstorable : ¬ Storable newEvent.aggregateType) :
    ∃ err, (saveSourceEvent newEvent saving repository).1 = .error err := by
  rcases saveSourceEvent_cases (newEvent, saving) repository with
    ⟨err, fails⟩ | ⟨event, row, table, -, -, isRow, keeps, -⟩
  · exact ⟨err, congrArg Prod.fst fails⟩
  · have kind : row.aggregate = newEvent.aggregateType :=
      isRow.aggregate.trans keeps.aggregateType
    exact absurd (kind ▸ row.check) unstorable

/-- **An event that does not pass the check is lost in silence**: no handler of it sends
anything. -/
theorem silent_of_unstorable {steps : List Stepped} (unstorable : ¬ Storable msg.aggregateType)
    (run : Amid exec (handleMessage (.registerSourceEvent msg)) steps ()) :
    ∀ step ∈ steps, ∀ client dest serverMessage,
      step.event.op ≠ .send client dest serverMessage := by
  rcases handled_cases run with ⟨touched, failed, err, rfl, touches, fails⟩ | ⟨event, stored⟩
  · intro step mem client dest serverMessage
    simp only [List.mem_cons, List.not_mem_nil, or_false] at mem
    rcases mem with rfl | rfl
    · rw [touches]
      nofun
    · rw [fails]
      nofun
  · obtain ⟨step, mem, saves, -⟩ := stored.saving
    have performed := run.performed mem
    rw [saves] at performed
    obtain ⟨saved, -⟩ := Prod.mk.inj (Option.some.inj performed)
    have unstorable : ¬ Storable msg.toNewSourceEvent.aggregateType := unstorable
    obtain ⟨err, fails⟩ := saveSourceEvent_of_unstorable unstorable
    cases saved.symm.trans fails

/-- A handler that meets a clean save of an event that passes the check appends its row. -/
theorem appends_of_storable {steps : List Stepped} (storable : Storable msg.aggregateType)
    (run : Amid exec (handleMessage (.registerSourceEvent msg)) steps ()) {step : Stepped}
    (mem : step ∈ steps) (is : step.event.op = .saveSourceEvent msg)
    (clean : Saving.Clean step.env.saving step.before.state.repository.table) :
    ∃ (event : SourceEvent) (row : SourceEventRow), Appends step row ∧ event.IsRow row ∧
      event.Saves msg.toNewSourceEvent := by
  have performed := run.performed mem
  obtain ⟨before, env, ⟨op, ret⟩, after⟩ := step
  cases is
  obtain ⟨saved, -⟩ := Prod.mk.inj (Option.some.inj performed)
  have storable : Storable msg.toNewSourceEvent.aggregateType := storable
  obtain ⟨event, succeeds⟩ := saveSourceEvent_of_storable clean storable
  have ret : ret = .ok event := saved.symm.trans succeeds
  subst ret
  obtain ⟨row, appends, isRow, keeps, -⟩ := row_of_save rfl performed
  exact ⟨event, row, appends, isRow, keeps⟩

/-- **What is accepted is stored** exactly where the aggregate type of the payload passes the
table's check. -/
theorem storesAccepted_iff
    (decode : ClientMessage.ofProto parse (.registerSourceEvent val) opt tx =
      .ok (.registerSourceEvent msg)) :
    StoresAccepted msg ↔ Storable val.aggregateType := by
  obtain ⟨-, -, kind⟩ := fields_of_decode decode
  rw [← kind]
  constructor
  · intro stores
    have saving : Saving := ⟨.ok (), 0, 0, .ok (), "", .ok ()⟩
    exact (stores.satisfies .empty saving List.not_mem_nil).check
  · intro storable
    refine ⟨fun table saving fresh => (SourceEventTable.satisfy_iff fresh).mpr storable, ?_⟩
    intro steps run step mem is clean
    exact appends_of_storable storable run mem is clean

section Scenario

open Scenario

/-- The payload of `userCreatedEvent` is stored. -/
theorem storesAccepted_userCreatedEvent : StoresAccepted (publishing alice) :=
  (storesAccepted_iff decode_userCreatedEvent).mpr (by decide)

/-- An event without an aggregate type is accepted, and its row violates the check. -/
theorem not_storesAccepted : ¬ ∀ (val : Proto.RegisterSourceEvent) (opt : Option ClientId) (tx : Tx)
    (msg : RegisterSourceEventMessage),
    ClientMessage.ofProto Scenario.parse (.registerSourceEvent val) opt tx =
      .ok (.registerSourceEvent msg) → StoresAccepted msg := by
  intro stores
  have accepted := stores ⟨"00000000-0000-0000-0000-000000000001", "user-1", "", [], ∅⟩
    (some alice) 0 ⟨alice, ⟨1⟩, ⟨"user-1", by decide⟩, "", []⟩ rfl
  have saving : Saving := ⟨.ok (), 0, 0, .ok (), "", .ok ()⟩
  have row := accepted.satisfies .empty saving List.not_mem_nil
  have unstorable : ¬ Storable "" := by decide
  exact unstorable row.check

end Scenario

end RustLiteSourceEventRepository

end Revent
