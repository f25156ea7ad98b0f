import Revent.Interleave.Pool

/-!
# Latches

A fact about the world that some events make true and others false, and that everything else
leaves as it is: a key is in a map, a flag is up. What such a fact has come to is what the trace
says: it holds if it was made true and not made false since (`Latch.on_iff_standing`). So a
question about the world of any run is a question about its past, and `Latch.on_iff_since` relates
two moments of one run.
-/

namespace Interleave

variable {Op : Type} {Ret : Op → Type} {Job World Env Ext : Type}

/-- A fact about the world, with the events that decide it. -/
structure Latch (M : Machine Op Ret Job World Env Ext) where
  on : World → Prop
  sets : Event Op Ret → Prop
  clears : Event Op Ret → Prop
  act : ∀ {op : Op} {env : Env} {w w' : World} {r : Ret op}, M.exec op env w = some (r, w') →
    (on w' ↔ sets ⟨op, r⟩ ∨ ¬ clears ⟨op, r⟩ ∧ on w)
  move : ∀ {x : Ext} {w w' : World} {job : Option Job}, M.move x w = some (w', job) →
    (on w' ↔ on w)

/-- It was so before, or is made so, and is not undone since; the newest event comes first. -/
def Since (sets clears : Event Op Ret → Prop) (before : Prop) : Trace Op Ret → Prop
  | [] => before
  | (_, ev) :: since => sets ev ∨ ¬ clears ev ∧ Since sets clears before since

/-- An event made it so, and none since undid it. -/
def Standing (sets clears : Event Op Ret → Prop) (tr : Trace Op Ret) : Prop :=
  ∃ newer entry older, tr = newer ++ entry :: older ∧ sets entry.2 ∧
    ∀ later ∈ newer, ¬ clears later.2

namespace Since

variable {sets clears : Event Op Ret → Prop} {before : Prop} {since : Trace Op Ret}

theorem append (newer older : Trace Op Ret) : Since sets clears before (newer ++ older) ↔
    Since sets clears (Since sets clears before older) newer := by
  induction newer with
  | nil => exact Iff.rfl
  | cons entry newer ih => simp only [List.cons_append, Since, ih]

/-- It stays so while nothing undoes it. -/
theorem of_kept (so : before) (kept : ∀ entry ∈ since, ¬ clears entry.2) :
    Since sets clears before since := by
  induction since with
  | nil => exact so
  | cons entry since ih =>
    obtain ⟨here, kept⟩ := List.forall_mem_cons.mp kept
    exact Or.inr ⟨here, ih kept⟩

/-- It was so before where nothing makes it so. -/
theorem before_of (now : Since sets clears before since) (apart : ∀ entry ∈ since, ¬ sets entry.2) :
    before := by
  induction since with
  | nil => exact now
  | cons entry since ih =>
    obtain ⟨here, apart⟩ := List.forall_mem_cons.mp apart
    obtain made | ⟨-, earlier⟩ := now
    · exact absurd made here
    · exact ih earlier apart

/-- Where it was not so before, an event made it so and none since undid it. -/
theorem iff_standing : Since sets clears False since ↔ Standing sets clears since := by
  constructor
  · intro now
    induction since with
    | nil => exact now.elim
    | cons entry since ih =>
      obtain made | ⟨kept, earlier⟩ := now
      · exact ⟨[], entry, since, rfl, made, List.forall_mem_nil _⟩
      · obtain ⟨newer, maker, older, rfl, made, still⟩ := ih earlier
        exact ⟨entry :: newer, maker, older, rfl, made, List.forall_mem_cons.mpr ⟨kept, still⟩⟩
  · rintro ⟨newer, entry, older, rfl, made, still⟩
    exact (append newer (entry :: older)).mpr (of_kept (Or.inl made) still)

end Since

namespace Latch

variable {M : Machine Op Ret Job World Env Ext} (L : Latch M)
  {ok : Config Op Ret Job World → Label Env Ext → Prop} {σ σ' : Config Op Ret Job World}
  {since : Trace Op Ret}

/-- **The rule of a latch**: what it has come to is what was performed since. -/
theorem on_iff_since (reach : M.Reach ok σ σ') (grown : σ'.trace = since ++ σ.trace) :
    L.on σ'.world ↔ Since L.sets L.clears (L.on σ.world) since := by
  have inv : ∃ since, σ'.trace = since ++ σ.trace ∧
      (L.on σ'.world ↔ Since L.sets L.clears (L.on σ.world) since) := by
    refine Machine.Reach.invariant (fun w tr => ∃ since, tr = since ++ σ.trace ∧
      (L.on w ↔ Since L.sets L.clears (L.on σ.world) since)) reach ⟨[], rfl, Iff.rfl⟩ ?_ ?_
    · rintro σ₁ i env job op next r w - - - performed ⟨since, grown, ih⟩
      refine ⟨(i, ⟨op, r⟩) :: since, by rw [grown, List.cons_append], ?_⟩
      rw [L.act performed, ih]
      rfl
    · rintro x w w' job tr moved ⟨since, grown, ih⟩
      exact ⟨since, grown, (L.move moved).trans ih⟩
  obtain ⟨since', grown', now⟩ := inv
  cases List.append_cancel_right (grown.symm.trans grown')
  exact now

/-- From a start where it is off and nothing was performed, the whole trace says it. -/
theorem on_iff_standing (reach : M.Reach ok σ σ') (first : σ.trace = []) (off : ¬ L.on σ.world) :
    L.on σ'.world ↔ Standing L.sets L.clears σ'.trace := by
  rw [L.on_iff_since reach (by rw [first, List.append_nil]), iff_false_intro off,
    Since.iff_standing]

end Latch

end Interleave
