import Revent.Interleave.Pool

/-!
# Bringing a pool to rest

That the tasks of a configuration can finish the passes they are in. An operation is `Enabled` under
a condition on the environments and one on the moves of the surroundings when, in every world of an
invariant, it can be performed under the first, perhaps after the surroundings moved aside by the
second, and the invariant holds again.

A program whose operations are all enabled can be run to its end (`finish`), and so can the programs
of all tasks of a kind, one after the other, while the other tasks stay where they are (`drain`).
-/

namespace Interleave

namespace Machine

variable {Op : Type} {Ret : Op → Type} {Job World Env Ext : Type}
  (M : Machine Op Ret Job World Env Ext)

/-- The surroundings make moves of a kind, and start no task. -/
inductive Aside (moves : Ext → Prop) : World → World → Prop
  | refl {w : World} : Aside moves w w
  | step {w w₁ w₂ : World} {x : Ext} (before : Aside moves w w₁) (kind : moves x)
      (moved : M.move x w₁ = some (w₂, none)) : Aside moves w w₂

/-- The operation can be performed under the condition, perhaps after the surroundings moved. -/
def Enabled (fair : Env → Prop) (moves : Ext → Prop) (Inv : World → Prop) (op : Op) : Prop :=
  ∀ w, Inv w → ∃ w₁ env r w₂, M.Aside moves w w₁ ∧ fair env ∧ M.exec op env w₁ = some (r, w₂) ∧
    Inv w₂

/-- Every operation is performed under the condition, the surroundings make moves of the kind only,
and no task begins another pass. -/
def Under (fair : Env → Prop) (moves : Ext → Prop) (_ : Config Op Ret Job World) :
    Label Env Ext → Prop
  | .act _ env => fair env
  | .loop _ => False
  | .ext x => moves x

variable {M} {fair : Env → Prop} {moves : Ext → Prop} {Inv : World → Prop} {allowed : Op → Prop}
  {σ σ' : Config Op Ret Job World} {i : Nat} {job : Job}

/-- What the surroundings can do is a step. -/
theorem step_of_move {x : Ext} {w : World} {job : Option Job}
    (moved : M.move x σ.world = some (w, job)) :
    M.step σ (.ext x) =
      some { σ with world := w, tasks := σ.tasks ++ (job.map M.start).toList } := by
  simp only [step, moved]

theorem Aside.reach {w : World} (aside : M.Aside moves σ.world w) :
    M.Reach (Under fair moves) σ { σ with world := w } := by
  induction aside with
  | refl => exact .init
  | @step w₁ w₂ x _ kind moved ih =>
    have stepped : M.step { σ with world := w₁ } (.ext x) = some { σ with world := w₂ } := by
      rw [step_of_move moved]
      simp only [Option.map_none, Option.toList_none, List.append_nil]
    have free : Under fair moves { σ with world := w₁ } (.ext x : Label Env Ext) := kind
    exact .step ih free stepped

/-- **A program of enabled operations can be run to its end.** -/
theorem finish {p : Prog Op Ret (Option Job)} {h : List (Event Op Ret)}
    (enabled : ∀ op, allowed op → M.Enabled fair moves Inv op)
    (flows : p.Flows (fun _ => allowed) (fun _ _ => True) h)
    (task : σ.tasks[i]? = some ⟨job, p⟩) (inv : Inv σ.world) :
    ∃ σ' next, M.Reach (Under fair moves) σ σ' ∧ Inv σ'.world ∧
      σ'.tasks = σ.tasks.set i ⟨job, .done next⟩ := by
  induction p generalizing σ h with
  | done next =>
    obtain ⟨hi, here⟩ := List.getElem?_eq_some_iff.mp task
    refine ⟨σ, next, .init, inv, ?_⟩
    rw [← here, List.set_getElem_self]
  | act op next ih =>
    obtain ⟨w₁, env, r, w₂, aside, fairly, performed, inv₂⟩ := enabled op flows.1 σ.world inv
    have hi : i < σ.tasks.length := (List.getElem?_eq_some_iff.mp task).1
    have stepped : M.step { σ with world := w₁ } (.act i env) =
        some ⟨w₂, σ.tasks.set i ⟨job, next r⟩, (i, ⟨op, r⟩) :: σ.trace⟩ :=
      step_of_exec task performed
    have first : Under fair moves { σ with world := w₁ } (.act i env : Label Env Ext) := fairly
    obtain ⟨σ', last, rest, inv', tasks⟩ :=
      ih r (flows.2 r) (σ := ⟨w₂, σ.tasks.set i ⟨job, next r⟩, (i, ⟨op, r⟩) :: σ.trace⟩)
        (List.getElem?_set_self hi) inv₂
    refine ⟨σ', last, Reach.trans (.step aside.reach first stepped) rest, inv', ?_⟩
    rw [tasks, List.set_set]

/-- The selected ones among the first `n` tasks have finished their passes; the others are as they
were. -/
structure Drained (sel : Job → Prop) (n : Nat) (σ σ' : Config Op Ret Job World) : Prop where
  length : σ'.tasks.length = σ.tasks.length
  done : ∀ (i : Nat) (t : Task Op Ret Job), σ.tasks[i]? = some t → sel t.job → i < n →
    ∃ next, σ'.tasks[i]? = some ⟨t.job, .done next⟩
  same : ∀ (i : Nat) (t : Task Op Ret Job), σ.tasks[i]? = some t → ¬ (sel t.job ∧ i < n) →
    σ'.tasks[i]? = some t

/-- A task at the end has finished its pass, or is another one and is as it was. -/
theorem Drained.cases {sel : Job → Prop} (drained : Drained sel σ.tasks.length σ σ')
    {t : Task Op Ret Job} (task : σ'.tasks[i]? = some t) :
    (∃ next, t.prog = .done next) ∨ ¬ sel t.job ∧ σ.tasks[i]? = some t := by
  have below : i < σ.tasks.length := drained.length ▸ (List.getElem?_eq_some_iff.mp task).1
  have before : σ.tasks[i]? = some σ.tasks[i] := List.getElem?_eq_getElem below
  by_cases selected : sel σ.tasks[i].job
  · obtain ⟨next, done⟩ := drained.done i _ before selected below
    cases task.symm.trans done
    exact .inl ⟨next, rfl⟩
  · cases task.symm.trans (drained.same i _ before fun both => selected both.1)
    exact .inr ⟨selected, before⟩

/-- **The tasks of a kind can finish the passes they are in**, if their operations are enabled. -/
theorem drain (sel : Job → Prop) (enabled : ∀ op, allowed op → M.Enabled fair moves Inv op)
    (flows : ∀ (i : Nat) (t : Task Op Ret Job), σ.tasks[i]? = some t → sel t.job →
      ∃ h, t.prog.Flows (fun _ => allowed) (fun _ _ => True) h)
    (inv : Inv σ.world) :
    ∃ σ', M.Reach (Under fair moves) σ σ' ∧ Inv σ'.world ∧ Drained sel σ.tasks.length σ σ' := by
  generalize σ.tasks.length = n
  induction n with
  | zero =>
    exact ⟨σ, .init, inv, rfl, fun _ _ _ _ none => absurd none (Nat.not_lt_zero _),
      fun _ _ task _ => task⟩
  | succ n ih =>
    obtain ⟨σ₁, reach, inv₁, length, done, same⟩ := ih
    have kept (i : Nat) (other : i ≠ n) : i < n + 1 ↔ i < n :=
      ⟨fun below => Nat.lt_of_le_of_ne (Nat.le_of_lt_succ below) other, Nat.lt_succ_of_lt⟩
    by_cases turn : ∃ t, σ.tasks[n]? = some t ∧ sel t.job
    · obtain ⟨t, task, selected⟩ := turn
      obtain ⟨h, flow⟩ := flows n t task selected
      have here : σ₁.tasks[n]? = some ⟨t.job, t.prog⟩ :=
        same n t task fun both => Nat.lt_irrefl n both.2
      obtain ⟨σ', next, rest, inv', tasks⟩ := finish enabled flow here inv₁
      refine ⟨σ', Reach.trans reach rest, inv', ?_, ?_, ?_⟩
      · rw [tasks, List.length_set, length]
      · intro i t' task' selected' below
        by_cases hi : i = n
        · subst hi
          cases task.symm.trans task'
          rw [tasks]
          exact ⟨next, List.getElem?_set_self (List.getElem?_eq_some_iff.mp here).1⟩
        · rw [tasks, List.getElem?_set_ne (Ne.symm hi)]
          exact done i t' task' selected' ((kept i hi).mp below)
      · intro i t' task' unselected
        by_cases hi : i = n
        · subst hi
          cases task.symm.trans task'
          exact absurd ⟨selected, Nat.lt_succ_self i⟩ unselected
        · rw [tasks, List.getElem?_set_ne (Ne.symm hi)]
          rw [kept i hi] at unselected
          exact same i t' task' unselected
    · refine ⟨σ₁, reach, inv₁, length, ?_, ?_⟩
      · intro i t task selected below
        by_cases hi : i = n
        · subst hi
          exact absurd ⟨t, task, selected⟩ turn
        · exact done i t task selected ((kept i hi).mp below)
      · intro i t task unselected
        refine same i t task fun both => unselected ⟨both.1, Nat.lt_succ_of_lt both.2⟩

end Machine

end Interleave
