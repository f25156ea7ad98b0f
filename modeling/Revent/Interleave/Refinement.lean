import Revent.Interleave.Pool

/-!
# Specifications and what is seen of a run

A specification is a step relation whose labels are what can be seen from outside. `SpecRun` is
its runs, from the first label seen to the last one.

A machine refines a specification when whatever is seen of a run of the machine is a run of the
specification: `Trace.shown seen` picks what is seen from the trace, and `Machine.Reach.refines`
is the rule. An operation of which something is seen makes a step of the specification; every
other operation, and every move of the surroundings, leaves the specification where it is.
-/

namespace Interleave

section Spec

variable {State Label : Type}

/-- **A run of a specification**, over the labels seen, the first one first. -/
inductive SpecRun (step : State → Label → State → Prop) (init : State) :
    List Label → State → Prop
  | start : SpecRun step init [] init
  | step {labels : List Label} {label : Label} {s s' : State}
      (earlier : SpecRun step init labels s) (allowed : step s label s') :
      SpecRun step init (labels ++ [label]) s'

namespace SpecRun

variable {step : State → Label → State → Prop} {init s s' : State} {labels later : List Label}
  {label : Label}

/-- The last step of a run. -/
theorem of_concat (run : SpecRun step init (labels ++ [label]) s) :
    ∃ s', SpecRun step init labels s' ∧ step s' label s := by
  generalize all : labels ++ [label] = seen at run
  cases run with
  | start => exact absurd all (List.append_ne_nil_of_right_ne_nil _ (List.cons_ne_nil _ _))
  | step earlier allowed =>
    obtain ⟨rfl, same⟩ := List.append_inj' all rfl
    cases same
    exact ⟨_, earlier, allowed⟩

/-- A run passes through every part of what is seen of it. -/
theorem of_append (run : SpecRun step init (labels ++ later) s) :
    ∃ s', SpecRun step init labels s' ∧ SpecRun step s' later s := by
  induction later using List.reverseRecOn generalizing s with
  | nil =>
    rw [List.append_nil] at run
    exact ⟨s, run, .start⟩
  | append_singleton later label ih =>
    rw [← List.append_assoc] at run
    obtain ⟨s₁, before, allowed⟩ := run.of_concat
    obtain ⟨s₂, first, rest⟩ := ih before
    exact ⟨s₂, first, .step rest allowed⟩

/-- A run passes through every label of it. -/
theorem split (run : SpecRun step init (labels ++ label :: later) s) :
    ∃ s₁ s₂, SpecRun step init labels s₁ ∧ step s₁ label s₂ ∧ SpecRun step s₂ later s := by
  rw [← List.singleton_append, ← List.append_assoc] at run
  obtain ⟨s₂, before, after⟩ := run.of_append
  obtain ⟨s₁, first, allowed⟩ := before.of_concat
  exact ⟨s₁, s₂, first, allowed, after⟩

/-- **An invariant of a specification**: what each step keeps holds at the end of every run. -/
theorem invariant (Inv : List Label → State → Prop) (run : SpecRun step init labels s)
    (entry : Inv [] init)
    (kept : ∀ {labels label s s'}, step s label s' → Inv labels s → Inv (labels ++ [label]) s') :
    Inv labels s := by
  induction run with
  | start => exact entry
  | step _ allowed ih => exact kept allowed ih

/-- A relation that each step can only extend relates the ends of every run. -/
theorem related (Rel : State → State → Prop) (run : SpecRun step init labels s)
    (refl : ∀ s, Rel s s) (trans : ∀ {a b c}, Rel a b → Rel b c → Rel a c)
    (extends_ : ∀ {label s s'}, step s label s' → Rel s s') : Rel init s := by
  induction run with
  | start => exact refl _
  | step _ allowed ih => exact trans ih (extends_ allowed)

end SpecRun

end Spec

namespace Machine

variable {Op : Type} {Ret : Op → Type} {Job World Env Ext : Type}
  {M : Machine Op Ret Job World Env Ext} {ok : Config Op Ret Job World → Label Env Ext → Prop}
  {init σ : Config Op Ret Job World} {State Seen : Type} {s₀ : State}

/-- **The refinement rule**: what is seen of a run of the machine is a run of the specification.
`Rel` ties the specification's state to the machine's world and trace. -/
theorem Reach.refines (step : State → Seen → State → Prop) (seen : Event Op Ret → Option Seen)
    (Rel : State → World → Trace Op Ret → Prop) (reach : M.Reach ok init σ)
    (fresh : init.trace = []) (start : Rel s₀ init.world [])
    (act : ∀ {σ : Config Op Ret Job World} {i : Nat} {env : Env} {job : Job} {op : Op}
      {next : Ret op → Prog Op Ret (Option Job)} {r : Ret op} {w : World} {s : State},
      M.Reach ok init σ → σ.tasks[i]? = some ⟨job, .act op next⟩ → ok σ (.act i env) →
      M.exec op env σ.world = some (r, w) → Rel s σ.world σ.trace →
      match seen ⟨op, r⟩ with
      | none => Rel s w ((i, ⟨op, r⟩) :: σ.trace)
      | some label => ∃ s', step s label s' ∧ Rel s' w ((i, ⟨op, r⟩) :: σ.trace))
    (ext : ∀ {x : Ext} {w w' : World} {job : Option Job} {tr : Trace Op Ret} {s : State},
      M.move x w = some (w', job) → Rel s w tr → Rel s w' tr) :
    ∃ s, SpecRun step s₀ (Trace.shown seen σ.trace) s ∧ Rel s σ.world σ.trace := by
  refine reach.invariant (fun w tr => ∃ s, SpecRun step s₀ (Trace.shown seen tr) s ∧ Rel s w tr)
    ?_ ?_ ?_
  · rw [fresh]
    exact ⟨s₀, .start, start⟩
  · rintro σ i env job op next r w reach task allowed performed ⟨s, run, related⟩
    have matched := act reach task allowed performed related
    rw [Trace.shown_cons]
    cases label : seen ⟨op, r⟩ with
    | none =>
      rw [label] at matched
      exact ⟨s, by simpa using run, matched⟩
    | some label' =>
      rw [label] at matched
      obtain ⟨s', allowed, related⟩ := matched
      exact ⟨s', .step run allowed, related⟩
  · rintro x w w' job tr moved ⟨s, run, related⟩
    exact ⟨s, run, ext moved related⟩

end Machine

end Interleave
