import Revent.Interleave.Alone

/-!
# Programs run amid others

What a program does when anything may happen between two of its operations. `Amid exec p steps a`
says that `p`, each operation performed in whatever world the others left, may end with the value
`a`; `steps` are its operations in order, each with the world it found and the world it left.
Nothing relates the world a step leaves to the one the next step finds, so what holds of every
such run holds whatever the other tasks are.

A task of a pool is always such a run (`amid_of_reach`).
-/

namespace Interleave

variable {Op : Type} {Ret : Op → Type} {World Env α β γ : Type}

/-- An operation that was performed, between the world it found and the world it left, with what
the surroundings decided. -/
structure Step (Op : Type) (Ret : Op → Type) (World Env : Type) where
  before : World
  env : Env
  event : Event Op Ret
  after : World

/-- The history of some steps, newest first. -/
def history (steps : List (Step Op Ret World Env)) : List (Event Op Ret) :=
  (steps.map Step.event).reverse

variable {exec : (op : Op) → Env → World → Option (Ret op × World)}

/-- A program run amid others, from its operations in order to its value. -/
inductive Amid (exec : (op : Op) → Env → World → Option (Ret op × World)) :
    Prog Op Ret α → List (Step Op Ret World Env) → α → Prop
  | done {a : α} : Amid exec (.done a) [] a
  | act {op : Op} {next : Ret op → Prog Op Ret α} {env : Env} {r : Ret op} {a : α}
      {w w' : World} {steps : List (Step Op Ret World Env)}
      (performed : exec op env w = some (r, w')) (rest : Amid exec (next r) steps a) :
      Amid exec (.act op next) (⟨w, env, ⟨op, r⟩, w'⟩ :: steps) a

/-- The run of a program in which others do and the surroundings decide as listed, if it is
possible and the list is long enough. -/
def Prog.playAmid (exec : (op : Op) → Env → World → Option (Ret op × World)) :
    Prog Op Ret α → List ((World → World) × Env) → World →
      Option (α × List (Step Op Ret World Env))
  | .done a, _, _ => some (a, [])
  | .act _ _, [], _ => none
  | .act op next, (others, env) :: decisions, w =>
    (exec op env (others w)).bind fun done =>
      ((next done.1).playAmid exec decisions done.2).map fun ended =>
        (ended.1, ⟨others w, env, ⟨op, done.1⟩, done.2⟩ :: ended.2)

variable {p : Prog Op Ret α} {w : World} {h : List (Event Op Ret)} {a : α}
  {steps : List (Step Op Ret World Env)}

theorem amid_of_playAmid {decisions : List ((World → World) × Env)}
    (played : p.playAmid exec decisions w = some (a, steps)) : Amid exec p steps a := by
  induction p generalizing decisions w steps with
  | done a =>
    cases played
    exact .done
  | act op next ih =>
    cases decisions with
    | nil => cases played
    | cons decision decisions =>
      obtain ⟨⟨r, w₁⟩, performed, played⟩ := Option.bind_eq_some_iff.mp played
      obtain ⟨⟨a, rest⟩, later, heq⟩ := Option.map_eq_some_iff.mp played
      cases heq
      exact .act performed (ih r later)

/-- With operations that can do more, a program can do more. -/
theorem Amid.mono {exec' : (op : Op) → Env → World → Option (Ret op × World)}
    (more : ∀ {op env w done}, exec op env w = some done → exec' op env w = some done)
    (run : Amid exec p steps a) : Amid exec' p steps a := by
  induction run with
  | done => exact .done
  | act performed _ ih => exact .act (more performed) ih

/-- What runs a sequence of programs runs the first one and then the second. -/
theorem Amid.of_bind {f : α → Prog Op Ret β} {b : β} (run : Amid exec (p >>= f) steps b) :
    ∃ a first second, steps = first ++ second ∧ Amid exec p first a ∧ Amid exec (f a) second b := by
  induction p generalizing steps with
  | done a => exact ⟨a, [], steps, rfl, .done, run⟩
  | act op next ih =>
    rw [Prog.act_bind] at run
    cases run with
    | act performed rest =>
      obtain ⟨a, first, second, rfl, run, rest⟩ := ih _ rest
      exact ⟨a, _ :: first, second, rfl, .act performed run, rest⟩

/-- A loop over a list runs its body once for each element, in order. -/
theorem Amid.of_forM {body : γ → Prog Op Ret Unit} {xs : List γ} {u : Unit}
    (run : Amid exec (xs.forM body) steps u) :
    ∃ rounds : List (List (Step Op Ret World Env)), steps = rounds.flatten ∧
      List.Forall₂ (fun x round => Amid exec (body x) round ()) xs rounds := by
  induction xs generalizing steps with
  | nil =>
    cases run
    exact ⟨[], rfl, .nil⟩
  | cons x xs ih =>
    obtain ⟨⟨⟩, round, rest, rfl, first, later⟩ := Amid.of_bind run
    obtain ⟨rounds, rfl, all⟩ := ih later
    exact ⟨round :: rounds, rfl, .cons first all⟩

/-- Each step is one of its operation. -/
theorem Amid.performed (run : Amid exec p steps a) {step : Step Op Ret World Env}
    (mem : step ∈ steps) :
    exec step.event.op step.env step.before = some (step.event.ret, step.after) := by
  induction run with
  | done => cases mem
  | act performed _ ih =>
    rcases List.mem_cons.mp mem with rfl | mem
    · exact performed
    · exact ih mem

/-- A program performs the operations of its control flow, whatever the others do. -/
theorem Prog.Flows.amid {allowed : Op → Prop} {ends : List (Event Op Ret) → α → Prop}
    (flows : p.Flows (fun _ => allowed) ends h) (run : Amid exec p steps a)
    {step : Step Op Ret World Env} (mem : step ∈ steps) : allowed step.event.op := by
  induction run generalizing h with
  | done => cases mem
  | act _ _ ih =>
    rcases List.mem_cons.mp mem with rfl | mem
    · exact flows.1
    · exact ih (flows.2 _) mem

/-! ## In a pool -/

section Pool

variable {Job Ext : Type} {M : Machine Op Ret Job World Env Ext}
  {σ σ' : Config Op Ret Job World} {i : Nat} {job : Job}

/-- Task `i` stays in its pass. -/
def StaysIn (i : Nat) (_ : Config Op Ret Job World) : Label Env Ext → Prop
  | .loop k => k ≠ i
  | .act _ _ | .ext _ => True

/-- **A task of a pool is run amid the others**: what is left of its program at the end of a run
ends the program it had at the start, and its own events are those of the steps in between. -/
theorem amid_of_reach {p p' : Prog Op Ret (Option Job)} {job' : Job}
    {next : Option Job} {rest : List (Step Op Ret World Env)} (reach : M.Reach (StaysIn i) σ σ')
    (task : σ.tasks[i]? = some ⟨job, p⟩) (task' : σ'.tasks[i]? = some ⟨job', p'⟩)
    (left : Amid M.exec p' rest next) :
    job' = job ∧ ∃ steps, σ'.trace.of i = history steps ++ σ.trace.of i ∧
      Amid M.exec p (steps ++ rest) next := by
  induction reach generalizing p' job' rest with
  | init =>
    cases task.symm.trans task'
    exact ⟨rfl, [], rfl, left⟩
  | @step σ₁ σ₂ ℓ reach stays stepped ih =>
    cases Machine.step_cases stepped with
    | @act k env job₁ op next' r world at_k performed =>
      rcases Machine.getElem?_set_cases task' with ⟨rfl, same⟩ | ⟨other, old⟩
      · cases same
        obtain ⟨same, steps, own, run⟩ := ih at_k (.act performed left)
        refine ⟨same, steps ++ [⟨σ₁.world, env, ⟨op, r⟩, world⟩], ?_, ?_⟩
        · rw [Trace.of_cons_self, own]
          simp only [history, List.map_append, List.map_cons, List.map_nil, List.reverse_append,
            List.reverse_cons, List.reverse_nil, List.nil_append, List.cons_append]
        · rw [List.append_assoc, List.singleton_append]
          exact run
      · obtain ⟨same, steps, own, run⟩ := ih old left
        refine ⟨same, steps, ?_, run⟩
        rw [Trace.of_cons_ne _ (Ne.symm other)]
        exact own
    | loop at_k =>
      rcases Machine.getElem?_set_cases task' with ⟨here, -⟩ | ⟨-, old⟩
      · exact absurd here.symm stays
      · exact ih old left
    | ext moved =>
      rcases Machine.getElem?_start_cases task' with old | ⟨started, -⟩
      · exact ih old left
      · have there : i < σ₁.tasks.length :=
          Nat.lt_of_lt_of_le (List.getElem?_eq_some_iff.mp task).1 (Machine.length_le reach)
        exact absurd started (Nat.ne_of_gt there)

end Pool

end Interleave
