import Revent.Interleave.Pool

/-!
# History variables

A run with a value beside it that no program reads: `note` says how a step changes the value, and
the condition on a step may speak of it. What a run is required to do in relation to its own past,
such as a clock that never goes back, is a condition on such a value.

A run with a history variable is a run (`ReachWith.reach`), so what holds of every run holds of it;
`ReachWith.invariant` is the rule for what holds of it besides.
-/

namespace Interleave

namespace Machine

variable {Op : Type} {Ret : Op → Type} {Job World Env Ext Ghost : Type}
  (M : Machine Op Ret Job World Env Ext)

/-- The configurations reached with a history variable, by steps that meet `ok`. -/
inductive ReachWith (note : Config Op Ret Job World → Label Env Ext → Ghost → Ghost)
    (ok : Ghost → Config Op Ret Job World → Label Env Ext → Prop)
    (init : Config Op Ret Job World) (first : Ghost) : Config Op Ret Job World → Ghost → Prop
  | init : ReachWith note ok init first init first
  | step {σ σ' : Config Op Ret Job World} {g : Ghost} {ℓ : Label Env Ext} :
      ReachWith note ok init first σ g → ok g σ ℓ → M.step σ ℓ = some σ' →
      ReachWith note ok init first σ' (note σ ℓ g)

/-- A schedule, run from the left with a history variable; `none` once a step of it fails its check
or is not possible. -/
def runWith (note : Config Op Ret Job World → Label Env Ext → Ghost → Ghost)
    (check : Ghost → Config Op Ret Job World → Label Env Ext → Bool) :
    List (Label Env Ext) → Config Op Ret Job World → Ghost →
      Option (Config Op Ret Job World × Ghost)
  | [], σ, g => some (σ, g)
  | ℓ :: ls, σ, g =>
    if check g σ ℓ then (M.step σ ℓ).bind fun σ' => runWith note check ls σ' (note σ ℓ g) else none

variable {M} {note : Config Op Ret Job World → Label Env Ext → Ghost → Ghost}
  {ok : Ghost → Config Op Ret Job World → Label Env Ext → Prop}
  {ok' : Config Op Ret Job World → Label Env Ext → Prop}
  {init σ σ' : Config Op Ret Job World} {first g g' : Ghost}

/-- A run with a history variable is a run. -/
theorem ReachWith.reach (h : M.ReachWith note ok init first σ g)
    (weaker : ∀ g σ ℓ, ok g σ ℓ → ok' σ ℓ) : M.Reach ok' init σ := by
  induction h with
  | init => exact .init
  | step _ allowed stepped ih => exact .step ih (weaker _ _ _ allowed) stepped

theorem ReachWith.trans (h : M.ReachWith note ok init first σ g)
    (h' : M.ReachWith note ok σ g σ' g') : M.ReachWith note ok init first σ' g' := by
  induction h' with
  | init => exact h
  | step _ allowed stepped ih => exact .step ih allowed stepped

/-- A schedule that runs with a history variable is a way to reach where it ends. -/
theorem reachWith_of_runWith {check : Ghost → Config Op Ret Job World → Label Env Ext → Bool}
    {ls : List (Label Env Ext)} (checked : ∀ g σ ℓ, check g σ ℓ = true → ok g σ ℓ)
    (run : M.runWith note check ls σ g = some (σ', g')) : M.ReachWith note ok σ g σ' g' := by
  induction ls generalizing σ g with
  | nil =>
    cases run
    exact .init
  | cons ℓ ls ih =>
    unfold runWith at run
    split at run
    · rename_i passed
      obtain ⟨σ₁, stepped, rest⟩ := Option.bind_eq_some_iff.mp run
      exact ReachWith.trans (.step .init (checked g σ ℓ passed) stepped) (ih rest)
    · cases run

/-- **An invariant of the world, the trace and the history variable**, from any configuration on:
each operation keeps it, the surroundings do, and so does what a turn of a loop notes. -/
theorem ReachWith.invariant (Inv : World → Trace Op Ret → Ghost → Prop)
    (h : M.ReachWith note ok init first σ g) (entry : Inv init.world init.trace first)
    (act : ∀ {σ : Config Op Ret Job World} {g : Ghost} {i : Nat} {env : Env} {job : Job} {op : Op}
      {next : Ret op → Prog Op Ret (Option Job)} {r : Ret op} {w : World},
      M.ReachWith note ok init first σ g → σ.tasks[i]? = some ⟨job, .act op next⟩ →
      ok g σ (.act i env) → M.exec op env σ.world = some (r, w) → Inv σ.world σ.trace g →
      Inv w ((i, ⟨op, r⟩) :: σ.trace) (note σ (.act i env) g))
    (loop : ∀ {σ : Config Op Ret Job World} {g : Ghost} {i : Nat},
      Inv σ.world σ.trace g → Inv σ.world σ.trace (note σ (.loop i) g))
    (ext : ∀ {σ : Config Op Ret Job World} {g : Ghost} {x : Ext} {w : World} {job : Option Job},
      M.move x σ.world = some (w, job) → Inv σ.world σ.trace g →
      Inv w σ.trace (note σ (.ext x) g)) : Inv σ.world σ.trace g := by
  induction h with
  | init => exact entry
  | step before allowed stepped ih =>
    cases step_cases stepped with
    | act task performed => exact act before task allowed performed ih
    | loop => exact loop ih
    | ext moved => exact ext moved ih

end Machine

end Interleave
