import Revent.Interleave.Prog

/-!
# A pool of tasks over one world

The interleaving semantics of programs of atomic operations. A `Machine` says what each
operation does to the shared world (`exec`, which may be blocked), which program one pass of a
task's loop runs (`boot`), and what the surroundings may do between two steps (`move`, which
may start a task). What an operation's outcome depends on besides the world (whether a peer is
alive, what the clock reads) is an argument of `exec`, so a run chooses it freely at each step.

A task is a loop: its `job` is the state the loop carries from one pass to the next, its `prog`
what is left of the current pass. A step performs one operation of one task, or takes a finished
pass back to the head of the loop, or is the surroundings'. Every operation performed is
recorded in `trace`, which no program reads.

`Machine.Reach ok` is reachability by steps that all meet `ok`, so that "every run" is
`ok := fun _ _ => True` and "every run whose steps meet a condition" is the condition.
`Machine.flows_reach` is the rule a development rests on: what the passes' control flow is, the
tasks of every reachable configuration keep.
-/

namespace Interleave

/-- The meaning of operations, loops and surroundings over one shared world. -/
structure Machine (Op : Type) (Ret : Op → Type) (Job World Env Ext : Type) where
  /-- The operation's answer and the world after it; `none` while it is blocked. -/
  exec : (op : Op) → Env → World → Option (Ret op × World)
  /-- One pass of the task's loop: the state to go on with, or `none` to end the task. -/
  boot : Job → Prog Op Ret (Option Job)
  /-- A move of the surroundings, with the task it starts. -/
  move : Ext → World → Option (World × Option Job)

/-- A task: its loop's state, and what is left of the current pass. -/
structure Task (Op : Type) (Ret : Op → Type) (Job : Type) where
  job : Job
  prog : Prog Op Ret (Option Job)

/-- A configuration: the world, the tasks by number, and every operation performed so far. -/
structure Config (Op : Type) (Ret : Op → Type) (Job World : Type) where
  world : World
  tasks : List (Task Op Ret Job)
  trace : Trace Op Ret

/-- A step: task `i` performs its next operation, task `i` goes on to the next pass of its loop,
or the surroundings move. -/
inductive Label (Env Ext : Type) where
  | act (i : Nat) (env : Env)
  | loop (i : Nat)
  | ext (x : Ext)

variable {Op : Type} {Ret : Op → Type} {Job World Env Ext : Type}

namespace Machine

variable (M : Machine Op Ret Job World Env Ext)

/-- A task at the head of its loop. -/
def start (job : Job) : Task Op Ret Job := ⟨job, M.boot job⟩

/-- The step function. -/
def step (σ : Config Op Ret Job World) : Label Env Ext → Option (Config Op Ret Job World)
  | .act i env =>
    match σ.tasks[i]? with
    | some ⟨job, .act op next⟩ =>
      match M.exec op env σ.world with
      | some (r, world) =>
        some { world, tasks := σ.tasks.set i ⟨job, next r⟩, trace := (i, ⟨op, r⟩) :: σ.trace }
      | none => none
    | _ => none
  | .loop i =>
    match σ.tasks[i]? with
    | some ⟨_, .done (some job)⟩ => some { σ with tasks := σ.tasks.set i (M.start job) }
    | _ => none
  | .ext x =>
    match M.move x σ.world with
    | some (world, job) =>
      some { σ with world, tasks := σ.tasks ++ (job.map M.start).toList }
    | none => none

/-- A schedule, run from the left; `none` once a step of it fails its check or is not possible. -/
def runIf (check : Config Op Ret Job World → Label Env Ext → Bool) :
    List (Label Env Ext) → Config Op Ret Job World → Option (Config Op Ret Job World)
  | [], σ => some σ
  | ℓ :: ls, σ => if check σ ℓ then (M.step σ ℓ).bind (runIf check ls) else none

/-- The configurations reached by steps that all meet `ok`. -/
inductive Reach (ok : Config Op Ret Job World → Label Env Ext → Prop)
    (init : Config Op Ret Job World) : Config Op Ret Job World → Prop
  | init : Reach ok init init
  | step {σ σ' : Config Op Ret Job World} {ℓ : Label Env Ext} :
      Reach ok init σ → ok σ ℓ → M.step σ ℓ = some σ' → Reach ok init σ'

variable {M} {ok ok' : Config Op Ret Job World → Label Env Ext → Prop}
  {init σ σ' : Config Op Ret Job World}

theorem Reach.trans (h : M.Reach ok init σ) (h' : M.Reach ok σ σ') : M.Reach ok init σ' := by
  induction h' with
  | init => exact h
  | step _ hℓ hs ih => exact .step ih hℓ hs

/-- Steps that meet a condition meet a weaker one. -/
theorem Reach.mono (h : M.Reach ok init σ) (weaker : ∀ σ ℓ, ok σ ℓ → ok' σ ℓ) :
    M.Reach ok' init σ := by
  induction h with
  | init => exact .init
  | step _ allowed stepped ih => exact .step ih (weaker _ _ allowed) stepped

/-- A schedule that runs is a way to reach where it ends. -/
theorem reach_of_runIf {check : Config Op Ret Job World → Label Env Ext → Bool}
    {ls : List (Label Env Ext)} (hcheck : ∀ σ ℓ, check σ ℓ = true → ok σ ℓ)
    (h : M.runIf check ls σ = some σ') : M.Reach ok σ σ' := by
  induction ls generalizing σ with
  | nil => cases h; exact .init
  | cons ℓ ls ih =>
    unfold runIf at h
    split at h
    · rename_i passed
      obtain ⟨σ₁, hs, hr⟩ := Option.bind_eq_some_iff.mp h
      exact Reach.trans (.step .init (hcheck σ ℓ passed) hs) (ih hr)
    · cases h

/-! ## What a step does -/

/-- The three ways to step, each with everything it changes. -/
inductive Stepped (M : Machine Op Ret Job World Env Ext) (σ : Config Op Ret Job World) :
    Label Env Ext → Config Op Ret Job World → Prop
  | act {i : Nat} {env : Env} {job : Job} {op : Op} {next : Ret op → Prog Op Ret (Option Job)}
      {r : Ret op} {world : World} (task : σ.tasks[i]? = some ⟨job, .act op next⟩)
      (exec : M.exec op env σ.world = some (r, world)) :
      Stepped M σ (.act i env)
        ⟨world, σ.tasks.set i ⟨job, next r⟩, (i, ⟨op, r⟩) :: σ.trace⟩
  | loop {i : Nat} {job job' : Job} (task : σ.tasks[i]? = some ⟨job, .done (some job')⟩) :
      Stepped M σ (.loop i) { σ with tasks := σ.tasks.set i (M.start job') }
  | ext {x : Ext} {world : World} {job : Option Job}
      (move : M.move x σ.world = some (world, job)) :
      Stepped M σ (.ext x) { σ with world, tasks := σ.tasks ++ (job.map M.start).toList }

theorem step_cases {ℓ : Label Env Ext} (h : M.step σ ℓ = some σ') : Stepped M σ ℓ σ' := by
  cases ℓ with
  | act i env =>
    simp only [step] at h
    split at h
    · rename_i job op next htask
      split at h
      · rename_i r world hexec
        cases h
        exact .act htask hexec
      · cases h
    · cases h
  | loop i =>
    simp only [step] at h
    split at h
    · rename_i job job' htask
      cases h
      exact .loop htask
    · cases h
  | ext x =>
    simp only [step] at h
    split at h
    · rename_i world job hext
      cases h
      exact .ext hext
    · cases h

/-- A task whose next operation can be performed can step. -/
theorem step_of_exec {i : Nat} {env : Env} {job : Job} {op : Op}
    {next : Ret op → Prog Op Ret (Option Job)} {r : Ret op} {world : World}
    (task : σ.tasks[i]? = some ⟨job, .act op next⟩)
    (performed : M.exec op env σ.world = some (r, world)) :
    M.step σ (.act i env) =
      some ⟨world, σ.tasks.set i ⟨job, next r⟩, (i, ⟨op, r⟩) :: σ.trace⟩ := by
  simp only [step, task, performed]

/-- The tasks after an operation or a turn of task `i`: the new one at `i`, the old ones
elsewhere. -/
theorem getElem?_set_cases {ts : List (Task Op Ret Job)} {i k : Nat} {t t' : Task Op Ret Job}
    (h : (ts.set i t)[k]? = some t') : (k = i ∧ t' = t) ∨ (k ≠ i ∧ ts[k]? = some t') := by
  rw [List.getElem?_set] at h
  split at h
  · rename_i hk
    split at h
    · exact .inl ⟨hk.symm, (Option.some.inj h).symm⟩
    · cases h
  · rename_i hk
    exact .inr ⟨fun e => hk e.symm, h⟩

/-- The tasks after the surroundings moved: the old ones, and the one started. -/
theorem getElem?_start_cases {ts : List (Task Op Ret Job)} {job : Option Job} {k : Nat}
    {t : Task Op Ret Job} (h : (ts ++ (job.map M.start).toList)[k]? = some t) :
    ts[k]? = some t ∨ (ts.length = k ∧ ∃ j, job = some j ∧ t = M.start j) := by
  rcases Nat.lt_or_ge k ts.length with hk | hk
  · rw [List.getElem?_append_left hk] at h
    exact .inl h
  · rw [List.getElem?_append_right hk] at h
    cases job with
    | none => simp only [Option.map_none, Option.toList_none, List.getElem?_nil] at h; cases h
    | some j =>
      simp only [Option.map_some, Option.toList_some, List.getElem?_singleton] at h
      split at h
      · exact .inr ⟨by omega, j, rfl, (Option.some.inj h).symm⟩
      · cases h

/-- No step takes a task out of the pool. -/
theorem length_le (h : M.Reach ok σ σ') : σ.tasks.length ≤ σ'.tasks.length := by
  induction h with
  | init => exact Nat.le_refl _
  | step _ _ stepped ih =>
    cases step_cases stepped with
    | act | loop => simpa only [List.length_set] using ih
    | ext =>
      rw [List.length_append]
      omega

/-- No run takes back what was performed. -/
theorem Reach.trace_grows (h : M.Reach ok σ σ') : ∃ since, σ'.trace = since ++ σ.trace := by
  induction h with
  | init => exact ⟨[], rfl⟩
  | step _ _ stepped ih =>
    obtain ⟨since, grown⟩ := ih
    cases step_cases stepped with
    | act => exact ⟨_ :: since, by rw [grown, List.cons_append]⟩
    | loop | ext => exact ⟨since, grown⟩

/-! ## Tasks that are not over -/

/-- The task has not come to its end. -/
def Live (σ : Config Op Ret Job World) (i : Nat) : Prop :=
  ∀ job, σ.tasks[i]? ≠ some ⟨job, .done none⟩

theorem live_of_act {i : Nat} {job : Job} {op : Op} {next : Ret op → Prog Op Ret (Option Job)}
    (task : σ.tasks[i]? = some ⟨job, .act op next⟩) : Live σ i := by
  intro job' ended
  cases task.symm.trans ended

/-- No step revives a task. -/
theorem live_of_step {ℓ : Label Env Ext} (h : M.step σ ℓ = some σ') {k : Nat} (live : Live σ' k) :
    Live σ k := by
  cases step_cases h with
  | @act i _ _ _ _ _ _ task =>
    by_cases hk : i = k
    · subst hk
      exact live_of_act task
    · intro job ended
      exact live job (by rw [List.getElem?_set_ne hk]; exact ended)
  | @loop i _ _ task =>
    by_cases hk : i = k
    · subst hk
      intro job ended
      cases task.symm.trans ended
    · intro job ended
      exact live job (by rw [List.getElem?_set_ne hk]; exact ended)
  | ext =>
    intro job ended
    refine live job ?_
    rw [List.getElem?_append_left (List.getElem?_eq_some_iff.mp ended).1]
    exact ended

/-! ## Invariants -/

/-- A condition on the operations performed: the surroundings' moves and the turns of the loops
are free. -/
def Acting (cond : Config Op Ret Job World → Nat → Env → Op → Prop)
    (σ : Config Op Ret Job World) : Label Env Ext → Prop
  | .act i env => ∀ job op next, σ.tasks[i]? = some ⟨job, .act op next⟩ → cond σ i env op
  | .loop _ | .ext _ => True

/-- **An invariant of the world and the trace** is kept by every run when each operation keeps it
and the surroundings do: the turns of the loops change neither. -/
theorem Reach.invariant (Inv : World → Trace Op Ret → Prop) (h : M.Reach ok init σ)
    (hinit : Inv init.world init.trace)
    (hact : ∀ {σ : Config Op Ret Job World} {i : Nat} {env : Env} {job : Job} {op : Op}
      {next : Ret op → Prog Op Ret (Option Job)} {r : Ret op} {w : World}, M.Reach ok init σ →
      σ.tasks[i]? = some ⟨job, .act op next⟩ → ok σ (.act i env) →
      M.exec op env σ.world = some (r, w) → Inv σ.world σ.trace → Inv w ((i, ⟨op, r⟩) :: σ.trace))
    (hext : ∀ {x : Ext} {w w' : World} {job : Option Job} {tr : Trace Op Ret},
      M.move x w = some (w', job) → Inv w tr → Inv w' tr) : Inv σ.world σ.trace := by
  induction h with
  | init => exact hinit
  | step hreach hok hs ih =>
    cases step_cases hs with
    | act htask hexec => exact hact hreach htask hok hexec ih
    | loop => exact ih
    | ext hmove => exact hext hmove ih

/-- The run to `σ` passed through `σ₀`, where task `i` performed the event. -/
structure Performed (M : Machine Op Ret Job World Env Ext)
    (ok : Config Op Ret Job World → Label Env Ext → Prop) (init σ : Config Op Ret Job World)
    (i : Nat) (ev : Event Op Ret) (σ₀ : Config Op Ret Job World) : Prop where
  before : M.Reach ok init σ₀
  here : ∃ env w, M.exec ev.op env σ₀.world = some (ev.ret, w) ∧
    ∃ σ₁, M.step σ₀ (.act i env) = some σ₁ ∧ σ₁.world = w ∧ σ₁.trace = (i, ev) :: σ₀.trace ∧
      M.Reach ok σ₁ σ

/-- **A run passes through every event of its trace**, with the events before it as the trace. -/
theorem Reach.split {later earlier : Trace Op Ret} {i : Nat} {ev : Event Op Ret}
    (reach : M.Reach ok init σ) (start : init.trace = [])
    (htr : σ.trace = later ++ (i, ev) :: earlier) :
    ∃ σ₀, M.Performed ok init σ i ev σ₀ ∧ σ₀.trace = earlier := by
  induction reach generalizing later with
  | init =>
    rw [start] at htr
    cases later <;> cases htr
  | @step σ σ' ℓ reach hok stepped ih =>
    have goes (htr : σ.trace = σ'.trace) {later : Trace Op Ret}
        (split : σ'.trace = later ++ (i, ev) :: earlier) :
        ∃ σ₀, M.Performed ok init σ' i ev σ₀ ∧ σ₀.trace = earlier := by
      obtain ⟨σ₀, ⟨before, env, w, performed, σ₁, first, world, trace, rest⟩, here⟩ :=
        ih (htr.trans split)
      exact ⟨σ₀, ⟨before, env, w, performed, σ₁, first, world, trace, .step rest hok stepped⟩, here⟩
    cases step_cases stepped with
    | @act k env job op next r world task performed =>
      rcases Trace.cons_eq_append htr with ⟨-, heq, rfl⟩ | ⟨later', -, htail⟩
      · cases heq
        exact ⟨σ, ⟨reach, env, world, performed, _, stepped, rfl, rfl, .init⟩, rfl⟩
      · obtain ⟨σ₀, ⟨before, env', w, performed', σ₁, first, world', trace, rest⟩, here⟩ := ih htail
        exact ⟨σ₀, ⟨before, env', w, performed', σ₁, first, world', trace,
          .step rest hok stepped⟩, here⟩
    | loop => exact goes rfl htr
    | ext => exact goes rfl htr

/-! ## Control flow in every reachable configuration -/

theorem Trace.of_eq_nil {tr : Trace Op Ret} {i : Nat} (h : ∀ entry ∈ tr, entry.1 ≠ i) :
    tr.of i = [] := by
  induction tr with
  | nil => rfl
  | cons entry tr ih =>
    rw [Trace.of_cons_ne tr (h entry List.mem_cons_self)]
    exact ih fun e he => h e (List.mem_cons_of_mem _ he)

section Flow

variable {site : Job → List (Event Op Ret) → Op → Prop}
  {ends : Job → List (Event Op Ret) → Option Job → Prop}
  {ready : Job → List (Event Op Ret) → Prop}

/-- Each task's program flows from the task's own history, and only tasks have a history. -/
structure Flowing (site : Job → List (Event Op Ret) → Op → Prop)
    (ends : Job → List (Event Op Ret) → Option Job → Prop) (σ : Config Op Ret Job World) :
    Prop where
  flows : ∀ (i : Nat) (t : Task Op Ret Job), σ.tasks[i]? = some t →
    t.prog.Flows (site t.job) (ends t.job) (σ.trace.of i)
  owned : ∀ entry ∈ σ.trace, entry.1 < σ.tasks.length

/-- **The control flow of the passes is the control flow of every reachable task.** A pass of a
job starts from a history that is `ready` for it: what another pass ended with, or the empty one
of a task just started. -/
theorem flows_reach (hboot : ∀ job h, ready job h → (M.boot job).Flows (site job) (ends job) h)
    (hends : ∀ job h job', ends job h (some job') → ready job' h)
    (hext : ∀ x w w' job, M.move x w = some (w', some job) → ready job [])
    (hinit : Flowing site ends init) (h : M.Reach ok init σ) : Flowing site ends σ := by
  induction h with
  | init => exact hinit
  | @step σ σ' ℓ _ _ hs ih =>
    cases step_cases hs with
    | @act i env job op next r world htask hexec =>
      refine ⟨fun k t ht => ?_, fun entry hentry => ?_⟩
      · rcases getElem?_set_cases ht with ⟨rfl, rfl⟩ | ⟨hk, ht⟩
        · rw [Trace.of_cons_self]
          exact (ih.flows _ _ htask).2 r
        · rw [Trace.of_cons_ne _ (Ne.symm hk)]
          exact ih.flows k t ht
      · rw [List.length_set]
        rcases List.mem_cons.mp hentry with rfl | hentry
        · exact (List.getElem?_eq_some_iff.mp htask).1
        · exact ih.owned entry hentry
    | loop htask =>
      refine ⟨fun k t ht => ?_, fun entry hentry => ?_⟩
      · rcases getElem?_set_cases ht with ⟨rfl, rfl⟩ | ⟨-, ht⟩
        · exact hboot _ _ (hends _ _ _ (ih.flows _ _ htask))
        · exact ih.flows k t ht
      · rw [List.length_set]
        exact ih.owned entry hentry
    | ext hmove =>
      refine ⟨fun k t ht => ?_, fun entry hentry => ?_⟩
      · rcases getElem?_start_cases ht with ht | ⟨rfl, j, rfl, rfl⟩
        · exact ih.flows k t ht
        · rw [Trace.of_eq_nil fun entry hentry => Nat.ne_of_lt (ih.owned entry hentry)]
          exact hboot _ _ (hext _ _ _ _ hmove)
      · rw [List.length_append]
        exact Nat.lt_of_lt_of_le (ih.owned entry hentry) (Nat.le_add_right _ _)

end Flow

end Machine

end Interleave
