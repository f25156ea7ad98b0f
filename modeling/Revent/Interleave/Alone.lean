import Revent.Interleave.Pool

/-!
# Programs run alone

The sequential semantics of the programs of a pool: `Alone exec p w h a w' h'` says that `p`, run
from the world `w` with nobody else acting, may end with the value `a` in the world `w'`, its
events put on top of the history `h`. What the surroundings decide about an operation is still
free. A task of a pool can do what its program does alone, and does nothing else while it is the
only one to act (`alone_iff_reach`).

`Prog.Ensures exec Q p w h` is the weakest precondition: every way `p` ends alone meets `Q`. A
development computes it through the tree, with `Ensures.bind` for sequencing, `ensures_forM` for
loops, and `Flows.ensures` for what the operations of a program cannot touch.

`Sequential` is the runs of a server that handles one call after the other.
-/

namespace Interleave

variable {Op : Type} {Ret : Op → Type} {World Env α β γ : Type}
  {exec : (op : Op) → Env → World → Option (Ret op × World)}

/-- A program run alone, from a world and a history to a value, a world and a history. -/
inductive Alone (exec : (op : Op) → Env → World → Option (Ret op × World)) :
    Prog Op Ret α → World → List (Event Op Ret) → α → World → List (Event Op Ret) → Prop
  | done {a : α} {w : World} {h : List (Event Op Ret)} : Alone exec (.done a) w h a w h
  | act {op : Op} {next : Ret op → Prog Op Ret α} {env : Env} {r : Ret op} {a : α}
      {w w₁ w' : World} {h h' : List (Event Op Ret)} (performed : exec op env w = some (r, w₁))
      (rest : Alone exec (next r) w₁ (⟨op, r⟩ :: h) a w' h') :
      Alone exec (.act op next) w h a w' h'

/-- **Every way the program ends alone meets `Q`.** -/
def Prog.Ensures (exec : (op : Op) → Env → World → Option (Ret op × World))
    (Q : α → World → List (Event Op Ret) → Prop) :
    Prog Op Ret α → World → List (Event Op Ret) → Prop
  | .done a, w, h => Q a w h
  | .act op next, w, h => ∀ (env : Env) (r : Ret op) (w₁ : World),
      exec op env w = some (r, w₁) → (next r).Ensures exec Q w₁ (⟨op, r⟩ :: h)

/-- The run of a program in which the surroundings decide as listed, if it is possible and the
list is long enough. -/
def Prog.play (exec : (op : Op) → Env → World → Option (Ret op × World)) :
    Prog Op Ret α → List Env → World → List (Event Op Ret) →
      Option (α × World × List (Event Op Ret))
  | .done a, _, w, h => some (a, w, h)
  | .act _ _, [], _, _ => none
  | .act op next, env :: envs, w, h =>
    (exec op env w).bind fun done => (next done.1).play exec envs done.2 (⟨op, done.1⟩ :: h)

variable {Q : α → World → List (Event Op Ret) → Prop}
  {Q' : β → World → List (Event Op Ret) → Prop} {p : Prog Op Ret α} {w w' : World}
  {h h' : List (Event Op Ret)} {a : α}

theorem alone_of_play {envs : List Env} (played : p.play exec envs w h = some (a, w', h')) :
    Alone exec p w h a w' h' := by
  induction p generalizing envs w h with
  | done a =>
    cases played
    exact .done
  | act op next ih =>
    cases envs with
    | nil => cases played
    | cons env envs =>
      obtain ⟨⟨r, w₁⟩, performed, rest⟩ := Option.bind_eq_some_iff.mp played
      exact .act performed (ih r rest)

/-- What ends a sequence of programs ends the first one before. -/
theorem Alone.of_bind {f : α → Prog Op Ret β} {b : β} (run : Alone exec (p >>= f) w h b w' h') :
    ∃ a w₁ h₁, Alone exec p w h a w₁ h₁ ∧ Alone exec (f a) w₁ h₁ b w' h' := by
  induction p generalizing w h with
  | done a => exact ⟨a, w, h, .done, run⟩
  | act op next ih =>
    rw [Prog.act_bind] at run
    cases run with
    | act performed rest =>
      obtain ⟨a, w₁, h₁, first, second⟩ := ih _ rest
      exact ⟨a, w₁, h₁, .act performed first, second⟩

/-- With operations that can do more, a program can do more. -/
theorem Alone.mono {Env' : Type} {exec' : (op : Op) → Env' → World → Option (Ret op × World)}
    (more : ∀ {op env w done}, exec op env w = some done → ∃ env', exec' op env' w = some done)
    (run : Alone exec p w h a w' h') : Alone exec' p w h a w' h' := by
  induction run with
  | done => exact .done
  | act performed _ ih =>
    obtain ⟨env', performed⟩ := more performed
    exact .act performed ih

/-- A program puts its events on top of any history. -/
theorem Alone.events (run : Alone exec p w h a w' h') :
    ∃ events, h' = events ++ h ∧ ∀ h₀, Alone exec p w h₀ a w' (events ++ h₀) := by
  induction run with
  | done => exact ⟨[], rfl, fun _ => .done⟩
  | @act op next env r a w w₁ w' h h' performed _ ih =>
    obtain ⟨events, split, on_top⟩ := ih
    refine ⟨events ++ [⟨op, r⟩], ?_, fun h₀ => ?_⟩
    · rw [split, List.append_assoc, List.singleton_append]
    · rw [List.append_assoc, List.singleton_append]
      exact .act performed (on_top _)

/-- The weakest precondition is the one of the runs. -/
theorem Prog.ensures_iff :
    p.Ensures exec Q w h ↔ ∀ a w' h', Alone exec p w h a w' h' → Q a w' h' := by
  induction p generalizing w h with
  | done a =>
    constructor
    · intro holds a' w' h' run
      cases run
      exact holds
    · intro holds
      exact holds a w h .done
  | act op next ih =>
    constructor
    · intro holds a w' h' run
      cases run with
      | act performed rest => exact (ih _).mp (holds _ _ _ performed) a w' h' rest
    · intro holds env r w₁ performed
      refine (ih r).mpr fun a w' h' rest => ?_
      exact holds a w' h' (.act performed rest)

theorem Prog.Ensures.elim (holds : p.Ensures exec Q w h) (run : Alone exec p w h a w' h') :
    Q a w' h' :=
  Prog.ensures_iff.mp holds a w' h' run

theorem Prog.Ensures.mono {Q₂ : α → World → List (Event Op Ret) → Prop}
    (holds : p.Ensures exec Q w h) (weaker : ∀ a w' h', Q a w' h' → Q₂ a w' h') :
    p.Ensures exec Q₂ w h :=
  Prog.ensures_iff.mpr fun a w' h' run => weaker a w' h' (holds.elim run)

theorem Prog.Ensures.and {Q₂ : α → World → List (Event Op Ret) → Prop}
    (holds : p.Ensures exec Q w h) (holds₂ : p.Ensures exec Q₂ w h) :
    p.Ensures exec (fun a w' h' => Q a w' h' ∧ Q₂ a w' h') w h :=
  Prog.ensures_iff.mpr fun _ _ _ run => ⟨holds.elim run, holds₂.elim run⟩

/-- Sequencing. -/
theorem Prog.Ensures.bind {f : α → Prog Op Ret β} (first : p.Ensures exec Q w h)
    (second : ∀ a w' h', Q a w' h' → (f a).Ensures exec Q' w' h') :
    (p >>= f).Ensures exec Q' w h := by
  induction p generalizing w h with
  | done a => exact second a w h first
  | act op next ih => exact fun env r w₁ performed => ih r (first env r w₁ performed)

/-- A loop over a list: what holds before each round, of what is left to visit, is kept by the
round. -/
theorem ensures_forM {body : γ → Prog Op Ret Unit}
    (Inv : List γ → World → List (Event Op Ret) → Prop)
    (round : ∀ x xs w h, Inv (x :: xs) w h → (body x).Ensures exec (fun _ => Inv xs) w h)
    (xs : List γ) (entry : Inv xs w h) :
    (xs.forM body).Ensures exec (fun _ => Inv []) w h := by
  induction xs generalizing w h with
  | nil => exact entry
  | cons x xs ih => exact (round x xs w h entry).bind fun _ w' h' kept => ih kept

/-- A loop over a list in which each key occurs once: what holds of the items visited so far is
extended by a round to an item that was not among them. -/
theorem ensures_forM_once {κ : Type} {body : γ → Prog Op Ret Unit} {key : γ → κ}
    (Inv : List γ → World → List (Event Op Ret) → Prop)
    (round : ∀ visited x w h, key x ∉ visited.map key → Inv visited w h →
      (body x).Ensures exec (fun _ => Inv (visited ++ [x])) w h)
    {xs : List γ} (once : (xs.map key).Nodup) (entry : Inv [] w h) :
    (xs.forM body).Ensures exec (fun _ => Inv xs) w h := by
  -- before each round, the list is what was visited and what is left
  have round' (x : γ) (left : List γ) (w : World) (h : List (Event Op Ret))
      (before : ∃ visited, xs = visited ++ x :: left ∧ Inv visited w h) :
      (body x).Ensures exec (fun _ w' h' => ∃ visited, xs = visited ++ left ∧ Inv visited w' h')
        w h := by
    obtain ⟨visited, all, sofar⟩ := before
    have fresh : key x ∉ visited.map key := by
      rw [all, List.map_append, List.map_cons] at once
      exact fun mem => (List.nodup_append.mp once).2.2 _ mem _ List.mem_cons_self rfl
    refine (round visited x w h fresh sofar).mono fun _ w' h' next => ?_
    refine ⟨visited ++ [x], ?_, next⟩
    rw [all, List.append_assoc, List.singleton_append]
  have loop := ensures_forM (fun left w h => ∃ visited, xs = visited ++ left ∧ Inv visited w h)
    round' xs ⟨[], rfl, entry⟩
  refine loop.mono fun _ w' h' ⟨visited, all, holds⟩ => ?_
  rw [List.append_nil] at all
  exact all ▸ holds

/-- **The frame rule**: what every operation of the program keeps, the program keeps. -/
theorem Prog.Flows.ensures {allowed : Op → Prop} {Inv : World → List (Event Op Ret) → Prop}
    {h₀ : List (Event Op Ret)} (flows : p.Flows (fun _ => allowed) (fun _ _ => True) h₀)
    (kept : ∀ {op : Op} {env : Env} {r : Ret op} {w w' : World} {h : List (Event Op Ret)},
      allowed op → exec op env w = some (r, w') → Inv w h → Inv w' (⟨op, r⟩ :: h))
    (entry : Inv w h) : p.Ensures exec (fun _ => Inv) w h := by
  induction p generalizing w h h₀ with
  | done a => exact entry
  | act op next ih =>
    intro env r w₁ performed
    exact ih r (flows.2 r) (kept flows.1 performed entry)

/-- What every operation keeps, every program keeps. -/
theorem Prog.ensures_invariant {Inv : World → Prop}
    (kept : ∀ {op : Op} {env : Env} {r : Ret op} {w w' : World},
      exec op env w = some (r, w') → Inv w → Inv w')
    (entry : Inv w) : p.Ensures exec (fun _ w' _ => Inv w') w h := by
  induction p generalizing w h with
  | done a => exact entry
  | act op next ih => exact fun env r w₁ performed => ih r (kept performed entry)

/-! ## Alone in a pool -/

section Pool

variable {Job Ext : Type} {M : Machine Op Ret Job World Env Ext}
  {σ σ' : Config Op Ret Job World} {i : Nat} {job : Job}

/-- Only task `i` acts. -/
def OnlyActs (i : Nat) (_ : Config Op Ret Job World) : Label Env Ext → Prop
  | .act k _ => k = i
  | .loop _ | .ext _ => False

/-- **A task can do in a pool what its program does alone.** -/
theorem Alone.reach (run : Alone M.exec p w h a w' h') (k : α → Prog Op Ret (Option Job))
    (task : σ.tasks[i]? = some ⟨job, p >>= k⟩) (world : σ.world = w) (own : σ.trace.of i = h) :
    ∃ σ', M.Reach (OnlyActs i) σ σ' ∧ σ'.world = w' ∧ σ'.trace.of i = h' ∧
      σ'.tasks = σ.tasks.set i ⟨job, k a⟩ := by
  induction run generalizing σ with
  | done =>
    obtain ⟨hi, at_i⟩ := List.getElem?_eq_some_iff.mp task
    refine ⟨σ, .init, world, own, ?_⟩
    rw [← Prog.done_bind _ k, ← at_i, List.set_getElem_self]
  | @act op next env r a w w₁ w' h h' performed rest ih =>
    subst world own
    have task : σ.tasks[i]? = some ⟨job, .act op fun r => next r >>= k⟩ := task
    have stepped : M.step σ (.act i env) = some ⟨w₁, σ.tasks.set i ⟨job, next r >>= k⟩,
        (i, ⟨op, r⟩) :: σ.trace⟩ := Machine.step_of_exec task performed
    have hi : i < σ.tasks.length := (List.getElem?_eq_some_iff.mp task).1
    have first : OnlyActs i σ (Label.act i env : Label Env Ext) := rfl
    obtain ⟨σ', reach, world, own, tasks⟩ := ih (σ := ⟨w₁, σ.tasks.set i ⟨job, next r >>= k⟩,
      (i, ⟨op, r⟩) :: σ.trace⟩) (List.getElem?_set_self hi) rfl (Trace.of_cons_self _ _ _)
    refine ⟨σ', Machine.Reach.trans (.step .init first stepped) reach, world, own, ?_⟩
    rw [tasks, List.set_set]

/-- While a task is the only one to act, what is left of its program at the end of the run ends
the program it had at the start. -/
theorem alone_of_reach {p' : Prog Op Ret (Option Job)} {next : Option Job}
    {p : Prog Op Ret (Option Job)} (reach : M.Reach (OnlyActs i) σ σ')
    (task : σ.tasks[i]? = some ⟨job, p⟩) (task' : σ'.tasks[i]? = some ⟨job, p'⟩)
    (rest : Alone M.exec p' σ'.world (σ'.trace.of i) next w' h') :
    Alone M.exec p σ.world (σ.trace.of i) next w' h' := by
  induction reach generalizing p' with
  | init =>
    cases task.symm.trans task'
    exact rest
  | @step σ₁ σ₂ ℓ _ only stepped ih =>
    cases Machine.step_cases stepped with
    | @act k env job₁ op next r world at_k performed =>
      have hk : k = i := only
      subst hk
      rcases Machine.getElem?_set_cases task' with ⟨-, same⟩ | ⟨other, -⟩
      · cases same
        rw [Trace.of_cons_self] at rest
        exact ih at_k (.act performed rest)
      · exact absurd rfl other
    | loop => exact only.elim
    | ext => exact only.elim

/-- **Adequacy**: the ends of a program run alone are the ends of a task's pass while the task is
the only one to act. -/
theorem alone_iff_reach {p : Prog Op Ret (Option Job)} {next : Option Job}
    (task : σ.tasks[i]? = some ⟨job, p⟩) :
    Alone M.exec p σ.world (σ.trace.of i) next w' h' ↔
      ∃ σ', M.Reach (OnlyActs i) σ σ' ∧ σ'.world = w' ∧ σ'.trace.of i = h' ∧
        σ'.tasks[i]? = some ⟨job, .done next⟩ := by
  constructor
  · intro run
    have at_p : σ.tasks[i]? = some ⟨job, p >>= Prog.done⟩ := by rw [Prog.bind_done, task]
    obtain ⟨σ', reach, world, own, tasks⟩ := run.reach Prog.done at_p rfl rfl
    refine ⟨σ', reach, world, own, ?_⟩
    rw [tasks]
    exact List.getElem?_set_self (List.getElem?_eq_some_iff.mp task).1
  · rintro ⟨σ', reach, rfl, rfl, at_done⟩
    exact alone_of_reach reach task at_done .done

end Pool

/-! ## One call after the other -/

/-- A call that was handled, with the world it found and the events of its program. -/
structure Turn (Call Op : Type) (Ret : Op → Type) (World : Type) where
  call : Call
  before : World
  events : List (Event Op Ret)

/-- **The sequential runs**: each call's program runs alone, from the world the last one left. The
turns are listed with the newest first. -/
inductive Sequential {Call : Type} (exec : (op : Op) → Env → World → Option (Ret op × World))
    (prog : Call → Prog Op Ret Unit) (init : World) :
    List (Turn Call Op Ret World) → World → Prop
  | start : Sequential exec prog init [] init
  | turn {turns : List (Turn Call Op Ret World)} {call : Call} {w w' : World}
      {events : List (Event Op Ret)} (earlier : Sequential exec prog init turns w)
      (run : Alone exec (prog call) w [] () w' events) :
      Sequential exec prog init (⟨call, w, events⟩ :: turns) w'

/-- What every operation keeps holds after every sequential run. -/
theorem Sequential.invariant {Call : Type} {prog : Call → Prog Op Ret Unit} {init : World}
    {turns : List (Turn Call Op Ret World)} {Inv : World → Prop}
    (run : Sequential exec prog init turns w)
    (kept : ∀ {op : Op} {env : Env} {r : Ret op} {w w' : World},
      exec op env w = some (r, w') → Inv w → Inv w')
    (entry : Inv init) : Inv w := by
  induction run with
  | start => exact entry
  | turn _ run ih => exact (Prog.ensures_invariant kept ih).elim run

/-- A run is a run up to one of its turns, that turn, and a run from there on. -/
theorem Sequential.split {Call : Type} {prog : Call → Prog Op Ret Unit} {init : World}
    {late early : List (Turn Call Op Ret World)} {turn : Turn Call Op Ret World}
    (run : Sequential exec prog init (late ++ turn :: early) w) :
    ∃ w₁, Sequential exec prog init early turn.before ∧
      Alone exec (prog turn.call) turn.before [] () w₁ turn.events ∧
      Sequential exec prog w₁ late w := by
  induction late generalizing w with
  | nil =>
    cases run with
    | turn earlier run => exact ⟨w, earlier, run, .start⟩
  | cons last late ih =>
    cases run with
    | turn earlier run =>
      obtain ⟨w₁, before, handled, after⟩ := ih earlier
      exact ⟨w₁, before, handled, .turn after run⟩

/-- What each turn of a run keeps holds at its end. -/
theorem Sequential.holds {Call : Type} {prog : Call → Prog Op Ret Unit} {init : World}
    {turns : List (Turn Call Op Ret World)} (Inv : World → Prop)
    (run : Sequential exec prog init turns w)
    (kept : ∀ turn ∈ turns, ∀ w', Alone exec (prog turn.call) turn.before [] () w' turn.events →
      Inv turn.before → Inv w')
    (entry : Inv init) : Inv w := by
  induction run with
  | start => exact entry
  | turn earlier run ih =>
    refine kept _ List.mem_cons_self _ run (ih fun turn mem => ?_)
    exact kept turn (List.mem_cons_of_mem _ mem)

/-- The run of the calls in which the surroundings decide as listed. -/
def playCalls {Call : Type} (exec : (op : Op) → Env → World → Option (Ret op × World))
    (prog : Call → Prog Op Ret Unit) :
    List (Call × List Env) → List (Turn Call Op Ret World) → World →
      Option (List (Turn Call Op Ret World) × World)
  | [], turns, w => some (turns, w)
  | (call, envs) :: calls, turns, w =>
    ((prog call).play exec envs w []).bind fun done =>
      playCalls exec prog calls (⟨call, w, done.2.2⟩ :: turns) done.2.1

theorem sequential_of_playCalls {Call : Type} {prog : Call → Prog Op Ret Unit} {init : World}
    {calls : List (Call × List Env)} {turns turns' : List (Turn Call Op Ret World)}
    (earlier : Sequential exec prog init turns w)
    (played : playCalls exec prog calls turns w = some (turns', w')) :
    Sequential exec prog init turns' w' := by
  induction calls generalizing turns w with
  | nil =>
    cases played
    exact earlier
  | cons entry calls ih =>
    obtain ⟨⟨u, w₁, events⟩, run, rest⟩ := Option.bind_eq_some_iff.mp played
    exact ih (.turn earlier (alone_of_play run)) rest

/-- The turns of the run are those of its calls. -/
theorem calls_of_playCalls {Call : Type} {prog : Call → Prog Op Ret Unit}
    {calls : List (Call × List Env)} {turns turns' : List (Turn Call Op Ret World)}
    (played : playCalls exec prog calls turns w = some (turns', w')) :
    turns'.map (·.call) = (calls.map Prod.fst).reverse ++ turns.map (·.call) := by
  induction calls generalizing turns w with
  | nil =>
    cases played
    rfl
  | cons entry calls ih =>
    obtain ⟨⟨u, w₁, events⟩, -, rest⟩ := Option.bind_eq_some_iff.mp played
    rw [ih rest, List.map_cons, List.map_cons, List.reverse_cons, List.append_assoc]
    rfl

end Interleave
