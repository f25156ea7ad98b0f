import Revent.Interleave.Pool

/-!
# Walks over a snapshot

A task that copies a collection and then visits the entries of the copy one after the other, while
other tasks change the collection. A `Walk` says which events take a copy and which visit an entry.
A task's own history then splits the copy in two: what was visited since, and what is left.

`Reach.inOrder` is the rule: where every visit of a task is to the first entry it has left, what was
visited and what is left are the copy, in its order (`InOrder.visited_append_left`), and each visit
goes back to the step that took the copy (`Reach.taken_of_visit`).
-/

namespace Interleave

variable {Op : Type} {Ret : Op → Type} {α : Type}

/-- A loop over a copy: the copy an event takes, and the entry an event visits. -/
structure Walk (Op : Type) (Ret : Op → Type) (α : Type) where
  takes : Event Op Ret → Option (List α)
  visits : Event Op Ret → Option α

namespace Walk

variable (W : Walk Op Ret α)

/-- The last copy taken. -/
def snapshot : List (Event Op Ret) → List α
  | [] => []
  | ev :: h => (W.takes ev).getD (snapshot h)

/-- The entries visited since the last copy, the first one first. -/
def visited : List (Event Op Ret) → List α
  | [] => []
  | ev :: h => (W.takes ev).elim (visited h ++ (W.visits ev).toList) fun _ => []

/-- The entries of the last copy that are left to visit. -/
def left : List (Event Op Ret) → List α
  | [] => []
  | ev :: h => (W.takes ev).getD ((left h).drop (W.visits ev).toList.length)

/-- Each visit is to the first entry that was left. -/
def InOrder : List (Event Op Ret) → Prop
  | [] => True
  | ev :: h => InOrder h ∧
      (W.takes ev = none → ∀ a, W.visits ev = some a → (W.left h).head? = some a)

variable {W} {h : List (Event Op Ret)} {a : α}

/-- **What was visited and what is left are the copy**, in its order. -/
theorem InOrder.visited_append_left (inOrder : W.InOrder h) :
    W.visited h ++ W.left h = W.snapshot h := by
  induction h with
  | nil => rfl
  | cons ev h ih =>
    obtain ⟨before, first⟩ := inOrder
    have split := ih before
    simp only [visited, left, snapshot]
    cases taken : W.takes ev with
    | some entries => rfl
    | none =>
      simp only [Option.elim_none, Option.getD_none]
      cases visit : W.visits ev with
      | none => simpa using split
      | some a =>
        obtain ⟨rest, all⟩ := List.head?_eq_some_iff.mp (first taken a visit)
        rw [all] at split ⊢
        simpa using split

/-- A walk was in order at every moment before. -/
theorem InOrder.before {later : List (Event Op Ret)} (inOrder : W.InOrder (later ++ h)) :
    W.InOrder h := by
  induction later with
  | nil => exact inOrder
  | cons ev later ih => exact ih inOrder.1

/-- An entry of the last copy was in what an event took. -/
theorem taken_of_mem (mem : a ∈ W.snapshot h) :
    ∃ later ev earlier, h = later ++ ev :: earlier ∧ W.takes ev = some (W.snapshot h) ∧
      ∀ ev' ∈ later, W.takes ev' = none := by
  induction h with
  | nil => cases mem
  | cons ev h ih =>
    cases taken : W.takes ev with
    | some entries => exact ⟨[], ev, h, rfl, by simp [snapshot, taken], by simp⟩
    | none =>
      have same : W.snapshot (ev :: h) = W.snapshot h := by simp [snapshot, taken]
      rw [same] at mem ⊢
      obtain ⟨later, ev', earlier, rfl, took, none_between⟩ := ih mem
      refine ⟨ev :: later, ev', earlier, rfl, took, ?_⟩
      intro ev'' mem''
      rcases List.mem_cons.mp mem'' with rfl | mem''
      · exact taken
      · exact none_between ev'' mem''

end Walk

namespace Machine

variable {Job World Env Ext : Type} {M : Machine Op Ret Job World Env Ext}
  {ok : Config Op Ret Job World → Label Env Ext → Prop} {init σ : Config Op Ret Job World}
  {W : Walk Op Ret α} {i : Nat} {a : α}

/-- **The rule of walks**: where every visit of a task is to the first entry it has left, the walks
of every run are in order. -/
theorem Reach.inOrder (reach : M.Reach ok init σ) (fresh : init.trace = [])
    (first : ∀ {σ : Config Op Ret Job World} {i : Nat} {job : Job} {op : Op}
      {next : Ret op → Prog Op Ret (Option Job)} {r : Ret op} {a : α}, M.Reach ok init σ →
      σ.tasks[i]? = some ⟨job, .act op next⟩ → W.takes ⟨op, r⟩ = none →
      W.visits ⟨op, r⟩ = some a → (W.left (σ.trace.of i)).head? = some a) (i : Nat) :
    W.InOrder (σ.trace.of i) := by
  refine reach.invariant (fun _ tr => ∀ i, W.InOrder (Trace.of tr i)) ?_ ?_ (fun _ => id) i
  · rw [fresh]
    exact fun _ => trivial
  · intro σ i env job op next r w before task _ _ inOrder k
    by_cases here : i = k
    · subst here
      rw [Trace.of_cons_self]
      exact ⟨inOrder i, fun untaken a visit => first before task untaken visit⟩
    · rw [Trace.of_cons_ne _ here]
      exact inOrder k

/-- What holds of every copy taken holds of the last one. -/
theorem Reach.snapshot (P : List α → Prop) (reach : M.Reach ok init σ) (fresh : init.trace = [])
    (empty : P [])
    (taken : ∀ {σ : Config Op Ret Job World} {env : Env} {op : Op} {r : Ret op} {w : World}
      {entries : List α}, M.Reach ok init σ → M.exec op env σ.world = some (r, w) →
      W.takes ⟨op, r⟩ = some entries → P entries) (i : Nat) : P (W.snapshot (σ.trace.of i)) := by
  refine reach.invariant (fun _ tr => ∀ i, P (W.snapshot (Trace.of tr i))) ?_ ?_ (fun _ => id) i
  · rw [fresh]
    exact fun _ => empty
  · intro σ i env job op next r w before _ _ performed holds k
    by_cases here : i = k
    · subst here
      rw [Trace.of_cons_self]
      unfold Walk.snapshot
      cases takes : W.takes ⟨op, r⟩ with
      | none => exact holds i
      | some entries => exact taken before performed takes
    · rw [Trace.of_cons_ne _ here]
      exact holds k

/-- The run to `σ` went through the step in which task `i` took a copy with the entry. -/
structure Took (M : Machine Op Ret Job World Env Ext)
    (ok : Config Op Ret Job World → Label Env Ext → Prop) (init σ : Config Op Ret Job World)
    (W : Walk Op Ret α) (i : Nat) (a : α) (ev : Event Op Ret) (σ₀ : Config Op Ret Job World) :
    Prop where
  performed : M.Performed ok init σ i ev σ₀
  takes : ∃ entries, W.takes ev = some entries ∧ a ∈ entries

/-- **Where a visit comes from**: the task took a copy with the entry before, and none since. -/
theorem Reach.taken_of_visit (reach : M.Reach ok init σ) (fresh : init.trace = [])
    (inOrder : W.InOrder (σ.trace.of i)) {later earlier : Trace Op Ret} {ev : Event Op Ret}
    (split : σ.trace = later ++ (i, ev) :: earlier) (untaken : W.takes ev = none)
    (visit : W.visits ev = some a) :
    ∃ between ev₀ σ₀, M.Took ok init σ W i a ev₀ σ₀ ∧
      earlier = between ++ (i, ev₀) :: σ₀.trace ∧
      ∀ ev' ∈ Trace.of between i, W.takes ev' = none := by
  have own : σ.trace.of i = Trace.of later i ++ ev :: Trace.of earlier i := by
    rw [split, Trace.of_append, Trace.of_cons_self]
  rw [own] at inOrder
  obtain ⟨before, first⟩ := inOrder.before
  obtain ⟨rest, all⟩ := List.head?_eq_some_iff.mp (first untaken a visit)
  have mem : a ∈ W.snapshot (Trace.of earlier i) := by
    rw [← before.visited_append_left, all]
    exact List.mem_append_right _ List.mem_cons_self
  obtain ⟨since, ev₀, older, here, took, none_since⟩ := Walk.taken_of_mem mem
  obtain ⟨between, oldest, rfl, rfl⟩ := Trace.split_of here
  rw [Trace.of_append, Trace.of_cons_self] at here
  have same : Trace.of between i = since := List.append_cancel_right here
  rw [← List.cons_append, ← List.append_assoc] at split
  obtain ⟨σ₀, performed, rfl⟩ := reach.split fresh split
  exact ⟨between, ev₀, σ₀, ⟨performed, _, took, mem⟩, rfl, same ▸ none_since⟩

end Machine

end Interleave
