import Mathlib

/-!
# Programs of atomic operations

A task of an asynchronous server is a tree of atomic operations: each `await` is one node, and
the answer to it picks the rest. `Prog Op Ret α` is that tree, over any alphabet `Op` of
operations whose answers have the types `Ret`.

Two notions are built on it. `Event` is one performed operation with its answer, and a
**history** is a task's own events, the newest first. `Prog.Flows site ends h p` says what the
control flow of `p` is, once the task has lived through `h`: every operation `p` can reach is at
a site that `site` allows for the history before it, and every end is one that `ends` allows.
A development states its call sites once, proves `Flows` of each program by the rules below, and
from then on reads what a task can do from the sites and never from the tree.
-/

namespace Interleave

variable {Op : Type} {Ret : Op → Type} {α β : Type}

/-- A program: finished with a value, or at an operation whose answer picks the rest. -/
inductive Prog (Op : Type) (Ret : Op → Type) (α : Type) where
  | done (a : α)
  | act (op : Op) (next : Ret op → Prog Op Ret α)

namespace Prog

/-- Sequencing: run the first program, then the one its value picks. -/
protected def bind : Prog Op Ret α → (α → Prog Op Ret β) → Prog Op Ret β
  | .done a, f => f a
  | .act op next, f => .act op fun r => (next r).bind f

instance : Monad (Prog Op Ret) where
  pure := .done
  bind := Prog.bind

/-- The program of one operation. -/
def perform (op : Op) : Prog Op Ret (Ret op) := .act op .done

@[simp] theorem done_bind (a : α) (f : α → Prog Op Ret β) : (Prog.done a >>= f) = f a := rfl

theorem act_bind (op : Op) (next : Ret op → Prog Op Ret α) (f : α → Prog Op Ret β) :
    (Prog.act op next >>= f) = .act op fun r => next r >>= f := rfl

@[simp] theorem bind_done (p : Prog Op Ret α) : (p >>= Prog.done) = p := by
  induction p with
  | done a => rfl
  | act op next ih => simp only [act_bind, ih]

end Prog

/-! ## Histories -/

/-- An operation with the answer it got. -/
structure Event (Op : Type) (Ret : Op → Type) where
  op : Op
  ret : Ret op

/-- The events of every task, each with the number of the task that performed it, newest
first. -/
abbrev Trace (Op : Type) (Ret : Op → Type) := List (Nat × Event Op Ret)

/-- The events of task `i`, newest first. -/
def Trace.of : Trace Op Ret → Nat → List (Event Op Ret)
  | [], _ => []
  | (k, ev) :: tr, i => if k = i then ev :: Trace.of tr i else Trace.of tr i

@[simp] theorem Trace.of_cons_self (tr : Trace Op Ret) (i : Nat) (ev : Event Op Ret) :
    Trace.of ((i, ev) :: tr) i = ev :: Trace.of tr i := by
  simp only [Trace.of, if_true]

theorem Trace.of_cons_ne (tr : Trace Op Ret) {i k : Nat} (h : k ≠ i) (ev : Event Op Ret) :
    Trace.of ((k, ev) :: tr) i = Trace.of tr i := by
  simp only [Trace.of, if_neg h]

theorem Trace.of_append (tr tr' : Trace Op Ret) (i : Nat) :
    Trace.of (tr ++ tr') i = Trace.of tr i ++ Trace.of tr' i := by
  induction tr with
  | nil => rfl
  | cons entry tr ih =>
    obtain ⟨k, ev⟩ := entry
    by_cases hk : k = i
    · subst hk
      rw [List.cons_append, Trace.of_cons_self, Trace.of_cons_self, ih, List.cons_append]
    · rw [List.cons_append, Trace.of_cons_ne _ hk, Trace.of_cons_ne _ hk, ih]

/-- What a task performed was performed, after what the task had performed before. -/
theorem Trace.split_of {tr : Trace Op Ret} {i : Nat} {ev : Event Op Ret}
    {later earlier : List (Event Op Ret)} (split : tr.of i = later ++ ev :: earlier) :
    ∃ after before, tr = after ++ (i, ev) :: before ∧ Trace.of before i = earlier := by
  induction tr generalizing later with
  | nil => cases later <;> cases split
  | cons entry tr ih =>
    obtain ⟨k, ev'⟩ := entry
    by_cases hk : k = i
    · subst hk
      rw [Trace.of_cons_self] at split
      rcases List.cons_eq_append_iff.mp split with ⟨-, heq⟩ | ⟨later', -, htail⟩
      · obtain ⟨rfl, rfl⟩ := List.cons.inj heq
        exact ⟨[], tr, rfl, rfl⟩
      · obtain ⟨after, before, rfl, here⟩ := ih htail
        exact ⟨(k, ev') :: after, before, rfl, here⟩
    · rw [Trace.of_cons_ne tr hk] at split
      obtain ⟨after, before, rfl, here⟩ := ih split
      exact ⟨(k, ev') :: after, before, rfl, here⟩

/-- What a task performed was performed. -/
theorem Trace.mem_of {tr : Trace Op Ret} {i : Nat} {ev : Event Op Ret} (mem : ev ∈ tr.of i) :
    (i, ev) ∈ tr := by
  obtain ⟨later, earlier, split⟩ := List.append_of_mem mem
  obtain ⟨after, before, rfl, -⟩ := Trace.split_of split
  exact List.mem_append_right _ List.mem_cons_self

/-- What a task performed is in its history. -/
theorem Trace.of_mem {tr : Trace Op Ret} {i : Nat} {ev : Event Op Ret} (mem : (i, ev) ∈ tr) :
    ev ∈ tr.of i := by
  induction tr with
  | nil => cases mem
  | cons entry tr ih =>
    obtain ⟨k, ev'⟩ := entry
    rcases List.mem_cons.mp mem with same | mem
    · cases same
      rw [Trace.of_cons_self]
      exact List.mem_cons_self
    · by_cases hk : k = i
      · subst hk
        rw [Trace.of_cons_self]
        exact List.mem_cons_of_mem _ (ih mem)
      · rw [Trace.of_cons_ne tr hk]
        exact ih mem

/-- What holds of a task's history after one more event holds of the new history of the task that
performed it, or of another task's old one. -/
theorem Trace.of_cons_cases (P : List (Event Op Ret) → Prop) {tr : Trace Op Ret} {i k : Nat}
    {ev : Event Op Ret} (h : P (Trace.of ((i, ev) :: tr) k)) :
    (i = k ∧ P (ev :: tr.of i)) ∨ (i ≠ k ∧ P (tr.of k)) := by
  by_cases hk : i = k
  · subst hk
    rw [Trace.of_cons_self] at h
    exact .inl ⟨rfl, h⟩
  · rw [Trace.of_cons_ne tr hk] at h
    exact .inr ⟨hk, h⟩

/-- An event of a trace that grew by one is the new one, or one of the old trace. -/
theorem Trace.cons_eq_append {tr later earlier : Trace Op Ret} {entry entry' : Nat × Event Op Ret}
    (h : entry :: tr = later ++ entry' :: earlier) :
    (later = [] ∧ entry = entry' ∧ tr = earlier) ∨
      ∃ later', later = entry :: later' ∧ tr = later' ++ entry' :: earlier := by
  rcases List.cons_eq_append_iff.mp h with ⟨hlater, heq⟩ | ⟨later', hlater, htail⟩
  · obtain ⟨hentry, hrest⟩ := List.cons.inj heq
    exact .inl ⟨hlater, hentry.symm, hrest.symm⟩
  · exact .inr ⟨later', hlater, htail⟩

/-- What the events of a trace show, in the order they were performed. -/
def Trace.shown (f : Event Op Ret → Option α) (tr : Trace Op Ret) : List α :=
  (tr.filterMap fun entry => f entry.2).reverse

variable {f : Event Op Ret → Option α} {tr : Trace Op Ret}

@[simp] theorem Trace.shown_cons {entry : Nat × Event Op Ret} :
    Trace.shown f (entry :: tr) = Trace.shown f tr ++ (f entry.2).toList := by
  unfold Trace.shown
  cases h : f entry.2 <;> simp [h]

theorem Trace.mem_shown {a : α} : a ∈ Trace.shown f tr ↔ ∃ entry ∈ tr, f entry.2 = some a := by
  simp only [Trace.shown, List.mem_reverse, List.mem_filterMap]

/-- What is shown between two parts is shown by an event between two parts of the trace. -/
theorem Trace.shown_eq_append {before after : List α} {a : α}
    (h : Trace.shown f tr = before ++ a :: after) :
    ∃ later i ev earlier, tr = later ++ (i, ev) :: earlier ∧ f ev = some a ∧
      Trace.shown f earlier = before ∧ Trace.shown f later = after := by
  unfold Trace.shown at h
  rw [List.reverse_eq_iff, List.reverse_append, List.reverse_cons, List.append_assoc,
    List.singleton_append] at h
  obtain ⟨later, rest, rfl, hlater, hrest⟩ := List.filterMap_eq_append_iff.mp h
  obtain ⟨between, entry, earlier, rfl, silent, shows_, hearlier⟩ :=
    List.filterMap_eq_cons_iff.mp hrest
  refine ⟨later ++ between, entry.1, entry.2, earlier, ?_, shows_, ?_, ?_⟩
  · rw [List.append_assoc]
  · rw [Trace.shown, hearlier, List.reverse_reverse]
  · have none : between.filterMap (fun entry => f entry.2) = [] :=
      List.filterMap_eq_nil_iff.mpr silent
    rw [Trace.shown, List.filterMap_append, none, hlater, List.append_nil, List.reverse_reverse]

/-! ## Control flow -/

/-- **The control flow of a program after a history**: every operation it reaches is at a site
allowed for the history before it, every end is allowed for the history of the whole run. -/
def Prog.Flows (site : List (Event Op Ret) → Op → Prop)
    (ends : List (Event Op Ret) → α → Prop) :
    List (Event Op Ret) → Prog Op Ret α → Prop
  | h, .done a => ends h a
  | h, .act op next => site h op ∧ ∀ r, (next r).Flows site ends (⟨op, r⟩ :: h)

variable {site : List (Event Op Ret) → Op → Prop} {ends : List (Event Op Ret) → α → Prop}
  {ends' : List (Event Op Ret) → β → Prop} {h : List (Event Op Ret)}

@[simp] theorem Prog.flows_act {op : Op} {next : Ret op → Prog Op Ret α} :
    (Prog.act op next).Flows site ends h ↔
      site h op ∧ ∀ r, (next r).Flows site ends (⟨op, r⟩ :: h) := Iff.rfl

/-- Sequencing: the second program flows from every history the first one can end with. -/
theorem Prog.Flows.bind {p : Prog Op Ret α} {f : α → Prog Op Ret β}
    (hp : p.Flows site ends h)
    (hf : ∀ h' a, ends h' a → (f a).Flows site ends' h') :
    (p >>= f).Flows site ends' h := by
  induction p generalizing h with
  | done a => exact hf h a hp
  | act op next ih => exact ⟨hp.1, fun r => ih r (hp.2 r)⟩

/-- Every program flows where everything is allowed. -/
theorem Prog.flows_true (p : Prog Op Ret α) (h : List (Event Op Ret)) :
    p.Flows (fun _ _ => True) (fun _ _ => True) h := by
  induction p generalizing h with
  | done a => trivial
  | act op next ih => exact ⟨trivial, fun r => ih r _⟩

/-- Weakening the allowed ends. -/
theorem Prog.Flows.mono {p : Prog Op Ret α} {ends₂ : List (Event Op Ret) → α → Prop}
    (hp : p.Flows site ends h) (he : ∀ h' a, ends h' a → ends₂ h' a) :
    p.Flows site ends₂ h := by
  induction p generalizing h with
  | done a => exact he h a hp
  | act op next ih => exact ⟨hp.1, fun r => ih r (hp.2 r)⟩

/-- Two accounts of the control flow hold together. -/
theorem Prog.Flows.and {p : Prog Op Ret α} {site₂ : List (Event Op Ret) → Op → Prop}
    {ends₂ : List (Event Op Ret) → α → Prop} (hp : p.Flows site ends h)
    (hp₂ : p.Flows site₂ ends₂ h) :
    p.Flows (fun h op => site h op ∧ site₂ h op) (fun h a => ends h a ∧ ends₂ h a) h := by
  induction p generalizing h with
  | done a => exact ⟨hp, hp₂⟩
  | act op next ih => exact ⟨⟨hp.1, hp₂.1⟩, fun r => ih r (hp.2 r) (hp₂.2 r)⟩

/-- A loop whose body keeps to the allowed operations keeps to them. -/
theorem flows_forM {allowed : Op → Prop} {body : β → Prog Op Ret Unit}
    (keeps : ∀ x h, (body x).Flows (fun _ => allowed) (fun _ _ => True) h) (xs : List β) :
    (xs.forM body).Flows (fun _ => allowed) (fun _ _ => True) h := by
  induction xs generalizing h with
  | nil => trivial
  | cons x xs ih => exact (keeps x h).bind fun _ _ _ => ih

/-- Where a program avoids operations, none of them is the last one performed. -/
theorem Prog.Flows.avoids {avoid : Op → Prop} {p : Prog Op Ret α}
    (hp : p.Flows (fun _ op => ¬ avoid op) (fun _ _ => True) h)
    (last : ∀ ev ∈ h.head?, ¬ avoid ev.op) :
    p.Flows (fun h _ => ∀ ev ∈ h.head?, ¬ avoid ev.op)
      (fun h _ => ∀ ev ∈ h.head?, ¬ avoid ev.op) h := by
  induction p generalizing h with
  | done a => exact last
  | act op next ih =>
    refine ⟨last, fun r => ih r (hp.2 r) fun ev mem => ?_⟩
    cases Option.mem_some.mp mem
    exact hp.1

/-- Weakening the allowed operations. -/
theorem Prog.Flows.mono_site {p : Prog Op Ret α} {site₂ : List (Event Op Ret) → Op → Prop}
    (hp : p.Flows site ends h) (hs : ∀ h' op, site h' op → site₂ h' op) :
    p.Flows site₂ ends h := by
  induction p generalizing h with
  | done a => exact hp
  | act op next ih => exact ⟨hs h op hp.1, fun r => ih r (hp.2 r)⟩

end Interleave
