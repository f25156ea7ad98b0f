import Mathlib.Data.List.Pairwise
import Mathlib.Data.Set.Basic
import Mathlib.Order.Disjoint

/-!
# Footprints

Operations on a state that is read cell by cell. A footprint says which cells an operation reads and
which ones it may write; an operation keeps to it (`Footprint.Of`) if it leaves every other cell
alone, and its answer and what it writes depend on what it reads only.

Operations are independent if neither writes what the other one reads or writes. Two of them may
change places (`Footprint.Of.swap`), so a batch of which every two are independent comes to the same
in any order, and each operation of it gives the same answer (`run_perm`).
-/

namespace Interleave

variable {State Cell Item Answer : Type} {Value : Cell → Type}

/-- The cells an operation reads, and those it may write. -/
structure Footprint (Cell : Type) where
  reads : Set Cell
  writes : Set Cell

/-- Neither writes what the other one reads or writes. -/
structure Footprint.Independent (F G : Footprint Cell) : Prop where
  left : ∀ cell ∈ F.writes, cell ∉ G.reads ∧ cell ∉ G.writes
  right : ∀ cell ∈ G.writes, cell ∉ F.reads ∧ cell ∉ F.writes

theorem Footprint.Independent.symm {F G : Footprint Cell} (apart : F.Independent G) :
    G.Independent F := ⟨apart.right, apart.left⟩

/-- The states hold the same in every cell. -/
def Alike (read : State → (cell : Cell) → Value cell) (s s' : State) : Prop :=
  ∀ cell, read s cell = read s' cell

/-- **An operation keeps to a footprint.** -/
structure Footprint.Of (read : State → (cell : Cell) → Value cell) (F : Footprint Cell)
    (f : State → State × Answer) : Prop where
  frame : ∀ s, ∀ cell ∉ F.writes, read (f s).1 cell = read s cell
  answer : ∀ s s', (∀ cell ∈ F.reads, read s cell = read s' cell) → (f s).2 = (f s').2
  result : ∀ s s', (∀ cell ∈ F.reads, read s cell = read s' cell) → ∀ cell ∈ F.writes,
    read s cell = read s' cell → read (f s).1 cell = read (f s').1 cell

variable {read : State → (cell : Cell) → Value cell} {F G : Footprint Cell}
  {f g : State → State × Answer} {s s' : State}

namespace Footprint

/-- States that are alike come to states that are alike. -/
theorem Of.alike (of : F.Of read f) (same : Alike read s s') : Alike read (f s).1 (f s').1 := by
  intro cell
  by_cases written : cell ∈ F.writes
  · exact of.result s s' (fun cell _ => same cell) cell written (same cell)
  · rw [of.frame s cell written, of.frame s' cell written, same cell]

/-- After an independent operation the answer is what it would have been before it. -/
theorem Of.answer_after (of : F.Of read f) (of' : G.Of read g) (apart : F.Independent G)
    (s : State) : (f (g s).1).2 = (f s).2 :=
  of.answer _ _ fun cell reads =>
    of'.frame s cell fun written => (apart.right cell written).1 reads

/-- **Independent operations change places.** -/
theorem Of.swap (of : F.Of read f) (of' : G.Of read g) (apart : F.Independent G) (s : State) :
    Alike read (f (g s).1).1 (g (f s).1).1 := by
  -- what one of them writes, it writes from either state; nothing else is written
  have once {F G : Footprint Cell} {f g : State → State × Answer} (of : F.Of read f)
      (of' : G.Of read g) (apart : F.Independent G) {cell : Cell} (written : cell ∈ F.writes) :
      read (f (g s).1).1 cell = read (g (f s).1).1 cell := by
    rw [of'.frame _ cell (apart.left cell written).2]
    refine of.result _ _ (fun cell reads => ?_) cell written ?_
    · exact of'.frame s cell fun written => (apart.right cell written).1 reads
    · exact of'.frame s cell (apart.left cell written).2
  intro cell
  by_cases left : cell ∈ F.writes
  · exact once of of' apart left
  · by_cases right : cell ∈ G.writes
    · exact (once of' of apart.symm right).symm
    · rw [of.frame _ cell left, of'.frame _ cell right, of'.frame _ cell right,
        of.frame _ cell left]

end Footprint

/-! ## Batches -/

/-- The items performed one after the other, each with its answer. -/
def run (perform : Item → State → State × Answer) : List Item → State →
    State × List (Item × Answer)
  | [], s => (s, [])
  | item :: items, s =>
    let done := perform item s
    let rest := run perform items done.1
    (rest.1, (item, done.2) :: rest.2)

variable {perform : Item → State → State × Answer} {footprint : Item → Footprint Cell}
  {items items' : List Item}

/-- From states that are alike a batch comes to states that are alike, with the same answers. -/
theorem run_alike (of : ∀ item, (footprint item).Of read (perform item))
    (same : Alike read s s') : Alike read (run perform items s).1 (run perform items s').1 ∧
      (run perform items s).2 = (run perform items s').2 := by
  induction items generalizing s s' with
  | nil => exact ⟨same, rfl⟩
  | cons item items ih =>
    obtain ⟨rest, answers⟩ := ih ((of item).alike same)
    have answer := (of item).answer s s' fun cell _ => same cell
    exact ⟨rest, by simp only [run, answers, answer]⟩

/-- **The order of a batch does not matter** if every two of its items are independent. -/
theorem run_perm (of : ∀ item, (footprint item).Of read (perform item))
    (perm : items.Perm items')
    (apart : items.Pairwise fun item item' => (footprint item).Independent (footprint item'))
    (s : State) : Alike read (run perform items s).1 (run perform items' s).1 ∧
      (run perform items s).2.Perm (run perform items' s).2 := by
  induction perm generalizing s with
  | nil => exact ⟨fun _ => rfl, List.Perm.refl _⟩
  | cons item _ ih =>
    obtain ⟨-, apart⟩ := List.pairwise_cons.mp apart
    obtain ⟨rest, answers⟩ := ih apart (perform item s).1
    exact ⟨rest, answers.cons _⟩
  | swap first second items =>
    have apart := (List.pairwise_cons.mp apart).1 first List.mem_cons_self
    have swapped := (of first).swap (of second) apart.symm s
    obtain ⟨rest, answers⟩ :
        Alike read (run perform items _).1 (run perform items _).1 ∧ _ := run_alike of swapped
    have first_answer := (of first).answer_after (of second) apart.symm s
    have second_answer := (of second).answer_after (of first) apart s
    refine ⟨rest, ?_⟩
    simp only [run, answers, first_answer, second_answer]
    exact List.Perm.swap _ _ _
  | trans perm _ ih ih' =>
    have apart' := (perm.pairwise_iff Footprint.Independent.symm).mp apart
    obtain ⟨first, answers⟩ := ih apart s
    obtain ⟨second, answers'⟩ := ih' apart' s
    exact ⟨fun cell => (first cell).trans (second cell), answers.trans answers'⟩

end Interleave
