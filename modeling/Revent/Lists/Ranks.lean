import Mathlib.Data.List.Perm.Subperm
import Mathlib.Order.Lattice
import Revent.Lists.Windows

/-!
# Ranks in an ascending list

The rank of a value is how many of the elements are below it. In an ascending list that is the
position it has, or would have, so the windows that hold it are known by its rank
(`mem_window_iff_rank`). A reader who takes one window after the other while the list changes meets
a value whose rank only grows (`exists_met`), and meets one whose rank only falls at most once
(`met_once`).
-/

namespace Lists

variable {α : Type} [LinearOrder α] {xs ys : List α} {x : α} {offset limit : Nat}

/-- How many elements are below a value. -/
def rank (xs : List α) (x : α) : Nat := (xs.filter (· < x)).length

/-- An element is at its rank. -/
theorem getElem?_rank (ascending : xs.Pairwise (· < ·)) (mem : x ∈ xs) :
    xs[rank xs x]? = some x := by
  induction xs with
  | nil => cases mem
  | cons a xs ih =>
    obtain ⟨below, ascending⟩ := List.pairwise_cons.mp ascending
    rcases List.mem_cons.mp mem with rfl | mem
    · have none_below : (x :: xs).filter (· < x) = [] := by
        simp only [List.filter_eq_nil_iff, List.mem_cons, decide_eq_true_eq]
        rintro y (rfl | among) less
        · exact lt_irrefl y less
        · exact lt_asymm less (below y among)
      rw [rank, none_below]
      rfl
    · have less : a < x := below x mem
      have behind : rank (a :: xs) x = rank xs x + 1 := by
        simp [rank, less]
      rw [behind, List.getElem?_cons_succ]
      exact ih ascending mem

theorem rank_lt_length (ascending : xs.Pairwise (· < ·)) (mem : x ∈ xs) :
    rank xs x < xs.length :=
  (List.getElem?_eq_some_iff.mp (getElem?_rank ascending mem)).1

theorem nodup_of_ascending (ascending : xs.Pairwise (· < ·)) : xs.Nodup :=
  ascending.imp fun less same => (ne_of_lt less) same

/-- **The windows that hold an element** are those that its rank is in. -/
theorem mem_window_iff_rank (ascending : xs.Pairwise (· < ·)) :
    x ∈ window xs offset limit ↔
      x ∈ xs ∧ offset ≤ rank xs x ∧ rank xs x < offset + limit := by
  rw [mem_window_iff]
  constructor
  · rintro ⟨position, from_here, before, found⟩
    have mem : x ∈ xs := List.mem_of_getElem? found
    have inside : position < xs.length := (List.getElem?_eq_some_iff.mp found).1
    have same : position = rank xs x := by
      apply (List.getElem?_inj inside (nodup_of_ascending ascending)).mp
      rw [found, getElem?_rank ascending mem]
    exact ⟨mem, same ▸ from_here, same ▸ before⟩
  · rintro ⟨mem, from_here, before⟩
    exact ⟨rank xs x, from_here, before, getElem?_rank ascending mem⟩

/-- A rank does not fall while nothing below the value goes. -/
theorem rank_le_rank (ascending : xs.Pairwise (· < ·)) (stay : ∀ y < x, y ∈ xs → y ∈ ys) :
    rank xs x ≤ rank ys x := by
  apply List.Subperm.length_le
  apply List.Nodup.subperm ((nodup_of_ascending ascending).filter _)
  intro y mem
  simp only [List.mem_filter, decide_eq_true_eq] at mem ⊢
  exact ⟨stay y mem.2 mem.1, mem.2⟩

/-! ## Reading on while the list changes -/

variable {ranks : Nat → Nat} {last : Nat}

/-- Window `k` of the walk, of those of one length from the front on, has the rank. -/
def Met (limit : Nat) (ranks : Nat → Nat) (k : Nat) : Prop :=
  k * limit ≤ ranks k ∧ ranks k < k * limit + limit

/-- **Nothing is missed** while its rank does not fall, by a walk that goes on until it is past the
rank. -/
theorem exists_met (grows : ∀ k < last, ranks k ≤ ranks (k + 1))
    (past : ranks last < last * limit + limit) : ∃ k ≤ last, Met limit ranks k := by
  induction last with
  | zero => exact ⟨0, Nat.le_refl 0, by omega, past⟩
  | succ last ih =>
    by_cases here : (last + 1) * limit ≤ ranks (last + 1)
    · exact ⟨last + 1, Nat.le_refl _, here, past⟩
    · -- it is not behind the window before this one, since it was not further behind then
      have before := grows last (Nat.lt_succ_self last)
      rw [Nat.succ_mul] at here
      obtain ⟨k, le, met⟩ := ih (fun k less => grows k (by omega)) (by omega)
      exact ⟨k, by omega, met⟩

theorem ranks_le (falls : ∀ k < last, ranks (k + 1) ≤ ranks k) {i j : Nat} (le : i ≤ j)
    (within : j ≤ last) : ranks j ≤ ranks i := by
  induction le with
  | refl => exact Nat.le_refl _
  | step _ ih => exact Nat.le_trans (falls _ within) (ih (Nat.le_of_succ_le within))

/-- **Nothing is met twice** while its rank does not grow. -/
theorem met_once (falls : ∀ k < last, ranks (k + 1) ≤ ranks k) {i j : Nat} (less : i < j)
    (within : j ≤ last) (met : Met limit ranks i) : ¬ Met limit ranks j := by
  rintro ⟨behind, -⟩
  have apart : (i + 1) * limit ≤ j * limit := Nat.mul_le_mul_right limit less
  have fallen := ranks_le falls (Nat.le_of_lt less) within
  rw [Nat.succ_mul] at apart
  obtain ⟨-, before⟩ := met
  omega

end Lists
