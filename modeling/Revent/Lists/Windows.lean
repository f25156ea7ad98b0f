import Mathlib.Data.List.Basic
import Mathlib.Data.List.Nodup
import Mathlib.Order.Basic

/-!
# Windows of a list

A window is what a list holds from a position on, cut at a length. Windows that begin one length
after the other partition the list (`flatMap_window`, `disjoint_window`). The offsets of a walk
towards the front go back by one length each and stop at zero, so that the last of its windows may
overlap the one before it, but none leaves a gap (`exists_mem_backward`).
-/

namespace Lists

variable {α : Type} {xs : List α} {x : α} {offset offset' limit limit' : Nat}

/-- The elements from a position on, at most as many as the limit. -/
def window (xs : List α) (offset limit : Nat) : List α := (xs.drop offset).take limit

/-- What a window holds, by the positions it covers. -/
theorem mem_window_iff : x ∈ window xs offset limit ↔
    ∃ position, offset ≤ position ∧ position < offset + limit ∧ xs[position]? = some x := by
  unfold window
  rw [List.mem_iff_getElem?]
  constructor
  · rintro ⟨i, found⟩
    rw [List.getElem?_take] at found
    split at found
    · rw [List.getElem?_drop] at found
      exact ⟨offset + i, by omega, by omega, found⟩
    · cases found
  · rintro ⟨position, from_here, before, found⟩
    refine ⟨position - offset, ?_⟩
    rw [List.getElem?_take, if_pos (by omega), List.getElem?_drop,
      Nat.add_sub_cancel' from_here]
    exact found

/-- Windows that do not overlap hold nothing in common, if nothing occurs twice. -/
theorem disjoint_window (once : xs.Nodup) (apart : offset + limit ≤ offset') :
    (window xs offset limit).Disjoint (window xs offset' limit') := by
  intro x mem mem'
  obtain ⟨i, -, before, found⟩ := mem_window_iff.mp mem
  obtain ⟨j, behind, -, found'⟩ := mem_window_iff.mp mem'
  have inside : i < xs.length := (List.getElem?_eq_some_iff.mp found).1
  have same := (List.getElem?_inj inside once).mp (found.trans found'.symm)
  omega

/-- Windows one after the other are what they cover. -/
theorem flatMap_window (xs : List α) (limit count : Nat) :
    ((List.range count).flatMap fun k => window xs (k * limit) limit) =
      xs.take (count * limit) := by
  induction count with
  | zero => rw [Nat.zero_mul, List.take_zero]; rfl
  | succ count ih =>
    rw [List.range_succ, List.flatMap_append, ih, List.flatMap_singleton, window, Nat.succ_mul,
      List.take_add]

/-! ## Walking to the front -/

/-- The offsets of as many steps back as `steps`, from the first one on. -/
def backward (offset limit steps : Nat) : List Nat :=
  (List.range (steps + 1)).map fun k => offset - k * limit

/-- The steps that lead to the front: as many as are needed, and none more. -/
def LeadToFront (offset limit steps : Nat) : Prop :=
  offset ≤ steps * limit ∧ ∀ k < steps, k * limit < offset

variable {steps : Nat}

theorem length_backward (offset limit steps : Nat) :
    (backward offset limit steps).length = steps + 1 := by
  rw [backward, List.length_map, List.length_range]

theorem backward_zero (offset limit : Nat) : backward offset limit 0 = [offset] := by
  rw [backward, List.range_one, List.map_singleton, Nat.zero_mul, Nat.sub_zero]

theorem backward_succ (offset limit steps : Nat) : backward offset limit (steps + 1) =
    offset :: backward (offset - limit) limit steps := by
  unfold backward
  rw [List.range_succ_eq_map, List.map_cons, List.map_map, Nat.zero_mul, Nat.sub_zero]
  congr 1
  refine List.map_congr_left fun k _ => ?_
  rw [Function.comp_apply, Nat.succ_mul, Nat.sub_sub, Nat.add_comm]

/-- One step less leads to the front from one step behind. -/
theorem LeadToFront.back (front : LeadToFront offset limit (steps + 1)) :
    LeadToFront (offset - limit) limit steps := by
  obtain ⟨enough, needed⟩ := front
  refine ⟨?_, fun k less => ?_⟩
  · rw [Nat.succ_mul] at enough
    omega
  · have inside := needed (k + 1) (Nat.succ_lt_succ less)
    rw [Nat.succ_mul] at inside
    omega

/-- The walk ends at the front. -/
theorem getLast?_backward (front : LeadToFront offset limit steps) :
    (backward offset limit steps).getLast? = some 0 := by
  unfold backward
  rw [List.getLast?_map, List.getLast?_range, if_neg (Nat.succ_ne_zero steps), Option.map_some,
    Nat.add_sub_cancel, Nat.sub_eq_zero_of_le front.1]

/-- Every step goes back. -/
theorem pairwise_backward (pos : 0 < limit) (front : LeadToFront offset limit steps) :
    (backward offset limit steps).Pairwise (· > ·) := by
  unfold backward
  rw [List.pairwise_map]
  have lt := List.pairwise_lt_range (n := steps + 1)
  refine (List.Pairwise.and_mem.mp lt).imp ?_
  rintro i j ⟨-, hj, less⟩
  rw [List.mem_range] at hj
  have more : i * limit < j * limit := Nat.mul_lt_mul_of_pos_right less pos
  have inside : i * limit < offset := front.2 i (by omega)
  omega

/-- **No gap**: every position before the end of the first window is in one of the windows. -/
theorem exists_mem_backward {position : Nat} (front : LeadToFront offset limit steps)
    (before : position < offset + limit) :
    ∃ start ∈ backward offset limit steps, start ≤ position ∧ position < start + limit := by
  induction steps generalizing offset with
  | zero =>
    have enough := front.1
    rw [backward_zero]
    exact ⟨offset, List.mem_singleton_self offset, by omega, before⟩
  | succ steps ih =>
    rw [backward_succ]
    by_cases inside : offset ≤ position
    · exact ⟨offset, List.mem_cons_self, inside, before⟩
    · -- the window before this one ends where this one begins, or behind that
      obtain ⟨start, mem, covers⟩ := ih front.back (by omega)
      exact ⟨start, List.mem_cons_of_mem _ mem, covers⟩

end Lists
