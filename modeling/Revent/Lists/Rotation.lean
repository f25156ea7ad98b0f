import Mathlib

/-!
# Going around a cycle

A list without repetitions is a cycle: `Next cycle a b` says that `b` comes right after `a` around
it. Elements of which each comes next after the one before are the cycle read from some place on,
so as many of them as the cycle is long are a permutation of the cycle, and they repeat after that.
Where the cycle ascends, what comes next is the cyclic successor.
-/

namespace Lists

variable {α : Type} {cycle xs : List α} {a b x : α} {i : Nat}

/-- `b` comes right after `a` around the cycle. -/
def Next (cycle : List α) (a b : α) : Prop :=
  ∃ i, cycle[i]? = some a ∧ cycle[(i + 1) % cycle.length]? = some b

/-- Without repetitions an element is at one place, and what comes next is at the place after. -/
theorem Next.getElem? (nodup : cycle.Nodup) (next : Next cycle a b) (at_a : cycle[i]? = some a) :
    cycle[(i + 1) % cycle.length]? = some b := by
  obtain ⟨j, at_j, at_b⟩ := next
  obtain ⟨hi, -⟩ := List.getElem?_eq_some_iff.mp at_a
  have same : i = j := (List.getElem?_inj hi nodup).mp (at_a.trans at_j.symm)
  rwa [same]

/-- Elements that come one next after the other are the cycle, read from the place of the first
one on. -/
theorem getElem?_of_isChain (nodup : cycle.Nodup) (chain : (x :: xs).IsChain (Next cycle))
    (at_x : cycle[i]? = some x) (k : Nat) (hk : k < (x :: xs).length) :
    (x :: xs)[k]? = cycle[(i + k) % cycle.length]? := by
  induction xs generalizing x i k with
  | nil =>
    obtain ⟨hi, -⟩ := List.getElem?_eq_some_iff.mp at_x
    have first : k = 0 := by simpa using hk
    rw [first, Nat.add_zero, Nat.mod_eq_of_lt hi, at_x]
    rfl
  | cons y xs ih =>
    obtain ⟨next, chain⟩ := List.isChain_cons_cons.mp chain
    cases k with
    | zero =>
      obtain ⟨hi, -⟩ := List.getElem?_eq_some_iff.mp at_x
      rw [Nat.add_zero, Nat.mod_eq_of_lt hi, at_x]
      rfl
    | succ k =>
      have later := ih chain (next.getElem? nodup at_x) k (Nat.lt_of_succ_lt_succ hk)
      show (y :: xs)[k]? = _
      rw [later, Nat.mod_add_mod]
      exact congrArg (fun place => cycle[place % cycle.length]?) (by omega)

/-- **Once around**: as many elements as the cycle is long, each next after the one before, are
the cycle in some order. -/
theorem perm_of_isChain (nodup : cycle.Nodup) (chain : xs.IsChain (Next cycle))
    (members : ∀ x ∈ xs, x ∈ cycle) (length : xs.length = cycle.length) : xs.Perm cycle := by
  cases xs with
  | nil => rw [List.eq_nil_of_length_eq_zero length.symm]
  | cons x xs =>
    obtain ⟨i, at_x⟩ := List.mem_iff_getElem?.mp (members x List.mem_cons_self)
    have rotated : x :: xs = cycle.rotate i := by
      refine List.ext_getElem? fun k => ?_
      rcases Nat.lt_or_ge k (x :: xs).length with hk | hk
      · rw [getElem?_of_isChain nodup chain at_x k hk, List.getElem?_rotate (length ▸ hk),
          Nat.add_comm]
      · have after : (cycle.rotate i).length ≤ k := by rw [List.length_rotate, ← length]; exact hk
        rw [List.getElem?_eq_none hk, List.getElem?_eq_none after]
    rw [rotated]
    exact cycle.rotate_perm i

/-- As far round again: elements that come one next after the other repeat after once around. -/
theorem getElem?_add_length_of_isChain (nodup : cycle.Nodup) (chain : xs.IsChain (Next cycle))
    (members : ∀ x ∈ xs, x ∈ cycle) {k : Nat} (hk : k + cycle.length < xs.length) :
    xs[k]? = xs[k + cycle.length]? := by
  cases tail : xs.drop k with
  | nil =>
    have short := congrArg List.length tail
    rw [List.length_drop, List.length_nil] at short
    omega
  | cons x rest =>
    have here : xs[k]? = some x := by
      rw [← List.head?_drop, tail]
      rfl
    have there : xs[k + cycle.length]? = (x :: rest)[cycle.length]? := by
      rw [← tail, List.getElem?_drop]
    obtain ⟨i, at_x⟩ := List.mem_iff_getElem?.mp (members x (List.mem_of_getElem? here))
    obtain ⟨hi, -⟩ := List.getElem?_eq_some_iff.mp at_x
    have length : cycle.length < (x :: rest).length := by
      rw [← tail, List.length_drop]
      omega
    rw [here, there, getElem?_of_isChain nodup (tail ▸ chain.drop k) at_x _ length,
      Nat.add_mod_right, Nat.mod_eq_of_lt hi, at_x]

/-! ## Cyclic order -/

section Order

variable [LinearOrder α] {members : List α}

/-- `b` is the least member above `a`, or the least of all where none is above. -/
def Ascends (members : List α) (a b : α) : Prop :=
  b ∈ members ∧ ((a < b ∧ ∀ c ∈ members, a < c → b ≤ c) ∨
    ((∀ c ∈ members, c ≤ a) ∧ ∀ c ∈ members, b ≤ c))

theorem Ascends.congr (perm : cycle.Perm members) (ascends : Ascends cycle a b) :
    Ascends members a b := by
  obtain ⟨mem, above | around⟩ := ascends
  · exact ⟨perm.mem_iff.mp mem, .inl ⟨above.1, fun c hc => above.2 c (perm.mem_iff.mpr hc)⟩⟩
  · exact ⟨perm.mem_iff.mp mem, .inr ⟨fun c hc => around.1 c (perm.mem_iff.mpr hc),
      fun c hc => around.2 c (perm.mem_iff.mpr hc)⟩⟩

/-- Around an ascending cycle the next one is the cyclic successor. -/
theorem Next.ascends (ascending : cycle.Pairwise (· < ·)) (next : Next cycle a b) :
    Ascends cycle a b := by
  obtain ⟨i, at_a, at_b⟩ := next
  refine ⟨List.mem_of_getElem? at_b, ?_⟩
  obtain ⟨hi, rfl⟩ := List.getElem?_eq_some_iff.mp at_a
  obtain ⟨hj, rfl⟩ := List.getElem?_eq_some_iff.mp at_b
  have order := List.pairwise_iff_getElem.mp ascending
  have le {j k : Nat} (hj : j < cycle.length) (hk : k < cycle.length) (le : j ≤ k) :
      cycle[j] ≤ cycle[k] := by
    rcases Nat.eq_or_lt_of_le le with rfl | lt
    · exact le_refl _
    · exact (order j k hj hk lt).le
  rcases Nat.lt_or_ge (i + 1) cycle.length with inside | last
  · left
    simp only [Nat.mod_eq_of_lt inside]
    refine ⟨order i (i + 1) hi inside (Nat.lt_succ_self i), fun c mem above => ?_⟩
    obtain ⟨k, hk, rfl⟩ := List.mem_iff_getElem.mp mem
    refine le inside hk (Nat.lt_of_not_le fun before => ?_)
    exact absurd (le hk hi before) (not_le_of_gt above)
  · right
    have length : i + 1 = cycle.length := by omega
    have around : (i + 1) % cycle.length = 0 := by
      rw [length, Nat.mod_self]
    simp only [around]
    refine ⟨fun c mem => ?_, fun c mem => ?_⟩
    · obtain ⟨k, hk, rfl⟩ := List.mem_iff_getElem.mp mem
      exact le hk hi (by omega)
    · obtain ⟨k, hk, rfl⟩ := List.mem_iff_getElem.mp mem
      exact le (Nat.zero_lt_of_lt hk) hk (Nat.zero_le k)

end Order

end Lists
