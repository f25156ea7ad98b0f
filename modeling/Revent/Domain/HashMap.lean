import Mathlib

/-!
# Hash maps

The source's `HashMap` as a finite map with the map's own equality. What a `HashMap` leaves open
is the order in which it iterates, and that order may differ from one iteration to the next: an
iteration takes its order as an argument, any arrangement of the keys.
-/

namespace Revent

/-- `HashMap<K, V>`: a finite map. The order of the keys is used for lookups only. -/
abbrev HashMap (K V : Type) [Ord K] := Std.ExtTreeMap K V compare

namespace HashMap

variable {K V : Type} [Ord K] [Std.TransOrd K] [Std.LawfulEqOrd K] [DecidableEq K]

/-- `iter()`: the entries in the given order of the keys; `none` if it is not an order of them. -/
def iter (m : HashMap K V) (order : List K) : Option (List (K × V)) :=
  if order.Perm m.keys then some (order.filterMap fun k => m[k]?.map (k, ·)) else none

/-- An iteration visits the entries of the map, whatever its order. -/
theorem mem_iter {m : HashMap K V} {order : List K} {l : List (K × V)}
    (h : m.iter order = some l) {k : K} {v : V} : (k, v) ∈ l ↔ m[k]? = some v := by
  unfold iter at h
  split at h
  · rename_i hperm
    cases h
    rw [List.mem_filterMap]
    constructor
    · rintro ⟨k', -, hk'⟩
      obtain ⟨v', hv', heq⟩ := Option.map_eq_some_iff.mp hk'
      cases heq
      exact hv'
    · intro hv
      have hmem : k ∈ m := Std.ExtTreeMap.mem_iff_isSome_getElem?.mpr (by rw [hv]; rfl)
      exact ⟨k, hperm.mem_iff.mpr (Std.ExtTreeMap.mem_keys.mpr hmem), by rw [hv]; rfl⟩
  · cases h

/-- An iteration visits each key once. -/
theorem iter_keys_nodup {m : HashMap K V} {order : List K} {l : List (K × V)}
    (h : m.iter order = some l) : (l.map Prod.fst).Nodup := by
  unfold iter at h
  split at h
  · rename_i hperm
    cases h
    have hkeys : m.keys.Nodup := by
      refine (Std.ExtTreeMap.distinct_keys (t := m)).imp ?_
      intro a b hab heq
      exact hab (Std.LawfulEqCmp.compare_eq_iff_eq.mpr heq)
    have hsub : ((order.filterMap fun k => m[k]?.map (k, ·)).map Prod.fst).Sublist order := by
      clear hperm
      induction order with
      | nil => exact List.Sublist.refl _
      | cons k order ih =>
        rw [List.filterMap_cons]
        cases hk : m[k]? with
        | none => exact ih.cons k
        | some v => exact ih.cons_cons k
    exact hsub.nodup (hperm.nodup_iff.mpr hkeys)
  · cases h

/-! ## Lookups, by the map's own equality -/

variable {m : HashMap K V} {k a : K} {v : V}

theorem getElem?_insert : (m.insert k v)[a]? = if k = a then some v else m[a]? := by
  simp only [Std.ExtTreeMap.getElem?_insert, Std.LawfulEqOrd.compare_eq_iff_eq]

theorem getElem?_erase : (m.erase k)[a]? = if k = a then none else m[a]? := by
  simp only [Std.ExtTreeMap.getElem?_erase, Std.LawfulEqOrd.compare_eq_iff_eq]

theorem getElem?_alter {f : Option V → Option V} :
    (m.alter k f)[a]? = if k = a then f m[k]? else m[a]? := by
  simp only [Std.ExtTreeMap.getElem?_alter, Std.LawfulEqOrd.compare_eq_iff_eq]

theorem getElem?_modify {f : V → V} :
    (m.modify k f)[a]? = if k = a then m[a]?.map f else m[a]? := by
  simp only [Std.ExtTreeMap.getElem?_modify, Std.LawfulEqOrd.compare_eq_iff_eq]
  split
  · rename_i heq
    rw [heq]
  · rfl

/-! ## Counting entries -/

/-- The number of entries whose value meets a test. -/
def countP (m : HashMap K V) (p : V → Bool) : Nat := (m.filter fun _ v => p v).size

variable {p : V → Bool}

omit [DecidableEq K] in
theorem getElem?_filter_value : (m.filter fun _ v => p v)[a]? = m[a]?.filter p :=
  Std.ExtTreeMap.getElem?_filter'

omit [Std.LawfulEqOrd K] [DecidableEq K] in
theorem contains_eq_isSome : m.contains k = m[k]?.isSome := by
  rw [Bool.eq_iff_iff, Std.ExtTreeMap.contains_iff_mem, Std.ExtTreeMap.mem_iff_isSome_getElem?]

/-- A new entry counts if its value meets the test. -/
theorem countP_insert (absent : m[k]? = none) :
    countP (m.insert k v) p = countP m p + if p v then 1 else 0 := by
  by_cases met : p v = true
  · have counted : (m.insert k v).filter (fun _ v => p v) =
        (m.filter fun _ v => p v).insert k v := by
      refine Std.ExtTreeMap.ext_getElem? fun a => ?_
      rw [getElem?_filter_value, getElem?_insert, getElem?_insert, getElem?_filter_value]
      split
      · simp [met]
      · rfl
    have fresh : (m.filter fun _ v => p v).contains k = false := by
      rw [contains_eq_isSome, getElem?_filter_value, absent]
      rfl
    simp [countP, counted, Std.ExtTreeMap.size_insert, fresh, met]
  · have same : (m.insert k v).filter (fun _ v => p v) = m.filter fun _ v => p v := by
      refine Std.ExtTreeMap.ext_getElem? fun a => ?_
      rw [getElem?_filter_value, getElem?_insert, getElem?_filter_value]
      split
      · rename_i here
        subst here
        simp [met, absent]
      · rfl
    simp [countP, same, met]

/-- A removed entry counted if its value met the test. -/
theorem countP_erase (found : m[k]? = some v) :
    countP (m.erase k) p + (if p v then 1 else 0) = countP m p := by
  have restored : (m.erase k).insert k v = m := by
    refine Std.ExtTreeMap.ext_getElem? fun a => ?_
    rw [getElem?_insert, getElem?_erase]
    split
    · rename_i here
      rw [← here, found]
    · rfl
  have erased : (m.erase k)[k]? = none := by
    rw [getElem?_erase, if_pos rfl]
  have counted := countP_insert (p := p) (v := v) erased
  rw [restored] at counted
  exact counted.symm

/-! ## The entries in the order of the keys -/

omit [DecidableEq K] in
/-- A map is known by its entries: ascending in their keys, they are its list. -/
theorem toList_eq_of_ascending {m : HashMap K V} {entries : List (K × V)}
    (ascending : entries.Pairwise fun e e' => compare e.1 e'.1 = .lt)
    (mem : ∀ k v, (k, v) ∈ entries ↔ m[k]? = some v) : m.toList = entries := by
  have ordered := Std.ExtTreeMap.ordered_keys_toList (t := m)
  have nodup {l : List (K × V)} (lt : l.Pairwise fun e e' => compare e.1 e'.1 = .lt) : l.Nodup :=
    lt.imp fun lt same => by
      rw [same, Std.ReflOrd.compare_self] at lt
      cases lt
  have perm : m.toList.Perm entries := by
    refine (List.perm_ext_iff_of_nodup (nodup ordered) (nodup ascending)).mpr ?_
    rintro ⟨k, v⟩
    rw [Std.ExtTreeMap.mem_toList_iff_getElem?_eq_some, mem]
  refine perm.eq_of_pairwise (fun e e' _ _ lt gt => ?_) ordered ascending
  have after := Std.OrientedCmp.gt_of_lt lt
  rw [gt] at after
  cases after

end HashMap

end Revent
