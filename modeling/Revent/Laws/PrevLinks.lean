import Revent.Laws.Pages
import Revent.Lists.Windows

/-!
# Walking back along the previous links

The previous link of a page goes one limit back, and to the front if there is less than that left.
The offsets of a walk are those of `Lists.backward`, whatever the clients are at each visit: a
previous link never exceeds an offset that was accepted, so unlike a next link it is never refused.
-/

namespace Revent

/-- A walk along the previous links, from a page to one without such a link, and the pages it
visits after the first one. `visit` says how the clients are iterated at each visit. -/
inductive WalkBack (read : ReadQuery) (visit : Nat → List (ClientId × ClientInfo)) :
    Nat → Page ClientInPageDto → List (Page ClientInPageDto) → Prop where
  | front {k : Nat} {page : Page ClientInPageDto} (ends : page.prev = none) :
    WalkBack read visit k page []
  | prev {k : Nat} {link : String} {page before : Page ClientInPageDto}
      {pages : List (Page ClientInPageDto)} (follows : page.prev = some link)
      (got : getClients read link (visit k) = some (.ok before))
      (rest : WalkBack read visit (k + 1) before pages) :
    WalkBack read visit k page (before :: pages)

/-- **The walk back from a page** is the only one; it comes to the front in as many steps as the
limit fits into the offset, rounded up, and leaves no gap. -/
structure WalksBack (read : ReadQuery) (visit : Nat → List (ClientId × ClientInfo))
    (offset limit : Nat) (page : Page ClientInPageDto) (pages : List (Page ClientInPageDto)) :
    Prop where
  walk : WalkBack read visit 0 page pages
  only : ∀ pages', WalkBack read visit 0 page pages' → pages' = pages
  steps : pages.length = divCeil offset limit
  front : ((page :: pages).map (·.offset)).getLast? = some 0
  decreasing : ((page :: pages).map (·.offset)).Pairwise (· > ·)
  cover : ∀ position < offset + limit, ∃ visited ∈ page :: pages,
    visited.offset ≤ position ∧ position < visited.offset + visited.limit

variable {read : ReadQuery} {visit : Nat → List (ClientId × ClientInfo)} {offset limit k : Nat}
  {page : Page ClientInPageDto} {pages pages' : List (Page ClientInPageDto)}

/-- A walk has no choice. -/
theorem WalkBack.unique (walk : WalkBack read visit k page pages)
    (walk' : WalkBack read visit k page pages') : pages' = pages := by
  induction walk generalizing pages' with
  | front ends =>
    cases walk' with
    | front => rfl
    | prev follows => cases ends.symm.trans follows
  | prev follows got rest ih =>
    cases walk' with
    | front ends => cases ends.symm.trans follows
    | prev follows' got' rest' =>
      cases follows.symm.trans follows'
      cases got.symm.trans got'
      rw [ih rest']

/-- Rounded up, the steps lead to the front. -/
theorem leadToFront_divCeil (offset : Nat) (pos : 0 < limit) :
    Lists.LeadToFront offset limit (divCeil offset limit) := by
  have parts := Nat.div_add_mod offset limit
  have small := Nat.mod_lt offset pos
  rw [Nat.mul_comm] at parts
  unfold divCeil
  split
  · refine ⟨?_, fun k less => ?_⟩
    · rw [Nat.succ_mul]
      omega
    · have le : k * limit ≤ offset / limit * limit :=
        Nat.mul_le_mul_right limit (Nat.le_of_lt_succ less)
      omega
  · refine ⟨by omega, fun k less => ?_⟩
    have lt : k * limit < offset / limit * limit := Nat.mul_lt_mul_of_pos_right less pos
    omega

/-- **The walk back** visits the offsets that lead to the front, whoever is connected. -/
theorem walkBack_of_front {steps : Nat} (reads : ReadsLinks read)
    (bounds : offset ≤ maxOffset ∧ 1 ≤ limit ∧ limit ≤ maxLimit)
    (front : Lists.LeadToFront offset limit steps)
    (visit : Nat → List (ClientId × ClientInfo)) (k : Nat) (xs : List (ClientId × ClientInfo)) :
    ∃ pages, WalkBack read visit k (pageAt xs offset limit) pages ∧
      (pageAt xs offset limit :: pages).map (·.offset) = Lists.backward offset limit steps ∧
      ∀ visited ∈ pageAt xs offset limit :: pages, visited.limit = limit := by
  induction steps generalizing offset k xs with
  | zero =>
    have at_front : offset = 0 := by
      have enough := front.1
      omega
    subst at_front
    have ends : (pageAt xs 0 limit).prev = none := rfl
    refine ⟨[], .front ends, ?_, List.forall_mem_singleton.mpr rfl⟩
    rw [Lists.backward_zero]
    rfl
  | succ steps ih =>
    have behind : offset > 0 := by
      have inside := front.2 0 (Nat.succ_pos steps)
      omega
    have within : offset - limit ≤ maxOffset ∧ 1 ≤ limit ∧ limit ≤ maxLimit :=
      ⟨(Nat.sub_le offset limit).trans bounds.1, bounds.2⟩
    have follows : (pageAt xs offset limit).prev =
        some (pageLink clientsPath (offset - limit) limit) := if_pos behind
    have got := getClients_of_bounds reads within (visit k)
    obtain ⟨pages, walk, offsets, limits⟩ := ih within front.back (k + 1) _
    refine ⟨_ :: pages, .prev follows got walk, ?_, List.forall_mem_cons.mpr ⟨rfl, limits⟩⟩
    rw [List.map_cons, offsets, Lists.backward_succ]
    rfl

/-- **From every page that is answered the previous links lead to the front**, through accepted
pages that leave no gap. -/
theorem walksBack_of_getClientsPage {entries : List (ClientId × ClientInfo)}
    (reads : ReadsLinks read)
    (got : getClientsPage (.ok ⟨offset, limit⟩) entries = .ok page) :
    ∃ pages, WalksBack read visit offset limit page pages := by
  have bounds := bounds_of_getClientsPage got
  have pos : 0 < limit := bounds.2.1
  have front := leadToFront_divCeil offset pos
  cases eq_pageAt_of_getClientsPage got
  obtain ⟨pages, walk, offsets, limits⟩ :=
    walkBack_of_front reads bounds front visit 0 (sortClients entries)
  refine ⟨pages, ?_⟩
  constructor
  case walk => exact walk
  case only => exact fun pages' walk' => walk.unique walk'
  case steps =>
    have length := congrArg List.length offsets
    rw [List.length_map, List.length_cons, Lists.length_backward] at length
    exact Nat.succ_inj.mp length
  case front =>
    rw [offsets]
    exact Lists.getLast?_backward front
  case decreasing =>
    rw [offsets]
    exact Lists.pairwise_backward pos front
  case cover =>
    intro position before
    obtain ⟨start, mem, covers⟩ := Lists.exists_mem_backward front before
    rw [← offsets] at mem
    obtain ⟨visited, among, rfl⟩ := List.mem_map.mp mem
    rw [← limits visited among] at covers
    exact ⟨visited, among, covers⟩

section Scenario

open Scenario

/-- From an offset that is no multiple of the limit, behind the last client. -/
theorem walksBack_two : ∃ page pages,
    getClientsPage (.ok ⟨3, 2⟩) [(bob, someInfo), (alice, someInfo)] = .ok page ∧
      WalksBack readLinkQuery (fun _ => [(alice, someInfo), (bob, someInfo)]) 3 2 page pages := by
  have got : getClientsPage (.ok ⟨3, 2⟩) [(bob, someInfo), (alice, someInfo)] = .ok _ :=
    getClientsPage_eq_pageAt (by decide)
  obtain ⟨pages, walks⟩ := walksBack_of_getClientsPage readsLinks_readLinkQuery got
  exact ⟨_, pages, got, walks⟩

end Scenario

end Revent
