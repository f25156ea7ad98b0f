import Revent.Laws.Selection

/-!
# The rotation of the round robin

`RoundRobinStrategy` taken by itself: a sequence of calls of `next` that present the same
candidates, each time in an order of their own. Each call sorts what it is given, so all of them
go around one ascending cycle, from wherever the first call enters it.
-/

namespace Revent

open RoundRobinStrategy (pick)

/-- What a sequence of calls of `next` answers. -/
def RoundRobinStrategy.answers (strategy : RoundRobinStrategy) :
    List (List ClientId) → List (Option ClientId)
  | [] => []
  | candidates :: calls =>
    (strategy.next candidates).1 :: (strategy.next candidates).2.answers calls

/-- **The rotation** of the candidates: every window of as many results as there are candidates
holds each once, the results repeat after that many, and they follow the cyclic ascending order. -/
structure Rotates (candidates results : List ClientId) : Prop where
  window : ∀ k, k + candidates.length ≤ results.length →
    ((results.drop k).take candidates.length).Perm candidates
  period : ∀ k, k + candidates.length < results.length →
    results[k]? = results[k + candidates.length]?
  ascends : results.IsChain (Lists.Ascends candidates)

variable {candidates : List ClientId}

theorem sorted_nodup (nodup : candidates.Nodup) : (sorted candidates).Nodup :=
  (sorted_perm candidates).nodup_iff.mpr nodup

/-- Candidates that appear once are sorted strictly. -/
theorem sorted_ascending (nodup : candidates.Nodup) : (sorted candidates).Pairwise (· < ·) := by
  have le : (sorted candidates).Pairwise (· ≤ ·) := List.pairwise_insertionSort (· ≤ ·) candidates
  have both := le.and (sorted_nodup nodup)
  exact both.imp fun ⟨le, ne⟩ => lt_of_le_of_ne le ne

/-- **One call**: it answers a candidate, the next one around if the last selected client is a
candidate, and remembers it. -/
theorem next_cases {call : List ClientId} (strategy : RoundRobinStrategy)
    (filled : candidates ≠ []) (perm : call.Perm candidates) :
    ∃ clientId ∈ sorted candidates, strategy.next call = (some clientId, ⟨some clientId⟩) ∧
      ∀ previous ∈ strategy.lastSelected, previous ∈ sorted candidates →
        Lists.Next (sorted candidates) previous clientId := by
  obtain ⟨clientId, picked⟩ := pick_isSome strategy.lastSelected filled
  obtain ⟨mem, next⟩ := pick_eq_some picked
  refine ⟨clientId, mem, ?_, next⟩
  have nonempty : call.isEmpty = false := by
    rw [List.isEmpty_eq_false_iff]
    rintro rfl
    exact filled perm.nil_eq.symm
  have choice : pick strategy.lastSelected (call.insertionSort (· ≤ ·)) = some clientId := by
    rw [← picked]
    exact congrArg (pick strategy.lastSelected) (sorted_congr perm)
  simp only [RoundRobinStrategy.next, nonempty, Bool.false_eq_true, if_false, choice]

/-- The results of the calls go around the sorted candidates, from the last selected client on if
it is one of them. -/
theorem exists_answers (filled : candidates ≠ []) {calls : List (List ClientId)}
    (strategy : RoundRobinStrategy) (each : ∀ call ∈ calls, call.Perm candidates) :
    ∃ results : List ClientId, strategy.answers calls = results.map some ∧
      (∀ clientId ∈ results, clientId ∈ sorted candidates) ∧
      results.IsChain (Lists.Next (sorted candidates)) ∧
      ∀ previous ∈ strategy.lastSelected, previous ∈ sorted candidates →
        ∀ first ∈ results.head?, Lists.Next (sorted candidates) previous first := by
  induction calls generalizing strategy with
  | nil => exact ⟨[], rfl, nofun, .nil, nofun⟩
  | cons call calls ih =>
    obtain ⟨clientId, mem, next, after⟩ :=
      next_cases strategy filled (each call List.mem_cons_self)
    obtain ⟨results, answers, members, chain, first⟩ :=
      ih ⟨some clientId⟩ fun call mem => each call (List.mem_cons_of_mem _ mem)
    refine ⟨clientId :: results, ?_, List.forall_mem_cons.mpr ⟨mem, members⟩, ?_, ?_⟩
    · simp only [RoundRobinStrategy.answers, next, answers, List.map_cons]
    · exact List.isChain_cons.mpr ⟨first clientId rfl mem, chain⟩
    · intro previous hlast hmem first hfirst
      cases hfirst
      exact after previous hlast hmem

/-- **The round robin rotates** any candidates that each appear once, from any last selection and
through any calls that present them. -/
theorem rotates_of_calls (nodup : candidates.Nodup) (filled : candidates ≠ [])
    (strategy : RoundRobinStrategy) {calls : List (List ClientId)}
    (each : ∀ call ∈ calls, call.Perm candidates) :
    ∃ results : List ClientId, strategy.answers calls = results.map some ∧
      Rotates candidates results := by
  obtain ⟨results, answers, members, chain, -⟩ := exists_answers filled strategy each
  have length := (sorted_perm candidates).length_eq
  refine ⟨results, answers, ⟨fun k hk => ?_, fun k hk => ?_, ?_⟩⟩
  · have chain_at := (chain.drop k).take candidates.length
    have around : ((results.drop k).take candidates.length).Perm (sorted candidates) := by
      refine Lists.perm_of_isChain (sorted_nodup nodup) chain_at (fun x mem => ?_) ?_
      · exact members x (List.mem_of_mem_drop (List.mem_of_mem_take mem))
      · rw [List.length_take, List.length_drop, length]
        omega
    exact around.trans (sorted_perm candidates)
  · rw [← length] at hk ⊢
    exact Lists.getElem?_add_length_of_isChain (sorted_nodup nodup) chain members hk
  · refine chain.imp fun a b next => ?_
    exact (next.ascends (sorted_ascending nodup)).congr (sorted_perm candidates)

open Scenario (alice bob) in
/-- Two candidates, presented in both orders after a selection of neither. -/
theorem rotates_two : ∃ results : List ClientId,
    (⟨some ⟨"carol", by decide⟩⟩ : RoundRobinStrategy).answers
        [[bob, alice], [alice, bob], [bob, alice]] = results.map some ∧
      Rotates [bob, alice] results := by
  apply rotates_of_calls
  · decide
  · decide
  · decide

end Revent
