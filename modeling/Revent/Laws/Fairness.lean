import Revent.Laws.Selection

/-!
# Fair selection

The selections for a query rotate through its clients as long as each finds the cursor at the
client that was selected for the query before. The cursor is one for all queries, so a selection
for another query in between may move it: `ReturnsTo` says that the last one before each selection
for the query chose the client last selected for it, and `not_fair` that the rotation is lost
otherwise.

A client that declares a query twice is listed twice, and the cursor is looked for at its first
place only: `pick_of_listed_twice` says what comes of it.
-/

namespace Revent

open Interleave (Event Turn)
open RoundRobinStrategy (pick)

variable {R : Type}

/-- The clients selected for a query. -/
def chosenFor (queryId : QueryId) (made : List (QueryId × ClientId)) : List ClientId :=
  (made.filter (·.1 = queryId)).map Prod.snd

/-- Of the selections, newest first: each for the query that is not the first one comes when the
cursor is at the client last selected for the query. -/
def ReturnsTo (queryId : QueryId) : List (QueryId × ClientId) → Prop
  | [] => True
  | selection :: made =>
    (selection.1 = queryId → ∀ clientId ∈ (chosenFor queryId made).head?,
      cursorAfter none made = some clientId) ∧ ReturnsTo queryId made

instance : (queryId : QueryId) → (made : List (QueryId × ClientId)) →
    Decidable (ReturnsTo queryId made)
  | _, [] => .isTrue trivial
  | queryId, _ :: made =>
    have := instDecidableReturnsTo queryId made
    inferInstanceAs (Decidable (_ ∧ _))

/-- **Fair selection**: of the selections of these turns, in any run of consecutive ones of the
kind that has as many for the query as there are clients, each client is selected once. -/
def Fair (kind : List (QueryId × ClientId) → Prop) (queryId : QueryId) (clients : List ClientId)
    (turns : List (ServerTurn R)) : Prop :=
  ∀ later window earlier, selections (history turns) = later ++ window ++ earlier → kind window →
    (chosenFor queryId window).length = clients.length →
    (chosenFor queryId window).Perm clients

variable {queryId : QueryId} {candidates clients : List ClientId} {start : Option ClientId}
  {window earlier : List (QueryId × ClientId)}

/-- The selections before others are made alike. -/
theorem SelectsBy.of_append (later : List (QueryId × ClientId))
    (selects : SelectsBy queryId candidates start (later ++ window)) :
    SelectsBy queryId candidates start window := by
  intro later' clientId earlier split
  apply selects (later ++ later')
  rw [split, List.append_assoc]

theorem chosenFor_cons_of_ne {selection : QueryId × ClientId} (other : selection.1 ≠ queryId) :
    chosenFor queryId (selection :: window) = chosenFor queryId window := by
  simp only [chosenFor, List.filter_cons, decide_eq_false other, Bool.false_eq_true, if_false]

theorem chosenFor_cons {clientId : ClientId} :
    chosenFor queryId ((queryId, clientId) :: window) = clientId :: chosenFor queryId window := by
  simp only [chosenFor, List.filter_cons, decide_true, if_true, List.map_cons]

/-- A selection before others leaves the cursor where they do not. -/
theorem cursorAfter_append {clientId : ClientId}
    (at_client : cursorAfter none window = some clientId) :
    cursorAfter start (window ++ earlier) = some clientId := by
  cases window with
  | nil => cases at_client
  | cons selection window => exact at_client

/-- **The rotation**: where the cursor returns, each client selected for the query comes next
after the one before. -/
theorem isChain_of_returnsTo (selects : SelectsBy queryId candidates start (window ++ earlier))
    (returns : ReturnsTo queryId window) :
    (chosenFor queryId window).IsChain (fun b a => Lists.Next candidates a b) ∧
      ∀ clientId ∈ chosenFor queryId window, clientId ∈ candidates := by
  induction window with
  | nil => exact ⟨.nil, nofun⟩
  | cons selection window ih =>
    obtain ⟨query, clientId⟩ := selection
    obtain ⟨back, returns⟩ := returns
    obtain ⟨chain, members⟩ := ih (.of_append [_] selects) returns
    by_cases mine : query = queryId
    · subst mine
      obtain ⟨mem, next⟩ := pick_eq_some (selects [] clientId _ rfl)
      rw [chosenFor_cons]
      refine ⟨List.isChain_cons.mpr ⟨fun previous hprevious => ?_, chain⟩,
        List.forall_mem_cons.mpr ⟨mem, members⟩⟩
      apply next previous
      · exact cursorAfter_append (back rfl previous hprevious)
      · exact members previous (List.mem_of_mem_head? hprevious)
    · rw [chosenFor_cons_of_ne mine]
      exact ⟨chain, members⟩

variable [Repository R] {timing : Timing} {repository : R} {w : World R}
  {continuation turns : List (ServerTurn R)}

/-- **Fair selection** of the clients of a query, each of them listed once, where the cursor
returns. -/
theorem fair_of_returnsTo (run : SequentialRun timing repository (continuation ++ turns) w)
    (nodup : clients.Nodup)
    (listed : ∀ turn ∈ continuation, (turn.before.state.listed queryId).Perm clients) :
    Fair (ReturnsTo queryId) queryId clients continuation := by
  intro later window earlier split returns length
  obtain ⟨start, selects⟩ := selectsBy_of_sequentialRun run listed
  rw [split, List.append_assoc] at selects
  obtain ⟨chain, members⟩ := isChain_of_returnsTo (selects.of_append later) returns
  have perm := sorted_perm clients
  have around : (chosenFor queryId window).reverse.Perm (sorted clients) := by
    apply Lists.perm_of_isChain (perm.nodup_iff.mpr nodup) (List.isChain_reverse.mpr chain)
    · intro clientId mem
      exact members clientId (List.mem_reverse.mp mem)
    · rw [List.length_reverse, length, perm.length_eq]
  exact ((List.reverse_perm _).symm.trans around).trans perm

/-- A client that is listed twice is selected again and again: from its first place the round robin
goes on to its second one. -/
theorem pick_of_listed_twice {clientId : ClientId} (twice : 2 ≤ clients.count clientId) :
    pick (some clientId) (sorted clients) = some clientId := by
  have ascending := List.pairwise_iff_getElem.mp (List.pairwise_insertionSort (· ≤ ·) clients)
  rw [← (sorted_perm clients).count_eq] at twice
  obtain ⟨n, m, less, at_n, at_m⟩ :=
    List.duplicate_iff_exists_distinct_get.mp (List.duplicate_iff_two_le_count.mpr twice)
  have mem : clientId ∈ sorted clients := at_n ▸ List.get_mem _ n
  unfold pick
  split
  · rename_i nowhere
    have absent := List.findIdx?_eq_none_iff.mp nowhere clientId mem
    simp at absent
  · rename_i place found
    obtain ⟨hplace, here, before⟩ := List.findIdx?_eq_some_iff_getElem.mp found
    have first : place ≤ n := by
      by_contra later
      exact before n (by omega) (beq_iff_eq.mpr at_n.symm)
    have inside : place + 1 < (sorted clients).length := by omega
    rw [Nat.mod_eq_of_lt inside, List.getElem?_eq_getElem inside]
    -- the place after the first one is at most `m`
    have above : clientId ≤ (sorted clients)[place + 1] := by
      rw [← eq_of_beq here]
      exact ascending place (place + 1) hplace inside (Nat.lt_succ_self place)
    have below : (sorted clients)[place + 1] ≤ clientId := by
      rcases Nat.lt_or_ge (place + 1) m with hm | hm
      · exact at_m ▸ ascending (place + 1) m inside m.isLt hm
      · have is_m : place + 1 = m := by omega
        simp only [is_m]
        exact le_of_eq at_m.symm
    rw [le_antisymm below above]

section Scenario

open Scenario

/-- Another query id. -/
def Scenario.usersGetOne : QueryId := ⟨"users.GetOne", by decide⟩

/-- A client registers on a channel and declares queries. -/
def Scenario.declaring (clientId : ClientId) (tx : Tx) (queries : List QueryId) : Call :=
  .message (.registerClient ⟨clientId, queries, tx⟩)

/-- A request of a client, with an id of its own. -/
def Scenario.asking (number : Nat) (queryId : QueryId) : Call :=
  .message (.queryRequest ⟨⟨.ofNat 128 number⟩, alice, queryId, ∅⟩)

/-- Two clients register for the query and for others, and three requests follow: for the query,
for another one, and for the query again. The requests are the continuation. -/
def Scenario.mixedQueries (alices bobs : List QueryId) :
    Option (List (ServerTurn NoopSourceEventRepository) ×
      List (ServerTurn NoopSourceEventRepository) × World NoopSourceEventRepository) :=
  (handled [declaring alice 0 (usersGetAll :: alices), declaring bob 1 (usersGetAll :: bobs),
    asking 1 usersGetAll, asking 2 usersGetOne, asking 3 usersGetAll]).map
      fun done => (done.1.take 3, done.1.drop 3, done.2)

/-- Each of the turns finds the two clients listed for the query. -/
def Scenario.twoListed (turns : List (ServerTurn NoopSourceEventRepository)) : Bool :=
  turns.all fun turn => turn.before.state.listed usersGetAll = [alice, bob]

theorem Scenario.listed_of_twoListed {turns : List (ServerTurn NoopSourceEventRepository)}
    (two : twoListed turns = true) {turn : ServerTurn NoopSourceEventRepository}
    (mem : turn ∈ turns) : turn.before.state.listed usersGetAll = [alice, bob] :=
  of_decide_eq_true (List.all_eq_true.mp two turn mem)

theorem Scenario.run_of_mixedQueries {alices bobs : List QueryId}
    {continuation turns : List (ServerTurn NoopSourceEventRepository)}
    {w : World NoopSourceEventRepository}
    (done : mixedQueries alices bobs = some (continuation, turns, w)) :
    SequentialRun Scenario.timing ⟨⟩ (continuation ++ turns) w := by
  obtain ⟨⟨all, w'⟩, played, heq⟩ := Option.map_eq_some_iff.mp done
  cases heq
  rw [List.take_append_drop]
  exact Interleave.sequential_of_playCalls .start played

omit [Repository R] in
/-- The first client is the only one for the other query, and the rotation goes on. -/
theorem fair_mixing : ∃ (continuation turns : List (ServerTurn NoopSourceEventRepository))
    (w : World NoopSourceEventRepository),
    SequentialRun Scenario.timing ⟨⟩ (continuation ++ turns) w ∧
    selections (history continuation) =
      [(usersGetAll, bob), (usersGetOne, alice), (usersGetAll, alice)] ∧
    ReturnsTo usersGetAll (selections (history continuation)) ∧
    Fair (ReturnsTo usersGetAll) usersGetAll [alice, bob] continuation := by
  have played : (mixedQueries [usersGetOne] []).map (fun done =>
      (selections (history done.1), twoListed done.1)) =
        some ([(usersGetAll, bob), (usersGetOne, alice), (usersGetAll, alice)], true) := by
    decide +kernel
  obtain ⟨⟨continuation, turns, w⟩, done, shown⟩ := Option.map_eq_some_iff.mp played
  obtain ⟨selected, two⟩ := Prod.mk.inj shown
  have run := run_of_mixedQueries done
  refine ⟨continuation, turns, w, run, selected, ?_, fair_of_returnsTo run (by decide) ?_⟩
  · rw [selected]
    decide
  · intro turn mem
    rw [listed_of_twoListed two mem]

omit [Repository R] in
/-- The second client is the only one for the other query: the selection for it moves the cursor
there, and the first client is selected for the query twice. -/
theorem not_fair : ¬ ∀ (continuation turns : List (ServerTurn NoopSourceEventRepository))
    (w : World NoopSourceEventRepository) (queryId : QueryId) (clients : List ClientId),
    SequentialRun Scenario.timing ⟨⟩ (continuation ++ turns) w → clients.Nodup →
    (∀ turn ∈ continuation, ∀ clientId,
      clientId ∈ turn.before.state.listed queryId ↔ clientId ∈ clients) →
    Fair (fun _ => True) queryId clients continuation := by
  intro fair
  have played : (mixedQueries [] [usersGetOne]).map (fun done =>
      (selections (history done.1), twoListed done.1)) =
        some ([(usersGetAll, alice), (usersGetOne, bob), (usersGetAll, alice)], true) := by
    decide +kernel
  obtain ⟨⟨continuation, turns, w⟩, done, shown⟩ := Option.map_eq_some_iff.mp played
  obtain ⟨selected, two⟩ := Prod.mk.inj shown
  have perm := fair continuation turns w usersGetAll [alice, bob] (run_of_mixedQueries done)
    (by decide) (fun turn mem clientId => by rw [listed_of_twoListed two mem]) []
    (selections (history continuation)) [] (by simp) trivial (by rw [selected]; decide)
  rw [selected] at perm
  exact absurd perm (by decide)

end Scenario

end Revent
