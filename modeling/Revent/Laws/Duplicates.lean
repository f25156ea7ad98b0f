import Revent.Laws.Responders
import Revent.Laws.Selection

/-!
# Duplicated query requests

A query request whose id is ongoing is compared with the request on record by `is_same`: it is
silently dropped if it is taken for the same one, and refused otherwise. `is_same` leaves the
parameters out, so a request that differs from the ongoing one in its parameters only is dropped
too (`answersRepeats_iff`). Either way nothing else happens, however often it is repeated.
-/

namespace Revent

open Interleave (Event Prog Alone Sequential Turn)

variable {R : Type}

/-- The message is the ongoing request once more. -/
structure SameRequest (current : OngoingQueryRequest) (msg : QueryRequestMessage) : Prop where
  requestId : current.requestId = msg.requestId
  requester : current.requester = msg.requester
  queryId : current.queryId = msg.queryId
  parameters : current.parameters = msg.parameters

theorem OngoingQueryRequest.isSame_iff {current : OngoingQueryRequest}
    {msg : QueryRequestMessage} : current.isSame msg = true ↔
      current.requestId = msg.requestId ∧ current.queryId = msg.queryId ∧
        current.requester = msg.requester := by
  simp only [isSame, Bool.and_eq_true, beq_iff_eq, and_assoc]

/-- The same request is what `is_same` takes for it, with the same parameters. -/
theorem sameRequest_iff {current : OngoingQueryRequest} {msg : QueryRequestMessage} :
    SameRequest current msg ↔
      current.isSame msg = true ∧ current.parameters = msg.parameters := by
  rw [OngoingQueryRequest.isSame_iff]
  constructor
  · intro same
    exact ⟨⟨same.requestId, same.queryId, same.requester⟩, same.parameters⟩
  · rintro ⟨⟨requestId, queryId, requester⟩, parameters⟩
    exact ⟨requestId, requester, queryId, parameters⟩

/-- The requester, whose channel is `tx`, is told that the id is taken. -/
def ToldDuplicated (msg : QueryRequestMessage) (tx : Tx) (h : History) : Prop :=
  ∃ sent, deliveries h = [(msg.requester, tx, .queryRequestIdDuplicated msg, sent)]

/-- **Duplicates are silent, everything else is refused**: what a handling of the message should
come to while `current` is ongoing. -/
structure AnswersDuplicate (current : OngoingQueryRequest) (msg : QueryRequestMessage) (tx : Tx)
    (h : History) : Prop where
  same : SameRequest current msg → deliveries h = []
  other : ¬ SameRequest current msg → ToldDuplicated msg tx h
  selected : selections h = []

/-- And what any number of handlings should come to. -/
structure AnswersRepeats (current : OngoingQueryRequest) (msg : QueryRequestMessage) (tx : Tx)
    (turns : List (Turn ClientMessage Op Ret (World R))) (w w' : World R) : Prop where
  answers : ∀ turn ∈ turns, AnswersDuplicate current msg tx turn.events
  ongoing : w'.state.ongoing msg.requestId = some current
  cursor : w'.cursor = w.cursor

/-- What a handling does come to. -/
structure Duplicated (current : OngoingQueryRequest) (msg : QueryRequestMessage) (tx : Tx)
    (h : History) : Prop where
  silent : current.isSame msg = true → deliveries h = []
  refused : current.isSame msg = false → ToldDuplicated msg tx h
  selected : selections h = []

/-- What it leaves as it was. -/
structure Undisturbed (msg : QueryRequestMessage) (w w' : World R) : Prop where
  connected : w'.state.txOf msg.requester = w.state.txOf msg.requester
  queryHandlers : w'.state.queryHandlers = w.state.queryHandlers

variable [Repository R] {current : OngoingQueryRequest} {msg : QueryRequestMessage} {tx : Tx}
  {w w' : World R}

omit [Repository R] in
theorem Undisturbed.ongoing (undisturbed : Undisturbed msg w w')
    (ongoing : w.state.ongoing msg.requestId = some current) :
    w'.state.ongoing msg.requestId = some current :=
  (congrArg (·.getOngoingRequest msg.requestId) undisturbed.queryHandlers).trans ongoing

/-- The handler of a request whose id is ongoing sends at most the refusal. -/
theorem handleQueryRequestMessage_duplicated
    (ongoing : w.state.ongoing msg.requestId = some current)
    (connected : w.state.txOf msg.requester = some tx) :
    (handleQueryRequestMessage msg).Ensures exec
      (fun _ w' h => Duplicated current msg tx h ∧ Undisturbed msg w w') w
      (begun (.queryRequest msg) []) := by
  intro env requester w₁ looked env found w₂ read
  obtain ⟨hrequester, rfl⟩ := exec_getClientById looked
  obtain ⟨hfound, rfl⟩ := exec_getOngoingRequest read
  cases hfound.trans ongoing
  obtain ⟨info, entry, rfl⟩ := State.txOf_eq_some.mp connected
  cases hrequester.trans entry
  show Prog.Ensures exec _ (if current.isSame msg then _ else tellRequester msg (some info) _) _ _
  split
  · rename_i same
    refine ⟨⟨fun _ => rfl, fun other => ?_, rfl⟩, ⟨rfl, rfl⟩⟩
    cases same.symm.trans other
  · rename_i other
    intro env sent w₃ performed
    have kept := exec_send performed
    refine ⟨⟨fun same => absurd same other, fun _ => ⟨sent.isOk, rfl⟩, rfl⟩, ⟨?_, ?_⟩⟩
    · rw [kept]
    · rw [kept]

/-- **A handling of a request whose id is ongoing**, taken alone. -/
theorem duplicated_of_alone {h : History}
    (ongoing : w.state.ongoing msg.requestId = some current)
    (connected : w.state.txOf msg.requester = some tx)
    (run : Alone exec (handleMessage (.queryRequest msg)) w [] () w' h) :
    Duplicated current msg tx h ∧ Undisturbed msg w w' := by
  cases run with
  | @act _ _ _ _ _ _ w₁ _ _ _ refreshed rest =>
    obtain ⟨channels, same⟩ := exec_updateLastSeen refreshed
    have first : Undisturbed msg w w₁ := ⟨channels _, same⟩
    obtain ⟨duplicated, undisturbed⟩ := (handleQueryRequestMessage_duplicated
      (first.ongoing ongoing) (first.connected.trans connected)).elim rest
    refine ⟨duplicated, ⟨undisturbed.connected.trans first.connected, ?_⟩⟩
    exact undisturbed.queryHandlers.trans first.queryHandlers

/-- **Any number of handlings** comes to the same each time. -/
theorem duplicated_of_sequential {turns : List (Turn ClientMessage Op Ret (World R))}
    (ongoing : w.state.ongoing msg.requestId = some current)
    (connected : w.state.txOf msg.requester = some tx)
    (run : Sequential exec handleMessage w turns w')
    (repeats : ∀ turn ∈ turns, turn.call = .queryRequest msg) :
    Undisturbed msg w w' ∧ ∀ turn ∈ turns, Duplicated current msg tx turn.events := by
  induction run with
  | start => exact ⟨⟨rfl, rfl⟩, fun turn mem => by cases mem⟩
  | @turn turns call w₁ w₂ events earlier run ih =>
    obtain ⟨undisturbed, answered⟩ := ih fun turn mem => repeats turn (List.mem_cons_of_mem _ mem)
    have is : call = .queryRequest msg := repeats _ List.mem_cons_self
    subst is
    obtain ⟨now, kept⟩ := duplicated_of_alone (undisturbed.ongoing ongoing)
      (undisturbed.connected.trans connected) run
    refine ⟨⟨kept.connected.trans undisturbed.connected, ?_⟩, ?_⟩
    · exact kept.queryHandlers.trans undisturbed.queryHandlers
    · exact List.forall_mem_cons.mpr ⟨now, answered⟩

/-- **Exactly when duplicates are told from other requests**: unless the message is taken for the
ongoing request and has other parameters. -/
theorem answersRepeats_iff {turns : List (Turn ClientMessage Op Ret (World R))}
    (ongoing : w.state.ongoing msg.requestId = some current)
    (connected : w.state.txOf msg.requester = some tx)
    (run : Sequential exec handleMessage w turns w') (some_turn : turns ≠ [])
    (repeats : ∀ turn ∈ turns, turn.call = .queryRequest msg) :
    AnswersRepeats current msg tx turns w w' ↔
      (current.isSame msg = true → current.parameters = msg.parameters) := by
  obtain ⟨undisturbed, duplicated⟩ := duplicated_of_sequential ongoing connected run repeats
  constructor
  · intro answers taken
    obtain ⟨turn, mem⟩ := List.exists_mem_of_ne_nil turns some_turn
    by_contra parameters
    have differs : ¬ SameRequest current msg := fun is => parameters is.parameters
    obtain ⟨sent, told⟩ := (answers.answers turn mem).other differs
    cases told.symm.trans ((duplicated turn mem).silent taken)
  · intro condition
    refine ⟨fun turn mem => ?_, undisturbed.ongoing ongoing, ?_⟩
    · have now := duplicated turn mem
      refine ⟨fun is => now.silent (sameRequest_iff.mp is).1, fun differs => ?_, now.selected⟩
      apply now.refused
      rw [Bool.eq_false_iff]
      exact fun taken => differs (sameRequest_iff.mpr ⟨taken, condition taken⟩)
    · exact congrArg (·.clientSelectionStrategy.lastSelected) undisturbed.queryHandlers

section Scenario

open Scenario

/-- The request of the scenarios, once more. -/
def Scenario.sameRequest : QueryRequestMessage := ⟨request, alice, usersGetAll, ∅⟩

/-- The request with other parameters. -/
def Scenario.otherParameters : QueryRequestMessage :=
  ⟨request, alice, usersGetAll, (∅ : HashMap String String).insert "limit" "10"⟩

/-- A client that handles its own request repeats it with a message. -/
def Scenario.repeatsRequest (msg : QueryRequestMessage) : Option (World NoopSourceEventRepository ×
    List (Turn ClientMessage Op Ret (World NoopSourceEventRepository)) ×
    World NoopSourceEventRepository) :=
  (handled [registering alice 0, requesting alice]).bind fun done =>
    (Interleave.playCalls exec handleMessage [(.queryRequest msg, List.replicate 10 quiet)] []
      done.2).map fun after => (done.2, after)

/-- The turns of a repetition are those of the message. -/
theorem Scenario.repeatsRequest_turns {msg : QueryRequestMessage}
    {w w' : World NoopSourceEventRepository}
    {turns : List (Turn ClientMessage Op Ret (World NoopSourceEventRepository))}
    (played : repeatsRequest msg = some (w, turns, w')) :
    Sequential exec handleMessage w turns w' ∧ turns ≠ [] ∧
      ∀ turn ∈ turns, turn.call = .queryRequest msg := by
  obtain ⟨done, -, played⟩ := Option.bind_eq_some_iff.mp played
  obtain ⟨after, played, heq⟩ := Option.map_eq_some_iff.mp played
  cases heq
  have calls := Interleave.calls_of_playCalls played
  refine ⟨Interleave.sequential_of_playCalls .start played, ?_, fun turn mem => ?_⟩
  · rintro rfl
    cases calls
  · have call := List.mem_map_of_mem (f := (·.call)) mem
    rw [calls] at call
    exact List.mem_singleton.mp call

omit [Repository R] in
/-- A repetition of the same request is answered as it should. -/
theorem answersRepeats_once : ∃ current w turns w',
    repeatsRequest sameRequest = some (w, turns, w') ∧
    AnswersRepeats current sameRequest 0 turns w w' := by
  have played : (repeatsRequest sameRequest).map (fun run =>
      ((run.1.state.ongoing sameRequest.requestId).map (·.parameters.isEmpty),
        run.1.state.txOf sameRequest.requester)) = some (some true, some 0) := by
    decide +kernel
  obtain ⟨⟨w, turns, w'⟩, played, result⟩ := Option.map_eq_some_iff.mp played
  obtain ⟨found, connected⟩ := Prod.mk.inj result
  obtain ⟨current, ongoing, empty⟩ := Option.map_eq_some_iff.mp found
  obtain ⟨run, filled, repeats⟩ := repeatsRequest_turns played
  refine ⟨current, w, turns, w', played, ?_⟩
  apply (answersRepeats_iff ongoing connected run filled repeats).mpr
  exact fun _ => Std.ExtTreeMap.isEmpty_iff.mp empty

omit [Repository R] in
/-- A request with other parameters is taken for the ongoing one. -/
theorem not_answersRepeats : ¬ ∀ (current : OngoingQueryRequest) (msg : QueryRequestMessage)
    (tx : Tx) (w w' : World NoopSourceEventRepository)
    (turns : List (Turn ClientMessage Op Ret (World NoopSourceEventRepository))),
    w.state.ongoing msg.requestId = some current → w.state.txOf msg.requester = some tx →
    Sequential exec handleMessage w turns w' → turns ≠ [] →
    (∀ turn ∈ turns, turn.call = .queryRequest msg) →
    AnswersRepeats current msg tx turns w w' := by
  intro answers
  have played : (repeatsRequest otherParameters).map (fun run =>
      ((run.1.state.ongoing request).map (·.parameters["limit"]?), run.1.state.txOf alice,
        run.2.1.map fun turn => (deliveries turn.events).length)) =
        some (some none, some 0, [0]) := by
    decide +kernel
  obtain ⟨⟨w, turns, w'⟩, played, result⟩ := Option.map_eq_some_iff.mp played
  obtain ⟨without, result⟩ := Prod.mk.inj result
  obtain ⟨connected, silent⟩ := Prod.mk.inj result
  obtain ⟨current, ongoing, limit⟩ := Option.map_eq_some_iff.mp without
  obtain ⟨run, filled, repeats⟩ := repeatsRequest_turns played
  have all := answers current otherParameters 0 w w' turns ongoing connected run filled repeats
  obtain ⟨turn, mem⟩ := List.exists_mem_of_ne_nil turns filled
  have differs : ¬ SameRequest current otherParameters := by
    intro same
    have at_limit := congrArg (fun parameters => parameters["limit"]?) same.parameters
    cases limit.symm.trans at_limit
  obtain ⟨sent, told⟩ := (all.answers turn mem).other differs
  have length := List.mem_map_of_mem (f := fun turn => (deliveries turn.events).length) mem
  rw [silent, told] at length
  cases List.mem_singleton.mp length

end Scenario

end Revent
