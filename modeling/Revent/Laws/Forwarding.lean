import Revent.Laws.Requests

/-!
# Exclusive request ids

`handle_query_request_message` checks that its request id is not ongoing, forwards the request,
and records it, with no lock held from the one to the other. Two tasks may pass the check before
either records.

The law is that an id that was forwarded is not forwarded again until it is settled, and that the
check of a duplicate finds it. It holds in every run in which a check finds no ongoing request
only while no other task forwards the id or holds it, by `ForwardedAlone`, and fails in a run of
two sessions that check before either records.
-/

namespace Revent

open Interleave (Event Trace Prog Machine Config Task)

variable {R : Type}

/-- **Exclusive request ids**: an id is forwarded only while it is not being processed, a recording
overwrites nothing and nothing but a settlement drops it, and a request with an id being processed
finds it: its requester is told, unless the request is a repeat. -/
structure ExclusiveRequests (σ : ServerConfig R) : Prop where
  once : ∀ requestId later i ev earlier client, forwards requestId ev = some client →
    σ.trace = later ++ (i, ev) :: earlier → forwardedTo requestId earlier = none
  fresh : ∀ (i : Nat) (job : Job) (request : OngoingQueryRequest)
    (next : Unit → Async (Option Job)),
    σ.tasks[i]? = some ⟨job, .act (.handleQueryRequestedEvent request) next⟩ →
    σ.world.state.ongoing request.requestId = none
  kept : ∀ requestId client, forwardedTo requestId σ.trace = some client →
    (∃ i, Sent requestId (σ.trace.of i)) ∨ σ.world.state.ongoing requestId ≠ none
  seen : ∀ later i (msg : QueryRequestMessage) (found : Option OngoingQueryRequest) earlier client,
    σ.trace = later ++ (i, ⟨.getOngoingRequest (.duplicate msg), found⟩) :: earlier →
    forwardedTo msg.requestId earlier = some client → found ≠ none
  told : ∀ (i : Nat) (task : Task Op Ret Job) (msg : QueryRequestMessage)
    (current : OngoingQueryRequest) (info : ClientInfo) h, σ.tasks[i]? = some task →
    σ.trace.of i = ⟨.getOngoingRequest (.duplicate msg), some current⟩ ::
      ⟨.getClientById (.requester msg), some info⟩ :: h → current.isSame msg = false →
    ∃ next, task.prog = .act (.send msg.requester info.tx (.queryRequestIdDuplicated msg)) next

/-- The invariant: a task forwarding an id is the only one, no task holds the id, and it is not
ongoing; an id whose answer was sent is settled; and an id being processed is about to be recorded
or ongoing. -/
structure ForwardedAlone (requestId : RequestId) (s : State R) (tr : Trace Op Ret) : Prop where
  alone : ∀ {i j}, Forwarding requestId (tr.of i) → Forwarding requestId (tr.of j) → i = j
  absent : ∀ {i}, Forwarding requestId (tr.of i) → s.ongoing requestId = none
  unheld : ∀ {i j}, Forwarding requestId (tr.of i) → ¬ Holds requestId (tr.of j)
  settled : ∀ {i}, Settling requestId (tr.of i) → forwardedTo requestId tr = none
  kept : ∀ {client}, forwardedTo requestId tr = some client →
    (∃ i, Sent requestId (tr.of i)) ∨ s.ongoing requestId ≠ none

theorem ForwardedAlone.initial {requestId : RequestId} {repository : R} :
    ForwardedAlone requestId (.new repository) [] where
  alone := fun h => absurd h not_forwarding_nil
  absent := fun h => absurd h not_forwarding_nil
  unheld := fun h => absurd h not_forwarding_nil
  settled := nofun
  kept := nofun

variable [Repository R]

/-- The condition: a check for a duplicate finds none only while no other task forwards the id or
holds it. -/
def ForwardsAlone (σ : ServerConfig R) (i : Nat) (_ : Env R) : Op → Prop
  | .getOngoingRequest (.duplicate msg) => σ.world.state.ongoing msg.requestId = none →
      ∀ j, j ≠ i → ¬ Forwarding msg.requestId (σ.trace.of j) ∧ ¬ Holds msg.requestId (σ.trace.of j)
  | _ => True

variable {parse : String → Option Uuid} {timing : Timing} {σ : ServerConfig R} {i : Nat}
  {job : Job} {op : Op} {env : Env R} {r : Ret op} {w : World R} {requestId : RequestId}

omit [Repository R] in
/-- The task at the check for a duplicate neither forwards a request nor holds one. -/
theorem Site.free_of_duplicate {msg : QueryRequestMessage} {h : History}
    (site : Site parse timing job h (.getOngoingRequest (.duplicate msg))) :
    ¬ Forwarding requestId h ∧ ¬ Holds requestId h := by
  cases site with
  | duplicate hand =>
    refine ⟨?_, fun held => ?_⟩
    · rintro (h | ⟨_, h⟩) <;> cases h
    · rcases held.of_toExpire_nil hand.toExpire with answering | timingOut
      · cases answering with
        | settling settling => cases settling
      · cases timingOut

/-- A task that starts or goes on forwarding an id is the only one, no task holds the id, and it
is not ongoing. -/
theorem ForwardedAlone.enter (inv : ForwardedAlone requestId σ.world.state σ.trace)
    (site : Site parse timing job (σ.trace.of i) op) (cond : ForwardsAlone σ i env op)
    (hexec : exec op env σ.world = some (r, w))
    (now : Forwarding requestId (⟨op, r⟩ :: σ.trace.of i)) :
    (∀ j, j ≠ i → ¬ Forwarding requestId (σ.trace.of j)) ∧
      (∀ j, ¬ Holds requestId (σ.trace.of j)) ∧ σ.world.state.ongoing requestId = none := by
  rcases now.back site with ⟨msg, rfl, rfl⟩ | before
  · have found : r = none := by
      rcases now with now | ⟨_, now⟩ <;> cases now
      rfl
    have absent : σ.world.state.ongoing msg.requestId = none :=
      (exec_getOngoingRequest hexec).1.symm.trans found
    refine ⟨fun j hj => (cond absent j hj).1, fun j => ?_, absent⟩
    by_cases hj : j = i
    · exact hj ▸ site.free_of_duplicate.2
    · exact (cond absent j hj).2
  · exact ⟨fun j hj other => hj (inv.alone other before), fun j => inv.unheld before,
      inv.absent before⟩

omit [Repository R] in
/-- An id being processed stays so, unless it is settled or forwarded anew. -/
theorem ForwardedAlone.settled_act (inv : ForwardedAlone requestId σ.world.state σ.trace)
    (site : Site parse timing job (σ.trace.of i) op) {k : Nat}
    (settling : Settling requestId (Trace.of ((i, ⟨op, r⟩) :: σ.trace) k)) :
    forwardedTo requestId ((i, ⟨op, r⟩) :: σ.trace) = none := by
  rw [Option.eq_none_iff_forall_ne_some]
  intro client forwarded
  obtain ⟨unsettled, forwards | ⟨-, before⟩⟩ := forwardedTo_cons forwarded
  · rcases Trace.of_cons_cases (Settling requestId) settling with ⟨-, now⟩ | ⟨-, other⟩
    · cases unsettled.symm.trans now.settles
    · exact inv.unheld (.inl (site.checked_of_forwards forwards)) (.inl (.settling other))
  · rcases Trace.of_cons_cases (Settling requestId) settling with ⟨-, now⟩ | ⟨-, other⟩
    · cases unsettled.symm.trans now.settles
    · cases (inv.settled other).symm.trans before

/-- An id being processed is about to be recorded, or ongoing: only a settlement drops it. -/
theorem ForwardedAlone.kept_act (inv : ForwardedAlone requestId σ.world.state σ.trace)
    (site : Site parse timing job (σ.trace.of i) op)
    (hexec : exec op env σ.world = some (r, w)) {client : ClientId}
    (forwarded : forwardedTo requestId ((i, ⟨op, r⟩) :: σ.trace) = some client) :
    (∃ k, Sent requestId (Trace.of ((i, ⟨op, r⟩) :: σ.trace) k)) ∨
      w.state.ongoing requestId ≠ none := by
  obtain ⟨unsettled, forwards | ⟨-, before⟩⟩ := forwardedTo_cons forwarded
  · obtain ⟨tx, msg, heq, id⟩ := forwards_eq_some forwards
    refine .inl ⟨i, client, ?_⟩
    rw [Trace.of_cons_self, heq]
    exact .sent id
  · rw [ongoing_exec hexec]
    rcases inv.kept before with ⟨k, c, sent⟩ | ongoing
    · by_cases hk : i = k
      · subst hk
        rcases sent.next (r := r) site with still | ⟨request, rfl, id, -⟩
        · exact .inl ⟨i, c, (Trace.of_cons_self _ _ _).symm ▸ still⟩
        · exact .inr (by simp [ongoingAfter, id])
      · exact .inl ⟨k, c, (Trace.of_cons_ne _ hk _).symm ▸ sent⟩
    · apply Or.inr
      unfold ongoingAfter
      split
      · split
        · exact Option.some_ne_none _
        · exact ongoing
      · split
        · rename_i id
          subst id
          rcases site.held_of_remove with settling | timingOut
          · cases (inv.settled settling).symm.trans before
          · simp [settles, timingOut.atTimeOut] at unsettled
        · exact ongoing
      · exact ongoing

/-- Each operation, under the condition, keeps the invariant of every id. -/
theorem ForwardedAlone.act (inv : ForwardedAlone requestId σ.world.state σ.trace)
    (keyed : σ.world.state.queryHandlers.Keyed)
    (site : Site parse timing job (σ.trace.of i) op) (cond : ForwardsAlone σ i env op)
    (hexec : exec op env σ.world = some (r, w)) :
    ForwardedAlone requestId w.state ((i, ⟨op, r⟩) :: σ.trace) := by
  -- who forwards the id after the operation found it neither ongoing nor held before
  have free {k : Nat} (now : Forwarding requestId (Trace.of ((i, ⟨op, r⟩) :: σ.trace) k)) :
      (∀ j, j ≠ k → ¬ Forwarding requestId (σ.trace.of j)) ∧
        (∀ j, ¬ Holds requestId (σ.trace.of j)) ∧ σ.world.state.ongoing requestId = none := by
    rcases Trace.of_cons_cases (Forwarding requestId) now with ⟨rfl, mine⟩ | ⟨-, other⟩
    · exact inv.enter site cond hexec mine
    · exact ⟨fun j hj h => hj (inv.alone h other), fun j => inv.unheld other, inv.absent other⟩
  refine ⟨?_, ?_, ?_, inv.settled_act site, inv.kept_act site hexec⟩
  · intro a b ha hb
    rcases Trace.of_cons_cases (Forwarding requestId) ha with ⟨rfl, -⟩ | ⟨-, other⟩
    · rcases Trace.of_cons_cases (Forwarding requestId) hb with ⟨hb, -⟩ | ⟨hbi, other⟩
      · exact hb
      · exact absurd other ((free ha).1 b (Ne.symm hbi))
    · by_contra hab
      exact (free hb).1 a hab other
  · intro k now
    obtain ⟨alone, -, absent⟩ := free now
    rw [ongoing_exec hexec, absent]
    cases op with
    | handleQueryRequestedEvent request =>
      refine if_neg fun id => ?_
      have mine : Forwarding requestId (σ.trace.of i) := .inr (id ▸ site.sent_of_record)
      rcases Trace.of_cons_cases (Forwarding requestId) now with ⟨-, recorded⟩ | ⟨hk, -⟩
      · rcases recorded with h | ⟨_, h⟩ <;> cases h
      · exact alone i hk mine
    | removeOngoingRequest removed => exact ite_self none
    | _ => rfl
  · intro a b ha hb
    obtain ⟨-, unheld, absent⟩ := free ha
    rcases Trace.of_cons_cases (Holds requestId) hb with ⟨rfl, mine⟩ | ⟨-, other⟩
    · rcases mine.back site with reads | before
      · exact ongoing_of_reads hexec keyed reads absent
      · exact unheld _ before
    · exact unheld b other

/-- What the law says of the events that happened. -/
structure ForwardedOnce (tr : Trace Op Ret) : Prop where
  once : ∀ {requestId later i ev earlier client}, forwards requestId ev = some client →
    tr = later ++ (i, ev) :: earlier → forwardedTo requestId earlier = none
  seen : ∀ {later i} {msg : QueryRequestMessage} {found : Option OngoingQueryRequest}
    {earlier client}, tr = later ++ (i, ⟨.getOngoingRequest (.duplicate msg), found⟩) :: earlier →
    forwardedTo msg.requestId earlier = some client → found ≠ none

theorem ForwardedOnce.act (once : ForwardedOnce σ.trace)
    (inv : ∀ requestId, ForwardedAlone requestId σ.world.state σ.trace)
    (site : Site parse timing job (σ.trace.of i) op) (cond : ForwardsAlone σ i env op)
    (hexec : exec op env σ.world = some (r, w)) : ForwardedOnce ((i, ⟨op, r⟩) :: σ.trace) where
  once := by
    intro requestId later k ev earlier client forwards htr
    rcases Trace.cons_eq_append htr with ⟨-, heq, rfl⟩ | ⟨later', -, htail⟩
    · cases heq
      rw [Option.eq_none_iff_forall_ne_some]
      intro client' forwarded
      have checked := site.checked_of_forwards forwards
      rcases (inv requestId).kept forwarded with ⟨k, sent⟩ | ongoing
      · cases (inv requestId).alone (.inl checked) (.inr sent)
        obtain ⟨_, sent⟩ := sent
        generalize σ.trace.of i = h at checked sent
        cases checked <;> cases sent
      · exact ongoing ((inv requestId).absent (.inl checked))
    · exact once.once forwards htail
  seen := by
    intro later k msg found earlier client htr forwarded
    rcases Trace.cons_eq_append htr with ⟨-, heq, rfl⟩ | ⟨later', -, htail⟩
    · cases heq
      intro absent
      have hnone := (exec_getOngoingRequest hexec).1.symm.trans absent
      rcases (inv msg.requestId).kept forwarded with ⟨k, sent⟩ | ongoing
      · by_cases hk : k = i
        · subst hk
          exact site.free_of_duplicate.1 (.inr sent)
        · exact (cond hnone k hk).1 (.inr sent)
      · exact ongoing hnone
    · exact once.seen htail forwarded

variable {repository : R}

/-- **Exclusive request ids**, in every run in which a check for a duplicate finds none only while
no other task forwards the id or holds it. -/
theorem exclusiveRequests_of_forwardsAlone
    (reach : ReachIf parse timing repository ForwardsAlone σ) : ExclusiveRequests σ := by
  obtain ⟨keyed, inv, once⟩ := state_invariant
    (fun s tr => s.queryHandlers.Keyed ∧ (∀ requestId, ForwardedAlone requestId s tr) ∧
      ForwardedOnce tr) reach ⟨nofun, fun _ => .initial, ⟨by simp, by simp⟩⟩
    fun site cond hexec ⟨keyed, inv, once⟩ => ⟨keyed_exec hexec keyed,
      fun requestId => (inv requestId).act keyed site cond hexec, once.act inv site cond hexec⟩
  refine ⟨fun _ _ _ _ _ _ forwards htr => once.once forwards htr, ?_,
    fun _ _ => (inv _).kept, fun _ _ _ _ _ _ => once.seen, ?_⟩
  · intro i job request next htask
    have site := site_of_act (flowing reach) htask
    exact (inv request.requestId).absent (.inr site.sent_of_record)
  · rintro i ⟨job, prog⟩ msg current info h htask hh other
    have middle : goesOn (⟨.getOngoingRequest (.duplicate msg), some current⟩ ::
        ⟨.getClientById (.requester msg), some info⟩ :: h) = true := by
      simp [goesOn, other]
    obtain ⟨op, next, rfl, site⟩ := act_of_middle (flowing reach) htask (hh ▸ middle)
    rw [hh] at site
    cases site with
    | duplicated => exact ⟨next, rfl⟩
    | handle hand => cases hand
    | receive ready | oldClients ready | heartbeat ready | getExpiredRequests ready
    | timingOut ready | readClients ready | broadcasting ready | dropClients ready =>
      exact ready.elim middle

section Scenario

open Scenario

namespace Scenario

/-- The checks for a duplicate. -/
def checksForDuplicate : Op → Bool
  | .getOngoingRequest (.duplicate _) => true
  | _ => false

/-- What a check for a duplicate found. -/
def foundDuplicate : Event Op Ret → Option Bool
  | ⟨.getOngoingRequest (.duplicate _), found⟩ => some found.isSome
  | _ => none

/-- An exchange is answered, its id is used once more, and the other client repeats it while it is
ongoing. -/
def repeats : List (ServerLabel NoopSourceEventRepository) :=
  exchange ++ sendsResponse 1 ++ sendsQuery 2 ++ [hears 1 query, turn 1, turn 1, turn 1]

end Scenario

/-- An id is forwarded, settled and forwarded again, and the check of the client that repeats it
then finds it. -/
theorem exclusiveRequests_repeats :
    ∃ σ, outcome (whileOthersRest checksForDuplicate) repeats = some σ ∧
      σ.trace.filterMap (fun entry => forwards request entry.2) = [bob, alice] ∧
      σ.trace.filterMap (fun entry => foundDuplicate entry.2) = [true, false, false] ∧
      ExclusiveRequests σ := by
  have run : (outcome (whileOthersRest checksForDuplicate) repeats).map (fun σ =>
      (σ.trace.filterMap fun entry => forwards request entry.2,
        σ.trace.filterMap fun entry => foundDuplicate entry.2)) =
          some ([bob, alice], [true, false, false]) := by
    decide +kernel
  obtain ⟨σ, hrun, hσ⟩ := Option.map_eq_some_iff.mp run
  obtain ⟨twice, last⟩ := Prod.mk.inj hσ
  refine ⟨σ, hrun, twice, last, exclusiveRequests_of_forwardsAlone (reach_outcome ?_ hrun)⟩
  intro σ i env job op next checked task
  cases op with
  | getOngoingRequest why =>
    cases why with
    | duplicate msg =>
      intro _ j hj
      obtain ⟨rest, nothing⟩ := rest_of_whileOthersRest checked task rfl j hj
      exact ⟨fun forwarding => rest.elim forwarding.goesOn, rest.not_holds nothing⟩
    | _ => trivial
  | _ => trivial

/-- Two clients use one request id, and both checks come before either recording: the request is
forwarded twice. -/
theorem not_exclusiveRequests : ¬ ∀ σ : ServerConfig NoopSourceEventRepository,
    ReachIf Scenario.parse Scenario.timing ⟨⟩ anyOp σ → ExclusiveRequests σ := by
  intro exclusive
  have twice : (outcome (fun _ _ => true) ([opened, opened] ++ registers 1 alice ++
      registers 2 bob ++ [hears 1 query, turn 1, turn 1, turn 1, hears 2 query, turn 2, turn 2,
        turn 2, turn 1, turn 1, turn 1, turn 2, turn 2, turn 2])).map (fun σ =>
        (σ.trace.head?.map fun entry => forwards request entry.2,
          forwardedTo request σ.trace.tail)) = some (some (some bob), some alice) := by
    decide
  obtain ⟨σ, hrun, hσ⟩ := Option.map_eq_some_iff.mp twice
  obtain ⟨hlast, hbefore⟩ := Prod.mk.inj hσ
  match htr : σ.trace with
  | (i, ev) :: earlier =>
    rw [htr] at hlast hbefore
    have once := (exclusive σ (reach_anyOp hrun)).once request [] i ev earlier bob
      (Option.some.inj hlast) htr
    cases once.symm.trans hbefore
  | [] =>
    rw [htr] at hlast
    cases hlast

end Scenario

end Revent
