import Revent.Laws.Answers

/-!
# At most one terminal answer

The handlers of answers and the timer read an ongoing request, tell its requester, and remove the
request by its id, in separate sections. Two of them may read one request and both tell its
requester, and one that read an old request may remove a new one with the same id.

Requests with one id are told apart by how many were recorded before: `instances`. A task's answer
belongs to the instance it read. The law is at most one terminal message for each instance, and
removals of no instance but the one read. It holds in every run in which a request is read or
recorded only while no other task holds its id, by `HeldAlone`.
-/

namespace Revent

open Interleave (Event Trace Prog Machine Config Task)

variable {R : Type}

/-! ## Instances of a request id -/

/-- An event records a request with the id. -/
def records (requestId : RequestId) : Event Op Ret → Bool
  | ⟨.handleQueryRequestedEvent request, _⟩ => request.requestId = requestId
  | _ => false

/-- An event tells a requester the outcome: the response, the failure, or the time-out. -/
def terminal (requestId : RequestId) : Event Op Ret → Bool
  | ⟨.send _ _ (.queryResponded msg), .ok _⟩ => msg.requestId = requestId
  | ⟨.send _ _ (.queryRequestedFailed id _ (.handlingError _)), .ok _⟩ => id = requestId
  | ⟨.send _ _ (.queryRequestedFailed id _ .queryTimedOut), .ok _⟩ => id = requestId
  | _ => false

/-- How many requests were recorded with the id: the number of the current instance. -/
def instances (requestId : RequestId) : Trace Op Ret → Nat
  | [] => 0
  | (_, ev) :: tr => instances requestId tr + if records requestId ev then 1 else 0

/-- The instance the task read last. -/
def instanceRead (requestId : RequestId) (i : Nat) : Trace Op Ret → Nat
  | [] => 0
  | (k, ev) :: tr =>
    if k = i ∧ reads requestId ev = true then instances requestId tr
    else instanceRead requestId i tr

/-- How many terminal messages were sent for an instance. -/
def terminals (requestId : RequestId) (inst : Nat) : Trace Op Ret → Nat
  | [] => 0
  | (i, ev) :: tr => terminals requestId inst tr +
      if terminal requestId ev = true ∧ instanceRead requestId i tr = inst then 1 else 0

/-- **At most one terminal answer**: an instance causes at most one terminal message, and a task
that removes a request removes the instance it read. -/
structure SettledOnce (σ : ServerConfig R) : Prop where
  once : ∀ requestId inst, terminals requestId inst σ.trace ≤ 1
  own : ∀ later i requestId (removed : Option OngoingQueryRequest) earlier,
    σ.trace = later ++ (i, ⟨.removeOngoingRequest requestId, removed⟩) :: earlier →
    removed ≠ none → instanceRead requestId i earlier = instances requestId earlier

/-! ## One holder at a time -/

/-- The requester was told the outcome, and the request is not removed yet. -/
inductive Notified (requestId : RequestId) : History → Prop
  | settling {h : History} (settling : Settling requestId h) : Notified requestId h
  | timedOut {client : ClientId} {tx : Tx} {queryId : QueryId} {h : History} :
      Notified requestId
        (⟨.send client tx (.queryRequestedFailed requestId queryId .queryTimedOut), .ok ()⟩ :: h)

theorem Notified.holds {requestId : RequestId} {h : History} (now : Notified requestId h) :
    Holds requestId h := by
  cases now with
  | settling settling => exact .inl (.settling settling)
  | timedOut => exact .inr (.inr .told)

/-- The timer's snapshot has no id twice, the one it is at included. -/
structure Distinct (h : History) : Prop where
  nodup : ((toExpire h).map (·.requestId)).Nodup
  past : ∀ requestId, TimingOut requestId h → ∀ request ∈ toExpire h, request.requestId ≠ requestId

/-- The invariant of an id: one task at most holds it, the request it read is ongoing and the
current instance; no instance is told twice, a future one not at all, and the current one not
before a task that holds it has told the requester. -/
structure HeldAlone (requestId : RequestId) (s : State R) (tr : Trace Op Ret) : Prop where
  alone : ∀ {i j}, Holds requestId (tr.of i) → Holds requestId (tr.of j) → i = j
  current : ∀ {i}, Holds requestId (tr.of i) → s.ongoing requestId ≠ none ∧
    instanceRead requestId i tr = instances requestId tr
  once : ∀ inst, terminals requestId inst tr ≤ 1
  future : ∀ {inst}, instances requestId tr < inst → terminals requestId inst tr = 0
  untold : s.ongoing requestId ≠ none → (∀ i, ¬ Notified requestId (tr.of i)) →
    terminals requestId (instances requestId tr) tr = 0

theorem HeldAlone.initial {requestId : RequestId} {repository : R} :
    HeldAlone requestId (.new repository) [] where
  alone := fun h => absurd h not_holds_nil
  current := fun h => absurd h not_holds_nil
  once := fun _ => Nat.zero_le 1
  future := fun _ => rfl
  untold := fun _ _ => rfl

section Moves

variable {parse : String → Option Uuid} {timing : Timing} {job : Job} {op : Op} {r : Ret op}
  {h : History} {requestId : RequestId}

/-- After an answer was sent, the request is removed. -/
theorem Settling.next (site : Site parse timing job h op) (now : Settling requestId h) :
    op = .removeOngoingRequest requestId := by
  cases now with
  | responded id =>
    cases site with
    | @answered _ _ answer _ _ _ _ _ reply =>
      cases answer with
      | response msg =>
        cases reply
        cases id
        rfl
      | failed msg => cases reply
    | handle hand => cases hand
    | receive ready | oldClients ready | heartbeat ready | getExpiredRequests ready
    | timingOut ready | readClients ready | broadcasting ready | dropClients ready =>
      exact ready.elim rfl
  | failed =>
    cases site with
    | @answered _ _ answer _ _ _ _ _ reply =>
      cases answer with
      | response msg => cases reply
      | failed msg =>
        cases reply
        rfl
    | handle hand => cases hand
    | receive ready | oldClients ready | heartbeat ready | getExpiredRequests ready
    | timingOut ready | readClients ready | broadcasting ready | dropClients ready =>
      exact ready.elim rfl

/-- After a requester was told, the request is removed. -/
theorem Notified.next (site : Site parse timing job h op) (now : Notified requestId h) :
    op = .removeOngoingRequest requestId := by
  cases now with
  | settling settling => exact settling.next site
  | timedOut =>
    cases site with
    | @answered _ _ answer _ _ _ _ _ reply => cases answer <;> cases reply
    | timedOut => rfl
    | handle hand => cases hand
    | receive ready | oldClients ready | heartbeat ready | getExpiredRequests ready
    | timingOut ready | readClients ready | broadcasting ready | dropClients ready =>
      exact ready.elim rfl

theorem Notified.of_terminal (now : terminal requestId ⟨op, r⟩ = true) :
    Notified requestId (⟨op, r⟩ :: h) := by
  unfold terminal at now
  split at now
  · rename_i heq
    cases heq
    exact .settling (.responded (of_decide_eq_true now))
  · rename_i heq
    cases heq
    cases of_decide_eq_true now
    exact .settling .failed
  · rename_i heq
    cases heq
    cases of_decide_eq_true now
    exact .timedOut
  · cases now

/-- The task that tells the requester held the request. -/
theorem Notified.back (site : Site parse timing job h op)
    (now : Notified requestId (⟨op, r⟩ :: h)) : Holds requestId h := by
  cases now with
  | settling settling => exact .inl (settling.back site)
  | timedOut =>
    cases site with
    | timeOut => exact .inr (.inr (.looked rfl))
    | @answer _ _ answer _ _ _ _ _ reply => cases answer <;> cases reply

/-- A task that tells a requester has not told it yet. -/
theorem Site.untold_of_terminal (site : Site parse timing job h op)
    (now : terminal requestId ⟨op, r⟩ = true) : ¬ Notified requestId h := by
  intro before
  cases before.next site
  cases now

/-- A recording task holds nothing. -/
theorem Site.free_of_record {request : OngoingQueryRequest}
    (site : Site parse timing job h (.handleQueryRequestedEvent request)) :
    ¬ Holds requestId h := by
  cases site with
  | recording hand =>
    intro held
    rcases held.of_toExpire_nil hand.toExpire with answering | timingOut
    · cases answering with
      | settling settling => cases settling
    · cases timingOut

/-- The timer keeps the ids of its snapshot apart. -/
theorem Distinct.act {R : Type} [Repository R] {env : Env R} {w w' : World R}
    (distinct : Distinct h) (site : Site parse timing job h op)
    (hexec : exec op env w = some (r, w')) (keyed : w.state.queryHandlers.Keyed) :
    Distinct (⟨op, r⟩ :: h) := by
  have nodup : ((toExpire (⟨op, r⟩ :: h)).map (·.requestId)).Nodup := by
    unfold toExpire
    split
    · exact List.nodup_nil
    · rename_i heq
      cases heq
      exact QueryHandler.nodup_getExpiredRequests keyed (exec_getExpiredRequests hexec)
    · rename_i heq
      cases heq
      rw [List.map_tail]
      exact distinct.nodup.tail
    · rename_i heq
      cases heq
      exact distinct.nodup
  refine ⟨nodup, fun requestId timingOut request mem => ?_⟩
  cases timingOut with
  | looked id =>
    cases site with
    | timingOut ready =>
      have expires : toExpire h = _ :: _ := congrArg Memory.toExpire ready.memory
      have apart := distinct.nodup
      simp only [toExpire] at mem
      rw [expires] at mem apart
      intro same
      exact (List.nodup_cons.mp apart).1 (List.mem_map.mpr ⟨request, mem, same.trans id.symm⟩)
  | told =>
    cases site with
    | timeOut => exact distinct.past _ (.looked rfl) request mem
    | @answer _ _ answer _ _ _ _ _ reply => cases answer <;> cases reply

/-- The task that removes a request holds it no more. -/
theorem Distinct.released (distinct : Distinct h)
    (site : Site parse timing job h (.removeOngoingRequest requestId))
    (removed : Option OngoingQueryRequest) :
    Holds requestId h ∧ ¬ Holds requestId (⟨.removeOngoingRequest requestId, removed⟩ :: h) := by
  refine ⟨?_, ?_⟩
  · rcases site.held_of_remove with settling | timingOut
    · exact .inl (.settling settling)
    · exact .inr (.inr timingOut)
  · rintro (now | ⟨request, mem, id⟩ | now)
    · cases now with
      | settling now => cases now
    · cases site with
      | answered _ _ hand =>
        have expires := hand.toExpire
        simp only [toExpire] at mem
        rw [expires] at mem
        cases mem
      | timedOut => exact distinct.past _ .told request mem id
      | timedOutGone => exact distinct.past _ (.looked rfl) request mem id
    · cases now

end Moves

variable [Repository R]

/-- The condition: a request is read, by an answer that finds it or by the timer that finds it
expired, and recorded, only while no other task holds its id. -/
def HoldsAlone (σ : ServerConfig R) (i : Nat) (env : Env R) : Op → Prop
  | .getOngoingRequest (.answer answer) => σ.world.state.ongoing answer.requestId ≠ none →
      ∀ j, j ≠ i → ¬ Holds answer.requestId (σ.trace.of j)
  | .getExpiredRequests timeout => ∀ requests,
      σ.world.state.queryHandlers.getExpiredRequests env.requestOrder env.now timeout =
        some requests →
      ∀ request ∈ requests, ∀ j, j ≠ i → ¬ Holds request.requestId (σ.trace.of j)
  | .handleQueryRequestedEvent request => ∀ j, j ≠ i → ¬ Holds request.requestId (σ.trace.of j)
  | _ => True

variable {parse : String → Option Uuid} {timing : Timing} {σ : ServerConfig R} {i : Nat}
  {job : Job} {op : Op} {env : Env R} {r : Ret op} {w : World R} {requestId : RequestId}

/-- Under the condition, a request is read while no other task holds its id. -/
theorem HoldsAlone.of_reads (cond : HoldsAlone σ i env op)
    (hexec : exec op env σ.world = some (r, w)) (keyed : σ.world.state.queryHandlers.Keyed)
    (now : reads requestId ⟨op, r⟩ = true) : ∀ j, j ≠ i → ¬ Holds requestId (σ.trace.of j) := by
  have ongoing := ongoing_of_reads hexec keyed now
  unfold reads at now
  split at now
  · rename_i heq
    cases heq
    cases of_decide_eq_true now
    exact cond ongoing
  · rename_i heq
    cases heq
    obtain ⟨request, mem, id⟩ := List.any_eq_true.mp now
    cases of_decide_eq_true id
    exact cond _ (exec_getExpiredRequests hexec) request mem
  · cases now

/-- Under the condition, a request is recorded while no task holds its id. -/
theorem HoldsAlone.of_records (cond : HoldsAlone σ i env op)
    (site : Site parse timing job (σ.trace.of i) op)
    (now : records requestId ⟨op, r⟩ = true) : ∀ j, ¬ Holds requestId (σ.trace.of j) := by
  unfold records at now
  split at now
  · rename_i heq
    cases heq
    cases of_decide_eq_true now
    intro j
    by_cases hj : j = i
    · exact hj ▸ site.free_of_record
    · exact cond j hj
  · cases now

omit [Repository R] in
/-- After an operation a task holds an id that it held before or reads now, and that is not being
removed. -/
theorem holds_act (distinct : Distinct (σ.trace.of i))
    (site : Site parse timing job (σ.trace.of i) op) {k : Nat}
    (now : Holds requestId (Trace.of ((i, ⟨op, r⟩) :: σ.trace) k)) :
    (i = k ∧ reads requestId ⟨op, r⟩ = true) ∨
      Holds requestId (σ.trace.of k) ∧ (i = k → op ≠ .removeOngoingRequest requestId) := by
  rcases Trace.of_cons_cases (Holds requestId) now with ⟨rfl, mine⟩ | ⟨hk, other⟩
  · rcases mine.back site with reads | before
    · exact .inl ⟨rfl, reads⟩
    · refine .inr ⟨before, fun _ removes => ?_⟩
      subst removes
      exact (distinct.released site _).2 mine
  · exact .inr ⟨other, fun h => absurd h hk⟩

/-- An operation that neither records nor removes the id leaves its request as it was. -/
theorem ongoing_unchanged (hexec : exec op env σ.world = some (r, w))
    (unrecorded : records requestId ⟨op, r⟩ = false)
    (unremoved : op ≠ .removeOngoingRequest requestId) :
    w.state.ongoing requestId = σ.world.state.ongoing requestId := by
  rw [ongoing_exec hexec]
  cases op with
  | handleQueryRequestedEvent request => exact if_neg (of_decide_eq_false unrecorded)
  | removeOngoingRequest removed => exact if_neg fun id => unremoved (by rw [id])
  | _ => rfl

omit [Repository R] in
/-- The task that tells the requester holds the request: the current instance, not told before. -/
theorem HeldAlone.of_terminal (inv : HeldAlone requestId σ.world.state σ.trace)
    (site : Site parse timing job (σ.trace.of i) op) (now : terminal requestId ⟨op, r⟩ = true) :
    instanceRead requestId i σ.trace = instances requestId σ.trace ∧
      terminals requestId (instances requestId σ.trace) σ.trace = 0 := by
  have held := (Notified.of_terminal now).back site
  obtain ⟨ongoing, current⟩ := inv.current held
  refine ⟨current, inv.untold ongoing fun k notified => ?_⟩
  cases inv.alone held notified.holds
  exact site.untold_of_terminal now notified

theorem HeldAlone.current_act (inv : HeldAlone requestId σ.world.state σ.trace)
    (distinct : Distinct (σ.trace.of i)) (keyed : σ.world.state.queryHandlers.Keyed)
    (site : Site parse timing job (σ.trace.of i) op) (cond : HoldsAlone σ i env op)
    (hexec : exec op env σ.world = some (r, w)) {k : Nat}
    (now : Holds requestId (Trace.of ((i, ⟨op, r⟩) :: σ.trace) k)) :
    w.state.ongoing requestId ≠ none ∧
      instanceRead requestId k ((i, ⟨op, r⟩) :: σ.trace) =
        instances requestId ((i, ⟨op, r⟩) :: σ.trace) := by
  rcases holds_act distinct site now with ⟨rfl, reads⟩ | ⟨before, kept⟩
  · have unrecorded : records requestId ⟨op, r⟩ = false := by
      cases op <;> first | rfl | cases reads
    have unremoved : op ≠ .removeOngoingRequest requestId := by
      rintro rfl
      cases reads
    rw [ongoing_unchanged hexec unrecorded unremoved]
    refine ⟨ongoing_of_reads hexec keyed reads, ?_⟩
    simp [instanceRead, instances, reads, unrecorded]
  · have unrecorded : records requestId ⟨op, r⟩ = false := by
      by_contra recorded
      exact cond.of_records site (Bool.not_eq_false _ ▸ recorded) k before
    have unremoved : op ≠ .removeOngoingRequest requestId := by
      rintro rfl
      exact kept (inv.alone (distinct.released site r).1 before) rfl
    obtain ⟨ongoing, current⟩ := inv.current before
    rw [ongoing_unchanged hexec unrecorded unremoved]
    refine ⟨ongoing, ?_⟩
    simp only [instanceRead, instances, unrecorded]
    split
    · rfl
    · exact current

theorem HeldAlone.untold_act (inv : HeldAlone requestId σ.world.state σ.trace)
    (site : Site parse timing job (σ.trace.of i) op) (hexec : exec op env σ.world = some (r, w))
    (ongoing : w.state.ongoing requestId ≠ none)
    (untold : ∀ k, ¬ Notified requestId (Trace.of ((i, ⟨op, r⟩) :: σ.trace) k)) :
    terminals requestId (instances requestId ((i, ⟨op, r⟩) :: σ.trace))
      ((i, ⟨op, r⟩) :: σ.trace) = 0 := by
  have quiet : terminal requestId ⟨op, r⟩ = false := by
    by_contra told
    refine untold i ?_
    rw [Trace.of_cons_self]
    exact .of_terminal (Bool.not_eq_false _ ▸ told)
  have same (inst : Nat) : terminals requestId inst ((i, ⟨op, r⟩) :: σ.trace) =
      terminals requestId inst σ.trace := by
    simp [terminals, quiet]
  rw [same]
  by_cases recorded : records requestId ⟨op, r⟩ = true
  · apply inv.future
    simp [instances, recorded]
  · have unrecorded : records requestId ⟨op, r⟩ = false := Bool.not_eq_true _ ▸ recorded
    have unremoved : op ≠ .removeOngoingRequest requestId := by
      rintro rfl
      apply ongoing
      rw [ongoing_exec hexec]
      exact if_pos rfl
    rw [ongoing_unchanged hexec unrecorded unremoved] at ongoing
    simp only [instances, unrecorded]
    refine inv.untold ongoing fun k notified => ?_
    by_cases hk : i = k
    · subst hk
      exact unremoved (notified.next site)
    · refine untold k ?_
      rw [Trace.of_cons_ne _ hk]
      exact notified

/-- Each operation, under the condition, keeps the invariant of every id. -/
theorem HeldAlone.act (inv : HeldAlone requestId σ.world.state σ.trace)
    (distinct : Distinct (σ.trace.of i)) (keyed : σ.world.state.queryHandlers.Keyed)
    (site : Site parse timing job (σ.trace.of i) op) (cond : HoldsAlone σ i env op)
    (hexec : exec op env σ.world = some (r, w)) :
    HeldAlone requestId w.state ((i, ⟨op, r⟩) :: σ.trace) where
  alone := by
    intro a b ha hb
    rcases holds_act distinct site ha with ⟨rfl, reads⟩ | ⟨ha, -⟩
    · rcases holds_act distinct site hb with ⟨hb, -⟩ | ⟨hb, -⟩
      · exact hb
      · by_contra hab
        exact cond.of_reads hexec keyed reads b (Ne.symm hab) hb
    · rcases holds_act distinct site hb with ⟨rfl, reads⟩ | ⟨hb, -⟩
      · by_contra hab
        exact cond.of_reads hexec keyed reads a hab ha
      · exact inv.alone ha hb
  current := inv.current_act distinct keyed site cond hexec
  once := by
    intro inst
    unfold terminals
    split
    · rename_i told
      obtain ⟨current, none⟩ := inv.of_terminal site told.1
      rw [← told.2, current, none]
    · exact inv.once inst
  future := by
    intro inst later
    have before : instances requestId σ.trace < inst :=
      Nat.lt_of_le_of_lt (Nat.le_add_right _ _) later
    unfold terminals
    rw [inv.future before, Nat.zero_add]
    refine if_neg fun told => ?_
    rw [(inv.of_terminal site told.1).1] at told
    exact absurd told.2 (Nat.ne_of_lt before)
  untold := inv.untold_act site hexec

/-- What the law says of the removals that happened. -/
def RemovesOwn (tr : Trace Op Ret) : Prop :=
  ∀ {later i requestId} {removed : Option OngoingQueryRequest} {earlier},
    tr = later ++ (i, ⟨.removeOngoingRequest requestId, removed⟩) :: earlier → removed ≠ none →
    instanceRead requestId i earlier = instances requestId earlier

omit [Repository R] in
theorem RemovesOwn.act (own : RemovesOwn σ.trace)
    (inv : ∀ requestId, HeldAlone requestId σ.world.state σ.trace)
    (distinct : Distinct (σ.trace.of i)) (site : Site parse timing job (σ.trace.of i) op) :
    RemovesOwn ((i, ⟨op, r⟩) :: σ.trace) := by
  intro later k requestId removed earlier htr found
  rcases Trace.cons_eq_append htr with ⟨-, heq, rfl⟩ | ⟨later', -, htail⟩
  · cases heq
    exact ((inv requestId).current (distinct.released site removed).1).2
  · exact own htail found

variable {repository : R}

/-- **At most one terminal answer**, in every run in which a request is read or recorded only
while no other task holds its id. -/
theorem settledOnce_of_holdsAlone (reach : ReachIf parse timing repository HoldsAlone σ) :
    SettledOnce σ := by
  obtain ⟨-, -, inv, own⟩ := state_invariant
    (fun s tr => s.queryHandlers.Keyed ∧ (∀ i, Distinct (Trace.of tr i)) ∧
      (∀ requestId, HeldAlone requestId s tr) ∧ RemovesOwn tr) reach
    ⟨nofun, fun _ => ⟨List.nodup_nil, nofun⟩, fun _ => .initial, by simp [RemovesOwn]⟩
    fun {σ i env job op r w} site cond hexec ⟨keyed, distinct, inv, own⟩ =>
      ⟨keyed_exec hexec keyed, fun k => by
        by_cases hk : i = k
        · subst hk
          rw [Trace.of_cons_self]
          exact (distinct i).act site hexec keyed
        · rw [Trace.of_cons_ne _ hk]
          exact distinct k,
      fun requestId => (inv requestId).act (distinct i) keyed site cond hexec,
      own.act inv (distinct i) site⟩
  exact ⟨fun requestId => (inv requestId).once, fun _ _ _ _ _ => own⟩

section Scenario

open Scenario

namespace Scenario

/-- The readings of requests that are to be settled, and the recordings. -/
def readsToSettleOrRecords : Op → Bool
  | .getOngoingRequest (.answer _) => true
  | .getExpiredRequests _ => true
  | .handleQueryRequestedEvent _ => true
  | _ => false

/-- An exchange is answered, its id is used once more, and this time the timer times it out. -/
def answeredThenTimedOut : List (ServerLabel NoopSourceEventRepository) :=
  exchange ++ sendsResponse 1 ++ sendsQuery 2 ++ [Scenario.reads 0 5 [alice, bob] [], .loop 0,
    Scenario.reads 0 100 [] [request], .loop 0, turn 0, turn 0, turn 0, .loop 0]

end Scenario

/-- Two instances of one id: a session answers the first one, the timer times out the second. -/
theorem settledOnce_twoInstances :
    ∃ σ, outcome (whileOthersRest readsToSettleOrRecords) answeredThenTimedOut = some σ ∧
      terminals request 1 σ.trace = 1 ∧ terminals request 2 σ.trace = 1 ∧ SettledOnce σ := by
  have run : (outcome (whileOthersRest readsToSettleOrRecords) answeredThenTimedOut).map
      (fun σ => (terminals request 1 σ.trace, terminals request 2 σ.trace)) = some (1, 1) := by
    decide +kernel
  obtain ⟨σ, hrun, hσ⟩ := Option.map_eq_some_iff.mp run
  obtain ⟨first, second⟩ := Prod.mk.inj hσ
  refine ⟨σ, hrun, first, second, settledOnce_of_holdsAlone (reach_outcome ?_ hrun)⟩
  intro σ i env job op next checked task
  have free (this : readsToSettleOrRecords op = true) {requestId : RequestId} (j : Nat)
      (hj : j ≠ i) : ¬ Holds requestId (σ.trace.of j) := by
    obtain ⟨rest, nothing⟩ := rest_of_whileOthersRest checked task this j hj
    exact rest.not_holds nothing
  cases op with
  | getOngoingRequest why =>
    cases why with
    | answer => exact fun _ => free rfl
    | _ => trivial
  | getExpiredRequests => exact fun _ _ _ _ => free rfl
  | handleQueryRequestedEvent => exact free rfl
  | _ => trivial

/-- The responder answers while the timer times the request out: its requester is told twice. -/
theorem not_settledOnce : ¬ ∀ σ : ServerConfig NoopSourceEventRepository,
    ReachIf Scenario.parse Scenario.timing ⟨⟩ anyOp σ → SettledOnce σ := by
  intro settled
  have twice : (outcome (fun _ _ => true) ([opened, opened] ++ registers 1 alice ++
      registers 2 bob ++ [hears 2 query, turn 2, turn 2, turn 2, turn 2, turn 2, turn 2, turn 2,
        turn 2, hears 1 response, turn 1, turn 1, Scenario.reads 0 5 [alice, bob] [], .loop 0,
        Scenario.reads 0 100 [] [request], .loop 0, turn 0, turn 0, turn 1, turn 1])).map
          (fun σ => terminals request 1 σ.trace) = some 2 := by
    decide +kernel
  obtain ⟨σ, hrun, hσ⟩ := Option.map_eq_some_iff.mp twice
  have once := (settled σ (reach_anyOp hrun)).once request 1
  rw [hσ] at once
  exact absurd once (by decide)

end Scenario

end Revent
