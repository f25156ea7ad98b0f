import Revent.Laws.Tick

/-!
# Ticks and the orders of their loops

Both snapshots of a tick are taken of maps that are iterated in no particular order, and the loops
go through them as they come. A tick comes to the same whatever the orders are, if the sends fare
alike (`alike_of_ticks`). And it leaves nothing to do: a tick that looks at the same instant again
sends nothing and changes nothing (`idle_of_tick`).
-/

namespace Revent

open Interleave (Alone)

variable {R : Type}

/-- The clients, the lists, the requests and the rest of the two worlds are the same. -/
structure SameRegistry (w w' : World R) : Prop where
  clients : w'.clients = w.clients
  listed : ∀ query, w'.state.listed query = w.state.listed query
  ongoing : w'.ongoing = w.ongoing
  rest : SameRest w w'

/-- A message that is sent over the same channel in both fares the same. -/
def FareAlike (sent sent' : List (ClientId × Tx × ServerMessage × Bool)) : Prop :=
  ∀ delivery ∈ sent, ∀ delivery' ∈ sent', delivery.1 = delivery'.1 →
    delivery.2.1 = delivery'.2.1 → delivery.2.2.1 = delivery'.2.2.1 →
    delivery.2.2.2 = delivery'.2.2.2

variable {clock : Op → Instant} {timing : Timing} {w w' w₁ w₂ : World R} {h h₁ h₂ : History}
  {old old₁ old₂ : List (ClientId × Tx)} {accepts accepts₁ accepts₂ : ClientId → Bool}
  {expired expired₁ expired₂ : List OngoingQueryRequest} {told told₁ told₂ : RequestId → Bool}

/-! ## The order of a loop -/

theorem SameRest.symm (same : SameRest w w') : SameRest w' w :=
  ⟨same.repository.symm, same.cursor.symm, same.spawned.symm⟩

theorem SameRest.trans {w'' : World R} (same : SameRest w w') (same' : SameRest w' w'') :
    SameRest w w'' :=
  ⟨same'.repository.trans same.repository, same'.cursor.trans same.cursor,
    same'.spawned.trans same.spawned⟩

/-- The old clients of two ticks are the same ones. -/
theorem TickEffect.old_perm (one : TickEffect clock timing w w₁ h₁ old₁ accepts₁ expired₁ told₁)
    (other : TickEffect clock timing w w₂ h₂ old₂ accepts₂ expired₂ told₂) : old₁.Perm old₂ := by
  rw [List.perm_ext_iff_of_nodup one.old_once.of_map other.old_once.of_map]
  rintro ⟨clientId, tx⟩
  rw [one.mem_old, other.mem_old]

/-- And so are the expired requests. -/
theorem TickEffect.expired_perm
    (one : TickEffect clock timing w w₁ h₁ old₁ accepts₁ expired₁ told₁)
    (other : TickEffect clock timing w w₂ h₂ old₂ accepts₂ expired₂ told₂) :
    expired₁.Perm expired₂ := by
  rw [List.perm_ext_iff_of_nodup one.expired_once.of_map other.expired_once.of_map]
  intro request
  rw [one.mem_expired, other.mem_expired]

theorem TickEffect.mem_sent (effect : TickEffect clock timing w w' h old accepts expired told)
    (delivery : ClientId × Tx × ServerMessage × Bool) : delivery ∈ deliveries h ↔
      delivery ∈ heartbeats old accepts ∨ delivery ∈ timeouts w' expired told := by
  rw [← List.mem_reverse, effect.sent, List.mem_append]

/-- Clients that fare alike accept alike. -/
theorem accepts_alike (one : TickEffect clock timing w w₁ h₁ old₁ accepts₁ expired₁ told₁)
    (other : TickEffect clock timing w w₂ h₂ old₂ accepts₂ expired₂ told₂)
    (alike : FareAlike (deliveries h₁) (deliveries h₂)) {clientId : ClientId}
    (mem : clientId ∈ old₁.map (·.1)) : accepts₁ clientId = accepts₂ clientId := by
  obtain ⟨⟨clientId, tx⟩, among, rfl⟩ := List.mem_map.mp mem
  have among' := (one.old_perm other).mem_iff.mp among
  have sent := (one.mem_sent _).mpr (Or.inl (List.mem_map.mpr ⟨_, among, rfl⟩))
  have sent' := (other.mem_sent _).mpr (Or.inl (List.mem_map.mpr ⟨_, among', rfl⟩))
  exact alike _ sent _ sent' rfl rfl rfl

/-- The clients that are left are the same ones. -/
theorem clients_alike (one : TickEffect clock timing w w₁ h₁ old₁ accepts₁ expired₁ told₁)
    (other : TickEffect clock timing w w₂ h₂ old₂ accepts₂ expired₂ told₂)
    (alike : FareAlike (deliveries h₁) (deliveries h₂)) : w₂.clients = w₁.clients := by
  have same {clientId : ClientId} := ((one.old_perm other).map (·.1)).mem_iff (a := clientId)
  refine Std.ExtTreeMap.ext_getElem? fun clientId => ?_
  rw [one.clients, other.clients]
  unfold beatClients
  by_cases mem : clientId ∈ old₁.map (·.1)
  · rw [if_pos mem, if_pos (same.mp mem), accepts_alike one other alike mem]
  · rw [if_neg mem, if_neg fun mem' => mem (same.mpr mem')]

/-- The requests that are left are the same ones. -/
theorem ongoing_alike (one : TickEffect clock timing w w₁ h₁ old₁ accepts₁ expired₁ told₁)
    (other : TickEffect clock timing w w₂ h₂ old₂ accepts₂ expired₂ told₂) :
    w₂.ongoing = w₁.ongoing := by
  refine Std.ExtTreeMap.ext_getElem? fun requestId => ?_
  have left : w₂.state.ongoing requestId = w₁.state.ongoing requestId := by
    rw [one.ongoing, other.ongoing]
    simp only [((one.expired_perm other).map (·.requestId)).mem_iff]
  exact left

/-- What is sent is the same, in some order. -/
theorem sent_alike (one : TickEffect clock timing w w₁ h₁ old₁ accepts₁ expired₁ told₁)
    (other : TickEffect clock timing w w₂ h₂ old₂ accepts₂ expired₂ told₂)
    (alike : FareAlike (deliveries h₁) (deliveries h₂)) :
    (deliveries h₁).Perm (deliveries h₂) := by
  have beats : (heartbeats old₁ accepts₁).Perm (heartbeats old₂ accepts₂) := by
    have same : heartbeats old₁ accepts₁ = heartbeats old₁ accepts₂ := by
      refine List.map_congr_left fun entry mem => ?_
      rw [accepts_alike one other alike (List.mem_map_of_mem mem)]
    rw [same]
    exact (one.old_perm other).map _
  have outs : (timeouts w₁ expired₁ told₁).Perm (timeouts w₂ expired₂ told₂) := by
    have same : timeouts w₁ expired₁ told₁ = timeouts w₁ expired₁ told₂ := by
      refine List.filterMap_congr fun request mem => ?_
      cases connected : w₁.state.txOf request.requester with
      | none => rfl
      | some tx =>
        have sends (told : RequestId → Bool) {expired : List OngoingQueryRequest}
            (mem : request ∈ expired) : (request.requester, tx,
              .queryTimedOut request.requestId request.queryId, told request.requestId) ∈
                timeouts w₁ expired told :=
          List.mem_filterMap.mpr ⟨request, mem, by rw [connected, Option.map_some]⟩
        have mem' := (one.expired_perm other).mem_iff.mp mem
        have fares : told₁ request.requestId = told₂ request.requestId := by
          have sent := (one.mem_sent _).mpr (Or.inr (sends told₁ mem))
          have among := sends told₂ mem'
          rw [timeouts_congr (clients_alike one other alike).symm] at among
          exact alike _ sent _ ((other.mem_sent _).mpr (Or.inr among)) rfl rfl rfl
        rw [Option.map_some, Option.map_some, fares]
    rw [same, timeouts_congr (clients_alike one other alike).symm]
    exact (one.expired_perm other).filterMap _
  have both := beats.append outs
  rw [← one.sent, ← other.sent] at both
  exact (List.reverse_perm _).symm.trans (both.trans (List.reverse_perm _))

variable [Repository R]

/-- **The orders of the loops do not matter**: two ticks from the same state whose sends fare alike
send the same and leave the same state. -/
theorem alike_of_ticks (keyed : w.state.queryHandlers.Keyed)
    (run₁ : Alone (atClock clock) (timerTick timing) w [] () w₁ h₁)
    (run₂ : Alone (atClock clock) (timerTick timing) w [] () w₂ h₂)
    (alike : FareAlike (deliveries h₁) (deliveries h₂)) :
    (deliveries h₁).Perm (deliveries h₂) ∧ SameRegistry w₁ w₂ := by
  obtain ⟨old₁, accepts₁, expired₁, told₁, one⟩ :=
    (timerTick_loops keyed).elim run₁ (timerTick_rest.elim run₁)
  obtain ⟨old₂, accepts₂, expired₂, told₂, other⟩ :=
    (timerTick_loops keyed).elim run₂ (timerTick_rest.elim run₂)
  refine ⟨sent_alike one other alike, clients_alike one other alike, fun query => ?_,
    ongoing_alike one other, one.rest.symm.trans other.rest⟩
  have same {clientId : ClientId} := ((one.old_perm other).map (·.1)).mem_iff (a := clientId)
  rw [one.listed, other.listed]
  refine List.filter_congr fun clientId _ => ?_
  by_cases mem : clientId ∈ old₁.map (·.1)
  · simp only [mem, same.mp mem, accepts_alike one other alike mem]
  · have mem' : clientId ∉ old₂.map (·.1) := fun mem' => mem (same.mpr mem')
    simp only [mem, mem', false_and]

/-! ## Nothing is left to do -/

omit [Repository R] in
/-- After a tick no client is old at that instant. -/
theorem not_isOld_of_tick {now : Instant} {clientId : ClientId} {info : ClientInfo}
    (effect : TickEffect (fun _ => now) timing w w' h old accepts expired told)
    (found : w'.clients[clientId]? = some info) : ¬ IsOld (fun _ => now) timing info := by
  rw [effect.clients] at found
  unfold beatClients at found
  by_cases mem : clientId ∈ old.map (·.1)
  · rw [if_pos mem] at found
    split at found
    · obtain ⟨before, -, rfl⟩ := Option.map_eq_some_iff.mp found
      show ¬ now - now > _
      rw [Nat.sub_self]
      exact Nat.not_lt_zero _
    · cases found
  · rw [if_neg mem] at found
    intro is_old
    have mem_old := (effect.mem_old clientId info.tx).mpr ⟨info, found, rfl, is_old⟩
    exact mem (List.mem_map_of_mem mem_old)

omit [Repository R] in
/-- And no request is expired. -/
theorem not_isExpired_of_tick {now : Instant} {request : OngoingQueryRequest}
    (effect : TickEffect (fun _ => now) timing w w' h old accepts expired told)
    (found : w'.state.ongoing request.requestId = some request) :
    ¬ IsExpired (fun _ => now) timing request := by
  rw [effect.ongoing] at found
  split at found
  · cases found
  · rename_i notMem
    intro is_expired
    have mem := (effect.mem_expired request).mpr ⟨found, is_expired⟩
    exact notMem (List.mem_map_of_mem mem)

/-- **A tick leaves nothing to do**: another one at the same instant sends nothing and changes
nothing. -/
theorem idle_of_tick {now : Instant} (keyed : w.state.queryHandlers.Keyed)
    (run : Alone (atClock fun _ => now) (timerTick timing) w [] () w₁ h₁)
    (again : Alone (atClock fun _ => now) (timerTick timing) w₁ [] () w₂ h₂) :
    deliveries h₂ = [] ∧ SameRegistry w₁ w₂ := by
  obtain ⟨old₁, accepts₁, expired₁, told₁, effect⟩ :=
    (timerTick_loops keyed).elim run (timerTick_rest.elim run)
  have keyed₁ : w₁.state.queryHandlers.Keyed := by
    intro requestId request found
    have left : w₁.state.ongoing requestId = some request := found
    rw [effect.ongoing] at left
    split at left
    · cases left
    · exact keyed requestId request left
  obtain ⟨old₂, accepts₂, expired₂, told₂, after⟩ :=
    (timerTick_loops keyed₁).elim again (timerTick_rest.elim again)
  have nobody : old₂ = [] := by
    rw [List.eq_nil_iff_forall_not_mem]
    rintro ⟨clientId, tx⟩ mem
    obtain ⟨info, found, -, is_old⟩ := (after.mem_old clientId tx).mp mem
    exact not_isOld_of_tick effect found is_old
  have none_expired : expired₂ = [] := by
    rw [List.eq_nil_iff_forall_not_mem]
    intro request mem
    obtain ⟨found, is_expired⟩ := (after.mem_expired request).mp mem
    exact not_isExpired_of_tick effect found is_expired
  subst nobody none_expired
  refine ⟨List.reverse_eq_nil_iff.mp after.sent, ?_, fun query => ?_, ?_, after.rest⟩
  · refine Std.ExtTreeMap.ext_getElem? fun clientId => ?_
    rw [after.clients]
    rfl
  · rw [after.listed]
    simp [withoutLost]
  · refine Std.ExtTreeMap.ext_getElem? fun requestId => ?_
    exact after.ongoing requestId

section Scenario

open Scenario

/-- A tick at the instant 100 that goes through the clients in this order; of these only `alice`
accepts its heartbeat. -/
def Scenario.tickInOrder (clients : List ClientId) (w : World NoopSourceEventRepository) :
    Option (World NoopSourceEventRepository × History) :=
  let beats (client : ClientId) : List (Env NoopSourceEventRepository) :=
    if client = alice then [lateStep true, lateStep true]
    else lateStep false :: List.replicate 3 (lateStep true)
  ((timerTick Scenario.timing).play (atClock fun _ => 100)
    ({ lateStep true with clientOrder := clients } :: clients.flatMap beats ++
      List.replicate 4 (lateStep true)) w []).map (·.2)

omit [Repository R] in
theorem Scenario.alone_of_tickInOrder {clients : List ClientId}
    {w w' : World NoopSourceEventRepository} {h : History}
    (ticked : tickInOrder clients w = some (w', h)) :
    Alone (atClock fun _ => 100) (timerTick Scenario.timing) w [] () w' h := by
  obtain ⟨⟨u, after⟩, played, heq⟩ := Option.map_eq_some_iff.mp ticked
  cases heq
  exact Interleave.alone_of_play played

/-- The message is a heartbeat. -/
def Scenario.isHeartbeat : ServerMessage → Bool
  | .heartbeat => true
  | _ => false

/-- A test that is stronger than faring alike: the heartbeats and the timeouts of a client do. -/
def Scenario.faresAlike (sent sent' : List (ClientId × Tx × ServerMessage × Bool)) : Bool :=
  sent.all fun delivery => sent'.all fun delivery' =>
    delivery.1 ≠ delivery'.1 || isHeartbeat delivery.2.2.1 != isHeartbeat delivery'.2.2.1 ||
      delivery.2.2.2 == delivery'.2.2.2

theorem Scenario.fareAlike_of_faresAlike {sent sent' : List (ClientId × Tx × ServerMessage × Bool)}
    (passed : faresAlike sent sent' = true) : FareAlike sent sent' := by
  intro delivery mem delivery' mem' client _ msg
  have fares := List.all_eq_true.mp (List.all_eq_true.mp passed delivery mem) delivery' mem'
  simpa [client, msg] using fares

/-- Two clients and a request of the first one. -/
def Scenario.twoOldClients : Option (World NoopSourceEventRepository) :=
  (handled [registering alice 0, registering bob 1, requesting alice]).map (·.2)

omit [Repository R] in
theorem Scenario.keyed_of_twoOldClients {w : World NoopSourceEventRepository}
    (made : twoOldClients = some w) : w.state.queryHandlers.Keyed := by
  obtain ⟨done, calls, rfl⟩ := Option.map_eq_some_iff.mp made
  exact keyed_of_sequentialRun (Interleave.sequential_of_playCalls .start calls)

omit [Repository R] in
/-- The two orders of two clients: what is sent comes in another order. -/
theorem alike_tickIn : ∃ (w₁ w₂ : World NoopSourceEventRepository) (h₁ h₂ : History),
    (deliveries h₁).map (·.1) ≠ (deliveries h₂).map (·.1) ∧
      (deliveries h₁).Perm (deliveries h₂) ∧ SameRegistry w₁ w₂ := by
  have run : twoOldClients.bind (fun w => (tickInOrder [alice, bob] w).bind fun one =>
      (tickInOrder [bob, alice] w).map fun other =>
        (decide ((deliveries one.2).map (·.1) ≠ (deliveries other.2).map (·.1)),
          faresAlike (deliveries one.2) (deliveries other.2))) = some (true, true) := by
    decide +kernel
  obtain ⟨w, made, run⟩ := Option.bind_eq_some_iff.mp run
  obtain ⟨⟨w₁, h₁⟩, one, run⟩ := Option.bind_eq_some_iff.mp run
  obtain ⟨⟨w₂, h₂⟩, other, facts⟩ := Option.map_eq_some_iff.mp run
  obtain ⟨differ, alike⟩ := Prod.mk.inj facts
  exact ⟨w₁, w₂, h₁, h₂, of_decide_eq_true differ, alike_of_ticks (keyed_of_twoOldClients made)
    (alone_of_tickInOrder one) (alone_of_tickInOrder other) (fareAlike_of_faresAlike alike)⟩

omit [Repository R] in
/-- The same tick, and another one at its instant that finds nobody old. -/
theorem idle_tickIn : ∃ (w₁ w₂ : World NoopSourceEventRepository) (h₁ h₂ : History),
    deliveries h₁ ≠ [] ∧ deliveries h₂ = [] ∧ SameRegistry w₁ w₂ := by
  have run : twoOldClients.bind (fun w => (tickInOrder [alice, bob] w).bind fun one =>
      ((timerTick Scenario.timing).play (atClock fun _ => 100)
        [{ lateStep true with clientOrder := [alice] }, { lateStep true with requestOrder := [] }]
        one.1 []).map fun _ => (deliveries one.2).isEmpty) = some false := by
    decide +kernel
  obtain ⟨w, made, run⟩ := Option.bind_eq_some_iff.mp run
  obtain ⟨⟨w₁, h₁⟩, ticked, run⟩ := Option.bind_eq_some_iff.mp run
  obtain ⟨⟨u, w₂, h₂⟩, again, sends⟩ := Option.map_eq_some_iff.mp run
  have sends : deliveries h₁ ≠ [] := List.isEmpty_eq_false_iff.mp sends
  exact ⟨w₁, w₂, h₁, h₂, sends, idle_of_tick (keyed_of_twoOldClients made)
    (alone_of_tickInOrder ticked) (Interleave.alone_of_play again)⟩

end Scenario

end Revent
