import Revent.Laws.Sites

/-!
# The control flow of the server

Each handler keeps to the call sites, by the rules of `Prog.Flows`: one lemma for each function
of the source, in the order they call one another. `Kept` is the outcome for the whole server:
in every reachable configuration the next operation of a task is at a `Site`, and a finished
pass is at one of the `Ends`.
-/

namespace Revent

open Interleave (Event Prog Machine Config Task)

variable {parse : String → Option Uuid} {timing : Timing} {job : Job} {h : History}

/-- The end of a handler that leaves the task's memory as it was. -/
abbrev Kept (h h' : History) : Prop := AtRest h' ∧ memory h' = memory h

/-! ## The handlers -/

theorem handleRegisterClientMessage_flows {msg : RegisterClientMessage}
    (hand : Handed parse job h (.registerClient msg)) :
    (handleRegisterClientMessage msg).Flows (Site parse timing job)
      (fun h' _ => RegisterOutcome msg h h') (begun (.registerClient msg) h) := by
  refine Prog.flows_act.mpr ⟨.registering hand, fun found => ?_⟩
  cases found with
  | some info => exact ⟨.rejecting hand, fun _ => .rejected⟩
  | none =>
    refine ⟨.acknowledging hand, fun sent => ?_⟩
    cases sent with
    | error err => exact .unsent
    | ok _ => exact ⟨.inserting hand, fun _ => ⟨.adding hand, fun _ => .accepted⟩⟩

/-- Telling the requester is the last `await` of a handler, if there is a requester to tell. -/
theorem tellRequester_flows {msg : QueryRequestMessage} {requester : Option ClientInfo}
    {serverMessage : ServerMessage} {ends : History → Unit → Prop}
    (gone : requester = none → ends h ())
    (told : ∀ info sent, requester = some info →
      ends (⟨.send msg.requester info.tx serverMessage, sent⟩ :: h) ())
    (site : ∀ info, requester = some info →
      Site parse timing job h (.send msg.requester info.tx serverMessage)) :
    (tellRequester msg requester serverMessage).Flows (Site parse timing job) ends h := by
  cases requester with
  | none => exact gone rfl
  | some info => exact ⟨site info rfl, fun sent => told info sent rfl⟩

theorem handleQueryRequestMessage_flows {msg : QueryRequestMessage}
    (hand : Handed parse job h (.queryRequest msg)) :
    (handleQueryRequestMessage msg).Flows (Site parse timing job)
      (fun h' _ => Kept h h') (begun (.queryRequest msg) h) := by
  refine Prog.flows_act.mpr ⟨.requester hand, fun requester => ?_⟩
  refine ⟨.duplicate hand, fun current => ?_⟩
  cases current with
  | some current =>
    show Prog.Flows _ _ _ (if current.isSame msg then _ else tellRequester msg requester _)
    split
    · rename_i same
      refine ⟨?_, rfl⟩
      simp only [AtRest, goesOn, same, Bool.not_true, Bool.false_and]
    · rename_i other
      refine tellRequester_flows ?_ (fun _ sent _ => ?_) ?_
      · rintro rfl
        exact ⟨Bool.and_false _, rfl⟩
      · cases sent <;> exact ⟨rfl, rfl⟩
      · rintro info rfl
        exact .duplicated hand (Bool.not_eq_true _ ▸ other)
  | none =>
    refine ⟨.selecting hand, fun selected => ?_⟩
    cases selected with
    | error err =>
      cases err with
      | queryHandlerNotFound =>
        refine tellRequester_flows (fun _ => ⟨rfl, rfl⟩) (fun _ sent _ => ?_) ?_
        · cases sent <;> exact ⟨rfl, rfl⟩
        · rintro info rfl
          exact .unhandled hand
      | responderNotFound => exact ⟨rfl, rfl⟩
    | ok selected =>
      refine ⟨.responder hand, fun responder => ?_⟩
      cases responder with
      | none => exact ⟨rfl, rfl⟩
      | some responder =>
        refine ⟨.forwarding hand, fun sent => ?_⟩
        cases sent with
        | error err =>
          refine tellRequester_flows (fun _ => ⟨rfl, rfl⟩) (fun _ sent _ => ?_) ?_
          · cases sent <;> exact ⟨rfl, rfl⟩
          · rintro info rfl
            exact .unsent hand
        | ok _ => exact ⟨.stamping hand, fun _ => ⟨.recording hand, fun _ => ⟨rfl, rfl⟩⟩⟩

theorem settle_flows (answer : Answer) (hand : Handed parse job h answer.clientMessage) :
    (settle answer).Flows (Site parse timing job) (fun h' _ => Kept h h')
      (begun answer.clientMessage h) := by
  refine Prog.flows_act.mpr ⟨.reading rfl hand, fun request => ?_⟩
  cases request with
  | none => cases answer <;> exact ⟨rfl, rfl⟩
  | some request =>
    refine ⟨.answering rfl hand, fun requester => ?_⟩
    cases requester with
    | none => cases answer <;> exact ⟨rfl, rfl⟩
    | some info =>
      refine ⟨.answer rfl rfl hand, fun sent => ?_⟩
      cases sent with
      | error err => cases answer <;> exact ⟨rfl, rfl⟩
      | ok _ =>
        refine ⟨.answered rfl rfl hand, fun _ => ?_⟩
        cases answer <;> exact ⟨rfl, rfl⟩

theorem handleRegisterSourceEventMessage_flows {msg : RegisterSourceEventMessage}
    (hand : Handed parse job h (.registerSourceEvent msg)) :
    (handleRegisterSourceEventMessage msg).Flows (Site parse timing job)
      (fun h' _ => Kept h h') (begun (.registerSourceEvent msg) h) := by
  refine Prog.flows_act.mpr ⟨.saving hand, fun saved => ?_⟩
  cases saved with
  | error err => exact ⟨rfl, rfl⟩
  | ok event =>
    refine ⟨.source hand, fun source => ?_⟩
    cases source with
    | none => exact ⟨rfl, rfl⟩
    | some info => exact ⟨.saved hand, fun _ => ⟨.spawning hand, fun _ => ⟨rfl, rfl⟩⟩⟩

theorem handleDisconnectedClientMessage_flows {clientId : ClientId}
    (hand : Handed parse job h (.disconnectClient clientId)) :
    (handleDisconnectedClientMessage clientId).Flows (Site parse timing job)
      (fun h' _ => Handled h (.disconnectClient clientId) h')
      (begun (.disconnectClient clientId) h) :=
  Prog.flows_act.mpr ⟨.removing hand, fun _ => ⟨.disconnecting hand, fun _ => .disconnect⟩⟩

/-- `handle_message` keeps to the call sites, for every message a task may hand to it. -/
theorem handleMessage_flows {msg : ClientMessage} (hand : Handed parse job h msg) :
    (handleMessage msg).Flows (Site parse timing job) (fun h' _ => Handled h msg h') h := by
  have kept {h' : History} (other : ∀ m, msg ≠ .registerClient m)
      (live : ∀ clientId, msg ≠ .disconnectClient clientId) (kept : Kept h h') :
      Handled h msg h' := .other other live kept.1 kept.2
  refine Prog.flows_act.mpr ⟨.handle hand, fun _ => ?_⟩
  cases msg with
  | registerClient msg =>
    exact (handleRegisterClientMessage_flows hand).mono fun _ _ => .register
  | queryRequest msg =>
    exact (handleQueryRequestMessage_flows hand).mono fun _ _ => kept nofun nofun
  | queryResponse msg =>
    exact (settle_flows (.response msg) hand).mono fun _ _ => kept nofun nofun
  | queryHandlingFailed msg =>
    exact (settle_flows (.failed msg) hand).mono fun _ _ => kept nofun nofun
  | registerSourceEvent msg =>
    exact (handleRegisterSourceEventMessage_flows hand).mono fun _ _ => kept nofun nofun
  | heartbeat clientId => exact kept nofun nofun ⟨rfl, rfl⟩
  | disconnectClient clientId => exact handleDisconnectedClientMessage_flows hand

theorem Handled.atRest {msg : ClientMessage} {h' : History} (handled : Handled h msg h') :
    AtRest h' := by
  cases handled with
  | register outcome =>
    cases outcome with
    | @rejected _ sent => cases sent <;> rfl
    | unsent | accepted => rfl
  | disconnect => rfl
  | other _ _ rest => exact rest

/-- However a registration ends, the task goes on as the client. -/
theorem RegisterOutcome.memory {msg : RegisterClientMessage} {h' : History}
    (outcome : RegisterOutcome msg h h') :
    memory h' = ⟨some (msg.clientId, msg.tx), unreachable h, toVisit h, toExpire h⟩ := by
  cases outcome <;> rfl

/-! ## The loops -/

theorem endSession_flows {tx : Tx} {opt : Option ClientId} {received : Received}
    (ready : Ready (.session tx opt) h) :
    (endSession opt).Flows (Site parse timing (.session tx opt))
      (Ends (.session tx opt)) (⟨.receive, received⟩ :: h) := by
  cases opt with
  | none => exact .stop rfl
  | some clientId =>
    refine (handleMessage_flows (.closed ready)).bind fun h' _ handled => ?_
    exact .stop handled.atRest

theorem openSession_flows {tx : Tx} {opt : Option ClientId} (ready : Ready (.session tx opt) h) :
    (openSession parse tx opt).Flows (Site parse timing (.session tx opt))
      (Ends (.session tx opt)) h := by
  refine Prog.flows_act.mpr ⟨.receive ready, fun received => ?_⟩
  cases received with
  | closed => exact endSession_flows ready
  | message payload =>
    cases payload with
    | none => exact .goOn ⟨rfl, ready.memory⟩
    | some payload =>
      dsimp only [Prog.bind]
      split
      · rename_i msg decode
        refine (handleMessage_flows (.decoded ready decode)).bind fun h' _ handled => ?_
        refine .goOn ⟨handled.atRest, ?_⟩
        rcases ClientMessage.ofProto_cases decode with ⟨m, rfl, rfl⟩ | ⟨source, rfl, src, live⟩
        · cases handled with
          | register outcome =>
            obtain ⟨-, hdead, hvisit, hexpire⟩ := memory_eq_iff.mp ready.memory
            obtain ⟨id, dead, visit, expire⟩ := memory_eq_iff.mp outcome.memory
            refine memory_eq_iff.mpr ⟨id, ?_, ?_, ?_⟩
            · exact dead.trans hdead
            · exact visit.trans hvisit
            · exact expire.trans hexpire
          | other other => exact absurd rfl (other m)
        · cases handled with
          | register => cases src
          | disconnect => exact absurd rfl (live _)
          | other other _ rest same =>
            have keeps : nextClientId (some source) msg = some source := by
              cases msg with
              | registerClient m => exact absurd rfl (other m)
              | _ => rfl
            rw [keeps, same]
            exact ready.memory
      · exact endSession_flows ready
      · exact .stop rfl

theorem heartbeat_flows {clientId : ClientId} {tx : Tx} {txs : List (ClientId × Tx)}
    (ready : Ready (.heartbeats ((clientId, tx) :: txs)) h) :
    (heartbeat clientId tx).Flows (Site parse timing (.heartbeats ((clientId, tx) :: txs)))
      (fun h' _ => Ready (.heartbeats txs) h') h := by
  obtain ⟨hid, hdead, hvisit, hexpire⟩ := memory_eq_iff.mp ready.memory
  have visits : (toVisit h).tail = txs := by simp only [hvisit, Job.memory, List.tail_cons]
  refine Prog.flows_act.mpr ⟨.heartbeat ready, fun sent => ?_⟩
  cases sent with
  | ok _ =>
    refine (handleMessage_flows (.alive ready)).mono fun _ _ handled => ⟨handled.atRest, ?_⟩
    cases handled with
    | other _ _ _ same =>
      rw [same]
      exact memory_eq_iff.mpr ⟨hid, hdead, visits, hexpire⟩
  | error err =>
    refine (handleMessage_flows (.dead ready)).mono fun _ _ handled => ⟨handled.atRest, ?_⟩
    cases handled with
    | disconnect => exact memory_eq_iff.mpr ⟨rfl, rfl, visits, hexpire⟩
    | other _ live => exact absurd rfl (live _)

theorem expire_flows {request : OngoingQueryRequest} {requests : List OngoingQueryRequest}
    (ready : Ready (.expiredRequests (request :: requests)) h) :
    (expire request).Flows (Site parse timing (.expiredRequests (request :: requests)))
      (fun h' _ => Ready (.expiredRequests requests) h') h := by
  obtain ⟨hid, hdead, hvisit, hexpire⟩ := memory_eq_iff.mp ready.memory
  have expires : (toExpire h).tail = requests := by simp only [hexpire, Job.memory, List.tail_cons]
  refine Prog.flows_act.mpr ⟨.timingOut ready, fun requester => ?_⟩
  cases requester with
  | none =>
    refine ⟨.timedOutGone ready, fun _ => ⟨rfl, ?_⟩⟩
    exact memory_eq_iff.mpr ⟨hid, hdead, hvisit, expires⟩
  | some info =>
    refine ⟨.timeOut ready, fun _ => ⟨.timedOut ready, fun _ => ⟨rfl, ?_⟩⟩⟩
    exact memory_eq_iff.mpr ⟨hid, hdead, hvisit, expires⟩

/-- The sends of a broadcast, from any point of its loop. -/
theorem broadcastSends_flows {event : SourceEvent} {clients : List (ClientId × ClientInfo)}
    (ready : Ready (.broadcast event) h) (read : ⟨.readClients event, clients⟩ ∈ h)
    {entries : List (ClientId × ClientInfo)} (visited : entries ⊆ clients) :
    (entries.forM fun entry => doing (.send entry.1 entry.2.tx (.sourceEvent event))).Flows
      (Site parse timing (.broadcast event)) (fun h' _ => Ready (.broadcast event) h') h := by
  induction entries generalizing h with
  | nil => exact ready
  | cons entry entries ih =>
    obtain ⟨mem, visited⟩ := List.cons_subset.mp visited
    refine Prog.flows_act.mpr ⟨.broadcasting ready read mem, fun sent => ?_⟩
    exact ih ⟨by cases sent <;> rfl, ready.memory⟩ (List.mem_cons_of_mem _ read) visited

theorem broadcast_flows {event : SourceEvent} (ready : Ready (.broadcast event) h) :
    (broadcast event).Flows (Site parse timing (.broadcast event)) (fun h' _ => AtRest h') h := by
  refine Prog.flows_act.mpr ⟨.readClients ready, fun clients => ?_⟩
  have read : Ready (.broadcast event) (⟨.readClients event, clients⟩ :: h) := ⟨rfl, ready.memory⟩
  refine (broadcastSends_flows read List.mem_cons_self (List.Subset.refl clients)).bind ?_
  exact fun h' _ ready => ⟨.dropClients ready, fun _ => rfl⟩

/-- One pass of any loop keeps to the call sites, and leaves at one of the ends. -/
theorem boot_flows (ready : Ready job h) :
    (boot parse timing job).Flows (Site parse timing job) (Ends job) h := by
  cases job with
  | session tx opt => exact openSession_flows ready
  | tick =>
    refine Prog.flows_act.mpr ⟨.oldClients ready, fun txs => .goOn ⟨rfl, ?_⟩⟩
    obtain ⟨hid, hdead, -, hexpire⟩ := memory_eq_iff.mp ready.memory
    exact memory_eq_iff.mpr ⟨hid, hdead, rfl, hexpire⟩
  | heartbeats txs =>
    cases txs with
    | nil =>
      refine Prog.flows_act.mpr ⟨.getExpiredRequests ready, fun requests => .goOn ⟨rfl, ?_⟩⟩
      obtain ⟨hid, hdead, hvisit, -⟩ := memory_eq_iff.mp ready.memory
      exact memory_eq_iff.mpr ⟨hid, hdead, hvisit, rfl⟩
    | cons entry txs => exact (heartbeat_flows ready).bind fun _ _ => .goOn
  | expiredRequests requests =>
    cases requests with
    | nil => exact .goOn ⟨ready.rest, ready.memory⟩
    | cons request requests => exact (expire_flows ready).bind fun _ _ => .goOn
  | broadcast event => exact (broadcast_flows ready).bind fun _ _ => .stop

/-! ## Every reachable configuration -/

section Reach

variable {R : Type} [Repository R] {ok : ServerConfig R → ServerLabel R → Prop} {repository : R}
  {σ : ServerConfig R}

/-- What the passes of the loops keep to, from a history that is ready for them, the tasks of every
reachable configuration keep to. -/
theorem flowing_of_boot {site : Job → History → Op → Prop}
    {ends : Job → History → Option Job → Prop}
    (hboot : ∀ job h, Ready job h → (boot parse timing job).Flows (site job) (ends job) h)
    (hends : ∀ job h job', ends job h (some job') → Ready job' h)
    (reach : (server R parse timing).Reach ok (initial parse timing repository) σ) :
    Machine.Flowing site ends σ := by
  refine Machine.flows_reach hboot hends ?_ ⟨?_, by simp [initial]⟩ reach
  · intro x w w' job hx
    cases x with
    | openSession => cases hx; exact ⟨rfl, rfl⟩
    | startBroadcast place =>
      obtain ⟨event, -, heq⟩ := Option.map_eq_some_iff.mp hx
      cases heq
      exact ⟨rfl, rfl⟩
    | read tx => cases hx
  · intro i t ht
    obtain ⟨rfl, rfl⟩ := task_of_initial ht
    exact hboot .tick [] ⟨rfl, rfl⟩

/-- **The tasks of every reachable configuration keep to the call sites and the ends.** -/
theorem flowing (reach : (server R parse timing).Reach ok (initial parse timing repository) σ) :
    Machine.Flowing (Site parse timing) Ends σ := by
  refine flowing_of_boot (fun _ _ => boot_flows) ?_ reach
  rintro job h job' ⟨ready⟩
  exact ready

omit [Repository R] in
theorem site_of_act {i : Nat} {op : Op} {next : Ret op → Async (Option Job)}
    (flowing : Machine.Flowing (Site parse timing) Ends σ)
    (task : σ.tasks[i]? = some ⟨job, .act op next⟩) : Site parse timing job (σ.trace.of i) op :=
  (flowing.flows i _ task).1

omit [Repository R] in
theorem ends_of_done {i : Nat} {next : Option Job}
    (flowing : Machine.Flowing (Site parse timing) Ends σ)
    (task : σ.tasks[i]? = some ⟨job, .done next⟩) : Ends job (σ.trace.of i) next :=
  flowing.flows i _ task

omit [Repository R] in
/-- A task in the middle of a handler goes on with an operation. -/
theorem act_of_middle {i : Nat} {prog : Async (Option Job)}
    (flowing : Machine.Flowing (Site parse timing) Ends σ)
    (task : σ.tasks[i]? = some ⟨job, prog⟩) (middle : goesOn (σ.trace.of i) = true) :
    ∃ op next, prog = .act op next ∧ Site parse timing job (σ.trace.of i) op := by
  cases prog with
  | act op next => exact ⟨op, next, rfl, site_of_act flowing task⟩
  | done next => exact (ends_of_done flowing task).elim middle

end Reach

end Revent
