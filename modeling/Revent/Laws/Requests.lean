import Revent.Laws.Effects

/-!
# The life of a request id

A query request is looked up, forwarded and recorded in separate sections, and it is settled by
handlers that read it, tell the requester, and remove it in separate sections. This module names
the points a task can be at with a request id, and says how a task gets from one to the next.
`forwardedTo` reads off the trace which responder a request id was forwarded to and not settled
since.
-/

namespace Revent

open Interleave (Event Trace Prog Machine Config Task)

/-! ## The points of a task -/

/-- `QueryRequested` was sent to the client for the id, and the request is not recorded yet. -/
inductive SentTo (requestId : RequestId) (client : ClientId) : History → Prop
  | sent {tx : Tx} {msg : QueryRequestedMessage} {h : History} (id : msg.requestId = requestId) :
      SentTo requestId client (⟨.send client tx (.queryRequested msg), .ok ()⟩ :: h)
  | stamped {msg : QueryRequestMessage} {now : Instant} {h : History}
      (id : msg.requestId = requestId) : SentTo requestId client (⟨.now client msg, now⟩ :: h)

/-- `QueryRequested` was sent for the id, and the request is not recorded yet. -/
def Sent (requestId : RequestId) (h : History) : Prop := ∃ client, SentTo requestId client h

/-- The check for a duplicate found none, and `QueryRequested` is not sent yet. -/
inductive Checked (requestId : RequestId) : History → Prop
  | checked {msg : QueryRequestMessage} {h : History} (id : msg.requestId = requestId) :
      Checked requestId (⟨.getOngoingRequest (.duplicate msg), none⟩ :: h)
  | selected {msg : QueryRequestMessage} {responder : ClientId} {h : History}
      (id : msg.requestId = requestId) :
      Checked requestId (⟨.getClientIdForQueryId msg, .ok responder⟩ :: h)
  | found {msg : QueryRequestMessage} {responder : ClientId} {info : ClientInfo} {h : History}
      (id : msg.requestId = requestId) :
      Checked requestId (⟨.getClientById (.responder responder msg), some info⟩ :: h)

/-- The task forwards the id: the check found no duplicate, and the request is not recorded yet. -/
def Forwarding (requestId : RequestId) (h : History) : Prop :=
  Checked requestId h ∨ Sent requestId h

/-- The requester was told the outcome by an answer's handler, and the request is not removed
yet. -/
inductive Settling (requestId : RequestId) : History → Prop
  | responded {client : ClientId} {tx : Tx} {msg : QueryRespondedMessage} {h : History}
      (id : msg.requestId = requestId) :
      Settling requestId (⟨.send client tx (.queryResponded msg), .ok ()⟩ :: h)
  | failed {client : ClientId} {tx : Tx} {queryId : QueryId} {reason : QueryHandlingFailedReason}
      {h : History} :
      Settling requestId
        (⟨.send client tx (.queryRequestedFailed requestId queryId (.handlingError reason)),
          .ok ()⟩ :: h)

/-- An answer's handler read the request and has not removed it yet. -/
inductive Answering (requestId : RequestId) : History → Prop
  | read {answer : Answer} {request : OngoingQueryRequest} {h : History}
      (id : answer.requestId = requestId) :
      Answering requestId (⟨.getOngoingRequest (.answer answer), some request⟩ :: h)
  | found {answer : Answer} {request : OngoingQueryRequest} {info : ClientInfo} {h : History}
      (id : answer.requestId = requestId) :
      Answering requestId (⟨.getClientById (.answering request answer), some info⟩ :: h)
  | settling {h : History} (settling : Settling requestId h) : Answering requestId h

/-- The timer is timing the request out. -/
inductive TimingOut (requestId : RequestId) : History → Prop
  | looked {request : OngoingQueryRequest} {found : Option ClientInfo} {h : History}
      (id : request.requestId = requestId) :
      TimingOut requestId (⟨.getClientById (.timingOut request), found⟩ :: h)
  | told {client : ClientId} {tx : Tx} {queryId : QueryId} {sent : Except TxError Unit}
      {h : History} :
      TimingOut requestId
        (⟨.send client tx (.queryRequestedFailed requestId queryId .queryTimedOut), sent⟩ :: h)

/-- The timer read the request as expired and has not removed it yet. -/
def Expiring (requestId : RequestId) (h : History) : Prop :=
  (∃ request ∈ toExpire h, request.requestId = requestId) ∨ TimingOut requestId h

/-- The task read the request and has not removed it yet. -/
def Holds (requestId : RequestId) (h : History) : Prop :=
  Answering requestId h ∨ Expiring requestId h

theorem not_forwarding_nil {requestId : RequestId} : ¬ Forwarding requestId [] := by
  rintro (h | ⟨_, h⟩) <;> cases h

theorem not_answering_nil {requestId : RequestId} : ¬ Answering requestId [] := by
  intro h
  cases h with
  | settling h => cases h

/-- A task with nothing to expire holds a request to answer it, or at its time-out. -/
theorem Holds.of_toExpire_nil {requestId : RequestId} {h : History} (now : Holds requestId h)
    (nothing : toExpire h = []) : Answering requestId h ∨ TimingOut requestId h := by
  rcases now with answering | ⟨request, mem, -⟩ | timingOut
  · exact .inl answering
  · rw [nothing] at mem
    cases mem
  · exact .inr timingOut

theorem not_holds_nil {requestId : RequestId} : ¬ Holds requestId [] := by
  intro h
  rcases h.of_toExpire_nil rfl with answering | timingOut
  · exact not_answering_nil answering
  · cases timingOut

/-- A task that forwards an id is in the middle of its handler. -/
theorem Forwarding.goesOn {requestId : RequestId} {h : History}
    (now : Forwarding requestId h) : goesOn h = true := by
  rcases now with checked | ⟨client, sent⟩
  · cases checked <;> rfl
  · cases sent <;> rfl

/-- A task that handles an answer is in the middle of its handler. -/
theorem Answering.goesOn {requestId : RequestId} {h : History}
    (now : Answering requestId h) : goesOn h = true := by
  cases now with
  | read => rfl
  | found => rfl
  | settling settling => cases settling <;> rfl

/-- A task at rest with no request to expire holds none. -/
theorem AtRest.not_holds {requestId : RequestId} {h : History} (rest : AtRest h)
    (nothing : toExpire h = []) : ¬ Holds requestId h := by
  intro held
  rcases held.of_toExpire_nil nothing with answering | timingOut
  · exact rest.elim answering.goesOn
  · exact rest.elim (by cases timingOut <;> rfl)

/-! ## What the trace says of a request id -/

/-- The responder an event forwards the request to. -/
def forwards (requestId : RequestId) : Event Op Ret → Option ClientId
  | ⟨.send client _ (.queryRequested msg), .ok _⟩ =>
    if msg.requestId = requestId then some client else none
  | _ => none

/-- An event reads the request, to answer it or to time it out. -/
def reads (requestId : RequestId) : Event Op Ret → Bool
  | ⟨.getOngoingRequest (.answer answer), some _⟩ => answer.requestId = requestId
  | ⟨.getExpiredRequests _, requests⟩ => requests.any fun request => request.requestId = requestId
  | _ => false

/-- The last event is one of the timer at a time-out. -/
def atTimeOut : History → Bool
  | ⟨.getClientById (.timingOut _), _⟩ :: _ => true
  | ⟨.send _ _ (.queryRequestedFailed _ _ .queryTimedOut), _⟩ :: _ => true
  | _ => false

/-- An event settles the request: its requester is sent the answer, or the timer removes it. -/
def settles (requestId : RequestId) (h : History) : Event Op Ret → Bool
  | ⟨.send _ _ (.queryResponded msg), .ok _⟩ => msg.requestId = requestId
  | ⟨.send _ _ (.queryRequestedFailed id _ (.handlingError _)), .ok _⟩ => id = requestId
  | ⟨.removeOngoingRequest id, _⟩ => id = requestId && atTimeOut h
  | _ => false

/-- The responder the request was last forwarded to, if it is not settled since. -/
def forwardedTo (requestId : RequestId) : Trace Op Ret → Option ClientId
  | [] => none
  | (i, ev) :: tr =>
    if settles requestId (Trace.of tr i) ev then none
    else (forwards requestId ev).or (forwardedTo requestId tr)

theorem forwardedTo_cons {requestId : RequestId} {i : Nat} {ev : Event Op Ret}
    {tr : Trace Op Ret} {client : ClientId}
    (h : forwardedTo requestId ((i, ev) :: tr) = some client) :
    settles requestId (tr.of i) ev = false ∧
      (forwards requestId ev = some client ∨
        forwards requestId ev = none ∧ forwardedTo requestId tr = some client) := by
  unfold forwardedTo at h
  split at h
  · cases h
  · rename_i open_
    refine ⟨Bool.not_eq_true _ ▸ open_, ?_⟩
    cases hf : forwards requestId ev with
    | none => exact .inr ⟨rfl, by simpa [hf] using h⟩
    | some c => exact .inl (by simpa [hf] using h)

theorem Settling.settles {requestId : RequestId} {op : Op} {r : Ret op} {h : History}
    (now : Settling requestId (⟨op, r⟩ :: h)) : settles requestId h ⟨op, r⟩ = true := by
  cases now with
  | responded id => exact decide_eq_true id
  | failed => exact decide_eq_true rfl

theorem TimingOut.atTimeOut {requestId : RequestId} {h : History} (now : TimingOut requestId h) :
    atTimeOut h = true := by
  cases now <;> rfl

theorem forwards_eq_some {requestId : RequestId} {op : Op} {r : Ret op} {client : ClientId}
    (h : forwards requestId ⟨op, r⟩ = some client) :
    ∃ tx msg, (⟨op, r⟩ : Event Op Ret) = ⟨.send client tx (.queryRequested msg), .ok ()⟩ ∧
      msg.requestId = requestId := by
  unfold forwards at h
  split at h
  · rename_i heq
    split at h
    · rename_i id
      cases h
      exact ⟨_, _, heq, id⟩
    · cases h
  · cases h

/-! ## From one point to the next -/

section Moves

variable {parse : String → Option Uuid} {timing : Timing} {job : Job} {op : Op} {r : Ret op}
  {h : History} {requestId : RequestId}

/-- A message is handed over by a task that has nothing to expire. -/
theorem Handed.toExpire {msg : ClientMessage} (hand : Handed parse job h msg) :
    toExpire h = [] := by
  cases hand with
  | decoded ready | closed ready | alive ready | dead ready =>
    exact congrArg Memory.toExpire ready.memory

/-- A task forwards an id from the check on. -/
theorem Checked.back (site : Site parse timing job h op)
    (now : Checked requestId (⟨op, r⟩ :: h)) :
    (∃ msg, op = .getOngoingRequest (.duplicate msg) ∧ msg.requestId = requestId) ∨
      Checked requestId h := by
  cases now with
  | checked id => exact .inl ⟨_, rfl, id⟩
  | selected id =>
    cases site with
    | selecting => exact .inr (.checked id)
  | found id =>
    cases site with
    | responder => exact .inr (.selected id)

/-- `QueryRequested` is sent by a task that checked the id. -/
theorem Site.checked_of_forwards {client : ClientId} (site : Site parse timing job h op)
    (now : forwards requestId ⟨op, r⟩ = some client) : Checked requestId h := by
  obtain ⟨tx, msg, heq, id⟩ := forwards_eq_some now
  cases heq
  cases site with
  | forwarding => exact .found id
  | @answer _ _ answer _ _ _ _ _ reply => cases answer <;> cases reply

theorem SentTo.back {client : ClientId} (site : Site parse timing job h op)
    (now : SentTo requestId client (⟨op, r⟩ :: h)) :
    forwards requestId ⟨op, r⟩ = some client ∨ SentTo requestId client h := by
  cases now with
  | sent id => exact .inl (if_pos id)
  | stamped id =>
    cases site with
    | stamping => exact .inr (.sent id)

/-- A task that forwards an id came from the check, or was forwarding it before. -/
theorem Forwarding.back (site : Site parse timing job h op)
    (now : Forwarding requestId (⟨op, r⟩ :: h)) :
    (∃ msg, op = .getOngoingRequest (.duplicate msg) ∧ msg.requestId = requestId) ∨
      Forwarding requestId h := by
  rcases now with checked | sent
  · exact (checked.back site).imp_right .inl
  · obtain ⟨client, sent⟩ := sent
    rcases sent.back site with forwards | sent
    · exact .inr (.inl (site.checked_of_forwards forwards))
    · exact .inr (.inr ⟨client, sent⟩)

/-- After `QueryRequested` come the reading of the clock and the recording. -/
theorem SentTo.next {client : ClientId} (site : Site parse timing job h op)
    (now : SentTo requestId client h) :
    SentTo requestId client (⟨op, r⟩ :: h) ∨ ∃ request, op = .handleQueryRequestedEvent request ∧
      request.requestId = requestId ∧ request.responder = client := by
  cases now with
  | sent id =>
    cases site with
    | stamping => exact .inl (.stamped id)
    | @answered _ _ answer _ _ _ _ _ reply => cases answer <;> cases reply
    | handle hand => cases hand
    | receive ready | oldClients ready | heartbeat ready | getExpiredRequests ready
    | timingOut ready | readClients ready | broadcasting ready | dropClients ready =>
      exact ready.elim rfl
  | stamped id =>
    cases site with
    | recording => exact .inr ⟨_, rfl, id, rfl⟩
    | handle hand => cases hand
    | receive ready | oldClients ready | heartbeat ready | getExpiredRequests ready
    | timingOut ready | readClients ready | broadcasting ready | dropClients ready =>
      exact ready.elim rfl

/-- A request is recorded by the task that sent `QueryRequested`. -/
theorem Site.sent_of_record {request : OngoingQueryRequest}
    (site : Site parse timing job h (.handleQueryRequestedEvent request)) :
    Sent request.requestId h := by
  cases site with
  | recording => exact ⟨_, .stamped rfl⟩

theorem Settling.back (site : Site parse timing job h op)
    (now : Settling requestId (⟨op, r⟩ :: h)) : Answering requestId h := by
  cases now with
  | responded id =>
    cases site with
    | @answer _ _ answer _ _ _ _ _ reply =>
      cases answer with
      | response msg =>
        cases reply
        exact .found id
      | failed msg => cases reply
  | failed =>
    cases site with
    | @answer _ _ answer _ _ _ _ _ reply =>
      cases answer with
      | response msg => cases reply
      | failed msg =>
        cases reply
        exact .found rfl

/-- An answer's handler holds a request from its reading on. -/
theorem Answering.back (site : Site parse timing job h op)
    (now : Answering requestId (⟨op, r⟩ :: h)) :
    reads requestId ⟨op, r⟩ = true ∨ Answering requestId h := by
  cases now with
  | read id => exact .inl (decide_eq_true id)
  | found id =>
    cases site with
    | answering => exact .inr (.read id)
  | settling settling => exact .inr (settling.back site)

/-- The timer holds a request from its snapshot on. -/
theorem Expiring.back (site : Site parse timing job h op)
    (now : Expiring requestId (⟨op, r⟩ :: h)) :
    reads requestId ⟨op, r⟩ = true ∨ Expiring requestId h := by
  rcases now with ⟨request, mem, id⟩ | now
  · unfold toExpire at mem
    split at mem
    · cases mem
    · rename_i heq
      cases heq
      exact .inl (List.any_eq_true.mpr ⟨request, mem, decide_eq_true id⟩)
    · rename_i heq
      cases heq
      exact .inr (.inl ⟨request, List.mem_of_mem_tail mem, id⟩)
    · rename_i heq
      cases heq
      exact .inr (.inl ⟨request, mem, id⟩)
  · cases now with
    | looked id =>
      cases site with
      | timingOut ready =>
        have expires : toExpire h = _ :: _ := congrArg Memory.toExpire ready.memory
        exact .inr (.inl ⟨_, expires ▸ List.mem_cons_self, id⟩)
    | told =>
      cases site with
      | timeOut => exact .inr (.inr (.looked rfl))
      | @answer _ _ answer _ _ _ _ _ reply => cases answer <;> cases reply

/-- A task holds a request from its reading on. -/
theorem Holds.back (site : Site parse timing job h op) (now : Holds requestId (⟨op, r⟩ :: h)) :
    reads requestId ⟨op, r⟩ = true ∨ Holds requestId h := by
  rcases now with now | now
  · exact (now.back site).imp_right .inl
  · exact (now.back site).imp_right .inr

/-- A request is removed by a handler that sent its answer, or by the timer. -/
theorem Site.held_of_remove (site : Site parse timing job h (.removeOngoingRequest requestId)) :
    Settling requestId h ∨ TimingOut requestId h := by
  cases site with
  | @answered _ _ answer _ _ _ _ _ reply =>
    apply Or.inl
    cases answer with
    | response msg =>
      cases reply
      exact .responded rfl
    | failed msg =>
      cases reply
      exact .failed
  | timedOut => exact .inr .told
  | timedOutGone => exact .inr (.looked rfl)

end Moves

/-- What is read is ongoing. -/
theorem ongoing_of_reads {R : Type} [Repository R] {env : Env R} {w w' : World R} {op : Op}
    {r : Ret op} {requestId : RequestId} (hexec : exec op env w = some (r, w'))
    (keyed : w.state.queryHandlers.Keyed) (now : reads requestId ⟨op, r⟩ = true) :
    w.state.ongoing requestId ≠ none := by
  unfold reads at now
  split at now
  · rename_i heq
    cases heq
    intro absent
    rw [← of_decide_eq_true now] at absent
    cases (exec_getOngoingRequest hexec).1.trans absent
  · rename_i heq
    cases heq
    obtain ⟨request, mem, id⟩ := List.any_eq_true.mp now
    obtain ⟨id', found⟩ := QueryHandler.mem_getExpiredRequests (exec_getExpiredRequests hexec) mem
    intro absent
    rw [← keyed id' request found, of_decide_eq_true id] at found
    cases found.symm.trans absent
  · cases now

end Revent
