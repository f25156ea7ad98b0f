import Revent.Laws.Selection

/-!
# What a message leaves alone

`Performs` lists, message by message, the operations its handler may perform: the updates it may
make, and reads and sends, which change nothing of the state. `handleMessage_performs` checks the
list on every branch of every handler, once. The frame of a message is then read off the
operations: each component of the state is changed by few of them, and `Framed` collects who may
change what.
-/

namespace Revent

open Interleave (Event Prog)

variable {R : Type}

/-! ## What a message is about -/

namespace ClientMessage

/-- The client whose registration a message begins or ends. -/
def registrant : ClientMessage → Option ClientId
  | .registerClient msg => some msg.clientId
  | .disconnectClient clientId => some clientId
  | _ => none

/-- The request a message makes or answers. -/
def requestId : ClientMessage → Option RequestId
  | .queryRequest msg => some msg.requestId
  | .queryResponse msg => some msg.requestId
  | .queryHandlingFailed msg => some msg.requestId
  | _ => none

end ClientMessage

theorem Answer.requestId_clientMessage (answer : Answer) :
    answer.clientMessage.requestId = some answer.requestId := by
  cases answer <;> rfl

/-- The operations that the handler of a message may perform. -/
def Performs (msg : ClientMessage) : Op → Prop
  | .updateLastSeen handled => handled = msg
  | .insertClient m | .addClientQueryHandler m => msg = .registerClient m
  | .removeClient clientId | .disconnectClient clientId => msg = .disconnectClient clientId
  | .getClientIdForQueryId m => msg = .queryRequest m
  | .handleQueryRequestedEvent request => msg.requestId = some request.requestId
  | .removeOngoingRequest requestId => msg.requestId = some requestId
  | .saveSourceEvent m => msg = .registerSourceEvent m
  | .spawnBroadcast _ => ∃ m, msg = .registerSourceEvent m
  | .getClientById _ | .send _ _ _ | .getOngoingRequest _ | .now _ _ => True
  | _ => False

section Handlers

variable {h : History}

theorem handleRegisterClientMessage_performs (msg : RegisterClientMessage) :
    (handleRegisterClientMessage msg).Flows (fun _ => Performs (.registerClient msg))
      (fun _ _ => True) h := by
  refine ⟨trivial, fun found => ?_⟩
  cases found with
  | some info => exact ⟨trivial, fun _ => trivial⟩
  | none =>
    refine ⟨trivial, fun sent => ?_⟩
    cases sent with
    | error err => trivial
    | ok _ => exact ⟨rfl, fun _ => ⟨rfl, fun _ => trivial⟩⟩

theorem tellRequester_performs {msg : QueryRequestMessage} {requester : Option ClientInfo}
    {serverMessage : ServerMessage} :
    (tellRequester msg requester serverMessage).Flows (fun _ => Performs (.queryRequest msg))
      (fun _ _ => True) h := by
  cases requester with
  | none => trivial
  | some info => exact ⟨trivial, fun _ => trivial⟩

theorem handleQueryRequestMessage_performs (msg : QueryRequestMessage) :
    (handleQueryRequestMessage msg).Flows (fun _ => Performs (.queryRequest msg))
      (fun _ _ => True) h := by
  refine ⟨trivial, fun requester => ⟨trivial, fun current => ?_⟩⟩
  cases current with
  | some current =>
    show Prog.Flows _ _ _ (if current.isSame msg then _ else tellRequester msg requester _)
    split
    · trivial
    · exact tellRequester_performs
  | none =>
    refine ⟨rfl, fun selected => ?_⟩
    cases selected with
    | error err =>
      cases err with
      | queryHandlerNotFound => exact tellRequester_performs
      | responderNotFound => trivial
    | ok selected =>
      refine ⟨trivial, fun responder => ?_⟩
      cases responder with
      | none => trivial
      | some responder =>
        refine ⟨trivial, fun sent => ?_⟩
        cases sent with
        | error err => exact tellRequester_performs
        | ok _ => exact ⟨trivial, fun _ => ⟨rfl, fun _ => trivial⟩⟩

theorem settle_performs (answer : Answer) :
    (settle answer).Flows (fun _ => Performs answer.clientMessage) (fun _ _ => True) h := by
  refine ⟨trivial, fun request => ?_⟩
  cases request with
  | none => trivial
  | some request =>
    refine ⟨trivial, fun requester => ?_⟩
    cases requester with
    | none => trivial
    | some requester =>
      refine ⟨trivial, fun sent => ?_⟩
      cases sent with
      | error err => trivial
      | ok _ => exact ⟨answer.requestId_clientMessage, fun _ => trivial⟩

theorem handleRegisterSourceEventMessage_performs (msg : RegisterSourceEventMessage) :
    (handleRegisterSourceEventMessage msg).Flows (fun _ => Performs (.registerSourceEvent msg))
      (fun _ _ => True) h := by
  refine ⟨rfl, fun saved => ?_⟩
  cases saved with
  | error err => trivial
  | ok event =>
    refine ⟨trivial, fun source => ?_⟩
    cases source with
    | none => trivial
    | some source => exact ⟨trivial, fun _ => ⟨⟨msg, rfl⟩, fun _ => trivial⟩⟩

/-- **What a handler performs** is among the operations its message may perform. -/
theorem handleMessage_performs (msg : ClientMessage) :
    (handleMessage msg).Flows (fun _ => Performs msg) (fun _ _ => True) h := by
  refine ⟨rfl, fun _ => ?_⟩
  cases msg with
  | registerClient msg => exact handleRegisterClientMessage_performs msg
  | queryRequest msg => exact handleQueryRequestMessage_performs msg
  | queryResponse msg => exact settle_performs (.response msg)
  | queryHandlingFailed msg => exact settle_performs (.failed msg)
  | registerSourceEvent msg => exact handleRegisterSourceEventMessage_performs msg
  | heartbeat clientId => trivial
  | disconnectClient clientId => exact ⟨rfl, fun _ => ⟨rfl, fun _ => trivial⟩⟩

end Handlers

/-! ## The frame of each component -/

/-- What an entry keeps for as long as its client stays connected. -/
def ClientInfo.registration (info : ClientInfo) : Tx × SystemTime := (info.tx, info.since)

/-- The same clients are connected, with the same registrations, and only the source of a message
was seen. -/
structure SeenOnly (source : Option ClientId) (before after : HashMap ClientId ClientInfo) :
    Prop where
  registrations : ∀ clientId : ClientId,
    after[clientId]?.map ClientInfo.registration = before[clientId]?.map ClientInfo.registration
  others : ∀ clientId : ClientId, source ≠ some clientId → after[clientId]? = before[clientId]?

/-- Nobody's entry changed but the client's. -/
def EntryOnly (clientId : ClientId) (before after : HashMap ClientId ClientInfo) : Prop :=
  ∀ other : ClientId, other ≠ clientId → after[other]? = before[other]?

/-- **The frame of a message**, from the world it found to the world it left. -/
structure Framed (msg : ClientMessage) (w w' : World R) (events : History) : Prop where
  /-- A message that registers and disconnects nobody leaves the registry. -/
  registry : msg.registrant = none →
    SeenOnly msg.getSource w.clients w'.clients ∧ w'.handlers = w.handlers
  /-- One that does touches the entry and the occurrences of its client. -/
  registration : ∀ clientId, msg.registrant = some clientId →
    EntryOnly clientId w.clients w'.clients ∧ ∀ queryId,
      (w'.state.listed queryId).filter (· ≠ clientId) =
        (w.state.listed queryId).filter (· ≠ clientId)
  /-- The ongoing requests stay, but the one the message is about. -/
  requests : ∀ requestId, msg.requestId ≠ some requestId →
    w'.state.ongoing requestId = w.state.ongoing requestId
  /-- Only a query request moves the round robin. -/
  cursor : (∀ m, msg ≠ .queryRequest m) → w'.cursor = w.cursor
  /-- Only a source event reaches the repository. -/
  repository : (∀ m, msg ≠ .registerSourceEvent m) →
    (∀ m r, ⟨.saveSourceEvent m, r⟩ ∉ events) ∧ w'.state.repository = w.state.repository

omit R in
theorem SeenOnly.refl {source : Option ClientId} {clients : HashMap ClientId ClientInfo} :
    SeenOnly source clients clients :=
  ⟨fun _ => rfl, fun _ _ => rfl⟩

omit R in
/-- Refreshing the source's `last_seen` changes nothing else. -/
theorem SeenOnly.touch {source : ClientId} {before clients : HashMap ClientId ClientInfo}
    (seen : SeenOnly (some source) before clients) (now : Instant) :
    SeenOnly (some source) before (Revent.touch clients source now) := by
  have touched (clientId : ClientId) : (Revent.touch clients source now)[clientId]? =
      if source = clientId then clients[clientId]?.map fun info => { info with lastSeen := now }
      else clients[clientId]? := HashMap.getElem?_modify
  refine ⟨fun clientId => ?_, fun clientId other => ?_⟩
  · rw [← seen.registrations clientId, touched]
    split
    · rw [Option.map_map]
      rfl
    · rfl
  · rw [touched, if_neg fun same => other (congrArg some same)]
    exact seen.others clientId other

variable [Repository R] {op : Op} {env : Env R} {r : Ret op} {w w₀ w' : World R} {h : History}
  {msg : ClientMessage}

/-- An operation of a message that registers and disconnects nobody keeps the registry. -/
theorem registry_of_performs (performs : Performs msg op) (none : msg.registrant = none)
    (performed : exec op env w = some (r, w'))
    (same : SeenOnly msg.getSource w₀.clients w.clients ∧ w.handlers = w₀.handlers) :
    SeenOnly msg.getSource w₀.clients w'.clients ∧ w'.handlers = w₀.handlers := by
  have clients := clients_exec performed
  have table := handlers_exec performed
  rw [clients, table]
  cases op with
  | updateLastSeen handled =>
    cases performs
    refine ⟨?_, same.2⟩
    simp only [clientsAfter]
    cases source : msg.getSource with
    | none => rw [source] at same; exact same.1
    | some clientId => rw [source] at same; exact same.1.touch env.now
  | insertClient | addClientQueryHandler | removeClient | disconnectClient =>
    cases performs
    cases none
  | _ => exact same

/-- An operation of a message that registers or disconnects a client keeps the entries of the
others. -/
theorem entries_of_performs {clientId : ClientId} (performs : Performs msg op)
    (about : msg.registrant = some clientId) (performed : exec op env w = some (r, w'))
    (same : EntryOnly clientId w₀.clients w.clients) :
    EntryOnly clientId w₀.clients w'.clients := by
  have clients := clients_exec performed
  intro other different
  rw [clients, ← same other different]
  cases op with
  | updateLastSeen handled =>
    cases performs
    simp only [clientsAfter]
    cases msg with
    | disconnectClient source =>
      cases about
      exact HashMap.getElem?_modify.trans (if_neg (Ne.symm different))
    | _ => cases about <;> rfl
  | insertClient m =>
    cases performs
    cases about
    exact HashMap.getElem?_insert.trans (if_neg (Ne.symm different))
  | removeClient removed =>
    cases performs
    cases about
    exact HashMap.getElem?_erase.trans (if_neg (Ne.symm different))
  | _ => rfl

/-- And the occurrences of the others in every list, in their order. -/
theorem lists_of_performs {clientId : ClientId} {queryId : QueryId} (performs : Performs msg op)
    (about : msg.registrant = some clientId) (performed : exec op env w = some (r, w'))
    (same : (w.state.listed queryId).filter (· ≠ clientId) =
      (w₀.state.listed queryId).filter (· ≠ clientId)) :
    (w'.state.listed queryId).filter (· ≠ clientId) =
      (w₀.state.listed queryId).filter (· ≠ clientId) := by
  rw [listed_exec performed, ← same]
  cases op with
  | addClientQueryHandler m =>
    cases performs
    cases about
    simp [listedAfter, List.filter_append]
  | disconnectClient removed =>
    cases performs
    cases about
    simp [listedAfter, List.filter_filter]
  | _ => rfl

/-- An operation of a message keeps the requests the message is not about. -/
theorem requests_of_performs {requestId : RequestId} (performs : Performs msg op)
    (other : msg.requestId ≠ some requestId) (performed : exec op env w = some (r, w'))
    (same : w.state.ongoing requestId = w₀.state.ongoing requestId) :
    w'.state.ongoing requestId = w₀.state.ongoing requestId := by
  rw [ongoing_exec performed, ← same]
  cases op with
  | handleQueryRequestedEvent request =>
    refine if_neg fun here => other ?_
    rw [← here]
    exact performs
  | removeOngoingRequest removed =>
    refine if_neg fun here => other ?_
    rw [← here]
    exact performs
  | _ => rfl

/-- An operation of a message that is no query request keeps the cursor. -/
theorem cursor_of_performs (performs : Performs msg op) (other : ∀ m, msg ≠ .queryRequest m)
    (performed : exec op env w = some (r, w')) : w'.cursor = w.cursor := by
  have moved := cursor_exec performed
  cases op with
  | getClientIdForQueryId m => exact absurd performs (other m)
  | _ => exact moved

/-- An operation of a message that is no source event does not reach the repository. -/
theorem repository_of_performs (performs : Performs msg op)
    (other : ∀ m, msg ≠ .registerSourceEvent m) (performed : exec op env w = some (r, w'))
    (same : (∀ m saved, ⟨.saveSourceEvent m, saved⟩ ∉ h) ∧
      w.state.repository = w₀.state.repository) :
    (∀ m saved, ⟨.saveSourceEvent m, saved⟩ ∉ (⟨op, r⟩ : Event Op Ret) :: h) ∧
      w'.state.repository = w₀.state.repository := by
  have unsaved (m : RegisterSourceEventMessage) : op ≠ .saveSourceEvent m := by
    rintro rfl
    exact other m performs
  refine ⟨fun m saved mem => ?_, (repository_exec performed unsaved).trans same.2⟩
  rcases List.mem_cons.mp mem with here | before
  · cases here
    exact unsaved m rfl
  · exact same.1 m saved before

/-- What every operation that a message may perform keeps, its handler keeps. -/
theorem kept_of_alone {Inv : World R → History → Prop} {events : History}
    (run : Interleave.Alone exec (handleMessage msg) w [] () w' events)
    (kept : ∀ {op : Op} {env : Env R} {r : Ret op} {w w' : World R} {h : History},
      Performs msg op → exec op env w = some (r, w') → Inv w h → Inv w' (⟨op, r⟩ :: h))
    (entry : Inv w []) : Inv w' events :=
  ((handleMessage_performs (h := []) msg).ensures kept entry).elim run

/-- **The frame of every message**, on every branch and whatever its sends come to. -/
theorem framed_of_alone {events : History}
    (run : Interleave.Alone exec (handleMessage msg) w [] () w' events) :
    Framed msg w w' events where
  registry none := by
    apply kept_of_alone run _ ⟨SeenOnly.refl, rfl⟩
    exact fun performs performed same => registry_of_performs performs none performed same
  registration clientId about := by
    refine ⟨?_, fun queryId => ?_⟩
    · apply kept_of_alone run _ fun _ _ => rfl
      exact fun performs performed same => entries_of_performs performs about performed same
    · apply kept_of_alone run _ rfl
      exact fun performs performed same => lists_of_performs performs about performed same
  requests requestId other := by
    apply kept_of_alone run _ rfl
    exact fun performs performed same => requests_of_performs performs other performed same
  cursor other := by
    apply kept_of_alone run _ rfl
    exact fun performs performed same => (cursor_of_performs performs other performed).trans same
  repository other := by
    apply kept_of_alone run _ ⟨fun _ _ => List.not_mem_nil, rfl⟩
    exact fun performs performed same => repository_of_performs performs other performed same

section Scenario

open Scenario

omit [Repository R] in
/-- The registration of a second client is framed. -/
theorem framed_registering : ∃ turns w w' events,
    handled [registering alice 0] = some (turns, w) ∧
      (handleMessage (.registerClient ⟨bob, [usersGetAll], 1⟩)).play exec
        (List.replicate 10 quiet) w [] = some ((), w', events) ∧
      w'.state.listed usersGetAll = [alice, bob] ∧
      Framed (.registerClient ⟨bob, [usersGetAll], 1⟩) w w' events := by
  have played : ((handled [registering alice 0]).bind fun done =>
      ((handleMessage (.registerClient ⟨bob, [usersGetAll], 1⟩)).play exec
        (List.replicate 10 quiet) done.2 []).map fun after =>
          after.2.1.state.listed usersGetAll) = some [alice, bob] := by
    decide +kernel
  obtain ⟨⟨turns, w⟩, done, last⟩ := Option.bind_eq_some_iff.mp played
  obtain ⟨⟨u, w', events⟩, last, listed⟩ := Option.map_eq_some_iff.mp last
  exact ⟨turns, w, w', events, done, last, listed,
    framed_of_alone (Interleave.alone_of_play last)⟩

end Scenario

end Revent
