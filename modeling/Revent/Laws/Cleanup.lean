import Revent.Laws.Broadcasts
import Revent.Laws.Registry

/-!
# The end of a session

However its loop is left, `open_session` disconnects one client: the last one it took up in
`client_id_option`. The clients it registered before under other ids stay, and so does everything
when the decoder panics, since the task is gone before the disconnect.

The law is that nothing of a finished session **remains**: no entry holds its channel, no list
names a client that was registered over this channel only. It holds in every run in which a
session looks up an id to register only while nothing but this id remains of it, and a payload
the decoder panics on comes only while nothing remains. By then whatever remains of a session is
the client it **claims**, the one it is registering or has taken up.
-/

namespace Revent

open Interleave (Event Trace Prog Machine Config Task)

variable {R : Type}

/-- The client was registered, and over this channel only. -/
structure OnlyOver (tx : Tx) (clientId : ClientId) (tr : Trace Op Ret) : Prop where
  once : ∃ i msg, (i, ⟨.insertClient msg, ()⟩) ∈ tr ∧ msg.clientId = clientId
  only : ∀ i msg, (i, ⟨.insertClient msg, ()⟩) ∈ tr → msg.clientId = clientId → msg.tx = tx

/-- The client's entry holds the channel, or the client is listed and was registered over this
channel only. -/
def Remains (tx : Tx) (clientId : ClientId) (s : State R) (tr : Trace Op Ret) : Prop :=
  s.txOf clientId = some tx ∨ (∃ query, clientId ∈ s.listed query) ∧ OnlyOver tx clientId tr

/-- **Session cleanup**: nothing remains of a session whose task is over. -/
def CleanedUp (σ : ServerConfig R) : Prop :=
  ∀ (i : Nat) (tx : Tx) (opt : Option ClientId), σ.tasks[i]? = some ⟨.session tx opt, .done none⟩ →
    ∀ clientId, ¬ Remains tx clientId σ.world.state σ.trace

/-- The decoder panics on the payload the task has just received. -/
def decoderPanics (parse : String → Option Uuid) (tx : Tx) : History → Bool
  | ⟨.receive, .message (some payload)⟩ :: h =>
    match ClientMessage.ofProto parse payload ((clientIdOption h).map Prod.fst) tx with
    | .error (.panic _) => true
    | _ => false
  | _ => false

/-- Task `i` is the one of the channel's session. -/
def SessionOf (σ : ServerConfig R) (i : Nat) (tx : Tx) : Prop :=
  ∃ t, σ.tasks[i]? = some t ∧ t.job.channel = some tx

/-- The condition: a session looks up an id to register only while nothing of another id remains
of it, and a payload that the decoder panics on comes only while nothing remains of the session. -/
def LeavesNothing [Repository R] (parse : String → Option Uuid) (σ : ServerConfig R) (i : Nat)
    (env : Env R) : Op → Prop
  | .getClientById (.registering msg) =>
      ∀ clientId, Remains msg.tx clientId σ.world.state σ.trace → clientId = msg.clientId
  | .receive =>
      ∀ tx, SessionOf σ i tx → decoderPanics parse tx (⟨.receive, env.received⟩ :: σ.trace.of i) →
        ∀ clientId, ¬ Remains tx clientId σ.world.state σ.trace
  | _ => True

/-! ## The way out of the loop -/

/-- A session that is over has given its client up, or its decoder panicked. -/
def Job.Closes (parse : String → Option Uuid) (job : Job) (h : History) (next : Option Job) :
    Prop :=
  ∀ tx opt, job = .session tx opt → next = none →
    clientIdOption h = none ∨ decoderPanics parse tx h = true

section Closing

variable {parse : String → Option Uuid} {timing : Timing} {h : History}

theorem endSession_flows_closes {tx : Tx} {opt : Option ClientId} {received : Received}
    (ready : Ready (.session tx opt) h) :
    (endSession opt).Flows (Site parse timing (.session tx opt))
      ((Job.session tx opt).Closes parse) (⟨.receive, received⟩ :: h) := by
  cases opt with
  | none =>
    intro tx opt _ _
    exact .inl (congrArg Memory.clientIdOption ready.memory)
  | some clientId =>
    refine (handleMessage_flows (.closed ready)).bind fun h' _ handled => ?_
    intro tx opt _ _
    cases handled with
    | disconnect => exact .inl rfl
    | other _ live => exact absurd rfl (live _)

theorem openSession_flows_closes {tx : Tx} {opt : Option ClientId}
    (ready : Ready (.session tx opt) h) :
    (openSession parse tx opt).Flows (Site parse timing (.session tx opt))
      ((Job.session tx opt).Closes parse) h := by
  refine Prog.flows_act.mpr ⟨.receive ready, fun received => ?_⟩
  cases received with
  | closed => exact endSession_flows_closes ready
  | message payload =>
    cases payload with
    | none => exact fun _ _ _ goesOn => by cases goesOn
    | some payload =>
      dsimp only [Prog.bind]
      split
      · rename_i msg decode
        refine (handleMessage_flows (.decoded ready decode)).bind fun h' _ _ => ?_
        exact fun _ _ _ goesOn => by cases goesOn
      · exact endSession_flows_closes ready
      · rename_i message decode
        intro tx' opt' same _
        cases same
        apply Or.inr
        have owner : (clientIdOption h).map Prod.fst = opt := by
          rw [show clientIdOption h = _ from congrArg Memory.clientIdOption ready.memory]
          cases opt <;> rfl
        simp only [decoderPanics, owner, decode]

/-- Each pass keeps to the call sites, and a session's last one ends in one of these two ways. -/
theorem boot_flows_closes (job : Job) (h : History) (ready : Ready job h) :
    (boot parse timing job).Flows (fun h op => Site parse timing job h op ∧ True)
      (fun h next => Ends job h next ∧ job.Closes parse h next) h := by
  refine (boot_flows ready).and ?_
  by_cases loop : ∃ tx opt, job = .session tx opt
  · obtain ⟨tx, opt, rfl⟩ := loop
    have closing : (openSession parse tx opt).Flows (Site parse timing (.session tx opt))
        ((Job.session tx opt).Closes parse) h := openSession_flows_closes ready
    exact closing.mono_site fun _ _ _ => trivial
  · refine (Prog.flows_true _ h).mono fun _ _ _ tx opt same => ?_
    exact absurd ⟨tx, opt, same⟩ loop

variable [Repository R] {ok : ServerConfig R → ServerLabel R → Prop} {repository : R}
  {σ : ServerConfig R}

/-- **How a session's task comes to its end.** -/
theorem closes_of_done {i : Nat} {tx : Tx} {opt : Option ClientId}
    (reach : (server R parse timing).Reach ok (initial parse timing repository) σ)
    (task : σ.tasks[i]? = some ⟨.session tx opt, .done none⟩) :
    AtRest (σ.trace.of i) ∧
      (clientIdOption (σ.trace.of i) = none ∨ decoderPanics parse tx (σ.trace.of i) = true) := by
  have flowing := flowing_of_boot boot_flows_closes
    (fun _ _ _ ends => by obtain ⟨⟨ready⟩, -⟩ := ends; exact ready) reach
  obtain ⟨⟨⟩, closes⟩ := flowing.flows i _ task
  exact ⟨by assumption, closes tx opt rfl rfl⟩

end Closing

/-! ## The session of a channel -/

section Sessions

variable [Repository R] {parse : String → Option Uuid} {timing : Timing}
  {ok : ServerConfig R → ServerLabel R → Prop} {repository : R} {σ σ' : ServerConfig R} {i j : Nat}
  {tx : Tx} {ℓ : ServerLabel R}

/-- No operation opens a session. -/
theorem nextTx_exec {op : Op} {env : Env R} {w w' : World R} {r : Ret op}
    (h : exec op env w = some (r, w')) : w'.nextTx = w.nextTx := by
  cases op with
  | send client dest msg =>
    simp only [exec] at h
    split at h
    · cases h
      rfl
    · cases h
      rfl
  | readClients event =>
    obtain ⟨l, -, heq⟩ := Option.map_eq_some_iff.mp h
    cases heq
    rfl
  | spawnBroadcast | dropClients =>
    cases h
    rfl
  | _ =>
    obtain ⟨s, rfl⟩ := exec_onState h trivial
    rfl

omit [Repository R] in
theorem nextTx_move {x : Ext} {w w' : World R} {job : Option Job}
    (h : move x w = some (w', job)) : w.nextTx ≤ w'.nextTx := by
  cases x with
  | openSession =>
    cases h
    exact Nat.le_succ _
  | startBroadcast place =>
    obtain ⟨event, -, heq⟩ := Option.map_eq_some_iff.mp h
    cases heq
    exact Nat.le_refl _
  | read dest =>
    cases h
    exact Nat.le_refl _

/-- A session's task was the session's before the step, or the step opened the session. -/
theorem SessionOf.back
    (reach : (server R parse timing).Reach ok (initial parse timing repository) σ)
    (step : (server R parse timing).step σ ℓ = some σ') (now : SessionOf σ' i tx) :
    σ.world.nextTx ≤ σ'.world.nextTx ∧ (SessionOf σ i tx ∨
      i = σ.tasks.length ∧ tx = σ.world.nextTx ∧ σ'.world.nextTx = tx + 1) := by
  obtain ⟨t, at_i, channel⟩ := now
  cases Machine.step_cases step with
  | @act k env job op next r w task performed =>
    refine ⟨(nextTx_exec (serverExec_exec performed)).ge, .inl ?_⟩
    rcases Machine.getElem?_set_cases at_i with ⟨rfl, rfl⟩ | ⟨-, old⟩
    · exact ⟨_, task, channel⟩
    · exact ⟨t, old, channel⟩
  | @loop k job job' task =>
    refine ⟨Nat.le_refl _, .inl ?_⟩
    rcases Machine.getElem?_set_cases at_i with ⟨rfl, rfl⟩ | ⟨-, old⟩
    · have same : job'.channel = job.channel :=
        (((broadcasting reach).flows _ _ task).1 job' rfl).1
      exact ⟨_, task, same ▸ channel⟩
    · exact ⟨t, old, channel⟩
  | @ext x w job moved =>
    refine ⟨nextTx_move moved, ?_⟩
    rcases Machine.getElem?_start_cases at_i with old | ⟨rfl, started, rfl, rfl⟩
    · exact .inl ⟨t, old, channel⟩
    · cases x with
      | openSession =>
        cases moved
        cases channel
        exact .inr ⟨rfl, rfl, rfl⟩
      | startBroadcast place =>
        obtain ⟨event, -, heq⟩ := Option.map_eq_some_iff.mp moved
        cases heq
        cases channel
      | read dest => cases moved

/-- **Each channel has one session**, and its number was given out. -/
theorem sessionOf_unique
    (reach : (server R parse timing).Reach ok (initial parse timing repository) σ)
    (first : SessionOf σ i tx) : tx < σ.world.nextTx ∧ (SessionOf σ j tx → i = j) := by
  induction reach generalizing i j with
  | init =>
    obtain ⟨t, at_i, channel⟩ := first
    obtain ⟨rfl, rfl⟩ := task_of_initial at_i
    cases channel
  | @step σ σ' ℓ reach _ step ih =>
    obtain ⟨grows, before | ⟨rfl, rfl, opened⟩⟩ := first.back reach step
    · refine ⟨Nat.lt_of_lt_of_le (ih (j := i) before).1 grows, fun second => ?_⟩
      obtain ⟨-, before' | ⟨-, rfl, -⟩⟩ := second.back reach step
      · exact (ih before).2 before'
      · exact absurd (ih (j := i) before).1 (Nat.lt_irrefl _)
    · refine ⟨opened ▸ Nat.lt_succ_self _, fun second => ?_⟩
      obtain ⟨-, before' | ⟨rfl, -, -⟩⟩ := second.back reach step
      · exact absurd (ih (j := j) before').1 (Nat.lt_irrefl _)
      · rfl

end Sessions

/-! ## What a session claims -/

/-- The client a session is registering, or the one it has taken up. -/
def claims : History → Option ClientId
  | ⟨.getClientById (.registering msg), _⟩ :: _ => some msg.clientId
  | ⟨.send _ _ (.clientRegistered clientId), _⟩ :: _ => some clientId
  | ⟨.insertClient msg, _⟩ :: _ => some msg.clientId
  | h => (clientIdOption h).map Prod.fst

section Claims

variable {parse : String → Option Uuid} {timing : Timing} {job : Job} {h : History} {op : Op}
  {r : Ret op}

/-- Between two passes a session claims the client it has taken up. -/
theorem claims_of_atRest (rest : AtRest h) : claims h = (clientIdOption h).map Prod.fst := by
  unfold claims
  split
  · cases rest
  · rename_i client tx clientId sent h'
    cases sent with
    | error err => rfl
    | ok => cases rest
  · cases rest
  · rfl

/-- **What a session claims changes** only where it looks an id up to register it, and where it
disconnects its client. -/
theorem Site.claims (site : Site parse timing job h op) :
    Revent.claims (⟨op, r⟩ :: h) = Revent.claims h ∨
      (∃ msg, op = .getClientById (.registering msg)) ∨
        ∃ clientId, op = .disconnectClient clientId := by
  cases site with
  | registering => exact .inr (.inl ⟨_, rfl⟩)
  | disconnecting => exact .inr (.inr ⟨_, rfl⟩)
  | receive ready | oldClients ready | heartbeat ready | getExpiredRequests ready
  | timingOut ready | readClients ready | broadcasting ready | dropClients ready =>
    rw [claims_of_atRest ready.rest]
    exact .inl rfl
  | handle hand => cases hand <;> exact .inl rfl
  | @answer _ _ answer _ _ _ _ _ reply | @answered _ _ answer _ _ _ _ _ reply =>
    cases answer <;> cases reply <;> exact .inl rfl
  | _ => exact .inl rfl

end Claims

/-! ## What remains of a session -/

section Remains

variable [Repository R] {parse : String → Option Uuid} {timing : Timing} {σ : ServerConfig R}
  {i : Nat} {job : Job} {op : Op} {env : Env R} {r : Ret op} {w : World R} {tx : Tx}
  {clientId : ClientId}

/-- A registration is handled by the session of its channel. -/
theorem Handed.session {h : History} {msg : RegisterClientMessage}
    (hand : Handed parse job h (.registerClient msg)) : job.channel = some msg.tx := by
  cases hand with
  | decoded ready decode =>
    rcases ClientMessage.ofProto_cases decode with ⟨m, heq, rfl⟩ | ⟨source, -, speaks, -⟩
    · cases heq
      rfl
    · cases speaks

/-- The operation registers the client over the channel: it inserts its entry, or it lists it. -/
inductive Registers (tx : Tx) (clientId : ClientId) : Op → Prop
  | insert {msg : RegisterClientMessage} (same : msg.tx = tx) (id : msg.clientId = clientId) :
      Registers tx clientId (.insertClient msg)
  | list {msg : RegisterClientMessage} (same : msg.tx = tx) (id : msg.clientId = clientId) :
      Registers tx clientId (.addClientQueryHandler msg)

/-- Only the channel's session registers over it, and what it registers it claims. -/
theorem Registers.site {h : History} (registers : Registers tx clientId op)
    (site : Site parse timing job h op) :
    job.channel = some tx ∧ claims h = some clientId ∧ claims (⟨op, r⟩ :: h) = some clientId := by
  cases registers with
  | insert same id =>
    subst same id
    cases site with
    | inserting hand => exact ⟨hand.session, rfl, rfl⟩
  | list same id =>
    subst same id
    cases site with
    | adding hand => exact ⟨hand.session, rfl, rfl⟩

/-- A client is connected over a channel as before the operation, or is registered by it. -/
theorem connected_back (hexec : exec op env σ.world = some (r, w))
    (connected : w.state.txOf clientId = some tx) :
    σ.world.state.txOf clientId = some tx ∨ Registers tx clientId op := by
  rw [txOf_exec hexec] at connected
  unfold txAfter at connected
  split at connected
  · split at connected
    · rename_i msg id
      exact .inr (.insert (Option.some.inj connected) id)
    · exact .inl connected
  · split at connected
    · cases connected
    · exact .inl connected
  · exact .inl connected

/-- What remains of a session remained of it before the operation, or is registered by it. -/
theorem Remains.back (site : Site parse timing job (σ.trace.of i) op)
    (hexec : exec op env σ.world = some (r, w))
    (now : Remains tx clientId w.state ((i, ⟨op, r⟩) :: σ.trace)) :
    Remains tx clientId σ.world.state σ.trace ∨ Registers tx clientId op := by
  rcases now with connected | ⟨⟨query, listed⟩, ⟨k, msg, mem, id⟩, only⟩
  · exact (connected_back hexec connected).imp_left .inl
  · have earlier : ∀ i msg, (i, ⟨.insertClient msg, ()⟩) ∈ σ.trace → msg.clientId = clientId →
        msg.tx = tx := fun i msg mem => only i msg (List.mem_cons_of_mem _ mem)
    rcases List.mem_cons.mp mem with heq | mem
    · cases heq
      exact .inr (.insert (only _ msg List.mem_cons_self id) id)
    · have before : OnlyOver tx clientId σ.trace := ⟨⟨k, msg, mem, id⟩, earlier⟩
      rw [listed_exec hexec] at listed
      unfold listedAfter at listed
      split at listed
      · rename_i added
        rcases List.mem_append.mp listed with old | new
        · exact .inl (.inr ⟨⟨query, old⟩, before⟩)
        · -- the handlers of an entry that was inserted just now
          have mine : clientId = added.clientId := List.eq_of_mem_replicate new
          obtain ⟨h, inserted⟩ := site.insertClient_of_add
          refine .inr (.list (earlier i added (Trace.mem_of ?_) mine.symm) mine.symm)
          rw [inserted]
          exact List.mem_cons_self
      · exact .inl (.inr ⟨⟨query, List.mem_of_mem_filter listed⟩, before⟩)
      · exact .inl (.inr ⟨⟨query, listed⟩, before⟩)

omit [Repository R] in
/-- A session takes off the lists the client it claims. -/
theorem Site.claims_of_disconnect {h : History} {removed : ClientId}
    (site : Site parse timing job h (.disconnectClient removed))
    (session : job.channel = some tx) : Revent.claims h = some removed := by
  cases site with
  | disconnecting hand =>
    generalize hmsg : ClientMessage.disconnectClient removed = msg at hand
    cases hand with
    | decoded ready decode =>
      rcases ClientMessage.ofProto_cases decode with ⟨m, rfl, -⟩ | ⟨source, -, -, live⟩
      · cases hmsg
      · exact absurd hmsg.symm (live removed)
    | closed ready =>
      cases hmsg
      have taken : (clientIdOption _).map Prod.fst = _ :=
        congrArg (fun m => m.clientIdOption.map Prod.fst) ready.memory
      exact taken
    | alive => cases hmsg
    | dead => cases session

/-- The invariant: nothing remains of a session that was never opened or whose decoder panicked,
what remains of any other is the client it claims, and the entry of a session's client is gone
while the session disconnects it. -/
structure Claimed (parse : String → Option Uuid) (σ : ServerConfig R) : Prop where
  unopened : ∀ {tx clientId}, σ.world.nextTx ≤ tx → ¬ Remains tx clientId σ.world.state σ.trace
  claimed : ∀ {i tx clientId}, SessionOf σ i tx → Remains tx clientId σ.world.state σ.trace →
    claims (σ.trace.of i) = some clientId
  panicked : ∀ {i tx clientId}, SessionOf σ i tx → decoderPanics parse tx (σ.trace.of i) = true →
    ¬ Remains tx clientId σ.world.state σ.trace
  removed : ∀ {i tx clientId}, SessionOf σ i tx → HalfDisconnected clientId (σ.trace.of i) →
    σ.world.state.txOf clientId ≠ some tx

omit [Repository R] in
/-- Only a received payload makes the decoder panic. -/
theorem receive_of_decoderPanics {h : History}
    (panics : decoderPanics parse tx (⟨op, r⟩ :: h) = true) : op = .receive := by
  unfold decoderPanics at panics
  split at panics
  · rename_i heq
    cases heq
    rfl
  · cases panics

/-- Nothing remains of a session that has taken its client off the lists. -/
theorem Claimed.disconnectClient {removed : ClientId} {u : Unit} (inv : Claimed parse σ)
    (session : SessionOf σ i tx) (channel : job.channel = some tx)
    (site : Site parse timing job (σ.trace.of i) (.disconnectClient removed))
    (hexec : exec (.disconnectClient removed) env σ.world = some (u, w)) :
    ¬ Remains tx clientId w.state ((i, ⟨.disconnectClient removed, u⟩) :: σ.trace) := by
  intro now
  rcases now.back site hexec with before | registers
  · have mine := inv.claimed session before
    cases mine.symm.trans (site.claims_of_disconnect channel)
    rcases now with connected | ⟨⟨query, listed⟩, -⟩
    · rw [txOf_exec hexec] at connected
      exact inv.removed session site.halfDisconnected_of_disconnect connected
    · rw [listed_exec hexec] at listed
      have away := (List.mem_filter.mp listed).2
      simp at away
  · cases registers

variable {ok : ServerConfig R → ServerLabel R → Prop} {repository : R}

/-- What remains of the session of the task that acts is of the client it claims afterwards. -/
theorem Claimed.claims_act {next : Ret op → Async (Option Job)} (inv : Claimed parse σ)
    (cond : LeavesNothing parse σ i env op) (task : σ.tasks[i]? = some ⟨job, .act op next⟩)
    (hexec : exec op env σ.world = some (r, w)) (site : Site parse timing job (σ.trace.of i) op)
    (channel : job.channel = some tx)
    (now : Remains tx clientId w.state ((i, ⟨op, r⟩) :: σ.trace)) :
    claims (⟨op, r⟩ :: σ.trace.of i) = some clientId := by
  have session : SessionOf σ i tx := ⟨_, task, channel⟩
  rcases now.back site hexec with before | registers
  · rcases site.claims (r := r) with same | ⟨msg, rfl⟩ | ⟨removed, rfl⟩
    · exact same.trans (inv.claimed session before)
    · have own : job.channel = some msg.tx := by
        generalize σ.trace.of i = h at site
        cases site with
        | registering hand => exact hand.session
      cases channel.symm.trans own
      exact congrArg some (cond clientId before).symm
    · exact absurd now (inv.disconnectClient session channel site hexec)
  · exact (registers.site site).2.2

/-- Each operation, under the condition, keeps the invariant. -/
theorem Claimed.act {next : Ret op → Async (Option Job)} (inv : Claimed parse σ)
    (reach : (server R parse timing).Reach ok (initial parse timing repository) σ)
    (cond : LeavesNothing parse σ i env op) (task : σ.tasks[i]? = some ⟨job, .act op next⟩)
    (hexec : exec op env σ.world = some (r, w)) :
    Claimed parse ⟨w, σ.tasks.set i ⟨job, next r⟩, (i, ⟨op, r⟩) :: σ.trace⟩ := by
  have site := site_of_act (flowing reach) task
  have mine {tx : Tx} {clientId : ClientId} (registers : Registers tx clientId op) :
      SessionOf σ i tx := ⟨_, task, (registers.site (r := r) site).1⟩
  have sessions {k : Nat} {tx : Tx} (session : SessionOf
      ⟨w, σ.tasks.set i ⟨job, next r⟩, (i, ⟨op, r⟩) :: σ.trace⟩ k tx) : SessionOf σ k tx := by
    obtain ⟨t, at_k, channel⟩ := session
    rcases Machine.getElem?_set_cases at_k with ⟨rfl, rfl⟩ | ⟨-, old⟩
    · exact ⟨_, task, channel⟩
    · exact ⟨t, old, channel⟩
  -- what remains of another task's session remained of it before
  have others {k : Nat} {tx : Tx} {clientId : ClientId} (session : SessionOf σ k tx) (hk : i ≠ k)
      (now : Remains tx clientId w.state ((i, ⟨op, r⟩) :: σ.trace)) :
      Remains tx clientId σ.world.state σ.trace := by
    refine (now.back site hexec).resolve_right fun registers => ?_
    exact hk ((sessionOf_unique reach (mine registers)).2 session)
  constructor
  case unopened =>
    intro tx clientId above now
    have above : σ.world.nextTx ≤ tx := nextTx_exec hexec ▸ above
    rcases now.back site hexec with before | registers
    · exact inv.unopened above before
    · have opened := (sessionOf_unique (j := i) reach (mine registers)).1
      exact absurd above (Nat.not_le.mpr opened)
  case claimed =>
    intro k tx clientId running now
    have session := sessions running
    by_cases hk : i = k
    · subst hk
      obtain ⟨t, at_i, channel⟩ := session
      cases task.symm.trans at_i
      show claims (Trace.of ((i, ⟨op, r⟩) :: σ.trace) i) = some clientId
      rw [Trace.of_cons_self]
      exact inv.claims_act cond task hexec site channel now
    · show claims (Trace.of ((i, ⟨op, r⟩) :: σ.trace) k) = some clientId
      rw [Trace.of_cons_ne _ hk]
      exact inv.claimed session (others session hk now)
  case panicked =>
    intro k tx clientId running panics now
    have session := sessions running
    have panics : decoderPanics parse tx (Trace.of ((i, ⟨op, r⟩) :: σ.trace) k) = true := panics
    rcases Trace.of_cons_cases (fun h => decoderPanics parse tx h = true) panics with
      ⟨rfl, here⟩ | ⟨hk, before⟩
    · cases receive_of_decoderPanics here
      rcases now.back site hexec with before | registers
      · cases hexec
        exact cond tx session here clientId before
      · cases registers
    · exact inv.panicked session before (others session hk now)
  case removed =>
    intro k tx clientId running half connected
    have session := sessions running
    have half : HalfDisconnected clientId (Trace.of ((i, ⟨op, r⟩) :: σ.trace) k) := half
    rcases Trace.of_cons_cases (HalfDisconnected clientId) half with ⟨rfl, here⟩ | ⟨hk, before⟩
    · cases here
      have gone : w.state.txOf clientId = none := by
        rw [txOf_exec hexec]
        exact if_pos rfl
      cases gone.symm.trans connected
    · rcases connected_back hexec connected with held | registers
      · exact inv.removed session before held
      · exact hk ((sessionOf_unique reach (mine registers)).2 session)

/-- Each step, under the condition, keeps the invariant. -/
theorem Claimed.step {σ' : ServerConfig R} {ℓ : ServerLabel R} (inv : Claimed parse σ)
    (reach : (server R parse timing).Reach ok (initial parse timing repository) σ)
    (cond : Machine.Acting (LeavesNothing parse) σ ℓ)
    (step : (server R parse timing).step σ ℓ = some σ') : Claimed parse σ' := by
  have sessions := fun (i : Nat) (tx : Tx) => @SessionOf.back R _ parse timing ok repository σ σ' i
    tx ℓ reach step
  cases Machine.step_cases step with
  | @act i env job op next r w task performed =>
    exact inv.act reach (cond job op next task) task (serverExec_exec performed)
  | loop task =>
    have same {k : Nat} {tx : Tx} (now : SessionOf _ k tx) : SessionOf σ k tx :=
      (sessions k tx now).2.resolve_right fun opened =>
        Nat.succ_ne_self _ (opened.2.2.symm.trans opened.2.1.symm)
    exact ⟨inv.unopened, fun session => inv.claimed (same session),
      fun session => inv.panicked (same session), fun session => inv.removed (same session)⟩
  | @ext x w job moved =>
    have same : w.state = σ.world.state := move_state moved
    have remained {tx : Tx} {clientId : ClientId} (now : Remains tx clientId w.state σ.trace) :
        Remains tx clientId σ.world.state σ.trace := same ▸ now
    have grows : σ.world.nextTx ≤ w.nextTx := nextTx_move moved
    refine ⟨fun above now => inv.unopened (grows.trans above) (remained now), ?_, ?_, ?_⟩
    · intro k tx clientId session now
      obtain ⟨-, before | ⟨-, rfl, -⟩⟩ := sessions k tx session
      · exact inv.claimed before (remained now)
      · exact absurd (remained now) (inv.unopened (Nat.le_refl _))
    · intro k tx clientId session panics now
      obtain ⟨-, before | ⟨-, rfl, -⟩⟩ := sessions k tx session
      · exact inv.panicked before panics (remained now)
      · exact absurd (remained now) (inv.unopened (Nat.le_refl _))
    · intro k tx clientId session half connected
      have connected : σ.world.state.txOf clientId = some tx := same ▸ connected
      obtain ⟨-, before | ⟨-, rfl, -⟩⟩ := sessions k tx session
      · exact inv.removed before half connected
      · exact inv.unopened (Nat.le_refl _) (.inl connected)

/-- **Session cleanup**, in every run in which a session looks up an id to register only while
nothing of another id remains of it, and the decoder panics only while nothing remains. -/
theorem cleanedUp_of_leavesNothing
    (reach : ReachIf parse timing repository (LeavesNothing parse) σ) : CleanedUp σ := by
  have inv : Claimed parse σ := by
    induction reach with
    | init =>
      have nobody {tx : Tx} {clientId : ClientId} :
          ¬ Remains tx clientId (State.new repository) [] := by
        rintro (connected | ⟨-, ⟨_, _, mem, -⟩, -⟩)
        · cases connected
        · cases mem
      exact ⟨fun _ => nobody, fun _ now => absurd now nobody, fun _ _ => nobody,
        fun _ _ connected => nobody (.inl connected)⟩
    | step reach cond step ih => exact ih.step reach cond step
  intro i tx opt task clientId now
  have session : SessionOf σ i tx := ⟨_, task, rfl⟩
  obtain ⟨rest, gone | panics⟩ := closes_of_done reach task
  · have mine := inv.claimed session now
    rw [claims_of_atRest rest, gone] at mine
    cases mine
  · exact inv.panicked session panics now

end Remains

section Scenario

open Scenario

/-- Nobody is connected and nobody is listed. -/
def Scenario.vacantRegistry (σ : ServerConfig NoopSourceEventRepository) : Bool :=
  σ.world.clients.isEmpty && σ.world.handlers.isEmpty

theorem Scenario.not_remains_of_vacantRegistry {σ : ServerConfig NoopSourceEventRepository}
    {tx : Tx} {clientId : ClientId} (empty : vacantRegistry σ = true) :
    ¬ Remains tx clientId σ.world.state σ.trace := by
  obtain ⟨clients, handlers⟩ := Bool.and_eq_true_iff.mp empty
  rintro (connected | ⟨⟨query, listed⟩, -⟩)
  · obtain ⟨info, found, -⟩ := State.txOf_eq_some.mp connected
    have found : σ.world.clients[clientId]? = some info := found
    rw [Std.ExtTreeMap.isEmpty_iff.mp clients] at found
    cases found
  · have listed : clientId ∈ σ.world.handlers[query]?.getD [] := listed
    rw [Std.ExtTreeMap.isEmpty_iff.mp handlers] at listed
    cases listed

/-- An id is looked up to register it only while nobody is connected or listed, and the decoder
does not panic. -/
def Scenario.registersIntoVacancy (σ : ServerConfig NoopSourceEventRepository) :
    ServerLabel NoopSourceEventRepository → Bool
  | .act i env =>
    match σ.tasks[i]? with
    | some ⟨_, .act (.getClientById (.registering _)) _⟩ => vacantRegistry σ
    | some ⟨.session tx _, .act .receive _⟩ =>
      !decoderPanics Scenario.parse tx (⟨.receive, env.received⟩ :: σ.trace.of i)
    | _ => true
  | _ => true

/-- A session alone is a run of the law, and it comes to its end. -/
theorem cleanedUp_session : ∃ σ, outcome registersIntoVacancy session = some σ ∧ CleanedUp σ := by
  obtain ⟨σ, hrun⟩ := Option.isSome_iff_exists.mp
    (by decide +kernel : (outcome registersIntoVacancy session).isSome)
  refine ⟨σ, hrun, cleanedUp_of_leavesNothing (reach_outcome ?_ hrun)⟩
  intro σ i env job op next checked task
  simp only [registersIntoVacancy, task] at checked
  cases op with
  | getClientById why =>
    cases why with
    | registering msg =>
      exact fun clientId remains => absurd remains (not_remains_of_vacantRegistry checked)
    | _ => trivial
  | receive =>
    rintro tx ⟨t, at_i, channel⟩ panics
    cases task.symm.trans at_i
    cases job with
    | session tx' opt =>
      cases channel
      simp only [panics, Bool.not_true, Bool.false_eq_true] at checked
    | _ => cases channel
  | _ => trivial

/-- The channel of a session whose task is over. -/
def Scenario.finishedChannel (task : Task Op Ret Job) : Option Tx :=
  match task with
  | ⟨.session tx _, .done none⟩ => some tx
  | _ => none

/-- A session registers two ids one after the other. At its end only the second is disconnected:
the entry of the first still holds the channel. -/
theorem not_cleanedUp : ¬ ∀ σ : ServerConfig NoopSourceEventRepository,
    ReachIf Scenario.parse Scenario.timing ⟨⟩ anyOp σ → CleanedUp σ := by
  intro cleaned
  have left : (outcome (fun _ _ => true) ([opened] ++ registers 1 alice ++ registers 1 bob ++
      [turn 1, turn 1, turn 1, turn 1])).map
        (fun σ => (σ.tasks[1]?.bind finishedChannel, σ.world.state.txOf alice)) =
          some (some 0, some 0) := by
    decide +kernel
  obtain ⟨σ, run, hσ⟩ := Option.map_eq_some_iff.mp left
  obtain ⟨ended, connected⟩ := Prod.mk.inj hσ
  obtain ⟨task, at_1, ended⟩ := Option.bind_eq_some_iff.mp ended
  unfold finishedChannel at ended
  split at ended
  · cases ended
    exact cleaned σ (reach_anyOp run) 1 0 _ at_1 alice (.inl connected)
  · cases ended

end Scenario

end Revent
