import Revent.Laws.Effects

/-!
# The channels

What is put in a channel, as the trace shows it: `putIn` is every message a send was accepted for,
in order. What a client has not read yet is the end of it (`channels_reach`).

A channel gets around: entries of the registry hold it, lookups hand it to handlers, the timer and
the broadcasts copy it from the whole registry. Wherever it is held, its session was told of a
registration before (`AcknowledgedFirst`).
-/

namespace Revent

open Interleave (Event Trace Prog Machine Config Task)

/-! ## What is put in a channel -/

/-- The message an event puts in a channel. -/
def puts (tx : Tx) : Event Op Ret → Option ServerMessage
  | ⟨.send _ dest msg, .ok _⟩ => if dest = tx then some msg else none
  | _ => none

/-- The messages put in a channel, the first one first. -/
abbrev putIn (tx : Tx) (tr : Trace Op Ret) : List ServerMessage := Trace.shown (puts tx) tr

theorem putIn_cons {tx : Tx} {entry : Nat × Event Op Ret} {tr : Trace Op Ret} :
    putIn tx (entry :: tr) = putIn tx tr ++ (puts tx entry.2).toList := Trace.shown_cons

theorem puts_eq_some {tx : Tx} {ev : Event Op Ret} {msg : ServerMessage}
    (h : puts tx ev = some msg) : ∃ client, ev = ⟨.send client tx msg, .ok ()⟩ := by
  unfold puts at h
  split at h
  · split at h
    · rename_i same
      cases h
      cases same
      exact ⟨_, rfl⟩
    · cases h
  · cases h

section Channels

variable {R : Type} [Repository R] {op : Op} {env : Env R} {w w' : World R} {r : Ret op}

/-- A channel after an operation: a message was put at its end, or nothing was. -/
theorem channels_exec (h : exec op env w = some (r, w')) (tx : Tx) :
    w'.channels tx = w.channels tx ++ (puts tx ⟨op, r⟩).toList := by
  cases op with
  | send client dest msg =>
    simp only [exec] at h
    split at h
    · cases h
      by_cases here : dest = tx
      · subst here
        simp [puts]
      · simp [puts, here, Function.update_of_ne (Ne.symm here)]
    · cases h
      exact (List.append_nil _).symm
  | readClients event =>
    obtain ⟨l, -, heq⟩ := Option.map_eq_some_iff.mp h
    cases heq
    exact (List.append_nil _).symm
  | spawnBroadcast | dropClients =>
    cases h
    exact (List.append_nil _).symm
  | _ =>
    obtain ⟨s, rfl⟩ := exec_onState h trivial
    exact (List.append_nil _).symm

omit [Repository R] in
/-- The surroundings only read a channel. -/
theorem channels_move {x : Ext} {job : Option Job} (h : move x w = some (w', job)) (tx : Tx) :
    ∃ read, read ++ w'.channels tx = w.channels tx := by
  cases x with
  | openSession =>
    cases h
    exact ⟨[], rfl⟩
  | startBroadcast place =>
    obtain ⟨event, -, heq⟩ := Option.map_eq_some_iff.mp h
    cases heq
    exact ⟨[], rfl⟩
  | read dest =>
    cases h
    by_cases here : dest = tx
    · subst here
      refine ⟨(w.channels dest).take 1, ?_⟩
      simp only [Function.update_self, ← List.drop_one, List.take_append_drop]
    · exact ⟨[], by simp only [Function.update_of_ne (Ne.symm here), List.nil_append]⟩

variable {parse : String → Option Uuid} {timing : Timing} {repository : R}
  {cond : ServerConfig R → Nat → Env R → Op → Prop} {σ : ServerConfig R}

/-- **What a channel holds** is what was put in it and not read yet. -/
theorem channels_reach (reach : ReachIf parse timing repository cond σ) (tx : Tx) :
    ∃ read, read ++ σ.world.channels tx = putIn tx σ.trace := by
  refine Machine.Reach.invariant
    (fun w tr => ∃ read, read ++ w.channels tx = putIn tx tr) reach ⟨[], rfl⟩ ?_ ?_
  · rintro σ i env job op next r w - - - performed ⟨read, all⟩
    refine ⟨read, ?_⟩
    rw [channels_exec (serverExec_exec performed), putIn_cons, ← all, List.append_assoc]
  · rintro x w w' job tr moved ⟨read, all⟩
    obtain ⟨more, rest⟩ := channels_move moved tx
    exact ⟨read ++ more, by rw [List.append_assoc, rest, all]⟩

end Channels

/-! ## Who holds a channel -/

/-- The channel was told of a registration. -/
def Acknowledged (tx : Tx) (tr : Trace Op Ret) : Prop :=
  ∃ i client clientId, (i, ⟨.send client tx (.clientRegistered clientId), .ok ()⟩) ∈ tr

theorem Acknowledged.cons {tx : Tx} {tr : Trace Op Ret} {entry : Nat × Event Op Ret}
    (told : Acknowledged tx tr) : Acknowledged tx (entry :: tr) := by
  obtain ⟨i, client, clientId, mem⟩ := told
  exact ⟨i, client, clientId, List.mem_cons_of_mem _ mem⟩

/-- The message answers a registration. -/
def ServerMessage.AnswersRegistration : ServerMessage → Prop
  | .clientRegistered _ | .clientRegistrationFailed _ _ => True
  | _ => False

/-- The answer of an operation hands its task a channel of the registry. -/
inductive Hands (tx : Tx) : Event Op Ret → Prop
  | lookup {why : Lookup} {info : ClientInfo} (is : info.tx = tx) :
      Hands tx ⟨.getClientById why, some info⟩
  | snapshot {expiration : Duration} {txs : List (ClientId × Tx)} {clientId : ClientId}
      (mem : (clientId, tx) ∈ txs) : Hands tx ⟨.oldClients expiration, txs⟩
  | visit {event : SourceEvent} {clients : List (ClientId × ClientInfo)}
      {entry : ClientId × ClientInfo} (mem : entry ∈ clients) (is : entry.2.tx = tx) :
      Hands tx ⟨.readClients event, clients⟩

/-- A client still to visit is one of a snapshot. -/
theorem mem_toVisit {h : History} {clientId : ClientId} {tx : Tx}
    (mem : (clientId, tx) ∈ toVisit h) : ∃ ev ∈ h, Hands tx ev := by
  fun_induction toVisit h with
  | case1 => cases mem
  | case2 => exact ⟨_, List.mem_cons_self, .snapshot mem⟩
  | case3 _ _ _ _ ih =>
    obtain ⟨ev, hev, hands⟩ := ih (List.mem_of_mem_tail mem)
    exact ⟨ev, List.mem_cons_of_mem _ hev, hands⟩
  | case4 _ _ _ _ ih =>
    obtain ⟨ev, hev, hands⟩ := ih mem
    exact ⟨ev, List.mem_cons_of_mem _ hev, hands⟩

/-- **Where a channel comes from**: a send answers a registration, or its channel was handed to
the task by the registry. -/
theorem Site.hands_of_send {parse : String → Option Uuid} {timing : Timing} {job : Job}
    {h : History} {client : ClientId} {tx : Tx} {msg : ServerMessage}
    (site : Site parse timing job h (.send client tx msg)) :
    msg.AnswersRegistration ∨ ∃ ev ∈ h, Hands tx ev := by
  cases site with
  | rejecting | acknowledging => exact .inl trivial
  | @duplicated _ _ msg info =>
    exact .inr ⟨⟨.getClientById (.requester msg), some info⟩, by simp, .lookup rfl⟩
  | @unhandled _ _ msg info =>
    exact .inr ⟨⟨.getClientById (.requester msg), some info⟩, by simp, .lookup rfl⟩
  | @unsent _ _ msg info =>
    exact .inr ⟨⟨.getClientById (.requester msg), some info⟩, by simp, .lookup rfl⟩
  | forwarding | answer | saved | timeOut => exact .inr ⟨_, List.mem_cons_self, .lookup rfl⟩
  | heartbeat ready =>
    have visits : toVisit h = _ :: _ := congrArg Memory.toVisit ready.memory
    exact .inr (mem_toVisit (visits ▸ List.mem_cons_self))
  | broadcasting _ read mem => exact .inr ⟨_, read, .visit mem rfl⟩

/-- The invariant: the channels of the connected clients were told of a registration, and so were
all that the registry handed to a task; and before that a channel is put nothing in but answers to
registrations. -/
structure AcknowledgedFirst {R : Type} (s : State R) (tr : Trace Op Ret) : Prop where
  connected : ∀ {clientId tx}, s.txOf clientId = some tx → Acknowledged tx tr
  handed : ∀ {i ev tx}, (i, ev) ∈ tr → Hands tx ev → Acknowledged tx tr
  first : ∀ {later i client tx msg earlier},
    tr = later ++ (i, ⟨.send client tx msg, .ok ()⟩) :: earlier → ¬ msg.AnswersRegistration →
    Acknowledged tx earlier

section Acknowledged

variable {R : Type} [Repository R] {parse : String → Option Uuid} {timing : Timing}
  {σ : ServerConfig R} {i : Nat} {job : Job} {op : Op} {env : Env R} {r : Ret op} {w : World R}

/-- The registry hands out the channels of its entries. -/
theorem Hands.connected {tx : Tx} (hands : Hands tx ⟨op, r⟩)
    (hexec : exec op env σ.world = some (r, w)) :
    ∃ clientId, σ.world.state.txOf clientId = some tx := by
  cases hands with
  | @lookup why info is =>
    have found := (exec_getClientById hexec).1.symm
    exact ⟨why.clientId, State.txOf_eq_some.mpr ⟨info, found, is⟩⟩
  | @snapshot _ _ clientId mem => exact ⟨clientId, exec_oldClients hexec mem⟩
  | @visit _ _ entry mem is =>
    obtain ⟨l, hiter, heq⟩ := Option.map_eq_some_iff.mp hexec
    cases heq
    exact ⟨entry.1, State.txOf_eq_some.mpr ⟨entry.2, (HashMap.mem_iter hiter).mp mem, is⟩⟩

/-- Each operation keeps the invariant. -/
theorem AcknowledgedFirst.act (inv : AcknowledgedFirst σ.world.state σ.trace)
    (site : Site parse timing job (σ.trace.of i) op)
    (hexec : exec op env σ.world = some (r, w)) :
    AcknowledgedFirst w.state ((i, ⟨op, r⟩) :: σ.trace) where
  connected := by
    intro clientId tx connected
    rw [txOf_exec hexec] at connected
    cases op with
    | insertClient msg =>
      simp only [txAfter] at connected
      split at connected
      · -- the insertion follows the acknowledgement
        cases connected
        have told : ∃ client id, (⟨.send client msg.tx (.clientRegistered id), .ok ()⟩ :
            Event Op Ret) ∈ σ.trace.of i := by
          generalize σ.trace.of i = h at site
          cases site with
          | inserting => exact ⟨_, _, List.mem_cons_self⟩
        obtain ⟨client, id, mem⟩ := told
        exact Acknowledged.cons ⟨i, client, id, Trace.mem_of mem⟩
      · exact (inv.connected connected).cons
    | removeClient removed =>
      simp only [txAfter] at connected
      split at connected
      · cases connected
      · exact (inv.connected connected).cons
    | _ => exact (inv.connected connected).cons
  handed := by
    intro k ev tx mem hands
    rcases List.mem_cons.mp mem with heq | mem
    · cases heq
      obtain ⟨clientId, connected⟩ := hands.connected hexec
      exact (inv.connected connected).cons
    · exact (inv.handed mem hands).cons
  first := by
    intro later k client tx msg earlier htr other
    rcases Trace.cons_eq_append htr with ⟨-, heq, rfl⟩ | ⟨later', -, htail⟩
    · cases heq
      rcases site.hands_of_send with answers | ⟨ev, mem, hands⟩
      · exact absurd answers other
      · exact inv.handed (Trace.mem_of mem) hands
    · exact inv.first htail other

variable {repository : R} {cond : ServerConfig R → Nat → Env R → Op → Prop}

/-- Wherever a channel is held, it was told of a registration before. -/
theorem acknowledgedFirst (reach : ReachIf parse timing repository cond σ) :
    AcknowledgedFirst σ.world.state σ.trace :=
  state_invariant AcknowledgedFirst reach ⟨nofun, nofun, by simp⟩
    fun site _ hexec inv => inv.act site hexec

end Acknowledged

end Revent
