import Revent.Interleave.Drain
import Revent.Laws.Staleness

/-!
# Quiescence

The server can always come to rest. A broadcast keeps the read guard of the connected clients while
it waits for room in a channel, and every handler waits for the guards, so a client that does not
read stops them all. The law is that nothing else does: from every configuration, whatever brought
it about, the server goes on to one in which every task has finished the pass it was in, every
broadcast that was spawned has run, and no guard is left. On the way no send is refused, no session
is opened and no task begins another pass; all it takes is that clients read, that the broadcasts
that were spawned start, and that a session that waits for a message receives something.

The order of the proof is the order of the run: the broadcasts first, which wait for nobody's guard;
then everyone else, who waits for the guards only; then the broadcasts these have spawned.
-/

namespace Revent

open Interleave (Event Trace Prog Machine Config Task)

variable {R : Type} [Repository R] {parse : String → Option Uuid} {timing : Timing}
  {repository : R} {σ : ServerConfig R}

/-- A send is accepted, and a session that waits for a message receives this. -/
def Accepting (received : Received) (env : Env R) : Prop :=
  env.delivered = true ∧ env.received = received

/-- A client reads, or a broadcast that was spawned starts. -/
def Ext.GoesOn : Ext → Prop
  | .read _ | .startBroadcast _ => True
  | .openSession => False

/-- What it takes: sends are accepted, clients read, spawned broadcasts start, and who waits for a
message receives this. -/
abbrev Obliging (received : Received) : ServerConfig R → ServerLabel R → Prop :=
  Machine.Under (Accepting received) Ext.GoesOn

/-- Every pass is over, every broadcast has run, and nobody holds the guard. -/
structure Quiescent (σ : ServerConfig R) : Prop where
  passes : ∀ (i : Nat) (t : Task Op Ret Job), σ.tasks[i]? = some t → ∃ next, t.prog = .done next
  unguarded : σ.world.guards = 0
  started : σ.world.spawned = []

/-! ## What an operation waits for -/

/-- The operation waits for the guards of the connected clients. -/
def Op.writesClients : Op → Bool
  | .updateLastSeen _ | .insertClient _ | .removeClient _ => true
  | _ => false

/-- What a client reads makes room in its channel. -/
theorem aside_reads (w : World R) (tx : Tx) (n : Nat) :
    ∃ w', (server R parse timing).Aside Ext.GoesOn w w' ∧ w'.channels tx = (w.channels tx).drop n ∧
      w'.guards = w.guards ∧ w'.spawned = w.spawned := by
  induction n with
  | zero => exact ⟨w, .refl, rfl, rfl, rfl⟩
  | succ n ih =>
    obtain ⟨w', aside, rest, guards, spawned⟩ := ih
    refine ⟨_, aside.step (x := .read tx) trivial rfl, ?_, guards, spawned⟩
    show Function.update w'.channels tx (w'.channels tx).tail tx = _
    rw [Function.update_self, rest, List.tail_drop]

/-- The environment of a step that accepts a send, with the maps' own orders. -/
def cooperative (env : Env R) (w : World R) : Env R :=
  { env with delivered := true, clientOrder := w.clients.keys, requestOrder := w.ongoing.keys }

theorem iter_keys {K V : Type} [Ord K] [Std.TransOrd K] [Std.LawfulEqOrd K] [DecidableEq K]
    (m : HashMap K V) : ∃ entries, HashMap.iter m m.keys = some entries := by
  simp [HashMap.iter]

/-- **Every operation can be performed** once nobody holds the guard that it waits for, after its
client has read, and with every send accepted. -/
theorem performable (env : Env R) (w : World R) (op : Op)
    (unguarded : op.writesClients = true → w.guards = 0) :
    ∃ w₁ done, (server R parse timing).Aside Ext.GoesOn w w₁ ∧ w₁.guards = w.guards ∧
      w₁.spawned = w.spawned ∧ serverExec op (cooperative env w) w₁ = some done := by
  have at_once (performs : ∃ done, serverExec op (cooperative env w) w = some done) :
      ∃ w₁ done, (server R parse timing).Aside Ext.GoesOn w w₁ ∧ w₁.guards = w.guards ∧
        w₁.spawned = w.spawned ∧ serverExec op (cooperative env w) w₁ = some done := by
    obtain ⟨done, performs⟩ := performs
    exact ⟨w, done, .refl, rfl, rfl, performs⟩
  have iterates {K V α : Type} [Ord K] [Std.TransOrd K] [Std.LawfulEqOrd K] [DecidableEq K]
      (m : HashMap K V) (f : List (K × V) → α) : ∃ a, (m.iter m.keys).map f = some a := by
    obtain ⟨entries, iterated⟩ := iter_keys m
    exact ⟨f entries, by rw [iterated, Option.map_some]⟩
  cases op with
  | send client tx msg =>
    obtain ⟨w₁, aside, empty, guards, spawned⟩ := aside_reads w tx (w.channels tx).length
    rw [List.drop_length] at empty
    have room : ¬ channelCapacity ≤ (w₁.channels tx).length := by simp [empty, channelCapacity]
    have performs :
        ∃ done, serverExec (.send client tx msg) (cooperative env w) w₁ = some done := by
      simp only [serverExec, exec]
      rw [if_neg fun full => room full.2,
        if_pos (show (cooperative env w).delivered = true from rfl)]
      exact ⟨_, rfl⟩
    obtain ⟨done, performs⟩ := performs
    exact ⟨w₁, done, aside, guards, spawned, performs⟩
  | updateLastSeen msg =>
    refine at_once ?_
    simp only [serverExec, exec]
    split
    · exact ⟨_, rfl⟩
    · exact ⟨_, if_pos (unguarded rfl)⟩
  | insertClient | removeClient => exact at_once ⟨_, if_pos (unguarded rfl)⟩
  | oldClients expiration =>
    obtain ⟨l, visits⟩ := iterates w.clients fun entries =>
      (entries.filter fun entry =>
        (cooperative env w).now - entry.2.lastSeen > expiration).map
          fun entry => (entry.1, entry.2.tx)
    exact at_once ⟨(l, w), congrArg (Option.map (·, w)) visits⟩
  | getExpiredRequests timeout =>
    obtain ⟨l, expired⟩ := iterates w.ongoing fun entries =>
      (entries.filter fun entry =>
        (cooperative env w).now - entry.2.createdAt > timeout).map Prod.snd
    exact at_once ⟨(l, w), congrArg (Option.map (·, w)) expired⟩
  | readClients event => exact at_once (iterates w.clients _)
  | _ => exact at_once ⟨_, rfl⟩

/-- An operation is enabled where its guard is free, if it keeps the invariant. -/
theorem enabled_of_kept (env : Env R) {op : Op} {Inv : World R → Prop}
    (unguarded : ∀ w, Inv w → op.writesClients = true → w.guards = 0)
    (aside : ∀ w w', w'.guards = w.guards → w'.spawned = w.spawned → Inv w → Inv w')
    (kept : ∀ {env r w w'}, exec op env w = some (r, w') → Inv w → Inv w') :
    (server R parse timing).Enabled (Accepting env.received) Ext.GoesOn Inv op := by
  intro w inv
  obtain ⟨w₁, ⟨r, w₂⟩, moved, guards, spawned, performs⟩ := performable env w op (unguarded w inv)
  refine ⟨w₁, cooperative env w, r, w₂, moved, ⟨rfl, rfl⟩, performs, ?_⟩
  exact kept (serverExec_exec performs) (aside w w₁ guards spawned inv)

/-! ## The broadcasts -/

/-- What a broadcast does waits for no guard, and spawns nothing. -/
theorem enabled_of_broadcast (env : Env R) (spawned : List SourceEvent) {op : Op}
    (of : op.ofBroadcast.isSome = true) :
    (server R parse timing).Enabled (Accepting env.received) Ext.GoesOn
      (fun w => w.spawned = spawned) op := by
  refine enabled_of_kept env ?_ ?_ ?_
  · intro w _ writes
    cases op with
    | updateLastSeen | insertClient | removeClient => cases of
    | _ => cases writes
  · exact fun w w' _ same inv => same.trans inv
  · intro env r w w' performed inv
    rw [spawned_exec performed, inv]
    cases op with
    | spawnBroadcast => cases of
    | _ => exact List.append_nil _

theorem flows_of_broadcast {event : SourceEvent} {p : Async (Option Job)} {h : History}
    (flows : p.Flows (Job.broadcast event).BroadcastSite (Job.broadcast event).BroadcastEnds h) :
    p.Flows (fun _ op => op.ofBroadcast.isSome = true) (fun _ _ => True) h := by
  refine (flows.mono_site fun _ _ site => ?_).mono fun _ _ _ => trivial
  rw [(site event rfl).ofBroadcast]
  rfl

/-- The loop of a broadcast. -/
def Job.isBroadcast : Job → Prop
  | .broadcast _ => True
  | _ => False

/-- A broadcast that is running can finish. -/
theorem flows_of_running {ok : ServerConfig R → ServerLabel R → Prop}
    (reach : (server R parse timing).Reach ok (initial parse timing repository) σ) (i : Nat)
    (t : Task Op Ret Job) (task : σ.tasks[i]? = some t) (selected : t.job.isBroadcast) :
    ∃ h, t.prog.Flows (fun _ op => op.ofBroadcast.isSome = true) (fun _ _ => True) h := by
  obtain ⟨job, prog⟩ := t
  cases job with
  | broadcast event => exact ⟨_, flows_of_broadcast ((broadcasting reach).flows i _ task)⟩
  | _ => exact selected.elim

/-! ## The others -/

/-- What the other tasks do waits for the guards only, and leaves them as they are. -/
theorem enabled_of_unguarded (env : Env R) {op : Op}
    (keeps : ∀ event, op ≠ .readClients event ∧ op ≠ .dropClients event) :
    (server R parse timing).Enabled (Accepting env.received) Ext.GoesOn
      (fun w => w.guards = 0) op := by
  refine enabled_of_kept env (fun w inv _ => inv) (fun w w' same _ inv => same.trans inv) ?_
  intro env r w w' performed inv
  rw [guards_exec performed]
  cases op with
  | readClients event => exact absurd rfl (keeps event).1
  | dropClients event => exact absurd rfl (keeps event).2
  | _ => exact inv

theorem flows_of_handler {ok : ServerConfig R → ServerLabel R → Prop}
    (reach : (server R parse timing).Reach ok (initial parse timing repository) σ) (i : Nat)
    (t : Task Op Ret Job) (task : σ.tasks[i]? = some t) (selected : ¬ t.job.isBroadcast) :
    ∃ h, t.prog.Flows
      (fun _ op => ∀ event, op ≠ .readClients event ∧ op ≠ .dropClients event)
      (fun _ _ => True) h := by
  refine ⟨_, (((flowing reach).flows i t task).mono_site fun _ op site event => ?_).mono
    fun _ _ _ => trivial⟩
  have other (is : op.ofBroadcast = some event) : False := by
    rw [site.of_broadcast is] at selected
    exact selected trivial
  exact ⟨fun same => other (same ▸ rfl), fun same => other (same ▸ rfl)⟩

/-! ## Coming to rest -/

/-- Where every pass is over, nobody holds the guard. -/
theorem unguarded_of_passes {ok : ServerConfig R → ServerLabel R → Prop}
    (reach : (server R parse timing).Reach ok (initial parse timing repository) σ)
    (passes : ∀ (i : Nat) (t : Task Op Ret Job), σ.tasks[i]? = some t → t.job.isBroadcast →
      ∃ next, t.prog = .done next) : σ.world.guards = 0 := by
  obtain ⟨holders, card, held⟩ := guards_held reach
  have nobody : holders = ∅ := by
    refine Finset.eq_empty_of_forall_notMem fun i mem => ?_
    obtain ⟨event, op, next, task, -⟩ := ((held i).mp mem).site reach
    obtain ⟨last, done⟩ := passes i _ task trivial
    cases done
  rw [← card, nobody, Finset.card_empty]

/-- Every pass is over. -/
def AtRestAll (σ : ServerConfig R) : Prop :=
  ∀ (i : Nat) (t : Task Op Ret Job), σ.tasks[i]? = some t → ∃ next, t.prog = .done next

/-- **The broadcasts that were spawned can run**, one after the other. -/
theorem starts_all (env : Env R) (passes : AtRestAll σ) :
    ∃ σ', (server R parse timing).Reach (Obliging env.received) σ σ' ∧ AtRestAll σ' ∧
      σ'.world.spawned = [] := by
  generalize waiting : σ.world.spawned = spawned
  induction spawned generalizing σ with
  | nil => exact ⟨σ, .init, passes, waiting⟩
  | cons event rest ih =>
    -- the first one in the queue starts, and runs to its end
    let begun : ServerConfig R := { σ with
      world := { σ.world with spawned := rest },
      tasks := σ.tasks ++ [(server R parse timing).start (.broadcast event)] }
    have moved : (server R parse timing).move (.startBroadcast 0) σ.world =
        some ({ σ.world with spawned := rest }, some (.broadcast event)) := by
      simp [server, move, waiting]
    have stepped : (server R parse timing).step σ (.ext (.startBroadcast 0)) = some begun :=
      Machine.step_of_move moved
    have task : begun.tasks[σ.tasks.length]? =
        some ((server R parse timing).start (.broadcast event)) := by
      rw [List.getElem?_append_right (Nat.le_refl _), Nat.sub_self]
      rfl
    have flows : (boot parse timing (.broadcast event)).Flows
        (fun _ op => op.ofBroadcast.isSome = true) (fun _ _ => True) [] :=
      flows_of_broadcast (boot_flows_broadcast (.broadcast event) [] fun _ _ => rfl)
    obtain ⟨σ₁, next, reach, spawned, tasks⟩ := Machine.finish
      (fun op => enabled_of_broadcast env rest) flows task rfl
    have passes₁ : AtRestAll σ₁ := by
      intro i t at_i
      rw [tasks] at at_i
      rcases Machine.getElem?_set_cases at_i with ⟨rfl, rfl⟩ | ⟨other, at_i⟩
      · exact ⟨next, rfl⟩
      · rw [List.getElem?_append] at at_i
        split at at_i
        · exact passes i t at_i
        · obtain ⟨hi, -⟩ := List.getElem?_eq_some_iff.mp at_i
          rw [List.length_singleton] at hi
          exact absurd (by omega) other
    have first : Obliging env.received σ (.ext (.startBroadcast 0) : ServerLabel R) := trivial
    obtain ⟨σ', more, passes', none⟩ := ih passes₁ spawned
    exact ⟨σ', .trans (.trans (.step .init first stepped) reach) more, passes', none⟩

/-- **Quiescence**: from every configuration the server goes on to rest, whatever the sessions that
wait for a message receive. -/
theorem quiescent_of_reach (env : Env R) (reach : ReachIf parse timing repository anyOp σ) :
    ∃ σ', (server R parse timing).Reach (Obliging env.received) σ σ' ∧ Quiescent σ' := by
  have goes {σ σ' : ServerConfig R}
      (run : (server R parse timing).Reach (Obliging env.received) σ σ')
      (reach : ReachIf parse timing repository anyOp σ) :
      ReachIf parse timing repository anyOp σ' :=
    Machine.Reach.trans reach (run.mono fun _ ℓ _ => free _ ℓ)
  -- the broadcasts that hold the guard, or are about to take it
  obtain ⟨σ₁, run₁, -, drained₁⟩ := Machine.drain Job.isBroadcast
    (fun op => enabled_of_broadcast env σ.world.spawned) (flows_of_running reach) rfl
  have unguarded₁ : σ₁.world.guards = 0 := by
    refine unguarded_of_passes (goes run₁ reach) fun i t task broadcasts => ?_
    exact (drained₁.cases task).resolve_right fun other => other.1 broadcasts
  -- everyone else
  obtain ⟨σ₂, run₂, unguarded₂, drained₂⟩ := Machine.drain (fun job => ¬ job.isBroadcast)
    (fun op => enabled_of_unguarded env) (flows_of_handler (goes run₁ reach)) unguarded₁
  have passes₂ : AtRestAll σ₂ := by
    intro i t task
    rcases drained₂.cases task with done | ⟨broadcasts, before⟩
    · exact done
    · exact (drained₁.cases before).resolve_right fun other => broadcasts other.1
  -- the broadcasts these have spawned
  obtain ⟨σ₃, run₃, passes₃, started⟩ := starts_all env passes₂
  have run := Machine.Reach.trans (Machine.Reach.trans run₁ run₂) run₃
  exact ⟨σ₃, run, passes₃, unguarded_of_passes (goes run reach) fun i t task _ => passes₃ i t task,
    started⟩

section Scenario

open Scenario

/-- While a broadcast holds the guard, the server is not at rest, and can come to rest. -/
theorem quiescent_publication : ∃ σ, published (fun _ _ => true) publication.dropLast = some σ ∧
    σ.world.guards = 1 ∧
      ∃ σ', (server RustLiteSourceEventRepository Scenario.parse Scenario.timing).Reach
        (Obliging .closed) σ σ' ∧ Quiescent σ' := by
  have one : (published (fun _ _ => true) publication.dropLast).map (·.world.guards) = some 1 := by
    decide +kernel
  obtain ⟨σ, run, guarded⟩ := Option.map_eq_some_iff.mp one
  refine ⟨σ, run, guarded, quiescent_of_reach (stored 0) (reach_published ?_ run)⟩
  exact fun _ _ _ _ _ _ _ _ => trivial

end Scenario

end Revent
