import Revent.Laws.Effects

/-!
# Exclusive client ids

`handle_register_client_message` looks the id up, acknowledges, and inserts, in three sections.
Between the lookup that found nobody and the insertion the task is **registering** the id, and
nothing keeps a second task out: `get_client_by_id` sees the insertion only.

The law is that acknowledgements of one id alternate with removals of its entry. It holds in
every run in which no lookup lets a task in while another one is registering the same id, by
`OneAtATime`, and fails in a run of two sessions that look up before either inserts.
-/

namespace Revent

open Interleave (Event Trace Prog Machine Config Task)

variable {R : Type}

/-- The task's lookup found nobody with the id, or the id was acknowledged, and the entry is not
inserted yet. -/
inductive Registering (clientId : ClientId) : History → Prop
  | checked {msg : RegisterClientMessage} {h : History} (id : msg.clientId = clientId) :
      Registering clientId (⟨.getClientById (.registering msg), none⟩ :: h)
  | told {client : ClientId} {tx : Tx} {h : History} :
      Registering clientId (⟨.send client tx (.clientRegistered clientId), .ok ()⟩ :: h)

/-- `ClientRegistered` was sent for the id. -/
inductive Told (clientId : ClientId) : Event Op Ret → Prop
  | mk {client : ClientId} {tx : Tx} :
      Told clientId ⟨.send client tx (.clientRegistered clientId), .ok ()⟩

/-- An entry of the id was inserted, and later it was removed. -/
def Replaced (clientId : ClientId) (tr : Trace Op Ret) : Prop :=
  ∃ (k m : Nat) (msg : RegisterClientMessage), msg.clientId = clientId ∧
    List.Sublist [(k, ⟨.removeClient clientId, ()⟩), (m, ⟨.insertClient msg, ()⟩)] tr

/-- **Exclusive client ids**: between two acknowledgements of an id its entry came and went, and
an insertion finds no entry to overwrite. -/
structure ExclusiveIds (σ : ServerConfig R) : Prop where
  between : ∀ clientId later j ev between i ev' earlier, Told clientId ev → Told clientId ev' →
    σ.trace = later ++ (j, ev) :: between ++ (i, ev') :: earlier → Replaced clientId between
  fresh : ∀ (i : Nat) (job : Job) (msg : RegisterClientMessage) (next : Unit → Async (Option Job)),
    σ.tasks[i]? = some ⟨job, .act (.insertClient msg) next⟩ → σ.world.clients[msg.clientId]? = none

/-! ## One registration at a time -/

/-- The invariant: a registering task is the only one, its id has no entry, and since the last
acknowledgement of an id the entry is still to come, is there, or came and went. -/
structure OneAtATime (s : State R) (tr : Trace Op Ret) : Prop where
  alone : ∀ {clientId i j}, Registering clientId (tr.of i) → Registering clientId (tr.of j) → i = j
  absent : ∀ {clientId i}, Registering clientId (tr.of i) → s.txOf clientId = none
  since : ∀ {clientId recent i ev earlier}, Told clientId ev → tr = recent ++ (i, ev) :: earlier →
    (∃ k ev h, tr.of k = ev :: h ∧ Told clientId ev) ∨
      (s.txOf clientId ≠ none ∧
        ∃ m msg, msg.clientId = clientId ∧ (m, ⟨.insertClient msg, ()⟩) ∈ recent) ∨
      Replaced clientId recent
  between : ∀ {clientId later j ev between i ev' earlier}, Told clientId ev → Told clientId ev' →
    tr = later ++ (j, ev) :: between ++ (i, ev') :: earlier → Replaced clientId between

theorem Told.registering {clientId : ClientId} {ev : Event Op Ret} {h : History}
    (told : Told clientId ev) : Registering clientId (ev :: h) := by
  cases told
  exact .told

/-- A registering task is in the middle of its handler. -/
theorem Registering.goesOn {clientId : ClientId} {h : History}
    (now : Registering clientId h) : goesOn h = true := by
  cases now <;> rfl

theorem Replaced.cons {clientId : ClientId} {tr : Trace Op Ret} {entry : Nat × Event Op Ret}
    (h : Replaced clientId tr) : Replaced clientId (entry :: tr) := by
  obtain ⟨k, m, msg, hid, hsub⟩ := h
  exact ⟨k, m, msg, hid, hsub.cons entry⟩

theorem OneAtATime.initial {repository : R} : OneAtATime (.new repository) [] where
  alone := nofun
  absent := nofun
  since := by simp
  between := by simp

variable [Repository R] {parse : String → Option Uuid} {timing : Timing} {σ : ServerConfig R}
  {i : Nat} {job : Job} {op : Op} {env : Env R} {r : Ret op} {w : World R}

/-- The condition: a lookup finds nobody only while no other task is registering the id. -/
def RegistersAlone (σ : ServerConfig R) (i : Nat) (_ : Env R) : Op → Prop
  | .getClientById (.registering msg) => σ.world.clients[msg.clientId]? = none →
      ∀ j, j ≠ i → ¬ Registering msg.clientId (σ.trace.of j)
  | _ => True

/-- A task that starts or goes on registering is the only one, and the id has no entry. -/
theorem OneAtATime.enter {clientId : ClientId} (inv : OneAtATime σ.world.state σ.trace)
    (site : Site parse timing job (σ.trace.of i) op) (cond : RegistersAlone σ i env op)
    (hexec : exec op env σ.world = some (r, w))
    (now : Registering clientId (⟨op, r⟩ :: σ.trace.of i)) :
    (∀ j, j ≠ i → ¬ Registering clientId (σ.trace.of j)) ∧
      σ.world.state.txOf clientId = none := by
  cases now with
  | checked id =>
    have found := (exec_getClientById hexec).1.symm
    subst id
    exact ⟨cond found, State.txOf_eq_none.mpr found⟩
  | told =>
    have before : Registering clientId (σ.trace.of i) := by
      generalize σ.trace.of i = h at site
      cases site with
      | acknowledging => exact .checked rfl
      | @answer _ _ answer _ _ _ _ _ reply => cases answer <;> cases reply
    exact ⟨fun j hj other => hj (inv.alone other before), inv.absent before⟩

/-- An insertion is made by a task that sent the acknowledgement. -/
theorem Site.told_of_insertClient {msg : RegisterClientMessage} {h : History}
    (site : Site parse timing job h (.insertClient msg)) :
    ∃ ev h', h = ev :: h' ∧ Told msg.clientId ev := by
  cases site with
  | inserting => exact ⟨_, _, rfl, .mk⟩

/-- After the acknowledgement comes the insertion. -/
theorem Site.insertClient_of_told {clientId : ClientId} {ev : Event Op Ret} {h : History}
    (site : Site parse timing job (ev :: h) op) (told : Told clientId ev) :
    ∃ msg, op = .insertClient msg ∧ msg.clientId = clientId := by
  cases told with
  | mk =>
    cases site with
    | inserting => exact ⟨_, rfl, rfl⟩
    | @answered _ _ answer _ _ _ _ _ reply => cases answer <;> cases reply
    | handle hand => cases hand
    | receive ready | oldClients ready | heartbeat ready | getExpiredRequests ready
    | timingOut ready | readClients ready | broadcasting ready | dropClients ready =>
      exact ready.elim rfl

/-- What an operation makes of "since the last acknowledgement". -/
theorem OneAtATime.since_act {clientId : ClientId} {recent : Trace Op Ret}
    (site : Site parse timing job (σ.trace.of i) op)
    (hexec : exec op env σ.world = some (r, w))
    (since : (∃ k ev h, σ.trace.of k = ev :: h ∧ Told clientId ev) ∨
      (σ.world.state.txOf clientId ≠ none ∧
        ∃ m msg, msg.clientId = clientId ∧ (m, ⟨.insertClient msg, ()⟩) ∈ recent) ∨
      Replaced clientId recent) :
    (∃ k ev h, Trace.of ((i, ⟨op, r⟩) :: σ.trace) k = ev :: h ∧ Told clientId ev) ∨
      (w.state.txOf clientId ≠ none ∧
        ∃ m msg, msg.clientId = clientId ∧ (m, ⟨.insertClient msg, ()⟩) ∈ (i, ⟨op, r⟩) :: recent) ∨
      Replaced clientId ((i, ⟨op, r⟩) :: recent) := by
  rcases since with ⟨k, ev, h, hk, told⟩ | ⟨connected, m, msg, hid, hmem⟩ | replaced
  · by_cases hki : k = i
    · subst hki
      rw [hk] at site
      obtain ⟨msg, rfl, hid⟩ := site.insertClient_of_told told
      refine .inr (.inl ⟨?_, k, msg, hid, List.mem_cons_self⟩)
      rw [txOf_exec hexec]
      simp [txAfter, hid]
    · rw [← Trace.of_cons_ne σ.trace (Ne.symm hki) ⟨op, r⟩] at hk
      exact .inl ⟨k, ev, h, hk, told⟩
  · by_cases hop : op = .removeClient clientId
    · subst hop
      refine .inr (.inr ⟨i, m, msg, hid, ?_⟩)
      exact (List.singleton_sublist.mpr hmem).cons_cons _
    · refine .inr (.inl ⟨?_, m, msg, hid, List.mem_cons_of_mem _ hmem⟩)
      rw [txOf_exec hexec]
      unfold txAfter
      split
      · split <;> simp_all
      · rw [if_neg (fun e => hop (by rw [e]))]
        exact connected
      · exact connected
  · exact .inr (.inr replaced.cons)

omit [Repository R] in
/-- An acknowledgement is sent by a task whose lookup found nobody: no other task is in the
middle of acknowledging, and there is no entry. -/
theorem OneAtATime.replaced_of_told {clientId : ClientId} {recent : Trace Op Ret}
    (inv : OneAtATime σ.world.state σ.trace)
    (site : Site parse timing job (σ.trace.of i) op) (told : Told clientId ⟨op, r⟩)
    (since : (∃ k ev h, σ.trace.of k = ev :: h ∧ Told clientId ev) ∨
      (σ.world.state.txOf clientId ≠ none ∧
        ∃ m msg, msg.clientId = clientId ∧ (m, ⟨.insertClient msg, ()⟩) ∈ recent) ∨
      Replaced clientId recent) : Replaced clientId recent := by
  cases told with
  | mk =>
    obtain ⟨msg, h, hh, hid⟩ : ∃ msg h,
        σ.trace.of i = ⟨.getClientById (.registering msg), none⟩ :: h ∧
          msg.clientId = clientId := by
      generalize σ.trace.of i = h at site
      cases site with
      | acknowledging => exact ⟨_, _, rfl, rfl⟩
      | @answer _ _ answer _ _ _ _ _ reply => cases answer <;> cases reply
    have checked : Registering clientId (σ.trace.of i) := by
      rw [hh]
      exact .checked hid
    rcases since with ⟨k, ev, h', hk, told⟩ | ⟨connected, -⟩ | replaced
    · have other : Registering clientId (σ.trace.of k) := by
        rw [hk]
        exact told.registering
      cases inv.alone other checked
      rw [hh] at hk
      cases hk
      cases told
    · exact absurd (inv.absent checked) connected
    · exact replaced

/-- Each operation, under the condition, keeps the invariant. -/
theorem OneAtATime.act (inv : OneAtATime σ.world.state σ.trace)
    (site : Site parse timing job (σ.trace.of i) op) (cond : RegistersAlone σ i env op)
    (hexec : exec op env σ.world = some (r, w)) :
    OneAtATime w.state ((i, ⟨op, r⟩) :: σ.trace) where
  alone := by
    intro clientId a b ha hb
    rcases Trace.of_cons_cases (Registering clientId) ha with ⟨rfl, mine⟩ | ⟨hai, other⟩
    · rcases Trace.of_cons_cases (Registering clientId) hb with ⟨hbi, -⟩ | ⟨hbi, other⟩
      · exact hbi
      · exact absurd other ((inv.enter site cond hexec mine).1 b (Ne.symm hbi))
    · rcases Trace.of_cons_cases (Registering clientId) hb with ⟨rfl, mine⟩ | ⟨-, other'⟩
      · exact absurd other ((inv.enter site cond hexec mine).1 a (Ne.symm hai))
      · exact inv.alone other other'
  absent := by
    intro clientId a ha
    have before : σ.world.state.txOf clientId = none := by
      rcases Trace.of_cons_cases (Registering clientId) ha with ⟨-, ha⟩ | ⟨-, ha⟩
      · exact (inv.enter site cond hexec ha).2
      · exact inv.absent ha
    rw [txOf_exec hexec, before]
    cases op with
    | insertClient msg =>
      refine if_neg fun hid => ?_
      obtain ⟨ev, h, hh, told⟩ := site.told_of_insertClient
      have mine : Registering msg.clientId (σ.trace.of i) := by
        rw [hh]
        exact told.registering
      rcases Trace.of_cons_cases (Registering clientId) ha with ⟨-, ha⟩ | ⟨hai, ha⟩
      · cases ha
      · exact hai (inv.alone mine (hid ▸ ha))
    | removeClient removed => exact ite_self none
    | _ => rfl
  since := by
    intro clientId recent k ev earlier told htr
    rcases Trace.cons_eq_append htr with ⟨rfl, heq, -⟩ | ⟨recent', rfl, htail⟩
    · cases heq
      exact .inl ⟨i, _, _, Trace.of_cons_self _ _ _, told⟩
    · exact since_act site hexec (inv.since told htail)
  between := by
    intro clientId later j ev between k ev' earlier told told' htr
    rw [List.append_assoc, List.cons_append] at htr
    rcases Trace.cons_eq_append htr with ⟨-, heq, hrest⟩ | ⟨later', -, htail⟩
    · cases heq
      exact inv.replaced_of_told site told (inv.since told' hrest)
    · have before : σ.trace = later' ++ (j, ev) :: between ++ (k, ev') :: earlier := by
        simp only [htail, List.append_assoc, List.cons_append]
      exact inv.between told told' before

variable {repository : R}

/-- **Exclusive client ids**, in every run in which a lookup finds nobody only while no other
task is registering the id. -/
theorem exclusiveIds_of_registersAlone (reach : ReachIf parse timing repository RegistersAlone σ) :
    ExclusiveIds σ := by
  have inv : OneAtATime σ.world.state σ.trace :=
    state_invariant OneAtATime reach .initial fun site cond hexec inv => inv.act site cond hexec
  refine ⟨fun _ _ _ _ _ _ _ _ told told' => inv.between told told', ?_⟩
  intro i job msg next htask
  obtain ⟨ev, h, hh, told⟩ := (site_of_act (flowing reach) htask).told_of_insertClient
  refine State.txOf_eq_none.mp (inv.absent (i := i) ?_)
  rw [hh]
  exact told.registering

section Scenario

open Scenario

namespace Scenario

/-- A client registers, its session ends while another client registers, and the client registers
in another session, up to the insertion. -/
def comesBack : List (ServerLabel NoopSourceEventRepository) :=
  [opened, opened, opened] ++ registers 1 alice ++ [turn 1, hears 3 (register bob), turn 3, turn 3,
    turn 1, turn 3, turn 1, turn 3, turn 1, turn 3, hears 2 (register alice), turn 2, turn 2,
    turn 2]

/-- The lookups of registrations. -/
def looksUpToRegister : Op → Bool
  | .getClientById (.registering _) => true
  | _ => false

/-- The id an event acknowledges. -/
def acknowledgedId : Event Op Ret → Option ClientId
  | ⟨.send _ _ (.clientRegistered clientId), .ok _⟩ => some clientId
  | _ => none

/-- The ids that are acknowledged, the last one first. -/
def acknowledgedIds (tr : Trace Op Ret) : List ClientId :=
  tr.filterMap fun entry => acknowledgedId entry.2

theorem told_of_acknowledgedId {ev : Event Op Ret} {clientId : ClientId}
    (h : acknowledgedId ev = some clientId) : Told clientId ev := by
  unfold acknowledgedId at h
  split at h
  · cases h
    exact .mk
  · cases h

end Scenario

/-- A client comes back: its first session ends while another client registers, and then its second
session is acknowledged the id and about to insert it. -/
theorem exclusiveIds_return :
    ∃ σ, outcome (whileOthersRest looksUpToRegister) comesBack = some σ ∧
      acknowledgedIds σ.trace = [alice, bob, alice] ∧ ExclusiveIds σ := by
  have three : (outcome (whileOthersRest looksUpToRegister) comesBack).map
      (fun σ => acknowledgedIds σ.trace) = some [alice, bob, alice] := by
    decide +kernel
  obtain ⟨σ, hrun, told⟩ := Option.map_eq_some_iff.mp three
  refine ⟨σ, hrun, told, exclusiveIds_of_registersAlone (reach_outcome ?_ hrun)⟩
  intro σ i env job op next checked task
  cases op with
  | getClientById why =>
    cases why with
    | registering msg =>
      intro _ j hj registering
      have rest := (rest_of_whileOthersRest checked task rfl j hj).1
      exact rest.elim registering.goesOn
    | _ => trivial
  | _ => trivial

/-- Two sessions look the same id up before either inserts it: both are told that they are
registered, and nothing was removed in between. -/
theorem not_exclusiveIds : ¬ ∀ σ : ServerConfig NoopSourceEventRepository,
    ReachIf Scenario.parse Scenario.timing ⟨⟩ anyOp σ → ExclusiveIds σ := by
  intro exclusive
  have twice : (outcome (fun _ _ => true) [opened, opened, hears 1 (register alice), turn 1, turn 1,
      hears 2 (register alice), turn 2, turn 2, turn 1, turn 2]).map
        (fun σ => (σ.trace.map fun entry => acknowledgedId entry.2).take 2) =
          some [some alice, some alice] := by
    decide
  obtain ⟨σ, hrun, htold⟩ := Option.map_eq_some_iff.mp twice
  match htr : σ.trace with
  | (j, ev) :: (i, ev') :: earlier =>
    rw [htr] at htold
    obtain ⟨hev, hrest⟩ := List.cons.inj htold
    obtain ⟨k, m, msg, -, hsub⟩ := (exclusive σ (reach_anyOp hrun)).between alice [] j ev [] i ev'
      earlier (told_of_acknowledgedId hev) (told_of_acknowledgedId (List.cons.inj hrest).1) htr
    cases hsub
  | [] | [_] =>
    rw [htr] at htold
    exact absurd (congrArg List.length htold) (by simp)

end Scenario

end Revent
