import Revent.Interleave.Refinement

/-!
# A feed

A log that only grows, with readers: an entry is stored under the next number, its writer is told
once, and from then on it may be announced to each reader, once. A refused or a lost announcement
counts as made; in which order the entries are announced is free.

The feed knows an entry by its key and its number. Its laws are facts about every run of the
specification: the entries are numbered from one and announced to no reader twice (`wellFormed`),
and what is announced was stored and acknowledged before (`stored_before`).
-/

namespace Feed

open Interleave (SpecRun)

/-- What is seen of a feed. An acknowledgement shows the key and the number of its entry. -/
inductive Seen (Entry Key Reader : Type) where
  | stored (entry : Entry)
  | acknowledged (writer : Reader) (key : Key) (number : Nat)
  | announced (reader : Reader) (entry : Entry)

/-- A feed: its entries in order, the keys acknowledged, and what was announced to whom. -/
structure State (Entry Key Reader : Type) where
  log : List Entry
  acknowledged : List Key
  announced : List (Reader × Key)

/-- The feed nothing was stored in. -/
def State.empty {Entry Key Reader : Type} : State Entry Key Reader := ⟨[], [], []⟩

section Spec

variable {Entry Key Reader : Type} (key : Entry → Key) (number : Entry → Nat)

/-- **The steps of a feed.** -/
inductive Step : State Entry Key Reader → Seen Entry Key Reader → State Entry Key Reader → Prop
  | store {s : State Entry Key Reader} {entry : Entry} (next : number entry = s.log.length + 1)
      (fresh : key entry ∉ s.log.map key) :
      Step s (.stored entry) { s with log := s.log ++ [entry] }
  | acknowledge {s : State Entry Key Reader} {writer : Reader} {entry : Entry}
      (mem : entry ∈ s.log) (once : key entry ∉ s.acknowledged) :
      Step s (.acknowledged writer (key entry) (number entry))
        { s with acknowledged := s.acknowledged ++ [key entry] }
  | announce {s : State Entry Key Reader} {reader : Reader} {entry : Entry}
      (mem : entry ∈ s.log) (told : key entry ∈ s.acknowledged)
      (once : (reader, key entry) ∉ s.announced) :
      Step s (.announced reader entry)
        { s with announced := s.announced ++ [(reader, key entry)] }

/-- The runs of a feed. -/
abbrev Run : List (Seen Entry Key Reader) → State Entry Key Reader → Prop :=
  SpecRun (Step key number) .empty

/-- The entries are numbered from one and differ in their keys, and every key acknowledged is one
of theirs. -/
structure WellFormed (s : State Entry Key Reader) : Prop where
  numbers : s.log.map number = List.range' 1 s.log.length
  keys : (s.log.map key).Nodup
  acknowledged : ∀ k ∈ s.acknowledged, k ∈ s.log.map key
  told : s.acknowledged.Nodup
  announced : ∀ entry ∈ s.announced, entry.2 ∈ s.acknowledged
  once : s.announced.Nodup

variable {key number} {s s' : State Entry Key Reader} {label : Seen Entry Key Reader}
  {seen before after : List (Seen Entry Key Reader)} {entry : Entry} {reader : Reader}

theorem nodup_concat {α : Type} {xs : List α} {x : α} (once : xs.Nodup) (fresh : x ∉ xs) :
    (xs ++ [x]).Nodup := by
  rw [← List.concat_eq_append]
  exact List.Nodup.concat fresh once

/-- Each step keeps a feed well-formed. -/
theorem WellFormed.step (inv : WellFormed key number s) (step : Step key number s label s') :
    WellFormed key number s' := by
  obtain ⟨numbers, keys, acknowledged, told, announced, once⟩ := inv
  cases step with
  | store next fresh =>
    refine ⟨?_, ?_, ?_, told, announced, once⟩
    · simp only [List.map_append, numbers, List.map_cons, List.map_nil, next, List.length_append,
        List.length_singleton, List.range'_1_concat, Nat.add_comm 1]
    · rw [List.map_append]
      exact nodup_concat keys fresh
    · intro k mem
      rw [List.map_append]
      exact List.mem_append_left _ (acknowledged k mem)
  | acknowledge mem first =>
    refine ⟨numbers, keys, ?_, nodup_concat told first, ?_, once⟩
    · intro k hk
      rcases List.mem_append.mp hk with hk | hk
      · exact acknowledged k hk
      · rw [List.mem_singleton.mp hk]
        exact List.mem_map_of_mem mem
    · exact fun entry hentry => List.mem_append_left _ (announced entry hentry)
  | announce mem heard first =>
    refine ⟨numbers, keys, acknowledged, told, ?_, nodup_concat once first⟩
    intro entry hentry
    rcases List.mem_append.mp hentry with hentry | hentry
    · exact announced entry hentry
    · rw [List.mem_singleton.mp hentry]
      exact heard

/-- **A feed is well-formed.** -/
theorem wellFormed (run : Run key number seen s) : WellFormed key number s :=
  run.invariant (fun _ s => WellFormed key number s)
    ⟨rfl, List.nodup_nil, nofun, List.nodup_nil, nofun, List.nodup_nil⟩
    fun step inv => inv.step step

/-- **The log only grows.** -/
theorem log_grows (run : SpecRun (Step key number) s seen s') : s.log <+: s'.log := by
  refine run.related (fun s s' => s.log <+: s'.log) (fun s => List.prefix_refl s.log)
    List.IsPrefix.trans ?_
  intro label s s' step
  cases step with
  | store => exact List.prefix_append _ _
  | acknowledge | announce => exact List.prefix_rfl

/-- What is in the log was seen being stored. -/
theorem stored_of_log (run : Run key number seen s) (mem : entry ∈ s.log) :
    .stored entry ∈ seen := by
  refine run.invariant (fun seen s => ∀ entry ∈ s.log, .stored entry ∈ seen) nofun ?_ entry
    mem
  intro seen label s s' step inv entry mem
  cases step with
  | store =>
    rcases List.mem_append.mp mem with mem | mem
    · exact List.mem_append_left _ (inv entry mem)
    · rw [List.mem_singleton.mp mem]
      exact List.mem_append_right _ List.mem_cons_self
  | acknowledge | announce => exact List.mem_append_left _ (inv entry mem)

/-- What is acknowledged was seen being acknowledged. -/
theorem seen_of_acknowledged (run : Run key number seen s) {k : Key} (mem : k ∈ s.acknowledged) :
    ∃ writer n, .acknowledged writer k n ∈ seen := by
  refine run.invariant
    (fun seen s => ∀ k ∈ s.acknowledged, ∃ writer n, .acknowledged writer k n ∈ seen)
    nofun ?_ k mem
  intro seen label s s' step inv k mem
  have old (mem : k ∈ s.acknowledged) : ∃ writer n, .acknowledged writer k n ∈ seen ++ [label] := by
    obtain ⟨writer, n, found⟩ := inv k mem
    exact ⟨writer, n, List.mem_append_left _ found⟩
  cases step with
  | acknowledge =>
    rcases List.mem_append.mp mem with mem | mem
    · exact old mem
    · rw [List.mem_singleton.mp mem]
      exact ⟨_, _, List.mem_append_right _ List.mem_cons_self⟩
  | store | announce => exact old mem

/-- **What is announced was stored and acknowledged before.** -/
theorem stored_before (run : Run key number (before ++ .announced reader entry :: after) s) :
    .stored entry ∈ before ∧ ∃ writer n, .acknowledged writer (key entry) n ∈ before := by
  obtain ⟨s₁, s₂, first, step, -⟩ := run.split
  cases step with
  | announce mem told => exact ⟨stored_of_log first mem, seen_of_acknowledged first told⟩

/-- What is announced, or acknowledged, is in the log for good. -/
theorem mem_log (run : Run key number seen s) :
    (∀ reader entry, .announced reader entry ∈ seen → entry ∈ s.log) ∧
      ∀ writer k n, .acknowledged writer k n ∈ seen → ∃ entry ∈ s.log, key entry = k ∧
        number entry = n := by
  constructor
  · intro reader entry mem
    obtain ⟨before, after, rfl⟩ := List.append_of_mem mem
    obtain ⟨s₁, s₂, -, step, rest⟩ := run.split
    cases step with
    | announce found => exact (log_grows rest).subset found
  · intro writer k n mem
    obtain ⟨before, after, rfl⟩ := List.append_of_mem mem
    obtain ⟨s₁, s₂, -, step, rest⟩ := run.split
    cases step with
    | acknowledge found => exact ⟨_, (log_grows rest).subset found, rfl, rfl⟩

end Spec

end Feed
