import Mathlib.Data.List.Count
import Mathlib.Data.List.Nodup

namespace Yvex.TwoPhase

open List Prod

/-! # Publication in two phases

Several participants prepare, and only when all of them could do so are they published. Otherwise
every one of them is aborted. -/

structure Participant (ε ω : Type) where
  prepare : ω → Except ε Unit × ω
  publish : ω → ω
  abort : ω → Except ε Unit × ω

inductive Call (ι : Type) where
  | prepare (party : ι)
  | publish (party : ι)
  | abort (party : ι)
deriving DecidableEq

structure Resolution (ε ω ι : Type) where
  outcome : Except ε Unit
  abortFailed : Bool
  world : ω
  calls : List (Call ι)

variable {ε ω ι γ : Type}

def firstFailure (first second : Except ε Unit) : Except ε Unit :=
  match first with
  | .ok () => second
  | .error failure => .error failure

def prepareAll : List (ι × Participant ε ω) → ω → Except ε Unit × ω × List (Call ι)
  | [], world => (.ok (), world, [])
  | (party, participant) :: others, world =>
    match participant.prepare world with
    | (.error failure, next) => (.error failure, next, [.prepare party])
    | (.ok (), next) =>
      let (outcome, last, calls) := prepareAll others next
      (outcome, last, .prepare party :: calls)

section

variable (parties : List (ι × Participant ε ω))

def publishAll (world : ω) : ω := parties.foldl (fun world party => party.2.publish world) world

def abortAll : List (ι × Participant ε ω) → ω → Except ε Unit × ω
  | [], world => (.ok (), world)
  | (_, participant) :: others, world =>
    let (outcome, next) := participant.abort world
    let (rest, last) := abortAll others next
    (firstFailure outcome rest, last)

variable (status : Except ε Unit)

def prepareUnless (parties : List (ι × Participant ε ω)) (world : ω) :
    Except ε Unit × ω × List (Call ι) :=
  match status with
  | .ok () => prepareAll parties world
  | .error failure => (.error failure, world, [])

def resolve (world : ω) : Resolution ε ω ι :=
  match prepareUnless status parties world with
  | (.ok (), prepared, calls) =>
    ⟨.ok (), false, publishAll parties prepared, calls ++ parties.map fun party => .publish party.1⟩
  | (.error failure, prepared, calls) =>
    let (aborted, last) := abortAll parties.reverse prepared
    ⟨firstFailure aborted (.error failure), !aborted.isOk, last,
      calls ++ parties.reverse.map fun party => .abort party.1⟩

end

/-- What a participant does to the committed contents. It can be published once it is ready. -/
structure Honours (content : ι → ω → γ) (staged base : ι → γ) (ready : ι → ω → Prop) (party : ι)
    (participant : Participant ε ω) : Prop where
  prepare_content : ∀ world other, content other (participant.prepare world).2 = content other world
  prepare_ready : ∀ world, (participant.prepare world).1 = .ok () →
    ready party (participant.prepare world).2
  prepare_others : ∀ world other, other ≠ party → ready other world →
    ready other (participant.prepare world).2
  publish_content : ∀ world, ready party world → content party (participant.publish world) =
    staged party
  publish_others : ∀ world other, other ≠ party →
    content other (participant.publish world) = content other world ∧
      (ready other world → ready other (participant.publish world))
  abort_content : ∀ world, content party (participant.abort world).2 = base party
  abort_others : ∀ world other, other ≠ party →
    content other (participant.abort world).2 = content other world

section Contract

variable {content : ι → ω → γ} {staged base : ι → γ} {ready : ι → ω → Prop}
  {parties : List (ι × Participant ε ω)} {world : ω}

theorem prepareAll_calls (parties : List (ι × Participant ε ω)) (world : ω) :
    ∀ call ∈ (prepareAll parties world).2.2, ∃ party, call = .prepare party := by
  induction parties generalizing world with
  | nil => exact nofun
  | cons entry others induction => ?_
  obtain ⟨party, participant⟩ := entry
  rw [prepareAll]
  split
  · intro call member
    exact ⟨party, mem_singleton.mp member⟩
  rename_i next _
  intro call member
  rcases mem_cons.mp member with first | later
  · exact ⟨party, first⟩
  · exact induction next call later

/-- What every preparation keeps. -/
theorem prepareAll_keeps {kept : ω → Prop}
    (each : ∀ entry ∈ parties, ∀ world, kept world → kept (entry.2.prepare world).2)
    (before : kept world) : kept (prepareAll parties world).2.1 := by
  induction parties generalizing world with
  | nil => exact before
  | cons entry others induction => ?_
  rw [forall_mem_cons] at each
  have keeps := each.1 world before
  rw [prepareAll]
  split
  · rename_i prepared
    rwa [prepared] at keeps
  rename_i prepared
  rw [prepared] at keeps
  exact induction each.2 keeps

section

variable (honours : ∀ entry ∈ parties, Honours content staged base ready entry.1 entry.2)

include honours

theorem prepareAll_content (other : ι) :
    content other (prepareAll parties world).2.1 = content other world := by
  refine @prepareAll_keeps _ _ _ _ world (content other · = content other world) ?_ rfl
  intro entry member state same
  rw [(honours entry member).prepare_content, same]

theorem prepareAll_others (apart : other ∉ parties.map fst) (before : ready other world) :
    ready other (prepareAll parties world).2.1 := by
  apply prepareAll_keeps _ before
  intro entry member state held
  have differs : other ≠ entry.1 := fun same => apart (mem_map.mpr ⟨entry, member, same.symm⟩)
  exact (honours entry member).prepare_others state other differs held

theorem prepareAll_ready
    (distinct : (parties.map fst).Nodup) (prepared : (prepareAll parties world).1 = .ok ()) :
    ∀ party ∈ parties.map fst, ready party (prepareAll parties world).2.1 := by
  induction parties generalizing world with
  | nil => exact nofun
  | cons entry others induction => ?_
  have first := honours _ mem_cons_self
  have rest := fun entry member => honours entry (mem_cons_of_mem _ member)
  obtain ⟨apart, distinct⟩ := nodup_cons.mp distinct
  rw [prepareAll] at prepared ⊢
  split at prepared
  · cases prepared
  rename_i next done
  have made := first.prepare_ready world (by rw [done])
  rw [done] at made
  intro other member
  rcases mem_cons.mp member with rfl | later
  · exact prepareAll_others rest apart made
  · exact induction rest distinct prepared other later

theorem publishAll_content (distinct : (parties.map Prod.fst).Nodup)
    (prepared : ∀ party ∈ parties.map fst, ready party world) (other : ι) :
    (other ∈ parties.map fst → content other (publishAll parties world) = staged other) ∧
      (other ∉ parties.map fst →
        content other (publishAll parties world) = content other world) := by
  induction parties generalizing world with
  | nil => exact ⟨nofun, fun _ => rfl⟩
  | cons entry others induction => ?_
  obtain ⟨party, participant⟩ := entry
  have first := honours _ mem_cons_self
  obtain ⟨apart, distinct⟩ := nodup_cons.mp distinct
  have later : ∀ member ∈ others.map fst, ready member (participant.publish world) := by
    grind [cases Honours]
  obtain ⟨inside, outside⟩ := induction
    (fun entry member => honours entry (mem_cons_of_mem _ member)) distinct later
  constructor
  · intro member
    rcases mem_cons.mp member with rfl | member
    · exact (outside apart).trans (first.publish_content world (prepared _ mem_cons_self))
    · exact inside member
  · intro missing
    rw [map_cons, mem_cons, not_or] at missing
    exact (outside missing.2).trans (first.publish_others world other missing.1).1

end

theorem abortAll_content (world : ω)
    (honours : ∀ entry ∈ parties, Honours content staged base ready entry.1 entry.2)
    (distinct : (parties.map fst).Nodup) (other : ι) :
    (other ∈ parties.map fst → content other (abortAll parties world).2 = base other) ∧
      (other ∉ parties.map fst →
        content other (abortAll parties world).2 = content other world) := by
  induction parties generalizing world with
  | nil => exact ⟨nofun, fun _ => rfl⟩
  | cons entry others induction => ?_
  obtain ⟨party, participant⟩ := entry
  have first := honours _ mem_cons_self
  obtain ⟨apart, distinct⟩ := nodup_cons.mp distinct
  obtain ⟨inside, outside⟩ := induction (participant.abort world).2
    (fun entry member => honours entry (mem_cons_of_mem _ member)) distinct
  constructor
  · intro member
    rcases mem_cons.mp member with rfl | member
    · exact (outside apart).trans (first.abort_content world)
    · exact inside member
  · intro missing
    rw [map_cons, mem_cons, not_or] at missing
    exact (outside missing.2).trans (first.abort_others world other missing.1)

end Contract

section Resolve

variable {content : ι → ω → γ} {staged base : ι → γ} {ready : ι → ω → Prop}
  {parties : List (ι × Participant ε ω)} {status : Except ε Unit} {world : ω}

structure Committed [DecidableEq ι] (content : ι → ω → γ) (staged : ι → γ) (parties : List ι)
    (resolution : Resolution ε ω ι) : Prop where
  outcome : resolution.outcome = .ok ()
  published : ∀ party ∈ parties, resolution.calls.count (.publish party) = 1
  aborted : ∀ party, resolution.calls.count (.abort party) = 0
  installed : ∀ party ∈ parties, content party resolution.world = staged party

structure RolledBack [DecidableEq ι] (content : ι → ω → γ) (base : ι → γ) (parties : List ι)
    (resolution : Resolution ε ω ι) : Prop where
  outcome : ∃ failure, resolution.outcome = .error failure
  published : ∀ party, resolution.calls.count (.publish party) = 0
  aborted : ∀ party ∈ parties, resolution.calls.count (.abort party) = 1
  restored : ∀ party, content party resolution.world = base party

theorem Committed.mono [DecidableEq ι] {resolution : Resolution ε ω ι} {fewer names : List ι}
    (committed : Committed content staged names resolution) (inside : fewer ⊆ names) :
    Committed content staged fewer resolution :=
  { committed with
    published := fun party member => committed.published party (inside member)
    installed := fun party member => committed.installed party (inside member) }

theorem RolledBack.mono [DecidableEq ι] {resolution : Resolution ε ω ι} {fewer names : List ι}
    (rolledBack : RolledBack content base names resolution) (inside : fewer ⊆ names) :
    RolledBack content base fewer resolution :=
  { rolledBack with aborted := fun party member => rolledBack.aborted party (inside member) }

theorem prepareUnless_calls (status : Except ε Unit) (parties : List (ι × Participant ε ω))
    (world : ω) :
    ∀ call ∈ (prepareUnless status parties world).2.2, ∃ party, call = .prepare party := by
  cases status with
  | ok _ => exact prepareAll_calls parties world
  | error _ => exact nofun

theorem prepareUnless_content (status : Except ε Unit) (world : ω)
    (honours : ∀ entry ∈ parties, Honours content staged base ready entry.1 entry.2)
    (distinct : (parties.map fst).Nodup) :
    (∀ party, content party (prepareUnless status parties world).2.1 = content party world) ∧
      ((prepareUnless status parties world).1 = .ok () →
        ∀ party ∈ parties.map fst, ready party (prepareUnless status parties world).2.1) := by
  cases status with
  | ok _ => exact ⟨prepareAll_content honours, prepareAll_ready honours distinct⟩
  | error _ => exact ⟨fun _ => rfl, nofun⟩

variable [DecidableEq ι] {call : Call ι}

theorem count_prepared {calls : List (Call ι)}
    (prepared : ∀ call ∈ calls, ∃ party, call = .prepare party)
    (other : ∀ party, call ≠ .prepare party) : calls.count call = 0 := by
  apply count_eq_zero.mpr
  intro member
  obtain ⟨party, equal⟩ := prepared call member
  exact other party equal

variable {make : ι → Call ι} {names : List ι}

theorem count_each (injective : Function.Injective make) (distinct : names.Nodup)
    (member : party ∈ names) : (names.map make).count (make party) = 1 := by
  rw [count_map_of_injective _ _ injective]
  exact count_eq_one_of_mem distinct member

theorem count_none (other : ∀ party, make party ≠ call) : (names.map make).count call = 0 := by
  apply count_eq_zero.mpr
  intro member
  obtain ⟨party, -, equal⟩ := mem_map.mp member
  exact other party equal

/-- A publication in two phases happens for every participant or for none. -/
theorem resolve_all_or_nothing
    (honours : ∀ entry ∈ parties, Honours content staged base ready entry.1 entry.2)
    (distinct : (parties.map fst).Nodup) (before : ∀ party, content party world = base party) :
    Committed content staged (parties.map fst) (resolve parties status world) ∨
      RolledBack content base (parties.map fst) (resolve parties status world) := by
  obtain ⟨kept, made⟩ := prepareUnless_content status world honours distinct
  have only := prepareUnless_calls status parties world
  rw [resolve]
  generalize prepareUnless status parties world = step at kept made only
  obtain ⟨outcome, prepared, calls⟩ := step
  have unpublished : ∀ party, calls.count (.publish party) = 0 :=
    fun party => count_prepared only fun _ => nofun
  have unaborted : ∀ party, calls.count (.abort party) = 0 :=
    fun party => count_prepared only fun _ => nofun
  cases outcome with
  | ok _ =>
    left
    have publishes : (parties.map fst).map Call.publish =
        parties.map fun party => .publish party.1 := map_map
    refine ⟨rfl, ?_, ?_, ?_⟩
    · intro party member
      rw [count_append, unpublished, Nat.zero_add, ← publishes]
      exact count_each (fun _ _ => Call.publish.inj) distinct member
    · intro party
      rw [count_append, unaborted, Nat.zero_add, ← publishes]
      exact count_none fun _ => nofun
    · intro party member
      exact (publishAll_content honours distinct (made rfl) party).1 member
  | error failure =>
    right
    have aborts : (parties.reverse.map fst).map Call.abort =
        parties.reverse.map fun party => .abort party.1 := map_map
    have backwards : (parties.reverse.map fst).Nodup := by
      rw [map_reverse]
      exact nodup_reverse.mpr distinct
    constructor
    · cases aborted : (abortAll parties.reverse prepared).1 with
      | ok _ => exact ⟨failure, by simp only [aborted]; rfl⟩
      | error other => exact ⟨other, by simp only [aborted]; rfl⟩
    · intro party
      rw [count_append, unpublished, Nat.zero_add, ← aborts]
      exact count_none fun _ => nofun
    · intro party member
      rw [count_append, unaborted, Nat.zero_add, ← aborts]
      apply count_each (fun _ _ => Call.abort.inj) backwards
      rwa [map_reverse, mem_reverse]
    · intro party
      obtain ⟨inside, outside⟩ := abortAll_content prepared
        (fun entry member => honours entry (mem_reverse.mp member)) backwards party
      by_cases member : party ∈ parties.reverse.map fst
      · exact inside member
      · exact (outside member).trans ((kept party).trans (before party))

omit [DecidableEq ι] in
/-- No one else is published or aborted than the participants. -/
theorem mem_names_of_called (called : call ∈ (resolve parties status world).calls)
    (ends : call = .publish party ∨ call = .abort party) : party ∈ parties.map fst := by
  have only := prepareUnless_calls status parties world
  rw [resolve] at called
  generalize prepareUnless status parties world = step at only called
  obtain ⟨outcome, prepared, calls⟩ := step
  have late : call ∉ calls := by
    grind
  cases outcome <;> simp [late] at called ⊢ <;> grind

end Resolve

end Yvex.TwoPhase
