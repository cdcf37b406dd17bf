import Yvex.Foundation.Checked

namespace Yvex.Server

open List

/-! # Engine slots

A load reserves a slot under the manager's lock, builds the engine outside and writes it back; an
unload drains the engine and closes it. Each step is one stretch under the lock. -/

inductive EngineState where
  | unloaded
  | loading
  | loaded
  | draining
  | unloading
  | failed
deriving DecidableEq

/-- A slot has the alias of its engine, or none before its first load. -/
structure EngineSlot (α : Type) where
  name : Option α := none
  state : EngineState := .unloaded
  generation : Nat := 0

/-- The manager, with a record of the generations that it has given. -/
structure EngineManager (α : Type) where
  slots : List (EngineSlot α)
  nextGeneration : Nat := 1
  closing : Bool := false
  issued : List Nat := []

inductive EngineStep (α : Type) where
  | load (name : α)
  | loadEnd (slot : Nat) (opened : Bool)
  | unload (name : α) (generation : Nat) (live : Bool)
  | drained (slot : Nat)
  | unloadEnd (slot : Nat) (closed : Bool)
  | close

/-- The operations on the engine of a lease. -/
inductive LeaseOperation where
  | submit
  | execute
  | preflight
  | cancel
  | consoleStatus

def LeaseOperation.refusal : LeaseOperation → String
  | .submit => "live engine request queue lease is required"
  | .preflight => "live exact engine lease is required"
  | _ => "live engine lease is required"

namespace EngineManager

variable {α : Type} [DecidableEq α] (manager : EngineManager α)

def engineFind (name : α) : Option Nat := manager.slots.findIdx? fun slot => slot.name == some name

def stateIn (states : List EngineState) (index : Nat) : Bool :=
  manager.slots[index]?.any fun slot => states.contains slot.state

def engineReserve (name : α) : Option Nat :=
  match manager.engineFind name with
  | some index => if manager.stateIn [.unloaded, .failed] index then some index else none
  | none => manager.slots.findIdx? fun slot => slot.name.isNone || slot.state == .unloaded

/-- The first stretch of `yvex_server_engine_manager_load`. -/
def load (name : α) : Except Rejection (EngineManager α) := do
  require (manager.closing || !(manager.engineFind name).any (manager.stateIn [.loaded])) .state
    "engine already loaded; unload explicitly before changing residency"
  require (!manager.closing) .cancelled "engine manager is closing"
  let index ← orReject (manager.engineReserve name) .bounds
    "engine alias is active or capacity is full"
  return { manager with
    slots := manager.slots.set index ⟨some name, .loading, manager.nextGeneration⟩
    nextGeneration := (manager.nextGeneration + 1) % 2 ^ 64
    issued := manager.issued ++ [manager.nextGeneration] }

/-- The check of every operation; `serving` is that the slot has what the operation needs. -/
def leaseCheck (operation : LeaseOperation) (slot generation : Nat) (serving : Bool) :
    Except Rejection Unit :=
  require (manager.slots[slot]?.any (·.generation == generation) && serving) .state
    operation.refusal

def move (index : Nat) (expected next : EngineState) : EngineManager α :=
  { manager with
    slots := manager.slots.modify index fun slot =>
      if slot.state = expected then { slot with state := next } else slot }

def step : EngineStep α → EngineManager α
  | .load name => (manager.load name).toOption.getD manager
  | .loadEnd index opened => manager.move index .loading (if opened then .loaded else .failed)
  | .unload name generation live =>
    match manager.engineFind name with
    | some index =>
      -- Live sessions and model leases prevent an unload.
      if manager.slots[index]?.any (fun slot => generation == 0 || generation == slot.generation) &&
        !live then manager.move index .loaded .draining
      else manager
    | none => manager
  | .drained index => manager.move index .draining .unloading
  | .unloadEnd index closed => manager.move index .unloading (if closed then .unloaded else .failed)
  | .close => { manager with
      closing := true
      slots := manager.slots.map fun slot =>
        if slot.state = .loaded then { slot with state := .draining } else slot }

def run (steps : List (EngineStep α)) : EngineManager α := steps.foldl step manager

def opened (capacity : Nat) : EngineManager α where
  slots := replicate capacity {}

/-- The engines of other aliases that exist. -/
def active (name : α) : Nat :=
  manager.slots.countP fun slot => slot.name.isSome && slot.name != some name &&
    [.loading, .loaded, .draining, .unloading].contains slot.state

def names : List (Option α) := manager.slots.map EngineSlot.name

structure Sound (capacity : Nat) (manager : EngineManager α) : Prop where
  length : manager.names.length = capacity
  apart : ∀ (first second : Nat) (name : α), manager.names[first]? = some (some name) →
    manager.names[second]? = some (some name) → first = second
  next : manager.nextGeneration = (manager.issued.length + 1) % 2 ^ 64
  issued : manager.issued = (range manager.issued.length).map fun serial => (serial + 1) % 2 ^ 64

variable {manager} {capacity : Nat} {name : α}

omit [DecidableEq α] in
theorem sound_opened (capacity : Nat) : (opened capacity : EngineManager α).Sound capacity := by
  refine ⟨by simp [names, opened], ?_, rfl, rfl⟩
  intro first second name named
  simp [names, opened, getElem?_replicate] at named

theorem used_of_refused (working : manager.closing = false)
    (missing : manager.engineFind name = none) (refused : manager.load name = .error refusal)
    (member : slot ∈ manager.slots) :
    slot.name.isSome = true ∧ slot.name ≠ some name ∧ slot.state ≠ .unloaded := by
  have full : manager.engineReserve name = none := by
    cases reserved : manager.engineReserve name with
    | none => rfl
    | some index =>
      simp [EngineManager.load, working, missing, reserved, require, orReject, bind, Except.bind,
        pure, Except.pure] at refused
  rw [engineReserve, missing] at full
  have other := findIdx?_eq_none_iff.mp missing slot member
  have used := findIdx?_eq_none_iff.mp full slot member
  simp only [Bool.or_eq_false_iff, Option.isNone_eq_false_iff, beq_eq_false_iff_ne] at other used
  exact ⟨used.1, other, used.2⟩

variable (sound : manager.Sound capacity)

include sound

omit [DecidableEq α] in
theorem Sound.frame {slots : List (EngineSlot α)} (closing : Bool)
    (same : slots.map EngineSlot.name = manager.names) :
    Sound capacity { manager with slots, closing } := by
  rcases sound with ⟨length, apart, next, issued⟩
  rw [← same] at length apart
  exact ⟨length, apart, next, issued⟩

omit [DecidableEq α] in
theorem Sound.move (index : Nat) (expected next : EngineState) :
    (manager.move index expected next).Sound capacity := by
  refine sound.frame _ (ext_getElem? fun place => ?_)
  simp only [names, getElem?_map, getElem?_modify]
  cases manager.slots[place]? with
  | none => rfl
  | some slot =>
    by_cases here : index = place <;> by_cases moved : slot.state = expected <;> simp [here, moved]

theorem Sound.reserve_only (reserved : manager.engineReserve name = some index) (place : Nat)
    (named : manager.names[place]? = some (some name)) : place = index := by
  unfold engineReserve at reserved
  split at reserved
  · rename_i found
    split at reserved
    · cases reserved
      rcases findIdx?_eq_some_iff_getElem.mp found with ⟨bound, isNamed, _⟩
      apply sound.apart _ _ name named
      rw [names, getElem?_map, getElem?_eq_getElem bound]
      exact congrArg some (beq_iff_eq.mp isNamed)
    · cases reserved
  · rename_i missing
    rcases Option.map_eq_some_iff.mp ((getElem?_map ..).symm.trans named) with ⟨slot, held, same⟩
    have other := findIdx?_eq_none_iff.mp missing slot (mem_of_getElem? held)
    simp [same] at other

theorem Sound.load {after : EngineManager α} (ran : manager.load name = .ok after) :
    after.Sound capacity := by
  unfold EngineManager.load at ran
  simp only [Except.bind_eq_ok, orReject_eq_ok] at ran
  rcases ran with ⟨_, _, _, _, index, reserved, made⟩
  cases made
  have only := sound.reserve_only reserved
  refine ⟨by simpa [names] using sound.length, ?_, ?_, ?_⟩
  · intro first second other one two
    simp only [names, map_set, getElem?_set] at one two
    have old := sound.apart first second other
    have here := only first
    have there := only second
    grind [names]
  · simp only [sound.next, length_append, length_singleton]
    omega
  · simp only [length_append, length_singleton, range_succ, map_append, ← sound.issued, map_cons,
      map_nil, ← sound.next]

theorem Sound.step (step : EngineStep α) : (manager.step step).Sound capacity := by
  cases step with
  | load name =>
    rw [EngineManager.step]
    cases ran : manager.load name with
    | ok after => exact sound.load ran
    | error refusal => exact sound
  | unload name generation live =>
    rw [EngineManager.step]
    split
    · split
      · exact sound.move _ _ _
      · exact sound
    · exact sound
  | close =>
    apply sound.frame _
    rw [names, map_map]
    apply map_congr_left
    intro slot _
    dsimp only [Function.comp_apply]
    split <;> rfl
  | _ => exact sound.move _ _ _

theorem Sound.run (steps : List (EngineStep α)) : (manager.run steps).Sound capacity := by
  induction steps generalizing manager with
  | nil => exact sound
  | cons step steps induction => exact induction (sound.step step)

end EngineManager

variable {α : Type} [DecidableEq α]

end Yvex.Server
