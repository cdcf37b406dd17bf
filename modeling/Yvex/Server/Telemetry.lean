import Mathlib.Data.List.MinMax
import Mathlib.Data.List.Nodup
import Yvex.Foundation.Checked
import Yvex.Foundation.Reachability

namespace Yvex.Server

open Function List

/-! # The history of events

A call runs under the mutex of the telemetry, apart from the wait in `yvex_server_telemetry_next`.
Of an event the model has its sequence and its kind. -/

/-- `other` stands for the kinds that are kept under pressure. -/
inductive EventKind where
  | prefillProgress | generationFragment | generationProgress | generationProfile
  | draftStarted | draftCompleted | verificationStarted | verificationCompleted | prefixAccepted
  | candidateRejected | speculativeCycleCommitted | telemetryDropped
  | other (kind : Nat)

def EventKind.replaceableUnderPressure : EventKind → Bool
  | .telemetryDropped | .other _ => false
  | _ => true

structure ServerEvent where
  sequence : Nat
  kind : EventKind

structure Subscriber where
  /-- The last sequence that it has received. -/
  after : Nat := 0
  waiting : Bool := false
  received : List Nat := []
  /-- A call with `wait` set has returned an error while the telemetry was not closing. -/
  turnedAway : Bool := false

structure ServerTelemetry where
  capacity : Nat
  /-- The slots in use. -/
  events : List ServerEvent := []
  nextSequence : Nat := 1
  dropNoticeSequence : Nat := 0
  closing : Bool := false
  subscriber : Nat → Subscriber := fun _ => {}

inductive TelemetryStep where
  /-- `direct` when the caller takes the event. -/
  | emit (kind : EventKind) (direct : Bool)
  /-- A subscriber calls, or its call goes on behind the wait. -/
  | next (subscriber : Nat) (wait : Bool)
  | close

namespace ServerTelemetry

section

variable (telemetry : ServerTelemetry)

/-- The loop of `event_oldest_slot_locked` and that of `yvex_server_telemetry_next`. -/
def oldest (wanted : ServerEvent → Bool) : Option ServerEvent :=
  (telemetry.events.filter wanted).argmin ServerEvent.sequence

/-- The slot that `event_append_locked` chooses: one that is not in use, or that of an event. -/
def slotFor (kind : EventKind) : Option (Option ServerEvent) :=
  if telemetry.events.length < telemetry.capacity then some none
  else
    match telemetry.oldest (·.kind.replaceableUnderPressure) with
    | some held => some held
    | none =>
      if kind.replaceableUnderPressure then none
      else (telemetry.oldest fun _ => true).map some

def retain (event : ServerEvent) : Option ServerEvent → ServerTelemetry
  | none => { telemetry with events := telemetry.events ++ [event] }
  | some held => { telemetry with
      dropNoticeSequence :=
        if held.sequence = telemetry.dropNoticeSequence then 0 else telemetry.dropNoticeSequence
      events := telemetry.events.map fun other =>
        if other.sequence = held.sequence then event else other }

def dropNoticeUpdate : ServerTelemetry :=
  if telemetry.events.any (·.sequence == telemetry.dropNoticeSequence) then
    { telemetry with events := telemetry.events.map fun event =>
        if event.sequence = telemetry.dropNoticeSequence then
          { event with kind := .telemetryDropped }
        else event }
  else { telemetry with dropNoticeSequence := 0 }

def emit (kind : EventKind) (direct : Bool) : ServerTelemetry :=
  let full := telemetry.events.length == telemetry.capacity
  let creatingDropNotice := full && kind.replaceableUnderPressure &&
    telemetry.dropNoticeSequence == 0 &&
    (telemetry.oldest (·.kind.replaceableUnderPressure)).isSome
  let kind := if creatingDropNotice then .telemetryDropped else kind
  let taken := if direct then telemetry.nextSequence + 1 else telemetry.nextSequence
  let updated := if full then telemetry.dropNoticeUpdate else telemetry
  match updated.slotFor kind with
  | none => { updated with nextSequence := taken }
  | some slot =>
    -- a notice does not keep the sequence of the event that it stands for
    let sequence := if direct && !creatingDropNotice then telemetry.nextSequence else taken
    let retained := updated.retain { sequence, kind } slot
    { retained with
      nextSequence := sequence + 1
      dropNoticeSequence := if creatingDropNotice then sequence else retained.dropNoticeSequence }

def next (subscriber : Subscriber) (wait : Bool) : Subscriber :=
  if wait ∧ telemetry.closing = false ∧ telemetry.nextSequence - 1 ≤ subscriber.after then
    { subscriber with waiting := true }
  else
    match telemetry.oldest (subscriber.after < ·.sequence) with
    | some event => { subscriber with
        after := event.sequence
        waiting := false
        received := event.sequence :: subscriber.received }
    | none => { subscriber with
        waiting := false
        turnedAway := subscriber.turnedAway || wait && !telemetry.closing }

def step : TelemetryStep → ServerTelemetry
  | .emit kind direct => if telemetry.closing then telemetry else telemetry.emit kind direct
  | .next index wait =>
    let caller := telemetry.subscriber index
    if telemetry.closing ∧ caller.waiting = false then telemetry
    else { telemetry with
      subscriber := update telemetry.subscriber index
        (telemetry.next caller (wait || caller.waiting)) }
  | .close => { telemetry with closing := true }

/-- The next event leaves the sequence below its 64 bits, where it is counted as here. -/
abbrev Countable : Prop := telemetry.nextSequence + 2 ≤ u64Max

/-- The sequence can count, and an event that its caller takes as well finds a slot. -/
def Roomy : TelemetryStep → Prop
  | .emit kind direct => telemetry.Countable ∧
    (direct = true → kind.replaceableUnderPressure = true →
      telemetry.events.length < telemetry.capacity ∨
        ∃ event ∈ telemetry.events, event.kind.replaceableUnderPressure = true)
  | _ => True

/-- What a subscriber has received, newest first, is in order and has every event of its past that
is retained, and it has not been turned away. -/
structure Orderly (subscriber : Subscriber) : Prop where
  increasing : subscriber.received.Pairwise (· > ·)
  unskipped : ∀ event ∈ telemetry.events, event.sequence ≤ subscriber.after →
    event.sequence ∈ subscriber.received
  welcome : subscriber.turnedAway = false

structure Kept : Prop where
  positive : 0 < telemetry.capacity
  numbered : ∀ event ∈ telemetry.events, 0 < event.sequence ∧
    event.sequence < telemetry.nextSequence
  newest : telemetry.nextSequence = 1 ∨
    ∃ event ∈ telemetry.events, event.sequence + 1 = telemetry.nextSequence
  notice : telemetry.dropNoticeSequence < telemetry.nextSequence ∧ ∀ event ∈ telemetry.events,
    event.sequence = telemetry.dropNoticeSequence → event.kind = .telemetryDropped
  orderly : ∀ reader, telemetry.Orderly (telemetry.subscriber reader)
  behind : ∀ reader, (telemetry.subscriber reader).after < telemetry.nextSequence ∧
    ∀ sequence ∈ (telemetry.subscriber reader).received,
      sequence ≤ (telemetry.subscriber reader).after

end

variable {telemetry : ServerTelemetry}

theorem oldest_eq_some (found : telemetry.oldest wanted = some held) :
    held ∈ telemetry.events ∧ wanted held = true ∧
      ∀ event ∈ telemetry.events, wanted event = true → held.sequence ≤ event.sequence := by
  have member := mem_filter.mp (argmin_mem found)
  refine ⟨member.1, member.2, fun event retained fits => ?_⟩
  exact le_of_mem_argmin (mem_filter.mpr ⟨retained, fits⟩) found

theorem oldest_eq_none : telemetry.oldest wanted = none ↔
    ∀ event ∈ telemetry.events, wanted event = false := by
  simp [oldest]

theorem slotFor_eq_some (found : telemetry.slotFor kind = some (some held)) :
    telemetry.capacity ≤ telemetry.events.length ∧ held ∈ telemetry.events ∧
      (held.kind.replaceableUnderPressure = false →
        ∀ event ∈ telemetry.events, event.kind.replaceableUnderPressure = false) := by
  grind [slotFor, Option.map_eq_some_iff, oldest_eq_some, oldest_eq_none]

theorem slotFor_eq_none (positive : 0 < telemetry.capacity) (full : telemetry.slotFor kind = none) :
    kind.replaceableUnderPressure = true ∧ telemetry.capacity ≤ telemetry.events.length ∧
      ∀ event ∈ telemetry.events, event.kind.replaceableUnderPressure = false := by
  have empty : (telemetry.oldest fun _ => true) = none → telemetry.events = [] := by
    simp [oldest_eq_none, eq_nil_iff_forall_not_mem]
  grind [slotFor, Option.map_eq_none_iff, oldest_eq_none]

theorem dropNoticeUpdate_eq (notice : ∀ event ∈ telemetry.events,
      event.sequence = telemetry.dropNoticeSequence → event.kind = .telemetryDropped) :
    telemetry.dropNoticeUpdate =
      if telemetry.events.any (·.sequence == telemetry.dropNoticeSequence) then telemetry
      else { telemetry with dropNoticeSequence := 0 } := by
  rw [dropNoticeUpdate, map_congr_left, map_id]
  rintro ⟨sequence, kind⟩ retained
  grind [notice _ retained]

theorem mem_retain (found : ∀ held ∈ slot, held ∈ telemetry.events) :
    event ∈ (telemetry.retain event slot).events := by
  cases slot with
  | none => simp [retain]
  | some held => exact mem_map.mpr ⟨held, found held rfl, if_pos rfl⟩

theorem Kept.retain {sequence : Nat} (kept : telemetry.Kept)
    (found : ∀ held ∈ slot, held ∈ telemetry.events)
    (later : telemetry.nextSequence ≤ sequence)
    (notice : dropNotice = (telemetry.retain { sequence, kind } slot).dropNoticeSequence ∨
      dropNotice = sequence ∧ kind = .telemetryDropped) :
    Kept { telemetry.retain { sequence, kind } slot with
      nextSequence := sequence + 1
      dropNoticeSequence := dropNotice } := by
  rcases kept with ⟨positive, numbered, newest, notice', orderly, behind⟩
  constructor
  case newest => exact .inr ⟨_, mem_retain found, rfl⟩
  all_goals cases slot <;> simp only [ServerTelemetry.retain] at * <;> grind [Orderly]

theorem Kept.emit (kept : telemetry.Kept) (roomy : telemetry.Roomy (.emit kind direct)) :
    (telemetry.emit kind direct).Kept := by
  have updated : ∃ sequence, (sequence = 0 ∨ sequence = telemetry.dropNoticeSequence) ∧
      (if telemetry.events.length == telemetry.capacity then telemetry.dropNoticeUpdate
        else telemetry) = { telemetry with dropNoticeSequence := sequence } := by
    rw [dropNoticeUpdate_eq kept.notice.2]
    split_ifs
    · exact ⟨_, .inr rfl, rfl⟩
    · exact ⟨0, .inl rfl, rfl⟩
    · exact ⟨_, .inr rfl, rfl⟩
  obtain ⟨sequence, notice, same⟩ := updated
  have kept' : Kept { telemetry with dropNoticeSequence := sequence } := by
    rcases kept with ⟨positive, numbered, newest, notice', orderly, behind⟩
    constructor <;> grind [Orderly]
  simp only [ServerTelemetry.emit, same]
  split
  · rename_i none
    have full := slotFor_eq_none kept'.positive none
    have indirect : direct = false := by grind [Roomy]
    rw [indirect]
    exact kept'
  rename_i slot found
  apply kept'.retain
  · rintro held rfl
    exact (slotFor_eq_some found).2.1
  · grind
  · grind

theorem Kept.step (kept : telemetry.Kept) (roomy : telemetry.Roomy action) :
    (telemetry.step action).Kept := by
  have unchanged := kept
  rcases kept with ⟨positive, numbered, newest, notice, orderly, behind⟩
  cases action with
  | emit kind direct => grind [ServerTelemetry.step, Kept.emit]
  | next index wait =>
    simp only [ServerTelemetry.step, ServerTelemetry.next]
    split
    · exact unchanged
    split
    · constructor <;> grind [Orderly, update_apply]
    split
    · have first := oldest_eq_some (by assumption)
      constructor <;> grind [Orderly, update_apply, pairwise_cons]
    · have passed := oldest_eq_none.mp (by assumption)
      constructor <;> grind [Orderly, update_apply]
  | close => constructor <;> simp only [ServerTelemetry.step] <;> grind [Orderly]

theorem subscribers_orderly {capacity : Nat} (positive : 0 < capacity)
    (reached : Reaches step Roomy { capacity } telemetry) (reader : Nat) :
    telemetry.Orderly (telemetry.subscriber reader) := by
  have kept : Kept telemetry :=
    reached.kept ⟨positive, by simp, by simp, by simp, fun _ => ⟨by simp, by simp, rfl⟩, by simp⟩
      fun kept => kept.step
  exact kept.orderly reader

/-- The third event becomes a notice that takes the slot of the second, which its caller alone
receives. -/
theorem subscribers_orderly_received :
    let telemetry := [TelemetryStep.emit (.other 0) false, .next 0 true,
      .emit .generationProgress true, .emit .generationProgress true, .next 0 true,
      .next 0 true].foldl step { capacity := 2 }
    telemetry.Orderly (telemetry.subscriber 0) ∧ telemetry.events.map (·.sequence) = [1, 4] ∧
      (telemetry.subscriber 0).received = [4, 1] := by
  have retained : Reaches step Roomy { capacity := 2 } _ :=
    .next (TelemetryStep.emit (.other 0) false) .start ⟨by decide, nofun⟩
  have full := (retained.next (TelemetryStep.next 0 true) trivial).next
    (TelemetryStep.emit .generationProgress true) ⟨by decide, fun _ _ => .inl (by decide)⟩
  have evicted := full.next (TelemetryStep.emit .generationProgress true)
    ⟨by decide, fun _ _ => .inr ⟨⟨2, .generationProgress⟩, .tail _ (.head _), rfl⟩⟩
  have received := (evicted.next (TelemetryStep.next 0 true) trivial).next
    (TelemetryStep.next 0 true) trivial
  exact ⟨subscribers_orderly Nat.two_pos received 0, rfl, rfl⟩

/-- The sequence of a progress event is taken, but the event finds no slot: a subscriber that waits
for the next event is not left to wait. -/
theorem subscriber_turnedAway :
    let telemetry := [TelemetryStep.emit (.other 0) false, .next 0 true,
      .emit .generationProgress true, .next 0 true].foldl step { capacity := 1 }
    ¬ telemetry.Orderly (telemetry.subscriber 0) :=
  fun orderly => by cases orderly.welcome

structure Account extends ServerTelemetry where
  emitted : Nat := 0
  /-- `metrics.telemetry_dropped`. -/
  dropped : Nat := 0
  /-- The `value_a` that `event_drop_notice` gave to an event, by its sequence. -/
  value : Nat → Option Nat := fun _ => none

def Account.emit (account : Account) (event : EventKind × Bool) : Account :=
  let telemetry := account.toServerTelemetry.emit event.1 event.2
  let emitted := account.emitted + 1
  if account.events.length = account.capacity then
    let dropped := account.dropped + 1
    { telemetry with
      emitted, dropped
      value := update account.value telemetry.dropNoticeSequence (some dropped) }
  else { account with toServerTelemetry := telemetry, emitted }

/-- An event that `event_drop_notice` has made, whatever its callers emit. -/
def Account.isNotice (account : Account) (event : ServerEvent) : Bool :=
  (account.value event.sequence).isSome

structure Balanced (account : Account) : Prop where
  sized : account.events.length ≤ account.capacity
  numbered : ∀ event ∈ account.events, 0 < event.sequence ∧ event.sequence < account.nextSequence
  distinct : (account.events.map ServerEvent.sequence).Nodup
  recent : account.dropNoticeSequence < account.nextSequence
  fresh : ∀ sequence ≥ account.nextSequence, account.value sequence = none
  notice : ∀ event ∈ account.events,
    (account.isNotice event = true ↔ event.sequence = account.dropNoticeSequence) ∧
      (event.sequence = account.dropNoticeSequence → event.kind = .telemetryDropped)
  told : account.dropNoticeSequence ≠ 0 →
    account.value account.dropNoticeSequence = some account.dropped ∧
      ∃ event ∈ account.events, event.sequence = account.dropNoticeSequence
  counted : account.emitted = account.dropped + account.events.length

variable {account : Account}

theorem Balanced.dropNoticeUpdate (balanced : Balanced account) :
    account.dropNoticeUpdate = account.toServerTelemetry := by
  rw [dropNoticeUpdate_eq fun event retained => (balanced.notice event retained).2]
  split
  · rfl
  have told := balanced.told
  have none : account.dropNoticeSequence = 0 := by grind
  rw [← none]

theorem Balanced.emit (balanced : Balanced account) : Balanced (account.emit event) := by
  have same := balanced.dropNoticeUpdate
  rcases balanced with ⟨sized, numbered, distinct, recent, fresh, notice, told, counted⟩
  simp only [Account.isNotice] at notice
  simp only [Account.emit, ServerTelemetry.emit, same, ite_self]
  generalize made : (_ && Option.isSome _) = creating
  cases found : account.slotFor (if creating then .telemetryDropped else event.1) with
  | none =>
    have full : account.events.length = account.capacity := by grind [slotFor]
    rw [if_pos full]
    constructor <;> grind [Account.isNotice, update_apply]
  | some slot => ?_
  cases slot with
  | none =>
    have room : account.events.length < account.capacity := by
      grind [slotFor, Option.map_eq_some_iff]
    rw [if_neg room.ne]
    constructor <;> grind [Account.isNotice, retain]
  | some old =>
    have evicts := slotFor_eq_some found
    rw [if_pos (by omega)]
    constructor
    case distinct =>
      simp only [retain, Nodup, pairwise_map] at distinct ⊢
      exact distinct.imp_of_mem (by grind)
    case told =>
      have moved {f : ServerEvent → ServerEvent} {event : ServerEvent}
        (member : event ∈ account.events) := mem_map_of_mem (f := f) member
      cases creating
      · grind [retain, update_self]
      · exact fun _ => ⟨update_self .., _, mem_retain (by grind), by simp⟩
    all_goals grind [Account.isNotice, retain, update_apply]

theorem Balanced.evicts (balanced : Balanced account) (kept : event ∈ account.events)
    (evicted : event ∉ (account.emit emitted).events) :
    event.kind.replaceableUnderPressure = false →
      ∀ other ∈ account.events, other.kind.replaceableUnderPressure = false := by
  have evicted : event ∉ (account.toServerTelemetry.emit emitted.1 emitted.2).events := by
    grind [Account.emit]
  simp only [ServerTelemetry.emit, balanced.dropNoticeUpdate, ite_self] at evicted
  split at evicted
  · exact absurd kept evicted
  rename_i slot found
  cases slot with
  | none => exact absurd (mem_append_left _ kept) evicted
  | some old =>
    have evicts := slotFor_eq_some found
    have same : event = old := by
      by_contra apart
      have unequal := mt (inj_on_of_nodup_map balanced.distinct kept evicts.2.1) apart
      exact evicted (mem_map.mpr ⟨event, kept, if_neg unequal⟩)
    exact same ▸ evicts.2.2

/-- An event is lost for each that is dropped, and one more while the notice of it is retained. -/
theorem dropped_exact {capacity : Nat} (reached : Reaches Account.emit (fun account _ =>
      account.Countable ∧ account.dropped + 1 ≤ u64Max) { capacity } account) :
    account.emitted = account.events.countP (!account.isNotice ·) +
        (account.dropped + account.events.countP account.isNotice) ∧
      account.events.countP account.isNotice ≤ 1 ∧
      (∀ event ∈ account.events, account.isNotice event → event.kind = .telemetryDropped ∧
        account.value event.sequence = some account.dropped) ∧
      ∀ emit, ∀ event ∈ account.events, event ∉ (account.emit emit).events →
        event.kind.replaceableUnderPressure = false →
          ∀ other ∈ account.events, other.kind.replaceableUnderPressure = false := by
  have balanced : Balanced account := by
    refine reached.kept ?_ fun balanced _ => balanced.emit
    constructor <;> simp
  refine ⟨?_, ?_, ?_, ?_⟩
  · rw [balanced.counted, length_eq_countP_add_countP account.isNotice]
    grind
  · rw [countP_eq_length_filter, ← length_map ServerEvent.sequence]
    rw [← nodup_replicate (a := account.dropNoticeSequence), ← eq_replicate_of_mem]
    · exact balanced.distinct.sublist (filter_sublist.map _)
    · grind [balanced.notice]
  · grind [cases ServerTelemetry.Balanced]
  · exact fun emit event kept evicted => balanced.evicts kept evicted

/-- The second event becomes a notice that takes the slot of the first. -/
theorem dropped_uncounted :
    let account := Account.emit (Account.emit { capacity := 1 } (.generationProgress, false))
      (.generationProgress, false)
    (account.emitted, account.dropped, account.events) = (2, 1, [⟨2, .telemetryDropped⟩]) := rfl

/-- A caller emits the kind of a notice itself, and the third event becomes one. -/
theorem dropped_exact_noticed :
    let account := Account.emit (Account.emit (Account.emit { capacity := 2 }
      (.telemetryDropped, false)) (.generationProgress, false)) (.generationProgress, true)
    account.emitted = account.events.countP (!account.isNotice ·) +
        (account.dropped + account.events.countP account.isNotice) ∧
      account.events = [⟨1, .telemetryDropped⟩, ⟨4, .telemetryDropped⟩] ∧
      account.value 1 = none ∧ account.value 4 = some 1 :=
  ⟨(dropped_exact (.next _ (.next _ (.next _ .start (by decide)) (by decide)) (by decide))).1,
    rfl, rfl, rfl⟩

end ServerTelemetry

end Yvex.Server
