import Yvex.Foundation.Reachability

namespace Yvex.Server

open Function

/-! # Cancellation of turns

A step is a section under one lock or an access to one atomic variable. Requests are numbered, and
sessions are named by their place in the registry. -/

/-- How far the worker of a request is: it has found the server running, cleared
`cancel_requested`, raised `active_turn` and lowered it, set `done` and released the key. -/
inductive TurnPhase where
  | absent | queued | selected | admitted | cleared | active | ended | done | released
deriving DecidableEq

/-- How far the client of a request is: its peer has closed, `yvex_server_sessions_cancel` has
found an active turn, and `cancel_sent` is set. -/
inductive ClientPhase where
  | absent | waiting | closed | found | sent | returned

inductive StopPhase where
  | ahead
  | sweeping (session : Nat)
  | marking (session : Nat)
  | returned

structure TurnWorld where
  capacity : Nat
  /-- The session that a request names. -/
  session : Nat → Nat
  phase : Nat → TurnPhase := fun _ => .absent
  client : Nat → ClientPhase := fun _ => .absent
  queue : List Nat := []
  keys : List Nat := []
  activeTurn : Nat → Bool := fun _ => false
  cancelRequested : Nat → Bool := fun _ => false
  stopping : Bool := false
  stop : StopPhase := .ahead
  /-- The requests whose client has marked their session while their turn was active. -/
  asked : Nat → Bool := fun _ => false

inductive TurnStep where
  | submit (request : Nat)
  | select
  /-- The worker of a request goes on; `session_turn` may refuse the turn. -/
  | work (request : Nat) (refuses : Bool)
  /-- The client of a request goes on, and looks whether its peer has closed. -/
  | wait (request : Nat) (closed : Bool)
  | stop

namespace TurnWorld

section

variable (world : TurnWorld) (request : Nat)

abbrev place (phase : TurnPhase) : TurnWorld :=
  { world with phase := update world.phase request phase }

abbrev put (client : ClientPhase) : TurnWorld :=
  { world with client := update world.client request client }

/-- The sections of `yvex_server_stop` and, in it, of `yvex_server_sessions_cancel_all`. -/
def stopStep : TurnWorld :=
  match world.stop with
  | .ahead => { world with stopping := true, stop := .sweeping 0 }
  | .sweeping session =>
    if session < world.capacity then
      { world with stop := if world.activeTurn session then .marking session
          else .sweeping (session + 1) }
    else { world with stop := .returned }
  | .marking session => { world with
      cancelRequested := update world.cancelRequested session true
      stop := .sweeping (session + 1) }
  | .returned => world

/-- The sections of `model_work_execute` and `session_turn`. -/
def workStep (refuses : Bool) : TurnWorld :=
  let session := world.session request
  match world.phase request with
  | .selected => world.place request (if world.stopping then .ended else .admitted)
  | .admitted =>
    if refuses then world.place request .ended
    else { world.place request .cleared with
      cancelRequested := update world.cancelRequested session false }
  | .cleared => { world.place request .active with
      activeTurn := update world.activeTurn session true }
  | .active => { world.place request .ended with
      activeTurn := update world.activeTurn session false }
  | .ended => world.place request .done
  | .done => { world.place request .released with keys := world.keys.erase session }
  | _ => world

def isDone : Bool := world.phase request == .done || world.phase request == .released

/-- The sections of `client_wait_work` and, in it, of `yvex_server_sessions_cancel`. -/
def waitStep (closed : Bool) : TurnWorld :=
  let session := world.session request
  match world.client request with
  | .waiting => world.put request (if world.isDone request then .returned
      else if closed then .closed else .waiting)
  | .closed => world.put request (if world.activeTurn session then .found else .waiting)
  | .found => { world.put request .sent with
      cancelRequested := update world.cancelRequested session true
      asked := update world.asked request (world.phase request == .active) }
  | .sent => world.put request (if world.isDone request then .returned else .sent)
  | _ => world

def step : TurnStep → TurnWorld
  | .submit request =>
    if world.phase request = .absent then
      { (world.place request .queued).put request .waiting with queue := world.queue ++ [request] }
    else world
  | .select =>
    match world.queue.find? fun request => !world.keys.contains (world.session request) with
    | some request => { world.place request .selected with
        queue := world.queue.erase request
        keys := world.session request :: world.keys }
    | none => world
  | .work request refuses => world.workStep request refuses
  | .wait request closed => world.waitStep request closed
  | .stop => world.stopStep

/-- `yvex_server_stop` raises its flag while no worker is between reading the flag and raising
`active_turn`. -/
def StopsBetween : TurnStep → Prop
  | .stop => ∀ request, world.phase request ≠ .admitted ∧ world.phase request ≠ .cleared
  | _ => True

/-- The sessions that the sweep has passed. -/
def swept (session : Nat) : Prop :=
  match world.stop with
  | .ahead => False
  | .sweeping next | .marking next => session < next
  | .returned => session < world.capacity

end

structure Stopped (world : TurnWorld) : Prop where
  flag : ∀ request, world.stopping = true →
    world.phase request ≠ .admitted ∧ world.phase request ≠ .cleared
  ahead : world.stop = .ahead ∨ world.stopping = true
  marked : ∀ session, world.swept session → world.activeTurn session = true →
    world.cancelRequested session = true

variable {world : TurnWorld}

theorem Stopped.step (stopped : world.Stopped)
    (admits : world.StopsBetween action) : (world.step action).Stopped := by
  have unchanged := stopped
  rcases stopped with ⟨flag, ahead, marked⟩
  cases action
  all_goals simp only [TurnWorld.step, workStep, waitStep, stopStep]
  all_goals split
  any_goals split
  any_goals exact unchanged
  all_goals constructor <;> grind [swept, StopsBetween, update_apply]

/-- In a session that is active after the stop the turn is asked to cancel. -/
def AllAsked (world : TurnWorld) : Prop :=
  world.stop = .returned → ∀ session < world.capacity, world.activeTurn session = true →
    world.cancelRequested session = true

theorem stop_reaches_turns {capacity : Nat} {session : Nat → Nat}
    (reached : Reaches step StopsBetween { capacity, session } world) : world.AllAsked := by
  have stopped : Stopped world := reached.kept (by constructor <;> simp) fun kept => kept.step
  intro returned place within active
  exact stopped.marked place (by simpa [swept, returned] using within) active

/-- A server with one session, whose turn is active. -/
def activeWorld : TurnWorld :=
  [TurnStep.submit 0, .select, .work 0 false, .work 0 false, .work 0 false].foldl step
    { capacity := 1, session := fun _ => 0 }

/-- A stop that meets an active turn marks it. -/
theorem stop_reaches_turns_returned :
    let world := [TurnStep.stop, .stop, .stop, .stop].foldl step activeWorld
    world.stop = .returned ∧ world.activeTurn 0 = true ∧ world.AllAsked := by
  have next := @Reaches.next _ _ step StopsBetween { capacity := 1, session := fun _ => 0 }
  have started := next (.work 0 false) (next (.work 0 false) (next (.work 0 false) (next .select
    (next (.submit 0) .start trivial) trivial) trivial) trivial) trivial
  have between : ∀ request, activeWorld.phase request ≠ .admitted ∧
      activeWorld.phase request ≠ .cleared := by
    rintro (_ | request)
    · decide
    · exact ⟨nofun, nofun⟩
  exact ⟨rfl, rfl, stop_reaches_turns (next .stop (next .stop (next .stop (next .stop started
    between) between) between) between)⟩

/-- A worker that has read the flag before the stop begins its turn behind the sweep. -/
theorem stop_misses_turn : ¬ AllAsked ([TurnStep.submit 0, .select, .work 0 false, .stop, .stop,
    .stop, .work 0 false, .work 0 false].foldl step { capacity := 1, session := fun _ => 0 }) :=
  fun asked => Bool.false_ne_true (asked rfl 0 Nat.one_pos rfl)

/-- A client submits to a session when the earlier requests to it are answered, and a turn does
not end while its client is between finding it active and marking it. -/
def OneAtATime (world : TurnWorld) : TurnStep → Prop
  | .submit request => ∀ other, world.session other = world.session request →
    world.client other = .absent ∨ world.client other = .returned
  | .work request _ => world.phase request = .active → world.client request ≠ .found
  | _ => True

/-- The request has not been answered. -/
def Open (world : TurnWorld) (request : Nat) : Prop :=
  world.client request ≠ .absent ∧ world.client request ≠ .returned

structure Apart (world : TurnWorld) : Prop where
  queued : world.queue.Nodup ∧ ∀ request ∈ world.queue, world.phase request = .queued
  opened : ∀ request, world.phase request = .absent ∨ world.isDone request ∨ world.Open request
  single : ∀ first second, world.session first = world.session second → world.Open first →
    world.Open second → first = second
  active : ∀ session, world.activeTurn session = true →
    ∃ request, world.session request = session ∧ world.phase request = .active
  found : ∀ request, world.client request = .found → world.phase request = .active
  sent : ∀ request, world.client request = .sent → world.asked request = true
  returned : ∀ request, world.client request = .returned → world.isDone request

theorem Apart.workStep (apart : world.Apart)
    (admits : world.phase request = .active → world.client request ≠ .found) :
    (world.workStep request refuses).Apart := by
  have unchanged := apart
  rcases apart with ⟨queued, opened, single, active, found, sent, returned⟩
  simp only [TurnWorld.workStep]
  split
  any_goals split
  any_goals exact unchanged
  all_goals constructor <;> grind [Open, isDone, update_apply]

theorem Apart.waitStep (apart : world.Apart) : (world.waitStep request closed).Apart := by
  have unchanged := apart
  rcases apart with ⟨queued, opened, single, active, found, sent, returned⟩
  simp only [TurnWorld.waitStep]
  split
  any_goals exact unchanged
  all_goals constructor <;> grind [Open, isDone, update_apply]

theorem Apart.step (apart : world.Apart) (admits : world.OneAtATime action) :
    (world.step action).Apart := by
  have unchanged := apart
  rcases apart with ⟨queued, opened, single, active, found, sent, returned⟩
  cases action
  case work => exact unchanged.workStep admits
  case wait => exact unchanged.waitStep
  all_goals simp only [TurnWorld.step, stopStep]
  all_goals split
  any_goals split
  any_goals exact unchanged
  all_goals constructor <;> grind [Open, OneAtATime, isDone, update_apply]

/-- A client marks its own turn, and is content only with that or when its request is done. -/
structure MarksOwn (world : TurnWorld) : Prop where
  own : ∀ request, world.client request = .found → world.phase request = .active ∧
    ∀ other, world.session other = world.session request → world.phase other = .active →
      other = request
  content : ∀ request, world.client request = .sent ∨ world.client request = .returned →
    world.asked request = true ∨ world.isDone request

theorem client_marks_own {capacity : Nat} {session : Nat → Nat}
    (reached : Reaches step OneAtATime { capacity, session } world) : world.MarksOwn := by
  have apart : Apart world := reached.kept (by constructor <;> simp [Open]) fun kept => kept.step
  refine ⟨fun request found => ⟨apart.found request found, ?_⟩, fun request settled => ?_⟩
  · intro other same active
    apply apart.single other request same
    · simpa [active, isDone] using apart.opened other
    · simp [Open, found]
  · exact settled.imp (apart.sent request) (apart.returned request)

/-- A client whose turn is active finds it and marks it. -/
theorem client_marks_own_waiting :
    let found := [TurnStep.wait 0 true, .wait 0 true].foldl step activeWorld
    found.client 0 = .found ∧ found.MarksOwn ∧
      (found.step (.wait 0 true)).client 0 = .sent ∧ (found.step (.wait 0 true)).MarksOwn := by
  have next := @Reaches.next _ _ step OneAtATime { capacity := 1, session := fun _ => 0 }
  have started := next (.work 0 false) (next (.work 0 false) (next (.work 0 false) (next .select
    (next (.submit 0) .start fun _ _ => .inl rfl) trivial) (absurd · (by decide)))
    (absurd · (by decide))) (absurd · (by decide))
  have found := next (.wait 0 true) (next (.wait 0 true) started trivial) trivial
  exact ⟨rfl, client_marks_own found, rfl, client_marks_own (next (.wait 0 true) found trivial)⟩

/-- The client of a request that is still queued marks the turn before it. -/
theorem client_marks_other : ¬ MarksOwn ([TurnStep.submit 0, .submit 1, .select, .work 0 false,
    .work 0 false, .work 0 false, .wait 1 true, .wait 1 true].foldl step
    { capacity := 1, session := fun _ => 0 }) :=
  fun own => by cases (own.own 1 rfl).1

end TurnWorld

end Yvex.Server
