import Mathlib.Tactic.Common

namespace Yvex.Interleaving

open List Function

/-! # Calls that share a state

A call is a program of critical sections on a state behind one mutex and of questions to its
surroundings. Alone it is a relation between states. Among others its sections interleave with
theirs; a discipline gives every call a mode that says what it may do next and what it knows of the
state meanwhile. -/

structure Interface where
  Label : Type
  Query : Type
  Answer : Query → Type

inductive Program (σ : Type) (I : Interface) (α : Type) where
  | done (result : α)
  | locked (label : I.Label) (update : σ → σ) (next : σ → Program σ I α)
  | ask (query : I.Query) (next : I.Answer query → Program σ I α)

variable {σ α β μ Call : Type} {I : Interface}

namespace Program

def bind : Program σ I α → (α → Program σ I β) → Program σ I β
  | .done result, continuation => continuation result
  | .locked label update next, continuation =>
    .locked label update fun state => (next state).bind continuation
  | .ask query next, continuation => .ask query fun answer => (next answer).bind continuation

instance : Monad (Program σ I) where
  pure := .done
  bind := bind

inductive Ends (valid : ∀ query, I.Answer query → Prop) :
    Program σ I α → σ → List I.Query → α → σ → Prop where
  | done (result : α) (state : σ) : Ends valid (.done result) state [] result state
  | locked {label : I.Label} {update : σ → σ} {next : σ → Program σ I α} {state last : σ}
      {asked : List I.Query} {result : α}
      (rest : Ends valid (next state) (update state) asked result last) :
      Ends valid (.locked label update next) state asked result last
  | ask {query : I.Query} {next : I.Answer query → Program σ I α} {answer : I.Answer query}
      {state last : σ} {asked : List I.Query} {result : α} (met : valid query answer)
      (rest : Ends valid (next answer) state asked result last) :
      Ends valid (.ask query next) state (query :: asked) result last

variable {state last : σ} {asked : List I.Query}

theorem Ends.of_done (ends : Ends valid (.done value) state asked result last) :
    value = result ∧ last = state ∧ asked = [] := by
  cases ends
  exact ⟨rfl, rfl, rfl⟩

theorem Ends.of_bind (ends : Ends valid (program >>= continuation) state asked result last) :
    ∃ value middle first second, asked = first ++ second ∧
      Ends valid program state first value middle ∧
      Ends valid (continuation value) middle second result last := by
  induction program generalizing state asked with
  | done value => exact ⟨value, state, [], asked, rfl, .done .., ends⟩
  | locked label update next induction =>
    cases ends with
    | locked rest =>
      obtain ⟨value, middle, first, second, split, left, right⟩ := induction state rest
      exact ⟨value, middle, first, second, split, .locked left, right⟩
  | ask query next induction =>
    cases ends with
    | ask met rest =>
      obtain ⟨value, middle, first, second, split, left, right⟩ := induction _ rest
      exact ⟨value, middle, query :: first, second, by rw [split, cons_append],
        .ask met left, right⟩

def run (oracle : ∀ query, I.Answer query) : Program σ I α → σ → List I.Query × α × σ
  | .done result, state => ([], result, state)
  | .locked _ update next, state => run oracle (next state) (update state)
  | .ask query next, state =>
    let (asked, result, last) := run oracle (next (oracle query)) state
    (query :: asked, result, last)

theorem ends_run (met : ∀ query, valid query (oracle query)) (program : Program σ I α) (state : σ) :
    Ends valid program state (program.run oracle state).1 (program.run oracle state).2.1
      (program.run oracle state).2.2 := by
  induction program generalizing state with
  | done result => exact .done result state
  | locked label update next induction => exact .locked (induction state (update state))
  | ask query next induction => exact .ask (met query) (induction (oracle query) state)

end Program

structure Pool (σ : Type) (I : Interface) where
  shared : σ
  threads : List (Program σ I Unit)

inductive Action (I : Interface) (Call : Type) where
  | start (call : Call)
  | resume (thread : Nat) (oracle : ∀ query, I.Answer query)

inductive Event (I : Interface) (Call : Type) where
  | started (call : Call)
  | locked (label : I.Label)
  | asked (query : I.Query)

structure Move (σ : Type) (I : Interface) (Call : Type) where
  thread : Nat
  event : Event I Call
  before : σ

def Pool.act (program : Call → Program σ I Unit) (pool : Pool σ I) :
    Action I Call → Option (Pool σ I × Move σ I Call)
  | .start call => some (⟨pool.shared, pool.threads ++ [program call]⟩,
      ⟨pool.threads.length, .started call, pool.shared⟩)
  | .resume thread oracle =>
    match pool.threads[thread]? with
    | some (.locked label update next) =>
      some (⟨update pool.shared, pool.threads.set thread (next pool.shared)⟩,
        ⟨thread, .locked label, pool.shared⟩)
    | some (.ask query next) =>
      some (⟨pool.shared, pool.threads.set thread (next (oracle query))⟩,
        ⟨thread, .asked query, pool.shared⟩)
    | _ => none

def Pool.play (program : Call → Program σ I Unit) :
    Pool σ I → List (Action I Call) → Option (Pool σ I × List (Move σ I Call))
  | pool, [] => some (pool, [])
  | pool, action :: rest => do
    let (next, move) ← pool.act program action
    let (last, moves) ← next.play program rest
    return (last, move :: moves)

variable {program : Call → Program σ I Unit} {pool last : Pool σ I} {moves : List (Move σ I Call)}

theorem Pool.play_cons_eq_some (played : pool.play program (action :: rest) = some (last, moves)) :
    ∃ next move later, pool.act program action = some (next, move) ∧
      next.play program rest = some (last, later) ∧ moves = move :: later := by
  rw [Pool.play, Option.bind_eq_bind, Option.bind_eq_some_iff] at played
  obtain ⟨⟨next, move⟩, acted, played⟩ := played
  obtain ⟨⟨final, later⟩, continued, same⟩ := Option.bind_eq_some_iff.mp played
  cases same
  exact ⟨next, move, later, acted, continued, rfl⟩

variable {move : Move σ I Call} {next : Pool σ I}

theorem Pool.before_of_act (acted : pool.act program action = some (next, move)) :
    move.before = pool.shared := by
  cases action with
  | start call =>
    cases acted
    rfl
  | resume thread oracle =>
    rw [Pool.act] at acted
    split at acted <;> cases acted <;> rfl

/-- Modes of calls. A mode fixes the changes a call can make, and a fact about the state that the
changes of all others respect. -/
structure Discipline (σ : Type) (I : Interface) (μ : Type) where
  rest : μ
  fits : μ → σ → Prop
  compatible : μ → μ → Prop
  /-- The states in which a critical section is admitted. -/
  allowed : I.Label → σ → Prop
  moves : μ → I.Label → σ → σ → μ → Prop
  asks : μ → I.Query → Prop
  rest_fits : ∀ state, fits rest state
  rest_compatible : ∀ mode, compatible rest mode
  symmetric : ∀ mode other, compatible mode other → compatible other mode
  moves_fits : ∀ mode label before after next, moves mode label before after next →
    fits mode before → fits next after
  moves_others : ∀ mode label before after next other, moves mode label before after next →
    fits mode before → fits other before → compatible mode other →
    fits other after ∧ compatible next other

def Follows (discipline : Discipline σ I μ) (ended : α → μ → Prop) : μ → Program σ I α → Prop
  | mode, .done result => ended result mode
  | mode, .locked label update next => ∀ state, discipline.fits mode state →
      discipline.allowed label state → ∃ later,
        discipline.moves mode label state (update state) later ∧
          Follows discipline ended later (next state)
  | mode, .ask query next => discipline.asks mode query ∧
      ∀ answer, Follows discipline ended mode (next answer)

variable {discipline : Discipline σ I μ}

theorem Follows.bind {program : Program σ I α}
    (follows : Follows discipline ended mode program) (after : ∀ value later, ended value later →
      Follows discipline finished later (continuation value)) :
    Follows discipline finished mode (program >>= continuation) := by
  induction program generalizing mode with
  | done value => exact after value mode follows
  | locked label update next induction =>
    intro state fits allowed
    obtain ⟨later, moves, follows⟩ := follows state fits allowed
    exact ⟨later, moves, induction state follows⟩
  | ask query next induction => exact ⟨follows.1, fun answer => induction answer (follows.2 answer)⟩

theorem Follows.mono {program : Program σ I α} (follows : Follows discipline ended mode program)
    (weaker : ∀ value later, ended value later → finished value later) :
    Follows discipline finished mode program := by
  induction program generalizing mode with
  | done value => exact weaker value mode follows
  | locked label update next induction =>
    intro state fits allowed
    obtain ⟨later, moves, follows⟩ := follows state fits allowed
    exact ⟨later, moves, induction state follows⟩
  | ask query next induction => exact ⟨follows.1, fun answer => induction answer (follows.2 answer)⟩

structure Governs (discipline : Discipline σ I μ) (modes : Nat → μ) (pool : Pool σ I) : Prop where
  follows : ∀ thread program, pool.threads[thread]? = some program →
    Follows discipline (fun _ _ => True) (modes thread) program
  fits : ∀ thread, discipline.fits (modes thread) pool.shared
  compatible : ∀ thread other, thread ≠ other → discipline.compatible (modes thread) (modes other)
  fresh : ∀ thread, pool.threads.length ≤ thread → modes thread = discipline.rest

theorem governs_empty (discipline : Discipline σ I μ) (shared : σ) :
    Governs discipline (fun _ => discipline.rest) ⟨shared, []⟩ where
  follows := nofun
  fits _ := discipline.rest_fits shared
  compatible _ _ _ := discipline.rest_compatible _
  fresh _ _ := rfl

inductive Moved (discipline : Discipline σ I μ) (modes later : Nat → μ) (after : σ) :
    Move σ I Call → Prop where
  | started (thread : Nat) (call : Call) (same : later = modes) :
      Moved discipline modes later after ⟨thread, .started call, after⟩
  | locked (thread : Nat) (label : I.Label) (before : σ) (next : μ)
      (fits : discipline.fits (modes thread) before)
      (moves : discipline.moves (modes thread) label before after next)
      (same : later = Function.update modes thread next) :
      Moved discipline modes later after ⟨thread, .locked label, before⟩
  | asked (thread : Nat) (query : I.Query) (asks : discipline.asks (modes thread) query)
      (same : later = modes) : Moved discipline modes later after ⟨thread, .asked query, after⟩

def Move.Allowed (discipline : Discipline σ I μ) (move : Move σ I Call) : Prop :=
  ∀ label, move.event = .locked label → discipline.allowed label move.before

theorem Governs.start {program : Program σ I Unit} (governs : Governs discipline modes pool)
    (follows : Follows discipline (fun _ _ => True) discipline.rest program) :
    Governs discipline modes ⟨pool.shared, pool.threads ++ [program]⟩ where
  follows thread other present := by
    grind [cases Governs]
  fits := governs.fits
  compatible := governs.compatible
  fresh thread outside := by
    grind [cases Governs]

variable {after : σ}

theorem Governs.resume {next : μ} {program : Program σ I Unit}
    (governs : Governs discipline modes pool) (present : thread < pool.threads.length)
    (follows : Follows discipline (fun _ _ => True) next program)
    (fits : discipline.fits next after)
    (others : ∀ other, other ≠ thread → discipline.fits (modes other) after ∧
      discipline.compatible next (modes other)) :
    Governs discipline (Function.update modes thread next)
      ⟨after, pool.threads.set thread program⟩ where
  follows other running found := by
    grind [cases Governs]
  fits other := by
    grind
  compatible left right different := by
    by_cases first : left = thread
    · grind
    rw [update_of_ne first]
    by_cases second : right = thread
    · subst second
      rw [update_self]
      exact discipline.symmetric _ _ (others left first).2
    · rw [update_of_ne second]
      exact governs.compatible left right different
  fresh other outside := by
    grind [cases Governs]

theorem Governs.act
    (calls : ∀ call, Follows discipline (fun _ _ => True) discipline.rest (program call))
    (governs : Governs discipline modes pool) (acted : pool.act program action = some (next, move))
    (allowed : move.Allowed discipline) :
    ∃ later, Governs discipline later next ∧ Moved discipline modes later next.shared move := by
  cases action with
  | start call =>
    cases acted
    exact ⟨modes, governs.start (calls call), .started _ call rfl⟩
  | resume thread oracle => ?_
  rw [Pool.act] at acted
  split at acted
  · rename_i label update continuation present
    cases acted
    have follows := governs.follows thread _ present
    have fits := governs.fits thread
    obtain ⟨mode, moves, follows⟩ := follows pool.shared fits (allowed label rfl)
    refine ⟨Function.update modes thread mode, ?_, .locked _ label _ mode fits moves rfl⟩
    apply governs.resume (List.getElem?_eq_some_iff.mp present).1 follows
    · exact discipline.moves_fits _ _ _ _ _ moves fits
    intro other different
    exact discipline.moves_others _ _ _ _ _ _ moves fits (governs.fits other)
      (governs.compatible thread other (Ne.symm different))
  · rename_i query continuation present
    cases acted
    have follows := governs.follows thread _ present
    refine ⟨modes, ?_, .asked _ query follows.1 rfl⟩
    have resumed := governs.resume (List.getElem?_eq_some_iff.mp present).1
      (follows.2 (oracle query)) (governs.fits thread) fun other different =>
        ⟨governs.fits other, governs.compatible thread other (Ne.symm different)⟩
    rwa [update_eq_self] at resumed
  · cases acted

theorem Governs.play
    (calls : ∀ call, Follows discipline (fun _ _ => True) discipline.rest (program call))
    (governs : Governs discipline modes pool)
    (played : pool.play program schedule = some (last, moves))
    (allowed : ∀ move ∈ moves, move.Allowed discipline) :
    ∃ later, Governs discipline later last := by
  induction schedule generalizing pool modes moves with
  | nil =>
    cases played
    exact ⟨modes, governs⟩
  | cons action rest induction => ?_
  obtain ⟨next, move, continued, acted, onward, rfl⟩ := Pool.play_cons_eq_some played
  obtain ⟨later, governed, _⟩ := governs.act calls acted (allowed move (mem_cons_self ..))
  exact induction governed onward fun other member => allowed other (mem_cons_of_mem _ member)

/-- A condition of the state that no call can end, and in which a resting call stays at rest. -/
structure Trap (discipline : Discipline σ I μ) (trapped : σ → Prop) (entry : I.Label) : Prop where
  kept : ∀ mode label before after next, discipline.moves mode label before after next →
    discipline.fits mode before → trapped before → trapped after
  resting : ∀ label before after next, discipline.moves discipline.rest label before after next →
    trapped before → next = discipline.rest
  entering : ∀ mode before after next, discipline.moves mode entry before after next →
    mode = discipline.rest

theorem Trap.step (trap : Trap discipline trapped entry)
    (moved : Moved discipline modes later after move) (now : trapped move.before)
    {late : Nat → Prop} (resting : ∀ thread, late thread → modes thread = discipline.rest) :
    trapped after ∧ ∀ thread, (late thread ∨ move = ⟨thread, .locked entry, move.before⟩) →
      later thread = discipline.rest := by
  cases moved with
  | started thread call same =>
    grind
  | asked thread query asks same =>
    grind
  | locked thread label before next fits moves same =>
    refine ⟨trap.kept _ _ _ _ _ moves fits now, ?_⟩
    have settled : modes thread = discipline.rest → next = discipline.rest := by
      intro rest
      rw [rest] at moves
      exact trap.resting _ _ _ _ moves now
    rintro other (already | entered)
    · by_cases equal : other = thread
      · subst equal
        rw [same, update_self, settled (resting other already)]
      · rw [same, update_of_ne equal, resting other already]
    · cases entered
      rw [same, update_self, settled (trap.entering _ _ _ _ moves)]

/-- From a trapped state on, the state is trapped, and a thread that enters asks what a resting call
asks only. -/
theorem Governs.play_trapped (trap : Trap discipline trapped entry)
    (calls : ∀ call, Follows discipline (fun _ _ => True) discipline.rest (program call))
    (governs : Governs discipline modes pool)
    (played : pool.play program schedule = some (last, moves))
    (allowed : ∀ move ∈ moves, move.Allowed discipline) (now : trapped pool.shared)
    (late : Nat → Prop) (resting : ∀ thread, late thread → modes thread = discipline.rest) :
    trapped last.shared ∧ ∀ before after thread query state,
      moves = before ++ ⟨thread, .asked query, state⟩ :: after →
      (late thread ∨ ∃ found, ⟨thread, .locked entry, found⟩ ∈ before) →
        discipline.asks discipline.rest query := by
  induction schedule generalizing pool modes moves late with
  | nil =>
    cases played
    refine ⟨now, ?_⟩
    intro before after thread query state split
    exact absurd split.symm (by simp)
  | cons action rest induction => ?_
  obtain ⟨next, move, continued, acted, onward, rfl⟩ := Pool.play_cons_eq_some played
  obtain ⟨later, governed, moved⟩ := governs.act calls acted (allowed move (mem_cons_self ..))
  have admitted : ∀ other ∈ continued, other.Allowed discipline :=
    fun other member => allowed other (mem_cons_of_mem _ member)
  have found : move.before = pool.shared := Pool.before_of_act acted
  obtain ⟨still, rests⟩ := trap.step moved (found ▸ now) resting
  obtain ⟨final, asking⟩ := induction governed onward admitted still _ rests
  refine ⟨final, ?_⟩
  intro before after thread query state split entered
  cases before with
  | nil =>
    obtain ⟨first, _⟩ := cons.inj split
    subst first
    cases moved with
    | asked _ _ asks _ =>
      grind
  | cons first before =>
    grind

end Yvex.Interleaving
