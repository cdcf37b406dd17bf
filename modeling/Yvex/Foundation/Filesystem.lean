import Mathlib.Tactic.Common

namespace Yvex.Filesystem

open Function

/-! # Scripts of system calls

A script makes one system call after the other. The system decides whether it grants a call; a
property of every instant holds after each call of a script, whatever was granted before. -/

inductive Script (σ Grant α : Type) : Type 1 where
  | done (result : α)
  | call {ρ : Type} (perform : Grant → σ → ρ × σ) (next : ρ → Script σ Grant α)

namespace Script

variable {σ Grant α β ρ : Type}

def bind : Script σ Grant α → (α → Script σ Grant β) → Script σ Grant β
  | .done result, continuation => continuation result
  | .call perform next, continuation => .call perform fun reply => (next reply).bind continuation

instance : Monad (Script σ Grant) where
  pure := .done
  bind := bind

def perform (effect : Grant → σ → ρ × σ) : Script σ Grant ρ := .call effect .done

def run : Script σ Grant α → (Nat → Grant) → σ → List σ × α × σ
  | .done result, _, state => ([], result, state)
  | .call effect next, grants, state =>
    let replied := effect (grants 0) state
    let rest := (next replied.1).run (fun index => grants (index + 1)) replied.2
    (replied.2 :: rest.1, rest.2)

/-- After every call the state is as required, and in the end the result is. -/
def Always (required : σ → Prop) (ended : α → σ → Prop) : Script σ Grant α → σ → Prop
  | .done result, state => ended result state
  | .call effect next, state =>
    ∀ grant, required (effect grant state).2 ∧
      (next (effect grant state).1).Always required ended (effect grant state).2

variable {script : Script σ Grant α}

theorem Always.run (always : script.Always required ended state) (grants : Nat → Grant) :
    (∀ visited ∈ (script.run grants state).1, required visited) ∧
      ended (script.run grants state).2.1 (script.run grants state).2.2 := by
  induction script generalizing state grants with
  | done result =>
    refine ⟨?_, always⟩
    intro visited member
    exact absurd member (List.not_mem_nil)
  | call effect next induction => ?_
  obtain ⟨here, onwards⟩ := always (grants 0)
  obtain ⟨rest, last⟩ := induction _ onwards fun index => grants (index + 1)
  refine ⟨?_, last⟩
  intro visited member
  rcases List.mem_cons.mp member with rfl | member
  · exact here
  · exact rest visited member

theorem Always.bind {finished : β → σ → Prop} (always : script.Always required
      (fun value state => (continuation value).Always required finished state) state) :
    (script >>= continuation).Always required finished state := by
  induction script generalizing state with
  | done result => exact always
  | call effect next induction =>
    intro grant
    exact ⟨(always grant).1, induction _ (always grant).2⟩

theorem Always.mono (always : script.Always required ended state)
    (weaker : ∀ value state, ended value state → finished value state) :
    script.Always required finished state := by
  induction script generalizing state with
  | done result => exact weaker _ _ always
  | call effect next induction =>
    intro grant
    exact ⟨(always grant).1, induction _ (always grant).2⟩

theorem Always.kept (always : script.Always required ended state) (held : required state) :
    script.Always required (fun value last => required last ∧ ended value last) state := by
  induction script generalizing state with
  | done result => exact ⟨held, always⟩
  | call effect next induction =>
    intro grant
    exact ⟨(always grant).1, induction _ (always grant).2 (always grant).1⟩

end Script

/-! ## Directories

A name is bound to a file, which is a number with its bytes. Links are names of one number. -/

def noEntry : Nat := 2

def alreadyExists : Nat := 17

/-- A failure that does not come from the names of the directory. -/
structure Fault where
  errno : Nat
  foreign : errno ≠ noEntry ∧ errno ≠ alreadyExists

/-- What the system grants a call: a failure, or success with as many bytes as it takes. -/
abbrev Grant := Except Fault Nat

structure Directory (Name Byte : Type) where
  entries : Name → Option (Nat × List Byte)
  fresh : Nat
  below : ∀ {name file}, entries name = some file → file.1 < fresh

variable {Name Byte : Type} [DecidableEq Name]

namespace Directory

variable (directory : Directory Name Byte)

def bind (name : Name) (file : Nat × List Byte) : Directory Name Byte where
  entries := update directory.entries name (some file)
  fresh := max directory.fresh (file.1 + 1)
  below := by
    intro other found bound
    rcases eq_or_ne other name with rfl | differs
    · rw [update_self, Option.some.injEq] at bound
      subst bound
      omega
    · rw [update_of_ne differs] at bound
      have known := directory.below bound
      omega

def unbind (name : Name) : Directory Name Byte where
  entries := update directory.entries name none
  fresh := directory.fresh
  below := by
    intro other found bound
    rcases eq_or_ne other name with rfl | differs
    · simp at bound
    · rw [update_of_ne differs] at bound
      exact directory.below bound

/-- The bytes reach every name of the file. -/
def append (file : Nat) (bytes : List Byte) : Directory Name Byte where
  entries name := (directory.entries name).map fun held =>
    if held.1 = file then (file, held.2 ++ bytes) else held
  fresh := directory.fresh
  below := by
    intro name found bound
    obtain ⟨held, entry, rfl⟩ := Option.map_eq_some_iff.mp bound
    have known := directory.below entry
    split
    · rename_i same
      exact same ▸ known
    · exact known

end Directory

abbrev Calls (Name Byte : Type) := Script (Directory Name Byte) Grant

/-- A call that leaves the directory alone: to open for reading, to synchronize or to close. -/
def quiet : Calls Name Byte (Except Nat Unit) :=
  .perform fun grant directory => ((grant.map fun _ => ()).mapError Fault.errno, directory)

/-- `openat` with `O_CREAT | O_EXCL`. -/
def create (name : Name) : Calls Name Byte (Except Nat Nat) :=
  .perform fun grant directory =>
    match grant, directory.entries name with
    | .error fault, _ => (.error fault.errno, directory)
    | .ok _, some _ => (.error alreadyExists, directory)
    | .ok _, none => (.ok directory.fresh, directory.bind name (directory.fresh, []))

/-- `write` takes some of the bytes. -/
def write (file : Nat) (bytes : List Byte) : Calls Name Byte (Except Nat Nat) :=
  .perform fun grant directory =>
    match grant with
    | .error fault => (.error fault.errno, directory)
    | .ok count => (.ok (min count bytes.length), directory.append file (bytes.take count))

/-- `linkat` gives a file a second name. -/
def link (name other : Name) : Calls Name Byte (Except Nat Unit) :=
  .perform fun grant directory =>
    match grant, directory.entries name, directory.entries other with
    | .error fault, _, _ => (.error fault.errno, directory)
    | .ok _, none, _ => (.error noEntry, directory)
    | .ok _, some _, some _ => (.error alreadyExists, directory)
    | .ok _, some file, none => (.ok (), directory.bind other file)

/-- `renameat` takes the other name from whatever has it. Two names of one file are left alone. -/
def rename (name other : Name) : Calls Name Byte (Except Nat Unit) :=
  .perform fun grant directory =>
    match grant, directory.entries name with
    | .error fault, _ => (.error fault.errno, directory)
    | .ok _, none => (.error noEntry, directory)
    | .ok _, some file =>
      if (directory.entries other).map Prod.fst = some file.1 then (.ok (), directory)
      else (.ok (), (directory.bind other file).unbind name)

/-- `unlinkat` removes a name. -/
def unlink (name : Name) : Calls Name Byte (Except Nat Unit) :=
  .perform fun grant directory =>
    match grant, directory.entries name with
    | .error fault, _ => (.error fault.errno, directory)
    | .ok _, none => (.error noEntry, directory)
    | .ok _, some _ => (.ok (), directory.unbind name)

variable {required : Directory Name Byte → Prop} {directory : Directory Name Byte}

omit [DecidableEq Name] in
theorem always_quiet (held : required directory) (after : ∀ reply, ended reply directory) :
    (quiet : Calls Name Byte _).Always required ended directory :=
  fun _ => ⟨held, after _⟩

variable {ended : Except Nat Nat → Directory Name Byte → Prop}

theorem always_create (held : required directory) (failed : ∀ errno, ended (.error errno) directory)
    (created : ∀ next : Directory Name Byte, directory.entries name = none →
      next.entries = update directory.entries name (some (directory.fresh, [])) →
      required next ∧ ended (.ok directory.fresh) next) :
    (create name : Calls Name Byte _).Always required ended directory := by
  intro grant
  cases grant with
  | error fault => exact ⟨held, failed _⟩
  | ok count => ?_
  cases found : directory.entries name with
  | some file => simpa [create, found] using ⟨held, failed _⟩
  | none => simpa [create, Script.Always, found] using created _ found rfl

omit [DecidableEq Name] in
theorem always_write (held : required directory) (failed : ∀ errno, ended (.error errno) directory)
    (written : ∀ count, required (directory.append file (bytes.take count)) ∧
      ended (.ok (min count bytes.length)) (directory.append file (bytes.take count))) :
    (write file bytes : Calls Name Byte _).Always required ended directory := by
  intro grant
  cases grant with
  | error fault => exact ⟨held, failed _⟩
  | ok count => exact written count

section Names

variable {ended : Except Nat Unit → Directory Name Byte → Prop} {file : Nat × List Byte}
  (held : required directory) (failed : ∀ errno, ended (.error errno) directory)

include held failed

theorem always_link (found : directory.entries name = some file)
    (linked : ∀ next : Directory Name Byte, directory.entries other = none →
      next.entries = update directory.entries other (some file) →
      required next ∧ ended (.ok ()) next) :
    (link name other : Calls Name Byte _).Always required ended directory := by
  intro grant
  cases grant with
  | error fault => exact ⟨held, failed _⟩
  | ok count => ?_
  cases taken : directory.entries other with
  | some present => simpa [link, found, taken] using ⟨held, failed _⟩
  | none => simpa [link, Script.Always, found, taken] using linked _ taken rfl

theorem always_rename (found : directory.entries name = some file)
    (apart : ∀ present, directory.entries other = some present → present.1 ≠ file.1)
    (renamed : ∀ next : Directory Name Byte,
      next.entries = update (update directory.entries other (some file)) name none →
      required next ∧ ended (.ok ()) next) :
    (rename name other : Calls Name Byte _).Always required ended directory := by
  intro grant
  cases grant with
  | error fault => exact ⟨held, failed _⟩
  | ok count => ?_
  have differs : (directory.entries other).map Prod.fst ≠ some file.1 := by
    intro same
    obtain ⟨present, bound, number⟩ := Option.map_eq_some_iff.mp same
    exact apart present bound number
  simpa only [rename, Script.Always, found, if_neg differs] using renamed _ rfl

omit failed in
theorem always_unlink (failed : ∀ errno, errno ≠ noEntry → ended (.error errno) directory)
    (found : directory.entries name = some file) (removed : ∀ next : Directory Name Byte,
      next.entries = update directory.entries name none → required next ∧ ended (.ok ()) next) :
    (unlink name : Calls Name Byte _).Always required ended directory := by
  intro grant
  cases grant with
  | error fault => exact ⟨held, failed _ fault.foreign.1⟩
  | ok count => simpa [unlink, Script.Always, found] using removed _ rfl

end Names

end Yvex.Filesystem
