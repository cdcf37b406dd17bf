import Yvex.Foundation.Checked
import Yvex.Foundation.Digest
import Yvex.Foundation.Filesystem

namespace Yvex.Core

open Filesystem Filesystem.Script Function List

/-! # The publication of a file

The bytes are written to a temporary name, which is renamed or linked to the destination. Every
failure goes to one clean-up block, which removes what the flags say is there. -/

inductive FileStage where
  | none
  | argument
  | path
  | create
  | write
  | fileSync
  | fileClose
  | conflict
  | publish
  | directorySync
  | bounds
  | temporaryUnlink
  | validate

inductive FileCleanupStage where
  | none
  | fileClose
  | temporaryUnlink
  | destinationUnlink
  | directorySync
deriving DecidableEq

structure FileResult where
  stage : FileStage
  systemError : Nat
  expected : Nat
  actual : Nat
  cleanupStage : FileCleanupStage
  cleanupSystemError : Nat

structure FileFaults where
  injectFileCloseFailure : Bool
  injectTemporaryUnlinkFailure : Bool
  injectCleanupUnlinkFailure : Bool

/-- The locals that are read at `done`. The descriptor of the validation is closed by then. -/
structure PublishExit where
  result : FileResult
  outcome : Except Rejection Unit
  fileOpen : Bool
  temporaryExists : Bool
  destinationExists : Bool

abbrev FileCalls := Calls Text UInt8

abbrev Disk := Directory Text UInt8

abbrev FileReply := FileResult × Except Rejection Unit

abbrev FileValidator := List UInt8 → Except Rejection Unit

def ioError : Nat := 5

def coreFileFail (stage : FileStage) (systemError expected actual : Nat) (status : Status)
    (reason : String) : FileReply :=
  (⟨stage, systemError, expected, actual, .none, 0⟩, .error ⟨status, reason⟩)

/-- A `goto done` behind `core_file_fail`. -/
def publishFail (stage : FileStage) (systemError expected actual : Nat) (status : Status)
    (reason : String) (fileOpen temporaryExists destinationExists : Bool) : PublishExit :=
  let failure := coreFileFail stage systemError expected actual status reason
  ⟨failure.1, failure.2, fileOpen, temporaryExists, destinationExists⟩

def coreFileCleanupNote (result : FileResult) (stage : FileCleanupStage) (systemError : Nat) :
    FileResult :=
  if result.cleanupStage ≠ .none then result
  else
    { result with
      cleanupStage := stage
      cleanupSystemError := if systemError = 0 then ioError else systemError }

/-- `core_file_unlink_owned`, with the error if the name is still there. -/
def coreFileUnlinkOwned (name : Text) : FileCalls (Option Nat) := do
  match ← unlink name with
  | .ok () => return none
  | .error errno => return if errno = noEntry then none else some errno

/-- `core_file_write_exact`. Every round writes some bytes or is the last one, so the number of
bytes is fuel enough; an interrupted call is made again. -/
def coreFileWriteExact (file : Nat) : Nat → List UInt8 → FileCalls (Except Nat Unit)
  | 0, _ => return .ok ()
  | fuel + 1, data => do
    match ← write file data with
    | .error errno => return .error errno
    | .ok 0 => return .error 0
    | .ok (wrote + 1) =>
      if data.length ≤ wrote + 1 then return .ok ()
      else coreFileWriteExact file fuel (data.drop (wrote + 1))

def temporaryName (name : Text) (process attempt : Nat) : Text :=
  '.' :: name ++ '.' :: Nat.toDigits 10 process ++ '.' :: Nat.toDigits 10 attempt ++ ".tmp".toList

def createTemporary (name : Text) (process : Nat) :
    Nat → Nat → FileCalls (Except PublishExit (Text × Nat))
  | 0, _ =>
    return .error (publishFail .create alreadyExists 1 0 .io
      "temporary file could not be created" false false false)
  | left + 1, attempt => do
    let temporary := temporaryName name process attempt
    if 256 ≤ temporary.length then
      return .error (publishFail .bounds 36 256 name.length .bounds
        "temporary filename exceeds capacity" false false false)
    else
      match ← create temporary with
      | .ok file => return .ok (temporary, file)
      | .error errno =>
        if errno = alreadyExists then createTemporary name process left (attempt + 1)
        else return .error (publishFail .create errno 1 0 .io
          "temporary file could not be created" false false false)

section Publish

variable (faults : FileFaults) (replace : Bool) (name temporary : Text) (data : List UInt8)

def publishSynced : FileCalls PublishExit := do
  match ← quiet with
  | .error errno =>
    return publishFail .directorySync errno 1 0 .io
      "directory publication synchronization failed" false false (!replace)
  | .ok () => return ⟨⟨.none, 0, 0, data.length, .none, 0⟩, .ok (), false, false, !replace⟩

def publishLinked : FileCalls PublishExit := do
  let unlinked ← if faults.injectTemporaryUnlinkFailure then pure (some ioError)
    else coreFileUnlinkOwned temporary
  match unlinked with
  | some errno =>
    return publishFail .temporaryUnlink errno 1 0 .io
      "temporary publication name could not be removed" false true true
  | none => publishSynced replace data

def publishNamed : FileCalls PublishExit := do
  if replace then
    match ← rename temporary name with
    | .error errno =>
      return publishFail .publish errno 1 0 .io
        "atomic file replacement failed" false true false
    | .ok () => publishSynced replace data
  else
    match ← link temporary name with
    | .error errno =>
      return if errno = alreadyExists then
        publishFail .conflict errno 1 0 .state "destination already exists" false true false
      else
        publishFail .publish errno 1 0 .io "atomic file publication failed" false true false
    | .ok () => publishLinked faults replace temporary data

variable (validator : Option FileValidator)

/-- The answer of a validator that reads the candidate. -/
def validated (validator : FileValidator) : FileCalls (Except Rejection Unit) :=
  .perform fun _ directory =>
    (validator (((directory.entries temporary).map Prod.snd).getD []), directory)

def publishValidated : FileCalls PublishExit := do
  match validator with
  | none => publishNamed faults replace name temporary data
  | some validator =>
    match ← quiet with
    | .error errno =>
      return publishFail .validate errno data.length 0 .io
        "publication candidate could not be reopened" false true false
    | .ok () =>
      match ← validated temporary validator, ← quiet with
      | .error refusal, closed =>
        let result : FileResult := ⟨.validate, 0, data.length, 0, .none, 0⟩
        return ⟨match closed with
          | .ok () => result
          | .error errno => coreFileCleanupNote result .fileClose errno,
          .error refusal, false, true, false⟩
      | .ok (), .error errno =>
        return publishFail .fileClose errno 1 0 .io
          "validation descriptor close failed" false true false
      | .ok (), .ok () => publishNamed faults replace name temporary data

def publishWritten (file : Nat) : FileCalls PublishExit := do
  match ← coreFileWriteExact file data.length data with
  | .error errno =>
    return publishFail .write errno data.length 0 .io
      "file write was incomplete" true true false
  | .ok () =>
    match ← quiet with
    | .error errno =>
      return publishFail .fileSync errno 1 0 .io
        "file synchronization failed" true true false
    | .ok () =>
      match ← quiet with
      | .error errno =>
        return publishFail .fileClose errno 1 0 .io
          "file close failed" false true false
      | .ok () =>
        if faults.injectFileCloseFailure then
          return publishFail .fileClose ioError 1 0 .io "file close failed" false true false
        else publishValidated faults replace name temporary data validator

/-- One removal of the clean-up block, with whether the injected fault is used up. -/
def cleanupUnlink (name : Text) (stage : FileCleanupStage) (result : FileResult)
    (consumed : Bool) : FileCalls (FileResult × Bool) := do
  match ← coreFileUnlinkOwned name with
  | some errno => return (coreFileCleanupNote result stage errno, true)
  | none =>
    return if faults.injectCleanupUnlinkFailure && !consumed then
      (coreFileCleanupNote result stage ioError, true)
    else (result, consumed)

def publishResync (result : FileResult) (failure : Rejection) : FileCalls FileReply := do
  match ← quiet with
  | .ok () => return (result, .error failure)
  | .error errno => return (coreFileCleanupNote result .directorySync errno, .error failure)

def publishRemove (exit : PublishExit) (result : FileResult) (failure : Rejection) :
    FileCalls FileReply := do
  let first ← if exit.destinationExists then
      cleanupUnlink faults name .destinationUnlink result false
    else pure (result, false)
  let second ← if exit.temporaryExists then
      cleanupUnlink faults temporary .temporaryUnlink first.1 first.2
    else pure first
  publishResync second.1 failure

/-- The clean-up block behind `done`. -/
def publishDone (exit : PublishExit) : FileCalls FileReply := do
  let closed ← if exit.fileOpen then quiet else pure (.ok ())
  let result := match closed with
    | .ok () => exit.result
    | .error errno => coreFileCleanupNote exit.result .fileClose errno
  match exit.outcome with
  | .ok () => return (result, .ok ())
  | .error failure => publishRemove faults name temporary exit result failure

/-- `core_file_publish`, for a path whose last component is the name and whose parent directory was
opened or refused. -/
def coreFilePublish (parent : Except (FileResult × Rejection) Unit) (process : Nat) :
    FileCalls FileReply := do
  if data.isEmpty then
    return coreFileFail .argument 22 1 0 .invalidArgument "file publication arguments are incomplete"
  else
    match parent with
    | .error (result, failure) => return (result, .error failure)
    | .ok () =>
      match ← createTemporary name process 32 0 with
      | .error exit => publishDone faults name [] exit
      | .ok (temporary, file) =>
        let exit ← publishWritten faults replace name temporary data validator file
        publishDone faults name temporary exit

end Publish

/-! ## What the directory holds -/

variable (before : Disk) (replace : Bool) (name temporary : Text)
  (data : List UInt8) (validator : Option FileValidator)

def Admitted : Prop := ∀ check ∈ validator, check data = .ok ()

/-- The destination is bound to what it was, or to the bytes if the validator admits them. -/
def Whole (directory : Disk) : Prop := directory.entries name = before.entries name ∨
    Admitted data validator ∧ ∃ file, directory.entries name = some (file, data)

def staged (content : List UInt8) : Text → Option (Nat × List UInt8) :=
  update before.entries temporary (some (before.fresh, content))

def published : Text → Option (Nat × List UInt8) :=
  update before.entries name (some (before.fresh, data))

/-- What stands at `done` with the flags that say so. -/
inductive Left : PublishExit → Disk → Prop where
  | unnamed {exit directory content} (failed : exit.outcome ≠ .ok ())
      (flag : exit.temporaryExists = true) (removable : exit.destinationExists = false)
      (entries : directory.entries = staged before temporary content) : Left exit directory
  | linked {exit directory} (failed : exit.outcome ≠ .ok ())
      (flag : exit.temporaryExists = true) (removable : exit.destinationExists = true)
      (vacant : before.entries name = none)
      (entries : directory.entries =
        update (staged before temporary data) name (some (before.fresh, data))) :
      Left exit directory
  | unsynced {exit directory} (failed : exit.outcome ≠ .ok ())
      (flag : exit.temporaryExists = false) (removable : exit.destinationExists = !replace)
      (vacant : replace = false → before.entries name = none)
      (entries : directory.entries = published before name data) : Left exit directory
  | finished {exit directory} (succeeded : exit.outcome = .ok ())
      (entries : directory.entries = published before name data) : Left exit directory

structure Ended (reply : FileReply) (directory : Disk) :
    Prop where
  bound : reply.2 = .ok () → directory.entries = published before name data
  undone : replace = false → reply.2 ≠ .ok () → reply.1.cleanupStage = .none →
    directory.entries = before.entries

variable {before replace name temporary data validator} {directory : Disk}

theorem staged_append (entries : directory.entries = staged before temporary content)
    (bytes : List UInt8) :
    (directory.append before.fresh bytes).entries = staged before temporary (content ++ bytes) := by
  funext other
  simp only [Directory.append, entries, staged]
  rcases eq_or_ne other temporary with rfl | differs
  · simp
  rw [update_of_ne differs, update_of_ne differs]
  cases found : before.entries other with
  | none => rfl
  | some held =>
    have known := ne_of_lt (before.below found)
    simp [known]

theorem update_vacant (vacant : before.entries key = none) :
    update before.entries key none = before.entries := by
  rw [← vacant, update_eq_self]

theorem ne_temporaryName (process attempt : Nat) : name ≠ temporaryName name process attempt := by
  intro same
  have lengths := congrArg length same
  simp [temporaryName] at lengths
  omega

theorem published_whole (admitted : Admitted data validator)
    (entries : directory.entries = published before name data) :
    Whole before name data validator directory := by
  refine .inr ⟨admitted, before.fresh, ?_⟩
  rw [entries, published, update_self]

theorem publishFail_outcome :
    (publishFail stage systemError expected actual status reason fileOpen temporaryExists
      destinationExists).outcome ≠ .ok () := by
  simp [publishFail, coreFileFail]

theorem Left.of_fail (entries : directory.entries = staged before temporary content) :
    Left before replace name temporary data
      (publishFail stage systemError expected actual status reason fileOpen true false) directory :=
  .unnamed publishFail_outcome rfl rfl entries

theorem publishSynced_always (admitted : Admitted data validator)
    (vacant : replace = false → before.entries name = none)
    (entries : directory.entries = published before name data) :
    (publishSynced replace data).Always (Whole before name data validator)
      (Left before replace name temporary data) directory := by
  apply Always.bind
  apply always_quiet (published_whole admitted entries)
  intro reply
  cases reply with
  | error errno => exact .unsynced publishFail_outcome rfl rfl vacant entries
  | ok => exact .finished rfl entries

theorem coreFileUnlinkOwned_always (held : required directory)
    (failed : ∀ errno, ended (some errno) directory) (found : directory.entries name = some file)
    (removed : ∀ next : Disk, next.entries = update directory.entries name none →
      required next ∧ ended none next) :
    (coreFileUnlinkOwned name).Always required ended directory := by
  apply Always.bind
  apply always_unlink held ?_ found removed
  intro errno other
  show ended (if errno = noEntry then none else some errno) directory
  rw [if_neg other]
  exact failed errno

theorem coreFileCleanupNote_ne (noted : stage ≠ .none) :
    (coreFileCleanupNote result stage systemError).cleanupStage ≠ .none := by
  rw [coreFileCleanupNote]
  split
  · assumption
  · exact noted

theorem cleanupUnlink_always (faults : FileFaults)
    (noted : stage ≠ .none) (held : required directory)
    (found : directory.entries target = some file)
    (removable : ∀ next : Disk, next.entries = update directory.entries target none →
      required next) :
    (cleanupUnlink faults target stage result consumed).Always required
      (fun reply next => required next ∧
        (∀ other, other ≠ target → next.entries other = directory.entries other) ∧
        (reply.1.cleanupStage = .none → result.cleanupStage = .none ∧
          next.entries = update directory.entries target none)) directory := by
  apply Always.bind
  apply coreFileUnlinkOwned_always held ?_ found
  · intro next removed
    refine ⟨removable next removed, ?_⟩
    refine ⟨removable next removed, fun other differs => ?_, ?_⟩
    · rw [removed, update_of_ne differs]
    · split
      · exact fun clean => absurd clean (coreFileCleanupNote_ne noted)
      · exact fun clean => ⟨clean, removed⟩
  · intro errno
    exact ⟨held, fun _ _ => rfl, fun clean => absurd clean (coreFileCleanupNote_ne noted)⟩

theorem publishResync_always {failure : Rejection}
    (whole : Whole before name data validator directory)
    (clean : replace = false → result.cleanupStage = .none → directory.entries = before.entries) :
    (publishResync result failure).Always (Whole before name data validator)
      (Ended before replace name data) directory := by
  apply Always.bind
  apply always_quiet whole
  intro reply
  cases reply with
  | ok => exact ⟨by simp, fun linking _ => clean linking⟩
  | error errno => exact ⟨by simp, fun _ _ noted => absurd noted (coreFileCleanupNote_ne (by simp))⟩

section Candidate

variable (differs : name ≠ temporary)

include differs

theorem staged_whole (entries : directory.entries = staged before temporary content) :
    Whole before name data validator directory := by
  apply Or.inl
  rw [entries, staged, update_of_ne differs]

theorem coreFileWriteExact_always (enough : rest.length ≤ fuel)
    (entries : directory.entries = staged before temporary content) :
    (coreFileWriteExact before.fresh fuel rest).Always (Whole before name data validator)
      (fun reply next => ∃ written, next.entries = staged before temporary (content ++ written) ∧
        (reply = .ok () → written = rest)) directory := by
  induction fuel generalizing directory content rest with
  | zero =>
    have empty : rest = [] := eq_nil_of_length_eq_zero (Nat.le_zero.mp enough)
    exact ⟨[], by simpa using entries, fun _ => empty.symm⟩
  | succ fuel induction => ?_
  apply Always.bind
  apply always_write (staged_whole differs entries)
  · intro errno
    exact ⟨[], by simpa using entries, by simp⟩
  intro count
  have after := staged_append entries (rest.take count)
  refine ⟨staged_whole differs after, ?_⟩
  cases amount : min count rest.length with
  | zero => exact ⟨rest.take count, after, by simp⟩
  | succ wrote => ?_
  have taken : rest.take count = rest.take (wrote + 1) := by rw [← amount, take_eq_take_min]
  dsimp only
  split
  · rename_i whole
    refine ⟨rest.take count, after, fun _ => ?_⟩
    rw [taken, take_of_length_le whole]
  apply (induction ?_ after).mono
  · rintro reply next ⟨written, held, all⟩
    refine ⟨rest.take count ++ written, by rw [held, append_assoc], ?_⟩
    intro succeeded
    rw [all succeeded, taken, take_append_drop]
  · rw [length_drop]
    omega

theorem Whole.unlink_temporary {next : Disk} (whole : Whole before name data validator directory)
    (removed : next.entries = update directory.entries temporary none) :
    Whole before name data validator next := by
  rw [Whole, removed, update_of_ne differs]
  exact whole

variable (faults : FileFaults) (free : before.entries temporary = none)

include free

theorem update_published :
    update (update (staged before temporary data) name (some (before.fresh, data))) temporary none =
      published before name data := by
  rw [staged, published, update_comm differs, update_idem, update_vacant free]

theorem publishLinked_always (admitted : Admitted data validator) (vacant :
    before.entries name = none)
    (entries : directory.entries =
      update (staged before temporary data) name (some (before.fresh, data))) :
    (publishLinked faults false temporary data).Always (Whole before name data validator)
      (Left before false name temporary data) directory := by
  have whole : Whole before name data validator directory := by
    refine .inr ⟨admitted, before.fresh, ?_⟩
    rw [entries, update_self]
  have kept : ∀ errno, Left before false name temporary data (publishFail .temporaryUnlink errno 1 0
      .io "temporary publication name could not be removed" false true true) directory :=
    fun errno => .linked publishFail_outcome rfl rfl vacant entries
  rw [publishLinked]
  cases faults.injectTemporaryUnlinkFailure with
  | true => exact kept ioError
  | false => ?_
  apply Always.bind
  apply coreFileUnlinkOwned_always whole kept
  · rw [entries, update_of_ne differs.symm, staged, update_self]
  intro next removed
  rw [entries, update_published differs free] at removed
  exact ⟨published_whole admitted removed, publishSynced_always admitted (fun _ => vacant) removed⟩

theorem publishNamed_always (admitted : Admitted data validator)
    (entries : directory.entries = staged before temporary data) :
    (publishNamed faults replace name temporary data).Always (Whole before name data validator)
      (Left before replace name temporary data) directory := by
  have whole : Whole before name data validator directory := staged_whole differs entries
  have found : directory.entries temporary = some (before.fresh, data) := by
    rw [entries, staged, update_self]
  have destination : directory.entries name = before.entries name := by
    rw [entries, staged, update_of_ne differs]
  cases replace with
  | true =>
    apply Always.bind
    apply always_rename whole ?_ found
    · intro present bound
      exact ne_of_lt (before.below (destination ▸ bound))
    · intro next renamed
      rw [entries, update_published differs free] at renamed
      exact ⟨published_whole admitted renamed, publishSynced_always admitted (by simp) renamed⟩
    · intro errno
      exact .of_fail entries
  | false =>
    apply Always.bind
    apply always_link whole ?_ found
    · intro next vacant linked
      rw [entries] at linked
      refine ⟨.inr ⟨admitted, before.fresh, by rw [linked, update_self]⟩, ?_⟩
      exact publishLinked_always differs faults free admitted (destination ▸ vacant) linked
    · intro errno
      show Left _ _ _ _ _ (if _ then _ else _) _
      split <;> exact .of_fail entries

theorem publishValidated_always (entries : directory.entries = staged before temporary data) :
    (publishValidated faults replace name temporary data validator).Always
      (Whole before name data validator) (Left before replace name temporary data) directory := by
  have whole : Whole before name data validator directory := staged_whole differs entries
  cases validator with
  | none => exact publishNamed_always differs faults free (by simp [Admitted]) entries
  | some check => ?_
  apply Always.bind
  apply always_quiet whole
  intro reopened
  cases reopened with
  | error errno => exact .of_fail entries
  | ok => ?_
  have candidate : ((directory.entries temporary).map Prod.snd).getD [] = data := by
    rw [entries, staged, update_self]
    rfl
  apply Always.bind
  intro grant
  refine ⟨whole, ?_⟩
  apply Always.bind
  apply always_quiet whole
  intro closed
  simp only [candidate]
  cases answer : check data with
  | error refusal => exact .unnamed (by simp) rfl rfl entries
  | ok => ?_
  cases closed with
  | error errno => exact .of_fail entries
  | ok => exact publishNamed_always differs faults free (by simpa [Admitted]) entries

theorem publishWritten_always (entries : directory.entries = staged before temporary []) :
    (publishWritten faults replace name temporary data validator before.fresh).Always
      (Whole before name data validator) (Left before replace name temporary data) directory := by
  apply Always.bind
  apply (coreFileWriteExact_always differs le_rfl entries).mono
  rintro reply written ⟨bytes, held, all⟩
  have whole : Whole before name data validator written := staged_whole differs held
  cases reply with
  | error errno => exact .of_fail held
  | ok => ?_
  rw [all rfl] at held
  apply Always.bind
  apply always_quiet whole
  intro synced
  cases synced with
  | error errno => exact .of_fail held
  | ok => ?_
  apply Always.bind
  apply always_quiet whole
  intro closed
  cases closed with
  | error errno => exact .of_fail held
  | ok => ?_
  dsimp only
  split
  · exact .of_fail held
  · exact publishValidated_always differs faults free held

theorem publishRemove_always {failure : Rejection} (failed : exit.outcome = .error failure)
    (left : Left before replace name temporary data exit directory)
    (whole : Whole before name data validator directory) :
    (publishRemove faults name temporary exit result failure).Always
      (Whole before name data validator) (Ended before replace name data) directory := by
  have vacated (vacant : before.entries name = none) : ∀ next : Disk,
      next.entries = update directory.entries name none →
      Whole before name data validator next := by
    intro next removed
    apply Or.inl
    rw [removed, update_self, vacant]
  rw [publishRemove]
  cases left with
  | unnamed _ flag removable entries =>
    rename_i content _
    rw [flag, removable]
    have found : directory.entries temporary = some (before.fresh, content) := by
      rw [entries, staged, update_self]
    show Always _ _ (cleanupUnlink faults temporary .temporaryUnlink result false >>=
      fun second => publishResync second.1 failure) directory
    apply Always.bind
    apply (cleanupUnlink_always faults (by simp) whole found
      (fun _ => whole.unlink_temporary differs)).mono
    rintro reply next ⟨whole, -, removed⟩
    apply publishResync_always whole
    intro _ clean
    rw [(removed clean).2, entries, staged, update_idem, update_vacant free]
  | linked _ flag removable vacant entries =>
    rw [flag, removable]
    apply Always.bind
    have found : directory.entries name = some (before.fresh, data) := by rw [entries, update_self]
    apply (cleanupUnlink_always faults (by simp) whole found (vacated vacant)).mono
    rintro first next ⟨whole, others, removed⟩
    apply Always.bind
    have present : next.entries temporary = some (before.fresh, data) := by
      rw [others temporary differs.symm, entries, update_of_ne differs.symm, staged, update_self]
    apply (cleanupUnlink_always faults (by simp) whole present
      (fun _ => whole.unlink_temporary differs)).mono
    rintro second last ⟨whole, -, cleared⟩
    apply publishResync_always whole
    intro _ clean
    obtain ⟨clean, temporaryGone⟩ := cleared clean
    rw [temporaryGone, (removed clean).2, entries, update_idem,
      update_comm differs, staged, update_idem, update_vacant free,
      update_vacant vacant]
  | unsynced _ flag removable vacant entries =>
    rw [flag, removable]
    cases replace with
    | true => exact publishResync_always whole (by simp)
    | false => ?_
    apply Always.bind
    have found : directory.entries name = some (before.fresh, data) := by
      rw [entries, published, update_self]
    apply (cleanupUnlink_always faults (by simp) whole found (vacated (vacant rfl))).mono
    rintro reply next ⟨whole, -, removed⟩
    apply publishResync_always whole
    intro _ clean
    rw [(removed clean).2, entries, published, update_idem, update_vacant (vacant rfl)]
  | finished succeeded => simp [succeeded] at failed

theorem publishDone_always (left : Left before replace name temporary data exit directory)
    (whole : Whole before name data validator directory) :
    (publishDone faults name temporary exit).Always (Whole before name data validator)
      (Ended before replace name data) directory := by
  have outcome (result : FileResult) : Always (Whole before name data validator)
      (Ended before replace name data) (match exit.outcome with
        | .ok () => pure (result, .ok ())
        | .error failure => publishRemove faults name temporary exit result failure) directory := by
    cases ended : exit.outcome with
    | error failure => exact publishRemove_always differs faults free ended left whole
    | ok => ?_
    cases left with
    | finished _ entries => exact ⟨fun _ => entries, by simp⟩
    | unnamed failed | linked failed | unsynced failed => exact absurd ended failed
  rw [publishDone]
  split
  · apply Always.bind
    exact always_quiet whole fun closed => outcome _
  · exact outcome _

end Candidate

/-! ## The publication -/

theorem createTemporary_always (process left attempt : Nat) :
    (createTemporary name process left attempt).Always (Whole before name data validator)
      (fun reply directory => match reply with
        | .error exit => directory = before ∧ ∃ stage systemError expected actual status reason,
            exit = publishFail stage systemError expected actual status reason false false false
        | .ok (temporary, file) => file = before.fresh ∧ name ≠ temporary ∧
            before.entries temporary = none ∧ directory.entries = staged before temporary [])
      before := by
  induction left generalizing attempt with
  | zero => exact ⟨rfl, _, _, _, _, _, _, rfl⟩
  | succ left induction => ?_
  rw [createTemporary]
  split
  · exact ⟨rfl, _, _, _, _, _, _, rfl⟩
  apply Always.bind
  apply always_create (.inl rfl)
  · intro errno
    dsimp only
    split
    · exact induction (attempt + 1)
    · exact ⟨rfl, _, _, _, _, _, _, rfl⟩
  · intro next free created
    have differs : name ≠ _ := ne_temporaryName process attempt
    exact ⟨staged_whole differs created, rfl, differs, free, created⟩

theorem coreFilePublish_always (faults : FileFaults)
    (parent : Except (FileResult × Rejection) Unit) (process : Nat) :
    (coreFilePublish faults replace name data validator parent process).Always
      (Whole before name data validator) (Ended before replace name data) before := by
  unfold coreFilePublish
  split
  · exact ⟨by simp [coreFileFail], fun _ _ _ => rfl⟩
  cases parent with
  | error failure => exact ⟨by simp, fun _ _ _ => rfl⟩
  | ok => ?_
  apply Always.bind
  apply (createTemporary_always process 32 0).mono
  intro reply directory created
  match reply, created with
  | .error _, ⟨same, _, _, _, _, _, _, failed⟩ =>
    subst same failed
    exact publishResync_always (.inl rfl) fun _ _ => rfl
  | .ok (temporary, _), ⟨rfl, differs, free, entries⟩ =>
    apply Always.bind
    apply ((publishWritten_always differs faults free entries).kept
      (staged_whole differs entries)).mono
    rintro exit left ⟨whole, stands⟩
    exact publishDone_always differs faults free stands whole

/-- What holds of every run: at every instant the destination is bound to what it was or to the
bytes, and after a refusal of the validator to what it was; a successful call has bound it and
changed no other name; and a failed link without a note of the clean-up has changed nothing. -/
structure AllOrNothing (before : Disk) (replace : Bool) (name : Text)
    (data : List UInt8) (validator : Option FileValidator)
    (run : List Disk × FileReply × Disk) : Prop where
  instants : ∀ directory ∈ run.1, directory.entries name = before.entries name ∨
    ∃ file, directory.entries name = some (file, data)
  refused : ∀ check ∈ validator, check data ≠ .ok () →
    ∀ directory ∈ run.1, directory.entries name = before.entries name
  bound : run.2.1.2 = .ok () →
    ∃ file, run.2.2.entries = update before.entries name (some (file, data))
  undone : replace = false → run.2.1.2 ≠ .ok () → run.2.1.1.cleanupStage = .none →
    run.2.2.entries = before.entries

theorem coreFilePublish_all_or_nothing (faults : FileFaults) (replace : Bool) (name : Text)
    (data : List UInt8) (validator : Option FileValidator)
    (parent : Except (FileResult × Rejection) Unit) (process : Nat) (grants : Nat → Grant)
    (before : Disk) : AllOrNothing before replace name data validator
      ((coreFilePublish faults replace name data validator parent process).run grants before) := by
  obtain ⟨instants, ended⟩ := (coreFilePublish_always faults parent process).run grants
  exact {
    instants := fun directory member => (instants directory member).imp_right And.right
    refused := by
      intro check present refused directory member
      rcases instants directory member with kept | ⟨admitted, _⟩
      · exact kept
      · exact absurd (admitted check present) refused
    bound := fun succeeded => ⟨before.fresh, ended.bound succeeded⟩
    undone := ended.undone }

end Yvex.Core
