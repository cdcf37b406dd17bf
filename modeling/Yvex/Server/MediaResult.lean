import Mathlib.Data.List.Infix
import Yvex.Ir.Dialect
import Yvex.Server.Protocol

namespace Yvex.Server

open List Tlv

/-! # Media results in messages

Of a message the model has the media result. How the other fields are read (`others`) and what is
checked of them (`accepts`) is given. -/

/-- The numbers of a media result, in the order of the wire. -/
inductive MediaFact where
  | width | height | frames | fpsNumerator | fpsDenominator | durationMilliseconds | audioSamples
  | audioSampleRate | seed | modelEvaluations | engineGeneration | task | conditionCount | fileBytes
deriving DecidableEq

inductive MediaIdentity where
  | preset | trajectory | rng | plan | execution | file | publication
deriving DecidableEq

structure ClientMediaResult where
  available : Bool := false
  schemaVersion : Nat := 0
  /-- The bytes that were copied to `output_path`, without the zero behind them. -/
  outputPath : Bytes := []
  fact : MediaFact → Nat := fun _ => 0
  identity : MediaIdentity → Bytes := fun _ => []

section

variable (result : ClientMediaResult)

/-- The path as the C functions read it. -/
def ClientMediaResult.path : Bytes := result.outputPath.takeWhile (· != 0)

/-- `"/.."` -/
def parentSuffix : Bytes := [47, 46, 46]

def mediaResultFieldsValid : Bool :=
  if result.available then
    result.schemaVersion == 2 && result.path.head? == some 47 &&
      !decide (parentSuffix ++ [47] <:+: result.path) &&
      -- The source compares the last byte alone.
      result.path.drop (result.path.length - 1) != parentSuffix &&
      (range 14).all (fun index => MediaFact.ofNat index ∈ [.seed, .task, .conditionCount] ||
        result.fact (.ofNat index) != 0) &&
      (result.fact .task, result.fact .conditionCount) ∈ [(0, 0), (1, 1), (2, 1), (3, 2)] &&
      (range 7).all fun index => Ir.sha256HexValid (result.identity (.ofNat index))
  else
    result.schemaVersion == 0 && result.path.isEmpty &&
      (range 14).all (fun index => result.fact (.ofNat index) == 0) &&
      (range 7).all fun index => (result.identity (.ofNat index)).headD 0 == 0

def protocolMediaResultWrite : Option (Option Field) :=
  if !result.available then some none
  else if statePathCap ≤ result.path.length then none
  else writerField 233 ((range 14).flatMap (fun index => bigEndian 8 (result.fact (.ofNat index))) ++
    bigEndian 2 result.path.length ++ result.path ++
    (range 7).flatMap fun index => result.identity (.ofNat index))

end

def messageMediaResultField (bytes : Bytes) : Option ClientMediaResult := do
  let pathOffset := 14 * 8
  let fact (fact : MediaFact) := ofBigEndian ((bytes.drop (8 * fact.ctorIdx)).take 8)
  let pathBytes := ofBigEndian ((bytes.drop pathOffset).take 2)
  let identityOffset := pathOffset + 2 + pathBytes
  ensure (pathOffset + 2 + 7 * 64 ≤ bytes.length && fact .task ≤ 3 && pathBytes != 0 &&
    pathBytes < statePathCap && bytes.length == identityOffset + 7 * 64)
  pure {
    available := true
    schemaVersion := 2
    outputPath := (bytes.drop (pathOffset + 2)).take pathBytes
    fact
    identity identity := (bytes.drop (identityOffset + 64 * identity.ctorIdx)).take 64 }

section

variable {σ : Type} (others : Field → σ → Option σ) (accepts : ClientMediaResult × σ → Bool)

def messageField (field : Field) (message : ClientMediaResult × σ) :
    Option (ClientMediaResult × σ) :=
  if field.tag = 233 then (messageMediaResultField field.payload).map (·, message.2)
  else (others field message.2).map (message.1, ·)

def protocolMessageDecode (start : σ) (input : Bytes) : Option (ClientMediaResult × σ) := do
  ensure (input.length ≤ frameMaxBytes)
  let message ← scan trackedTags (messageField others) input.length [] ({}, start) input
  ensure (mediaResultFieldsValid message.1 && accepts message)
  pure message

def protocolMessageEncode (message : ClientMediaResult × σ) : Option (Option Field) := do
  ensure (mediaResultFieldsValid message.1 && accepts message)
  protocolMediaResultWrite message.1

end

/-- An absolute path without a zero and without a component `..`. -/
def Stays (path : Bytes) : Prop :=
  path.head? = some 47 ∧ 0 ∉ path ∧ ¬ ∃ before after, path = before ++ [46, 46] ++ after ∧
    (before = [] ∨ before.getLast? = some 47) ∧ (after = [] ∨ after.head? = some 47)

theorem stays_iff (absolute : path.head? = some 47) (inner : ¬ parentSuffix ++ [47] <:+: path) :
    Stays path ↔ 0 ∉ path ∧ ¬ parentSuffix <:+ path := by
  simp only [Stays, absolute, true_and]
  apply and_congr_right'
  apply not_congr
  constructor
  · rintro ⟨before, after, rfl, rfl | ends, next⟩
    · simp at absolute
    obtain ⟨init, rfl⟩ := getLast?_eq_some_iff.mp ends
    rcases next with rfl | next
    · exact ⟨init, by simp [parentSuffix]⟩
    · obtain ⟨rest, rfl⟩ := head?_eq_some_iff.mp next
      exact absurd ⟨init, rest, by simp [parentSuffix]⟩ inner
  · rintro ⟨init, rfl⟩
    exact ⟨init ++ [47], [], by simp [parentSuffix]⟩

/-- What the check says of the path, when the path is all that was copied. -/
theorem stays_of_valid (valid : (mediaResultFieldsValid result && rest) = true)
    (available : result.available = true) : Stays result.path ↔ ¬ parentSuffix <:+ result.path := by
  simp only [mediaResultFieldsValid, available, if_true, Bool.and_eq_true] at valid
  have clean : 0 ∉ result.path := fun zero => by simpa using mem_takeWhile_imp zero
  rw [stays_iff (by simp_all) (by simp_all), and_iff_right clean]

/-- The bytes of the path in a field of a media result, behind their count. -/
def transmittedPath (payload : Bytes) : Bytes :=
  (payload.drop 114).take (ofBigEndian ((payload.drop 112).take 2))

theorem outputPath_of_field (read : messageMediaResultField payload = some result) :
    result.outputPath = transmittedPath payload := by
  simp only [messageMediaResultField, bind_eq_some, pure_eq_some] at read
  obtain ⟨_, _, rfl⟩ := read
  rfl

theorem run_messageField {σ : Type} {others : Field → σ → Option σ}
    {first last : ClientMediaResult × σ}
    (ran : run (messageField others) fields first = some last) : last.1 = first.1 ∨
      ∃ field ∈ fields, field.tag = 233 ∧ messageMediaResultField field.payload = some last.1 := by
  induction fields generalizing first with
  | nil =>
    cases ran
    exact .inl rfl
  | cons field fields induction =>
    rw [run, foldlM_cons, bind_eq_some] at ran
    obtain ⟨middle, handled, ran⟩ := ran
    rcases induction ran with kept | ⟨other, member, read⟩
    · unfold messageField at handled
      split at handled
      · rename_i media
        obtain ⟨result, read, rfl⟩ := Option.map_eq_some_iff.mp handled
        exact .inr ⟨field, mem_cons_self, media, kept ▸ read⟩
      · obtain ⟨_, _, rfl⟩ := Option.map_eq_some_iff.mp handled
        exact .inl kept
    · exact .inr ⟨other, mem_cons_of_mem _ member, read⟩

/-- The decoder and the encoder keep a path in its place exactly if it has no zero and no parent at
its end: the bytes behind a zero are not read, and the comparison with the end never matches. -/
theorem mediaResult_stays_iff {σ : Type} (others : Field → σ → Option σ)
    (accepts : ClientMediaResult × σ → Bool) (start : σ) :
    (∀ input message, protocolMessageDecode others accepts start input = some message →
      message.1.available = true → ∃ fields, (∀ field ∈ fields, field.Fits) ∧ input = frame fields ∧
          ∃ field ∈ fields, field.tag = 233 ∧ message.1.outputPath = transmittedPath field.payload ∧
            (Stays message.1.outputPath ↔ 0 ∉ transmittedPath field.payload ∧
              ¬ parentSuffix <:+ transmittedPath field.payload)) ∧
    ∀ message field, protocolMessageEncode accepts message = some field →
      message.1.available = true → (Stays message.1.path ↔ ¬ parentSuffix <:+ message.1.path) := by
  constructor
  · intro input message decoded available
    simp only [protocolMessageDecode, bind_eq_some, ensure_eq_some] at decoded
    obtain ⟨_, _, _, scanned, _, valid, ⟨⟩⟩ := decoded
    obtain ⟨fields, fit, framed, _, ran⟩ := (scan_eq_some le_rfl).mp scanned
    rcases run_messageField ran with initial | ⟨field, member, media, read⟩
    · rw [initial] at available
      cases available
    refine ⟨fields, fit, framed, field, member, media, outputPath_of_field read, ?_⟩
    rw [← outputPath_of_field read]
    by_cases zero : 0 ∈ message.1.outputPath
    · exact ⟨fun stays => absurd zero stays.2.1, fun clean => absurd zero clean.1⟩
    have whole : message.1.path = message.1.outputPath :=
      takeWhile_eq_self_iff.mpr fun byte member => by grind
    rw [and_iff_right zero, ← whole, stays_of_valid valid available]
  · intro message field encoded available
    obtain ⟨_, valid, _⟩ := Option.bind_eq_some_iff.mp encoded
    exact stays_of_valid (ensure_eq_some.mp valid) available

/-- A result whose path is `/..` is read. -/
theorem mediaResult_leaves :
    (protocolMessageDecode (fun _ (state : Unit) => some state) (fun _ => true) () (frame [⟨233,
      (range 14).flatMap (fun index => bigEndian 8 (if index = 11 ∨ index = 12 then 0 else 1)) ++
        bigEndian 2 3 ++ parentSuffix ++ replicate 448 48⟩])).map
          (fun message => (message.1.available, message.1.outputPath)) = some (true, parentSuffix) ∧
      ¬ Stays parentSuffix :=
  ⟨by decide +kernel, fun stays => stays.2.2 ⟨[47], [], rfl, .inr rfl, .inl rfl⟩⟩

end Yvex.Server
