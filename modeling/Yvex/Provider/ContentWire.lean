import Yvex.Provider.Content

namespace Yvex.Provider

open List Yvex.Except

/-! # The wire form of ordered content

A list of parts is written as its count and its parts one after another: the numbers of a part,
its four texts as counted bytes and, for an inline part, its bytes. -/

def ContentFields.wire (fields : ContentFields Bytes) : Bytes :=
  writeU64 fields.schemaVersion.toUInt64 ++ writeU64 fields.kind.code ++
    writeU64 fields.storage.code ++ writeU64 fields.byteCount ++ writeU64 fields.width ++
    writeU64 fields.height ++ writeU64 fields.durationMilliseconds ++
    writeSpan 8 fields.mediaType ++ writeSpan 8 fields.reference ++
    writeSpan 8 fields.contentIdentity ++ writeSpan 8 fields.derivedFromContentIdentity

def ContentPart.payload {τ : Type} (part : ContentPart τ) : Bytes :=
  match part.storage with
  | .inline => part.bytes.getD []
  | .localFile => []

def ContentPart.wire (part : ContentPart Bytes) : Bytes := part.toContentFields.wire ++ part.payload

def partsWire (parts : List (ContentPart Bytes)) : Bytes :=
  writeU64 (UInt64.ofNat parts.length) ++ parts.flatMap ContentPart.wire

/-- The condition under which `write_text` writes the texts of a part. -/
def textsBounded (part : ContentPart CString) : Bool :=
  boundedText part.mediaType mediaTypeCap false && boundedText part.reference referenceCap false &&
    boundedText part.contentIdentity contentIdCap false &&
    boundedText part.derivedFromContentIdentity contentIdCap false

/-- `yvex_content_parts_wire_encode`. The writer stops where the capacity is passed, so it
reaches the end exactly where the whole form fits. -/
def partsWireEncode (parts : List (ContentPart CString)) (capacity : Nat) :
    Except Rejection Bytes := do
  require (decide (capacity ≤ contentWireMaxBytes) && (partsValidate true parts).isOk)
    .invalidArgument "valid content and bounded wire output are required"
  let wire := partsWire (parts.map ContentPart.raw)
  require (parts.all textsBounded && decide (wire.length ≤ capacity)) .bounds
    "ordered content exceeds wire capacity"
  return wire

def readSchemaVersion : Reader UInt32 := readUnsigned

def readContentFields : Reader (ContentFields Bytes) := do
  let schemaVersion ← readSchemaVersion
  let kind ← readU64 >>= fun value => Reader.ofOption (ContentKind.ofCode value)
  let storage ← readU64 >>= fun value => Reader.ofOption (ContentStorage.ofCode value)
  let byteCount ← readU64
  let width ← readU64
  let height ← readU64
  let durationMilliseconds ← readU64
  let mediaType ← Reader.span 8 (mediaTypeCap - 1)
  let reference ← Reader.span 8 (referenceCap - 1)
  let contentIdentity ← Reader.span 8 (contentIdCap - 1)
  let derivedFromContentIdentity ← Reader.span 8 (contentIdCap - 1)
  return { schemaVersion, kind, storage, byteCount, width, height, durationMilliseconds, mediaType,
           reference, contentIdentity, derivedFromContentIdentity }

def ContentFields.withBytes {τ : Type} (fields : ContentFields τ) (bytes : Option Bytes) :
    Option (ContentPart τ) :=
  if sized : ∀ content ∈ bytes, content.length = fields.byteCount.toNat then
    some ⟨fields, bytes, sized⟩
  else none

def readPart : Reader (ContentPart Bytes) := do
  let fields ← readContentFields
  let bytes ← match fields.storage with
    | .inline => some <$> Reader.exactly fields.byteCount.toNat
    | .localFile => pure none
  Reader.ofOption (fields.withBytes bytes)

def partsWireDecode (input : Bytes) : Except Rejection (List (ContentPart CString)) := do
  let (count, rest) ← orReject
    (do ensure (input.length != 0 && decide (input.length ≤ contentWireMaxBytes))
        let (count, rest) ← readU64.run input
        ensure (count != 0 && decide (count.toNat ≤ maxParts))
        return (count, rest))
    .invalidArgument "bounded content wire bytes and outputs are required"
  orReject
    (do let (raw, rest) ← (Reader.many readPart count.toNat).run rest
        let parts := raw.map ContentPart.stored
        ensure (rest.isEmpty && (partsValidate true parts).isOk)
        return parts)
    .format "ordered content wire bytes are malformed"

theorem reads_schemaVersion :
    Reads readSchemaVersion (fun _ => True) (fun value => writeU64 value.toUInt64) :=
  reads_unsigned

theorem ContentKind.ofCode_eq_some : ofCode field = some kind ↔ field = kind.code := by
  constructor
  · intro found
    unfold ofCode at found
    split at found <;> cases found <;> rfl
  · rintro rfl
    cases kind <;> rfl

theorem ContentStorage.ofCode_eq_some : ofCode field = some storage ↔ field = storage.code := by
  constructor
  · intro found
    unfold ofCode at found
    split at found <;> cases found <;> rfl
  · rintro rfl
    cases storage <;> rfl

theorem reads_kind :
    Reads (readU64 >>= fun value => Reader.ofOption (ContentKind.ofCode value)) (fun _ => True)
      (fun kind => writeU64 kind.code) :=
  reads_u64.convert ContentKind.code fun _ _ => by rw [ContentKind.ofCode_eq_some]

theorem reads_storage :
    Reads (readU64 >>= fun value => Reader.ofOption (ContentStorage.ofCode value)) (fun _ => True)
      (fun storage => writeU64 storage.code) :=
  reads_u64.convert ContentStorage.code fun _ _ => by rw [ContentStorage.ofCode_eq_some]

def ContentFields.Fits (fields : ContentFields Bytes) : Prop :=
  fields.mediaType.length < mediaTypeCap ∧ fields.reference.length < referenceCap ∧
    fields.contentIdentity.length < contentIdCap ∧
    fields.derivedFromContentIdentity.length < contentIdCap

theorem reads_array (positive : 0 < capacity) (small : capacity ≤ 256 ^ 8) :
    Reads (Reader.span 8 (capacity - 1)) (fun text => text.length < capacity) (writeSpan 8) := by
  have span : Reads (Reader.span 8 (capacity - 1)) (fun text => text.length ≤ capacity - 1)
      (writeSpan 8) := reads_span (by omega)
  apply span.congr
  · intro text
    omega
  · exact fun text _ => rfl

theorem reads_contentFields : Reads readContentFields ContentFields.Fits ContentFields.wire := by
  have id : Reads (Reader.span 8 (contentIdCap - 1)) (fun text => text.length < contentIdCap)
      (writeSpan 8) := reads_array (by decide) (by decide)
  apply Reads.fields
  · apply reads_schemaVersion.field ContentFields.schemaVersion
    intro schemaVersion
    apply reads_kind.field ContentFields.kind
    intro kind
    apply reads_storage.field ContentFields.storage
    intro storage
    apply reads_u64.field ContentFields.byteCount
    intro byteCount
    apply reads_u64.field ContentFields.width
    intro width
    apply reads_u64.field ContentFields.height
    intro height
    apply reads_u64.field ContentFields.durationMilliseconds
    intro duration
    apply (reads_array (by decide) (by decide)).field ContentFields.mediaType
    intro mediaType
    apply (reads_array (by decide) (by decide)).field ContentFields.reference
    intro reference
    apply id.field ContentFields.contentIdentity
    intro contentIdentity
    apply id.field ContentFields.derivedFromContentIdentity
    intro derived
    apply Reads.record
    rintro ⟨⟩
    simp only [true_and, ContentFields.mk.injEq, and_assoc]
  · intro fields
    simp only [ContentFields.Fits, true_and, and_true]
  · intro fields
    simp only [ContentFields.wire, append_assoc, append_nil]

theorem ContentFields.withBytes_eq_some {fields : ContentFields τ}
    {bytes : Option Bytes} {part : ContentPart τ} :
    fields.withBytes bytes = some part ↔ part.toContentFields = fields ∧ part.bytes = bytes := by
  unfold withBytes
  split
  · rw [Option.some.injEq]
    constructor
    · rintro rfl
      exact ⟨rfl, rfl⟩
    · rintro ⟨rfl, rfl⟩
      rfl
  · rename_i unsized
    constructor
    · rintro ⟨⟩
    · rintro ⟨rfl, rfl⟩
      exact absurd part.sized unsized

/-- A part that can be read back: its texts fit their arrays and it has bytes of its own exactly
when it is inline. -/
def ContentPart.Framed (part : ContentPart Bytes) : Prop :=
  part.toContentFields.Fits ∧ (part.bytes.isSome = true ↔ part.storage = .inline)

theorem reads_part : Reads readPart ContentPart.Framed ContentPart.wire := by
  apply reads_contentFields.bind ContentPart.toContentFields
  intro fields input part rest
  cases storage : fields.storage with
  | inline =>
    have bytes : Reads (some <$> Reader.exactly fields.byteCount.toNat)
        (fun bytes => ∃ content, bytes = some content ∧ content.length = fields.byteCount.toNat)
        (fun bytes => bytes.getD []) := by
      apply (reads_exactly fields.byteCount.toNat).map fun bytes : Option Bytes => bytes.getD []
      intro content bytes
      constructor
      · rintro ⟨length, rfl⟩
        exact ⟨⟨content, rfl, length⟩, rfl⟩
      · rintro ⟨⟨content, rfl, length⟩, rfl⟩
        exact ⟨length, rfl⟩
    simp only [Reader.run_bind_eq_some, Reader.run_ofOption, bytes _ _ _,
      ContentFields.withBytes_eq_some]
    constructor
    · rintro ⟨_, _, ⟨⟨content, rfl, length⟩, rfl⟩, ⟨rfl, held⟩, rfl⟩
      refine ⟨⟨rfl, by simp [held, storage]⟩, ?_⟩
      simp [ContentPart.payload, storage, held]
    rintro ⟨⟨rfl, framed⟩, rfl⟩
    rcases Option.isSome_iff_exists.mp (framed.mpr storage) with ⟨content, held⟩
    refine ⟨some content, rest, ⟨⟨content, rfl, part.sized content held⟩, ?_⟩, ⟨rfl, held⟩, rfl⟩
    simp [ContentPart.payload, storage, held]
  | localFile =>
    simp only [Reader.run_bind_eq_some, Reader.run_ofOption, Reads.pure _ _ _ _,
      ContentFields.withBytes_eq_some]
    constructor
    · rintro ⟨_, _, ⟨rfl, rfl⟩, ⟨rfl, held⟩, rfl⟩
      refine ⟨⟨rfl, by simp [held, storage]⟩, ?_⟩
      simp [ContentPart.payload, storage]
    rintro ⟨⟨rfl, framed⟩, rfl⟩
    have held : part.bytes = none := by
      cases content : part.bytes with
      | none => rfl
      | some content' => simp [content, storage] at framed
    refine ⟨none, rest, ⟨rfl, ?_⟩, ⟨rfl, held⟩, rfl⟩
    simp [ContentPart.payload, storage]

/-- A list that `yvex_content_parts_validate` accepts. -/
def PartsValid (parts : List (ContentPart CString)) : Prop :=
  parts.length ≠ 0 ∧ parts.length ≤ maxParts ∧ ∀ part ∈ parts, partValid part = true

theorem isOk_partsValidate : (partsValidate true parts).isOk = true ↔ PartsValid parts := by
  rw [isOk_iff, partsValidate, bind_eq_ok]
  simp [require_eq_ok, PartsValid, and_assoc]

theorem length_of_sha256HexValid (valid : Ir.sha256HexValid text = true) : text.length = 64 := by
  simp only [Ir.sha256HexValid, Bool.and_eq_true, decide_eq_true_eq] at valid
  exact valid.1

theorem partValid_fits (valid : partValid part = true) : part.raw.toContentFields.Fits := by
  simp only [partValid, partShapeValid, mediaTypeValid, boundedText, Bool.and_eq_true,
    Bool.or_eq_true, decide_eq_true_eq, and_assoc] at valid
  rcases valid with ⟨-, mediaType, -, -, -, reference, -, -, identity, derived⟩
  refine ⟨mediaType, reference, ?_, ?_⟩
  · exact lt_of_le_of_lt (length_of_sha256HexValid identity).le (by decide)
  rcases derived with empty | ⟨derived, -⟩
  · have length : part.derivedFromContentIdentity.bytes.length = 0 := by
      rw [isEmpty_iff.mp empty]
      rfl
    exact lt_of_le_of_lt length.le (by decide)
  · exact lt_of_le_of_lt (length_of_sha256HexValid derived).le (by decide)

theorem partValid_bytes (valid : partValid part = true) :
    part.bytes.isSome = true ↔ part.storage = .inline := by
  simp only [partValid, partShapeValid, Bool.and_eq_true] at valid
  rcases valid with ⟨⟨⟨-, shape⟩, -⟩, -⟩
  cases storage : part.storage with
  | inline =>
    grind
  | localFile =>
    simp only [storage, Bool.and_eq_true] at shape
    have empty : part.bytes = none := by simpa using shape.1.1.2
    simp [empty]

theorem partValid_framed (valid : partValid part = true) : part.raw.Framed :=
  ⟨partValid_fits valid, partValid_bytes valid⟩

theorem textsBounded_of_fits (fits : part.raw.toContentFields.Fits) : textsBounded part = true := by
  rcases fits with ⟨mediaType, reference, identity, derived⟩
  simp only [textsBounded, boundedText, Bool.not_false, Bool.true_or, Bool.and_true,
    Bool.and_eq_true, decide_eq_true_eq]
  exact ⟨⟨⟨mediaType, reference⟩, identity⟩, derived⟩

@[simp] theorem ContentPart.stored_raw (part : ContentPart CString) : part.raw.stored = part := by
  simp [raw, stored, map, ContentFields.map]

theorem partsWireEncode_eq_ok : partsWireEncode parts capacity = .ok bytes ↔
      capacity ≤ contentWireMaxBytes ∧ PartsValid parts ∧
        bytes = partsWire (parts.map ContentPart.raw) ∧ bytes.length ≤ capacity := by
  simp only [partsWireEncode, bind_eq_ok, require_eq_ok, Bool.and_eq_true,
    decide_eq_true_eq, isOk_partsValidate, pure_eq_ok]
  constructor
  · rintro ⟨_, ⟨bounded, valid⟩, _, ⟨-, fits⟩, rfl⟩
    exact ⟨bounded, valid, rfl, fits⟩
  rintro ⟨bounded, valid, rfl, fits⟩
  refine ⟨(), ⟨bounded, valid⟩, (), ⟨?_, fits⟩, rfl⟩
  rw [all_eq_true]
  exact fun part member => textsBounded_of_fits (partValid_fits (valid.2.2 part member))

theorem partsWireDecode_eq_ok : partsWireDecode input = .ok parts ↔
      ∃ raw, input = partsWire raw ∧ input.length ≤ contentWireMaxBytes ∧
        (∀ part ∈ raw, part.Framed) ∧ parts = raw.map ContentPart.stored ∧ PartsValid parts := by
  simp only [partsWireDecode, bind_eq_ok, orReject_eq_ok, bind_eq_some, ensure_eq_some,
    pure_eq_some, Prod.exists,
    Prod.mk.injEq, Bool.and_eq_true, decide_eq_true_eq, reads_u64 _ _ _, true_and,
    reads_part.many _ _ _ _, isOk_partsValidate, List.isEmpty_iff]
  constructor
  · rintro ⟨_, _, ⟨_, ⟨-, bounded⟩, count, rest, rfl, _, -, rfl, rfl⟩, raw, _,
      ⟨⟨length, framed⟩, rfl⟩,
      _, ⟨rfl, valid⟩, rfl⟩
    refine ⟨raw, ?_, bounded, framed, rfl, valid⟩
    rw [partsWire, length, UInt64.ofNat_toNat, append_nil]
  rintro ⟨raw, rfl, bounded, framed, rfl, valid⟩
  have few : raw.length ≤ maxParts := by simpa using valid.2.1
  have length : (UInt64.ofNat raw.length).toNat = raw.length :=
    UInt64.toNat_ofNat_of_lt' (lt_of_le_of_lt few (by decide))
  have some : UInt64.ofNat raw.length ≠ 0 := by
    intro zero
    apply valid.1
    rw [length_map, ← length, zero]
    rfl
  have present : (partsWire raw).length ≠ 0 := by
    rw [partsWire, length_append, length_writeU64]
    omega
  refine ⟨UInt64.ofNat raw.length, raw.flatMap ContentPart.wire,
    ⟨(), ⟨by simpa using present, bounded⟩, _, _, rfl, (), ⟨by simpa using some, ?_⟩, rfl, rfl⟩,
    raw, [], ⟨⟨length.symm, framed⟩, by rw [append_nil]⟩, (), ⟨rfl, valid⟩, rfl⟩
  rw [length]
  exact few

theorem partsWire_injective (framed : ∀ part ∈ first, part.Framed)
    (framed' : ∀ part ∈ second, part.Framed) (few : first.length ≤ maxParts)
    (few' : second.length ≤ maxParts)
    (equal : partsWire first = partsWire second) : first = second := by
  have small : ∀ {count : Nat}, count ≤ maxParts → count < 2 ^ 64 :=
    fun few => lt_of_le_of_lt few (by decide)
  rcases reads_u64.delimited trivial trivial equal with ⟨counts, rest⟩
  have length : first.length = second.length := by
    rw [← UInt64.toNat_ofNat_of_lt' (small few), counts, UInt64.toNat_ofNat_of_lt' (small few')]
  rw [← append_nil (first.flatMap _), ← append_nil (second.flatMap _)] at rest
  exact ((reads_part.many second.length).delimited ⟨length, framed⟩ ⟨rfl, framed'⟩ rest).1

theorem ContentPart.raw_stored_eq {part : ContentPart Bytes} : part.stored.raw = part ↔
      0 ∉ part.mediaType ∧ 0 ∉ part.reference ∧ 0 ∉ part.contentIdentity ∧
        0 ∉ part.derivedFromContentIdentity := by
  have kept : ∀ bytes : Bytes, (CString.ofBytes bytes).bytes = bytes ↔ 0 ∉ bytes := by
    intro bytes
    exact ⟨fun equal => equal ▸ (CString.ofBytes bytes).plain, CString.bytes_ofBytes⟩
  rcases part with ⟨⟨⟩, bytes, sized⟩
  simp [raw, stored, map, ContentFields.map, kept]

section Sealed

variable [Sha256Hex]

def ContentPart.Sealed (part : ContentPart CString) : Prop :=
  part.storage = .inline → part.contentIdentity = Sha256Hex.digest part.payload

/-- A part on the wire whose texts have no zero among their bytes and whose identity, when it is
inline, is the digest of the bytes behind it. -/
def ContentPart.Plain (part : ContentPart Bytes) : Prop :=
  0 ∉ part.mediaType ∧ 0 ∉ part.reference ∧ 0 ∉ part.contentIdentity ∧
    0 ∉ part.derivedFromContentIdentity ∧
    (part.storage = .inline → part.contentIdentity = (Sha256Hex.digest part.payload).bytes)

def PlainWire (bytes : Bytes) : Prop :=
  ∃ raw : List (ContentPart Bytes), bytes = partsWire raw ∧ raw.length ≤ maxParts ∧
    ∀ part ∈ raw, part.Framed ∧ part.Plain

theorem ContentPart.plain_iff {part : ContentPart Bytes} :
    part.Plain ↔ part.stored.raw = part ∧ part.stored.Sealed := by
  rw [raw_stored_eq]
  constructor
  · rintro ⟨mediaType, reference, identity, derived, signed⟩
    refine ⟨⟨mediaType, reference, identity, derived⟩, ?_⟩
    intro inline
    apply CString.ext
    rw [show part.stored.contentIdentity.bytes = part.contentIdentity from
      CString.bytes_ofBytes identity]
    exact signed inline
  · rintro ⟨⟨mediaType, reference, identity, derived⟩, signed⟩
    refine ⟨mediaType, reference, identity, derived, ?_⟩
    intro inline
    have equal := congrArg CString.bytes (signed inline)
    rwa [show part.stored.contentIdentity.bytes = part.contentIdentity from
      CString.bytes_ofBytes identity] at equal

/-- Every list that passes validation comes back from its wire form. Bytes that are accepted
as a wire form are reproduced by the parts read from them, with every inline part sealed by its
own bytes, exactly where they are the wire form of plain parts. -/
theorem partsWire_roundTrip :
    (∀ parts capacity, partsValidate true parts = .ok () → capacity ≤ contentWireMaxBytes →
      (partsWire (parts.map ContentPart.raw)).length ≤ capacity →
      ∃ bytes, partsWireEncode parts capacity = .ok bytes ∧ partsWireDecode bytes = .ok parts) ∧
    ∀ bytes parts, partsWireDecode bytes = .ok parts →
      (((∀ capacity, capacity ≤ contentWireMaxBytes → bytes.length ≤ capacity →
          partsWireEncode parts capacity = .ok bytes) ∧ ∀ part ∈ parts, part.Sealed) ↔
        PlainWire bytes) := by
  constructor
  · intro parts capacity accepted bounded fits
    have valid : PartsValid parts := isOk_partsValidate.mp (by rw [accepted]; rfl)
    refine ⟨_, partsWireEncode_eq_ok.mpr ⟨bounded, valid, rfl, fits⟩, ?_⟩
    apply partsWireDecode_eq_ok.mpr
    refine ⟨_, rfl, le_trans fits bounded, ?_, ?_, valid⟩
    · intro raw member
      rcases mem_map.mp member with ⟨part, inside, rfl⟩
      exact partValid_framed (valid.2.2 part inside)
    · rw [map_map]
      exact (map_id'' (fun part => part.stored_raw) parts).symm
  intro bytes parts accepted
  rcases partsWireDecode_eq_ok.mp accepted with ⟨raw, rfl, bounded, framed, rfl, valid⟩
  have few : raw.length ≤ maxParts := by simpa using valid.2.1
  have reframed : ∀ part ∈ (raw.map ContentPart.stored).map ContentPart.raw, part.Framed := by
    intro again member
    rcases mem_map.mp member with ⟨part, inside, rfl⟩
    exact partValid_framed (valid.2.2 part inside)
  constructor
  · rintro ⟨again, signed⟩
    rcases partsWireEncode_eq_ok.mp (again _ bounded le_rfl) with ⟨-, -, same, -⟩
    have kept : (raw.map ContentPart.stored).map ContentPart.raw = raw.map id := by
      rw [map_id]
      exact (partsWire_injective framed reframed few (by simpa using few) same).symm
    rw [map_map, map_inj_left] at kept
    refine ⟨raw, rfl, few, fun part member => ⟨framed part member, ?_⟩⟩
    exact ContentPart.plain_iff.mpr ⟨kept part member, signed _ (mem_map_of_mem member)⟩
  rintro ⟨others, same, few', plain⟩
  cases partsWire_injective framed (fun part member => (plain part member).1) few few' same
  have unchanged : ∀ part ∈ raw,
      (ContentPart.raw ∘ ContentPart.stored) part = id part ∧ part.stored.Sealed :=
    fun part member => ContentPart.plain_iff.mp (plain part member).2
  constructor
  · intro capacity limited fits
    apply partsWireEncode_eq_ok.mpr
    refine ⟨limited, valid, ?_, fits⟩
    rw [map_map, map_congr_left (fun part member => (unchanged part member).1), map_id]
  · grind

end Sealed

def samplePart (mediaType identity : Bytes) : ContentPart Bytes where
  schemaVersion := 1
  kind := .text
  storage := .inline
  byteCount := 1
  width := 0
  height := 0
  durationMilliseconds := 0
  mediaType := mediaType
  reference := []
  contentIdentity := identity
  derivedFromContentIdentity := []
  bytes := some [7]
  sized := by simp

/-- The media type `a/b`, with a zero and one more byte behind it. -/
def hiddenPart : ContentPart Bytes := samplePart [97, 47, 98, 0, 120] (List.replicate 64 48)

/-- The media type `a/b` and an identity that is not the digest of the byte. -/
def foreignPart : ContentPart Bytes := samplePart [97, 47, 98] (List.replicate 64 102)

theorem partsWireDecode_hides_bytes :
    partsWireDecode (partsWire [hiddenPart]) = .ok [hiddenPart.stored] ∧
      partsWireEncode [hiddenPart.stored] contentWireMaxBytes ≠ .ok (partsWire [hiddenPart]) ∧
      partsWireDecode (partsWire [foreignPart]) = .ok [foreignPart.stored] ∧
      ¬@ContentPart.Sealed zeroDigest foreignPart.stored := by
  refine ⟨by decide +kernel, ?_, by decide +kernel, ?_⟩
  · intro same
    rcases partsWireEncode_eq_ok.mp same with ⟨-, -, equal, -⟩
    revert equal
    decide
  intro signed
  have equal := signed rfl
  revert equal
  decide

/-- A wire form without hidden bytes is reproduced. -/
theorem partsWire_roundTrip_sample :
    let part (letter : UInt8) := samplePart [97, 47, letter] (List.replicate 64 48)
    partsWireEncode [(part 98).stored, (part 99).stored] contentWireMaxBytes =
      .ok (partsWire [part 98, part 99]) := by
  intro part
  have plain : @PlainWire zeroDigest (partsWire [part 98, part 99]) := by
    refine ⟨_, rfl, by decide, ?_⟩
    rw [forall_mem_cons, forall_mem_singleton]
    constructor <;> exact ⟨⟨⟨by decide, by decide, by decide, by decide⟩, by decide⟩, by decide,
      by decide, by decide, by decide, fun _ => by decide⟩
  exact (((@partsWire_roundTrip zeroDigest).2 _ _ (by decide +kernel)).mpr plain).1 _
    le_rfl (by decide +kernel)

end Yvex.Provider
