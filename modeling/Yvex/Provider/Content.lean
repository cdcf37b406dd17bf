import Yvex.Foundation.Wire
import Yvex.Ir.Dialect

namespace Yvex.Provider

/-! # Ordered content

A request can carry an ordered list of content parts. The bytes of a part travel with it or
stand in a local file that the part names; in both cases the part is sealed by the SHA-256 of its
bytes. -/

/-- SHA-256 of a stream of bytes, printed in hexadecimal. -/
class Sha256Hex where
  digest : Bytes → CString
  digest_valid : ∀ bytes, Ir.sha256HexValid (digest bytes).bytes = true

@[reducible] def zeroDigest : Sha256Hex where
  digest _ := CString.ofBytes (List.replicate 64 48)
  digest_valid _ := by decide

inductive ContentKind where
  | text
  | image
  | audio
  | video
  | file
  | tensor
deriving DecidableEq

/-- `yvex_content_kind`: the numbers of the kinds. -/
def ContentKind.code : ContentKind → UInt64
  | .text => 0
  | .image => 1
  | .audio => 2
  | .video => 3
  | .file => 4
  | .tensor => 5

def ContentKind.ofCode : UInt64 → Option ContentKind
  | 0 => some .text
  | 1 => some .image
  | 2 => some .audio
  | 3 => some .video
  | 4 => some .file
  | 5 => some .tensor
  | _ => none

inductive ContentStorage where
  | inline
  | localFile
deriving DecidableEq

def ContentStorage.code : ContentStorage → UInt64
  | .inline => 0
  | .localFile => 1

def ContentStorage.ofCode : UInt64 → Option ContentStorage
  | 0 => some .inline
  | 1 => some .localFile
  | _ => none

def maxParts : Nat := 32

def mediaTypeCap : Nat := 96

def referenceCap : Nat := 1024

def contentIdCap : Nat := 65

def contentWireMaxBytes : Nat := 1572864

def contentLocalMaxBytes : Nat := 68719476736

/-- The members of `yvex_content_part` that are kept in the record itself. The texts are C
strings in a stored part and counted bytes on the wire. -/
structure ContentFields (τ : Type) where
  schemaVersion : UInt32
  kind : ContentKind
  storage : ContentStorage
  byteCount : UInt64
  width : UInt64
  height : UInt64
  durationMilliseconds : UInt64
  mediaType : τ
  reference : τ
  contentIdentity : τ
  derivedFromContentIdentity : τ
deriving DecidableEq

/-- `yvex_content_part`. The member `bytes` is null or points to as many bytes as the part
counts. -/
structure ContentPart (τ : Type) extends ContentFields τ where
  bytes : Option Bytes
  sized : ∀ content ∈ bytes, content.length = byteCount.toNat
deriving DecidableEq

def ContentFields.map {τ σ : Type} (transform : τ → σ) (fields : ContentFields τ) :
    ContentFields σ :=
  { fields with
    mediaType := transform fields.mediaType, reference := transform fields.reference
    contentIdentity := transform fields.contentIdentity
    derivedFromContentIdentity := transform fields.derivedFromContentIdentity }

def ContentPart.map {τ σ : Type} (transform : τ → σ) (part : ContentPart τ) : ContentPart σ where
  toContentFields := part.toContentFields.map transform
  bytes := part.bytes
  sized := part.sized

def ContentPart.stored (part : ContentPart Bytes) : ContentPart CString := part.map CString.ofBytes

variable (part : ContentPart CString)

def ContentPart.raw : ContentPart Bytes := part.map CString.bytes

/-- `bounded_text`: a text that reaches the end of its array has no final zero. -/
def boundedText (text : CString) (capacity : Nat) (required : Bool) : Bool :=
  decide (text.bytes.length < capacity) && (!required || !text.isEmpty)

def slash : UInt8 := 47

/-- A character of a media type: printable, neither a quotation mark nor a backslash. -/
def mediaTypeByte (byte : UInt8) : Bool :=
  decide (0x21 ≤ byte) && decide (byte ≤ 0x7e) && byte != 34 && byte != 92

def mediaTypeValid (type : CString) : Bool :=
  boundedText type mediaTypeCap true && type.bytes.all mediaTypeByte && type.bytes.contains slash

def partShapeValid : Bool := part.schemaVersion == 1 && mediaTypeValid part.mediaType &&
    boundedText part.reference referenceCap false &&
    match part.storage with
    | .inline =>
      decide (part.byteCount.toNat ≤ contentWireMaxBytes) &&
        !(part.byteCount != 0 && part.bytes.isNone) &&
        part.byteCount != 0 && part.reference.isEmpty
    | .localFile =>
      decide (part.byteCount.toNat ≤ contentLocalMaxBytes) && part.bytes.isNone &&
        part.byteCount != 0 && part.reference.bytes.head? == some slash

/-- `yvex_content_part_validate`, as a condition. -/
def partValid : Bool := partShapeValid part && Ir.sha256HexValid part.contentIdentity.bytes &&
    (part.derivedFromContentIdentity.isEmpty ||
      (Ir.sha256HexValid part.derivedFromContentIdentity.bytes &&
        part.derivedFromContentIdentity != part.contentIdentity))

/-- `yvex_content_parts_validate`. The refusal of a part is passed on as the code that the error
record holds, so a caller without an error record does not see it. -/
def partsValidate (reported : Bool) (parts : List (ContentPart CString)) :
    Except Rejection Unit := do
  require (parts.length != 0 && decide (parts.length ≤ maxParts)) .invalidArgument
    "one bounded ordered content collection is required"
  require (!reported || parts.all partValid) .invalidArgument
    "sealed content part fields are invalid"

end Yvex.Provider
