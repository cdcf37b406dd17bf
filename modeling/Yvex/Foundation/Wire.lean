import Mathlib.Data.List.TakeWhile
import Yvex.Foundation.Checked

namespace Yvex

open List Option

/-! # Wire forms

Numbers of a fixed width, counted spans and texts, and readers that take a value from the front
of their input. A reader and a writer belong together when the reader accepts exactly what the
writer produces; the rules below build such pairs field by field. -/

abbrev Bytes := List UInt8

/-- A text as the C library sees it: the bytes in front of the terminating zero. -/
structure CString where
  bytes : Bytes
  plain : (0 : UInt8) ∉ bytes
deriving DecidableEq

namespace CString

def ofBytes (bytes : Bytes) : CString where
  bytes := bytes.takeWhile (· != 0)
  plain member := by simpa using mem_takeWhile_imp member

def isEmpty (text : CString) : Bool := text.bytes.isEmpty

theorem ext {first second : CString} (equal : first.bytes = second.bytes) : first = second := by
  cases first
  cases equal
  rfl

theorem bytes_ofBytes {bytes : Bytes} (plain : 0 ∉ bytes) : (ofBytes bytes).bytes = bytes := by
  apply takeWhile_eq_self_iff.mpr
  intro byte member
  have nonzero : byte ≠ 0 := fun zero => plain (zero ▸ member)
  simpa using nonzero

@[simp] theorem ofBytes_bytes (text : CString) : ofBytes text.bytes = text :=
  ext (bytes_ofBytes text.plain)

end CString

def bigEndian : Nat → Nat → Bytes
  | 0, _ => []
  | width + 1, value => UInt8.ofNat (value / 256 ^ width) :: bigEndian width value

def ofBigEndian : Bytes → Nat
  | [] => 0
  | byte :: bytes => byte.toNat * 256 ^ bytes.length + ofBigEndian bytes

section

variable (width value : Nat)

@[simp] theorem length_bigEndian : (bigEndian width value).length = width := by
  induction width with
  | zero => rfl
  | succ width induction => simp [bigEndian, induction]

theorem ofBigEndian_lt (bytes : Bytes) : ofBigEndian bytes < 256 ^ bytes.length := by
  induction bytes with
  | nil => simp [ofBigEndian]
  | cons byte bytes induction => ?_
  have small : byte.toNat < 256 := byte.toNat_lt
  have fits : byte.toNat * 256 ^ bytes.length ≤ 255 * 256 ^ bytes.length :=
    Nat.mul_le_mul_right _ (by omega)
  simp only [ofBigEndian, length_cons]
  omega

theorem bigEndian_mod : bigEndian width (value % 256 ^ width) = bigEndian width value := by
  suffices general : ∀ more, bigEndian width (value % 256 ^ (width + more)) = bigEndian width value
    by simpa using general 0
  induction width with
  | zero => intro more; rfl
  | succ width induction => ?_
  intro more
  have split : width + 1 + more = width + (1 + more) := by omega
  have head : UInt8.ofNat (value % 256 ^ (width + (1 + more)) / 256 ^ width) =
      UInt8.ofNat (value / 256 ^ width) := by
    apply UInt8.toNat_inj.mp
    rw [UInt8.toNat_ofNat', Nat.pow_add, Nat.mod_mul_right_div_self,
      add_comm 1 more, Nat.pow_succ, mul_comm]
    exact Nat.mod_mul_right_mod _ _ _
  simp only [bigEndian, split, head, induction]

theorem ofBigEndian_bigEndian : ofBigEndian (bigEndian width value) = value % 256 ^ width := by
  induction width with
  | zero => simp [bigEndian, ofBigEndian, Nat.mod_one]
  | succ width induction => ?_
  have grown : 256 ^ (width + 1) = 256 ^ width * 256 := by rw [Nat.pow_succ]
  simp only [bigEndian, ofBigEndian, length_bigEndian, induction, UInt8.toNat_ofNat']
  rw [grown, Nat.mod_mul, mul_comm, add_comm]

end

theorem bigEndian_ofBigEndian (bytes : Bytes) :
    bigEndian bytes.length (ofBigEndian bytes) = bytes := by
  induction bytes with
  | nil => rfl
  | cons byte bytes induction => ?_
  have small := ofBigEndian_lt bytes
  have head : (byte.toNat * 256 ^ bytes.length + ofBigEndian bytes) / 256 ^ bytes.length =
      byte.toNat := by
    rw [mul_comm, Nat.mul_add_div (Nat.pow_pos (by decide)), Nat.div_eq_of_lt small, add_zero]
  have tail : (byte.toNat * 256 ^ bytes.length + ofBigEndian bytes) % 256 ^ bytes.length =
      ofBigEndian bytes := by
    rw [Nat.mul_add_mod_self_right, Nat.mod_eq_of_lt small]
  simp only [length_cons, bigEndian, ofBigEndian, head]
  rw [← bigEndian_mod, tail, induction, UInt8.ofNat_toNat]

abbrev Reader (α : Type) := StateT Bytes Option α

/-- Whether a reader accepts exactly the written forms of the legal values. -/
def Reads {α : Type} (reader : Reader α) (legal : α → Prop) (write : α → Bytes) : Prop :=
  ∀ input value rest,
    reader.run input = some (value, rest) ↔ legal value ∧ input = write value ++ rest

/-- No written form of a legal value continues another one. -/
def Delimited {α : Type} (legal : α → Prop) (write : α → Bytes) : Prop :=
  ∀ ⦃first second : α⦄ ⦃rest rest' : Bytes⦄, legal first → legal second →
    write first ++ rest = write second ++ rest' → first = second ∧ rest = rest'

def Reader.ensure (condition : Bool) : Reader Unit := StateT.lift (Yvex.ensure condition)

def Reader.ofOption {α : Type} (value : Option α) : Reader α := StateT.lift value

variable {α : Type} {rest : Bytes}

theorem Reader.run_bind_eq_some {next : α → Reader β} {value : β} :
    (first >>= next).run input = some (value, rest) ↔
      ∃ part middle, first.run input = some (part, middle) ∧
        (next part).run middle = some (value, rest) := by
  simp only [StateT.run_bind, bind_eq_some, Prod.exists]

theorem Reader.run_ensure : (Reader.ensure condition).run input = some (value, rest) ↔
      condition = true ∧ rest = input := by
  cases condition <;> simp [Reader.ensure, Yvex.ensure, eq_comm]

variable {value : α}

theorem Reader.run_ofOption : (Reader.ofOption option).run input = some (value, rest) ↔
      option = some value ∧ rest = input := by
  cases option <;> simp [Reader.ofOption, eq_comm]

namespace Reads

variable {α β : Type} {reader : Reader α} {legal : α → Prop} {write : α → Bytes} {value : α}

theorem read (reads : Reads reader legal write) (good : legal value) (rest : Bytes) :
    reader.run (write value ++ rest) = some (value, rest) :=
  (reads _ _ _).mpr ⟨good, rfl⟩

theorem delimited (reads : Reads reader legal write) : Delimited legal write := by
  intro first second rest rest' good good' equal
  have one := reads.read good rest
  rw [equal, reads.read good' rest', some.injEq, Prod.mk.injEq] at one
  exact ⟨one.1.symm, one.2.symm⟩

variable {write' : α → Bytes}

theorem congr (reads : Reads reader legal write) (same : ∀ value, legal value ↔ legal' value)
    (written : ∀ value, legal value → write value = write' value) : Reads reader legal' write' := by
  intro input value rest
  rw [reads input value rest, ← same value]
  exact and_congr_right fun good => by rw [written value good]

theorem pure (value : α) : Reads (Pure.pure value) (· = value) (fun _ => []) := by
  intro input read rest
  simp [eq_comm]

variable {legal' : β → Prop} {next : α → Reader β} (part : β → α)

/-- One field in front of others: the field of a value is written first, and what follows is a
reader of the values that have this field. -/
theorem bind {write' : β → Bytes} (reads : Reads reader legal write)
    (follows : ∀ field, Reads (next field) (fun value => part value = field ∧ legal' value) write') :
    Reads (reader >>= next) (fun value => legal (part value) ∧ legal' value)
      (fun value => write (part value) ++ write' value) := by
  intro input value rest
  rw [Reader.run_bind_eq_some]
  constructor
  · rintro ⟨field, middle, first, second⟩
    rcases (reads _ _ _).mp first with ⟨good, rfl⟩
    rcases (follows field _ _ _).mp second with ⟨⟨rfl, good'⟩, rfl⟩
    exact ⟨⟨good, good'⟩, by rw [append_assoc]⟩
  · rintro ⟨⟨good, good'⟩, rfl⟩
    rw [append_assoc]
    exact ⟨part value, _, reads.read good _, (follows _).read ⟨rfl, good'⟩ rest⟩

theorem fields {legal' : α → Prop} (reads : Reads reader (fun value => True ∧ legal value) write)
    (same : ∀ value, legal value ↔ legal' value) (written : ∀ value, write value = write' value) :
    Reads reader legal' write' :=
  reads.congr (fun value => by rw [true_and, same]) (fun value _ => written value)

/-- One more field of a record. What the fields in front of it say about the record is kept in
`known`; the reader of the fields behind it knows this field too. -/
theorem field {known : β → Prop} {write' : β → Bytes} (reads : Reads reader legal write)
    (follows : ∀ field,
      Reads (next field) (fun value => (known value ∧ part value = field) ∧ legal' value) write') :
    Reads (reader >>= next) (fun value => known value ∧ legal (part value) ∧ legal' value)
      (fun value => write (part value) ++ write' value) := by
  have behind : ∀ field, Reads (next field)
      (fun value => part value = field ∧ known value ∧ legal' value) write' := by
    grind
  apply (reads.bind part behind).congr
  · exact fun value => and_left_comm
  · exact fun value _ => rfl

variable {known : α → Prop}

theorem record_of (constant : α → Prop)
    (complete : ∀ other, known other ∧ constant other ↔ other = value) :
    Reads (Pure.pure value) (fun other => known other ∧ constant other) (fun _ => []) := by
  apply (Reads.pure value).congr
  · exact fun other => (complete other).symm
  · exact fun other _ => rfl

theorem record (complete : ∀ other, known other ↔ other = value) :
    Reads (Pure.pure value) (fun other => known other ∧ True) (fun _ => []) :=
  record_of _ fun other => by rw [and_true, complete]

theorem ensure (reads : Reads reader legal write) :
    Reads (Reader.ensure condition >>= fun _ => reader)
      (fun value => condition = true ∧ legal value) write := by
  intro input value rest
  simp only [Reader.run_bind_eq_some, Reader.run_ensure]
  constructor
  · rintro ⟨_, middle, ⟨holds, rfl⟩, second⟩
    rcases (reads _ _ _).mp second with ⟨good, equal⟩
    exact ⟨⟨holds, good⟩, equal⟩
  · rintro ⟨⟨holds, good⟩, equal⟩
    exact ⟨(), input, ⟨holds, rfl⟩, (reads _ _ _).mpr ⟨good, equal⟩⟩

theorem convert {convert : α → Option β} (code : β → α) (reads : Reads reader legal write)
    (coded : ∀ field value,
      legal field ∧ convert field = some value ↔ legal' value ∧ field = code value) :
    Reads (reader >>= fun field => Reader.ofOption (convert field)) legal'
      (fun value => write (code value)) := by
  intro input value rest
  simp only [Reader.run_bind_eq_some, Reader.run_ofOption]
  constructor
  · rintro ⟨field, middle, first, converted, rfl⟩
    rcases (reads _ _ _).mp first with ⟨good, rfl⟩
    rcases (coded field value).mp ⟨good, converted⟩ with ⟨good', rfl⟩
    exact ⟨good', rfl⟩
  · rintro ⟨good', rfl⟩
    rcases (coded _ value).mpr ⟨good', rfl⟩ with ⟨good, converted⟩
    exact ⟨code value, rest, reads.read good rest, converted, rfl⟩

theorem map {convert : α → β} (code : β → α) (reads : Reads reader legal write)
    (coded : ∀ field value, legal field ∧ convert field = value ↔ legal' value ∧
      field = code value) :
    Reads (convert <$> reader) legal' (fun value => write (code value)) := by
  have coded' : ∀ field value,
      legal field ∧ some (convert field) = some value ↔ legal' value ∧ field = code value := by
    simpa only [some.injEq] using coded
  exact reads.convert code coded'

end Reads

def Reader.many {α : Type} (reader : Reader α) : Nat → Reader (List α)
  | 0 => pure []
  | count + 1 => do
    let value ← reader
    let values ← Reader.many reader count
    return value :: values

variable {reader : Reader α} {legal : α → Prop} {write : α → Bytes}

theorem Reads.many (reads : Reads reader legal write) (count : Nat) : Reads (reader.many count)
      (fun values => values.length = count ∧ ∀ value ∈ values, legal value)
      (fun values => values.flatMap write) := by
  induction count with
  | zero =>
    apply (Reads.pure []).congr
    · grind
    · rintro values rfl
      rfl
  | succ count induction =>
    intro input values rest
    simp only [Reader.many, Reader.run_bind_eq_some]
    constructor
    · rintro ⟨value, middle, first, values', last, second, finish⟩
      rcases (reads _ _ _).mp first with ⟨good, rfl⟩
      rcases (induction _ _ _).mp second with ⟨⟨length, goods⟩, rfl⟩
      rcases (Reads.pure _ _ _ _).mp finish with ⟨rfl, rfl⟩
      refine ⟨⟨by rw [length_cons, length], forall_mem_cons.mpr ⟨good, goods⟩⟩, ?_⟩
      rw [flatMap_cons, append_assoc]
    rintro ⟨⟨length, goods⟩, rfl⟩
    cases values with
    | nil => simp at length
    | cons value values => ?_
    rw [forall_mem_cons] at goods
    simp only [length_cons, Nat.add_right_cancel_iff] at length
    rw [flatMap_cons, append_assoc]
    exact ⟨value, _, reads.read goods.1 _, values, _, induction.read ⟨length, goods.2⟩ _, rfl⟩

def Reader.exactly (count : Nat) : Reader Bytes := fun input =>
  if count ≤ input.length then some (input.take count, input.drop count) else none

theorem reads_exactly (count : Nat) :
    Reads (Reader.exactly count) (fun bytes => bytes.length = count) id := by
  intro input bytes rest
  have run : (Reader.exactly count).run input =
      if count ≤ input.length then some (input.take count, input.drop count) else none := rfl
  rw [run]
  constructor
  · split
    · rename_i enough
      rintro ⟨rfl, rfl⟩
      exact ⟨length_take_of_le enough, (take_append_drop count input).symm⟩
    · rintro ⟨⟩
  · rintro ⟨rfl, rfl⟩
    simp

def Reader.number (width : Nat) : Reader Nat := ofBigEndian <$> Reader.exactly width

theorem reads_number (width : Nat) :
    Reads (Reader.number width) (· < 256 ^ width) (bigEndian width) := by
  apply (reads_exactly width).map (bigEndian width)
  intro bytes value
  constructor
  · rintro ⟨rfl, rfl⟩
    exact ⟨ofBigEndian_lt bytes, (bigEndian_ofBigEndian bytes).symm⟩
  · rintro ⟨small, rfl⟩
    exact ⟨length_bigEndian width value,
      by rw [ofBigEndian_bigEndian, Nat.mod_eq_of_lt small]⟩

def writeU32 (value : UInt32) : Bytes := bigEndian 4 value.toNat

def writeU64 (value : UInt64) : Bytes := bigEndian 8 value.toNat

@[simp] theorem length_writeU64 (value : UInt64) : (writeU64 value).length = 8 :=
  length_bigEndian 8 _

def readU32 : Reader UInt32 := UInt32.ofNat <$> Reader.number 4

def readU64 : Reader UInt64 := UInt64.ofNat <$> Reader.number 8

theorem reads_u32 : Reads readU32 (fun _ => True) writeU32 := by
  apply (reads_number 4).map UInt32.toNat
  intro field value
  constructor
  · rintro ⟨small, rfl⟩
    exact ⟨trivial, (UInt32.toNat_ofNat_of_lt' small).symm⟩
  · rintro ⟨-, rfl⟩
    exact ⟨value.toNat_lt, UInt32.ofNat_toNat⟩

theorem reads_u64 : Reads readU64 (fun _ => True) writeU64 := by
  apply (reads_number 8).map UInt64.toNat
  intro field value
  constructor
  · rintro ⟨small, rfl⟩
    exact ⟨trivial, (UInt64.toNat_ofNat_of_lt' small).symm⟩
  · rintro ⟨-, rfl⟩
    exact ⟨value.toNat_lt, UInt64.ofNat_toNat⟩

/-- An `unsigned int` in the place of a longer number. -/
def readUnsigned : Reader UInt32 := do
  let value ← readU64
  Reader.ofOption (if value.toNat < 2 ^ 32 then some value.toUInt32 else none)

theorem reads_unsigned :
    Reads readUnsigned (fun _ => True) (fun value => writeU64 value.toUInt64) := by
  apply reads_u64.convert UInt32.toUInt64
  intro field value
  constructor
  · rintro ⟨-, converted⟩
    split at converted
    · rename_i small
      cases converted
      refine ⟨trivial, UInt64.toNat_inj.mp ?_⟩
      rw [UInt32.toNat_toUInt64, UInt64.toNat_toUInt32, Nat.mod_eq_of_lt small]
    · cases converted
  · rintro ⟨-, rfl⟩
    have small : value.toUInt64.toNat < 2 ^ 32 := by
      exact value.toNat_lt
    rw [if_pos small, UInt32.toUInt32_toUInt64]
    exact ⟨trivial, rfl⟩

def writeSpan (width : Nat) (bytes : Bytes) : Bytes := bigEndian width bytes.length ++ bytes

def Reader.span (width maximum : Nat) : Reader Bytes := do
  let count ← Reader.number width
  Reader.ensure (decide (count ≤ maximum))
  Reader.exactly count

variable {maximum : Nat}

theorem reads_span (small : maximum < 256 ^ width) :
    Reads (Reader.span width maximum) (fun bytes => bytes.length ≤ maximum) (writeSpan width) := by
  have counted : Reads (Reader.span width maximum)
      (fun bytes => bytes.length < 256 ^ width ∧ bytes.length ≤ maximum) (writeSpan width) := by
    apply (reads_number width).bind List.length
    intro count
    apply (reads_exactly count).ensure.congr
    · grind
    · exact fun bytes _ => rfl
  apply counted.congr
  · intro bytes
    omega
  · exact fun bytes _ => rfl

def CString.ofPlain (bytes : Bytes) : Option CString :=
  if plain : 0 ∉ bytes then some ⟨bytes, plain⟩ else none

theorem CString.ofPlain_eq_some {bytes : Bytes} :
    ofPlain bytes = some text ↔ bytes = text.bytes := by
  unfold ofPlain
  split
  · rw [some.injEq]
    exact ⟨fun equal => congrArg CString.bytes equal, fun equal => CString.ext equal⟩
  rename_i plain
  constructor
  · rintro ⟨⟩
  · rintro rfl
    exact absurd text.plain plain

/-- A text that is stored with its final zero in an array of the given capacity. -/
def Reader.text (width capacity : Nat) : Reader CString := do
  let bytes ← Reader.span width (capacity - 1)
  Reader.ofOption (CString.ofPlain bytes)

def writeText (width : Nat) (text : CString) : Bytes := writeSpan width text.bytes

theorem reads_text (positive : 0 < capacity) (small : capacity ≤ 256 ^ width) :
    Reads (Reader.text width capacity) (fun text => text.bytes.length < capacity)
      (writeText width) := by
  have span : Reads (Reader.span width (capacity - 1)) (fun bytes => bytes.length ≤ capacity - 1)
      (writeSpan width) := reads_span (by omega)
  apply span.convert CString.bytes
  intro bytes text
  rw [CString.ofPlain_eq_some]
  constructor
  · rintro ⟨fits, rfl⟩
    exact ⟨by omega, rfl⟩
  · rintro ⟨fits, rfl⟩
    exact ⟨by omega, rfl⟩

def writeList {α : Type} (width : Nat) (write : α → Bytes) (values : List α) : Bytes :=
  bigEndian width values.length ++ values.flatMap write

def Reader.list {α : Type} (width maximum : Nat) (reader : Reader α) : Reader (List α) := do
  let count ← Reader.number width
  Reader.ensure (decide (count ≤ maximum))
  reader.many count

theorem reads_list (reads : Reads reader legal write) (small : maximum < 256 ^ width) :
    Reads (Reader.list width maximum reader)
      (fun values => values.length ≤ maximum ∧ ∀ value ∈ values, legal value)
      (writeList width write) := by
  have counted : Reads (Reader.list width maximum reader)
      (fun values => values.length < 256 ^ width ∧ values.length ≤ maximum ∧
        ∀ value ∈ values, legal value) (writeList width write) := by
    apply (reads_number width).bind List.length
    intro count
    apply (reads.many count).ensure.congr
    · grind
    · exact fun values _ => rfl
  apply counted.congr
  · exact fun values => ⟨fun given => given.2, fun given => ⟨by omega, given⟩⟩
  · exact fun values _ => rfl

def Reader.optional {α : Type} (present : Bool) (reader : Reader α) (default : α) : Reader α :=
  if present then reader else pure default

theorem Reads.optional (reads : Reads reader legal write) (present : Bool) (default : α) :
    Reads (Reader.optional present reader default)
      (fun value => if present then legal value else value = default)
      (fun value => if present then write value else []) := by
  cases present with
  | true => simpa [Reader.optional] using reads
  | false => simpa [Reader.optional] using Reads.pure default

def Reader.whole {α : Type} (reader : Reader α) (input : Bytes) : Option α := do
  let (value, rest) ← reader.run input
  Yvex.ensure rest.isEmpty
  return value

theorem Reads.whole_eq_some (reads : Reads reader legal write) :
    reader.whole input = some value ↔ legal value ∧ input = write value := by
  simp only [Reader.whole, bind_eq_some, Prod.exists,
    reads _ _ _, ensure_eq_some, List.isEmpty_iff, pure_eq_some]
  constructor
  · rintro ⟨_, rest, ⟨good, rfl⟩, _, rfl, rfl⟩
    exact ⟨good, List.append_nil _⟩
  · rintro ⟨good, rfl⟩
    exact ⟨value, [], ⟨good, (append_nil _).symm⟩, (), rfl, rfl⟩

namespace Delimited

variable {α β : Type} {legal : α → Prop} {write : α → Bytes}

theorem injective (delimited : Delimited legal write) (good : legal first) (good' : legal second)
    (equal : write first = write second) : first = second :=
  (delimited good good' (congrArg (· ++ []) equal)).1

theorem of_length (width : Nat) (length : ∀ value, (write value).length = width)
    (injective : ∀ first second, legal first → legal second → write first = write second →
      first = second) : Delimited legal write := by
  intro first second rest rest' good good' equal
  have parts := append_inj equal (by rw [length, length])
  exact ⟨injective first second good good' parts.1, parts.2⟩

section

variable (delimited : Delimited legal write)

include delimited

theorem coded (code : β → α) (good : ∀ value, legal' value → legal (code value))
    (injective : Function.Injective code) : Delimited legal' (fun value => write (code value)) := by
  intro first second rest rest' legalFirst legalSecond equal
  have parts := delimited (good first legalFirst) (good second legalSecond) equal
  exact ⟨injective parts.1, parts.2⟩

theorem mono (good : ∀ value, legal' value → legal value) : Delimited legal' write :=
  delimited.coded id good Function.injective_id

theorem omitted (absent : Prop) [Decidable absent] (default : α) :
    Delimited (fun value => if absent then value = default else legal value)
      (fun value => if absent then [] else write value) := by
  by_cases given : absent
  · simp only [given]
    intro first second rest rest' good good' equal
    exact ⟨good.trans good'.symm, equal⟩
  · simpa only [given, if_false] using delimited

end

variable {count : Nat → Bytes}

theorem counted (delimited : Delimited small count) :
    Delimited (fun bytes : Bytes => small bytes.length)
      (fun bytes => count bytes.length ++ bytes) := by
  intro first second rest rest' good good' equal
  rw [append_assoc, append_assoc] at equal
  have parts := delimited good good' equal
  exact append_inj parts.2 parts.1

theorem flatMap (delimited : Delimited legal write) {first second : List α}
    (length : first.length = second.length) (good : ∀ value ∈ first, legal value)
    (good' : ∀ value ∈ second, legal value)
    (equal : first.flatMap write ++ rest = second.flatMap write ++ rest') :
    first = second ∧ rest = rest' := by
  induction first generalizing second with
  | nil =>
    cases eq_nil_of_length_eq_zero length.symm
    exact ⟨rfl, equal⟩
  | cons value values induction => ?_
  cases second with
  | nil => simp at length
  | cons value' values' => ?_
  rw [forall_mem_cons] at good good'
  simp only [flatMap_cons, append_assoc] at equal
  have head := delimited good.1 good'.1 equal
  have tail := induction (Nat.succ.inj length) good.2 good'.2 head.2
  exact ⟨by rw [head.1, tail.1], tail.2⟩

theorem listed (numbers : Delimited small count) (elements : Delimited legal write) :
    Delimited (fun values : List α => small values.length ∧ ∀ value ∈ values, legal value)
      (fun values => count values.length ++ values.flatMap write) := by
  intro first second rest rest' good good' equal
  rw [append_assoc, append_assoc] at equal
  have parts := numbers good.1 good'.1 equal
  exact elements.flatMap parts.1 good.2 good'.2 parts.2

end Delimited

end Yvex
